import CallFusion.Proofs.Merge.Completion

/-!
The call that a merge puts in place of the stub call. Its arguments and its result fit the function that it calls.
It states no calling convention, so it has that of its target only where the target is called as C functions are.
-/

namespace CallFusion

open Ir

/-- The calling convention that is meant: that of C where none is stated. -/
def Ir.conventionMeant (stated : String) : String := if stated.isEmpty then "ccc" else stated

/-- The instruction calls with the convention that the function is to be called with. -/
def Ir.Instruction.SharesConvention (i : Instruction) (target : Function) : Prop :=
  ∃ tail c, i.op = .call tail c ∧ conventionMeant c.convention = conventionMeant target.convention

theorem Ir.conventionMeant_eq_ccc {stated : String} : conventionMeant stated = "ccc" ↔ stated = "" ∨ stated = "ccc" := by
  unfold conventionMeant
  by_cases silent : stated = ""
  · simp [silent]
  · have some : stated.isEmpty = false := by simpa using silent
    simp [some, silent]

theorem InsertedCall.sharesConvention_iff {f target g : Function} {i : Instruction} (inserted : InsertedCall f target g i) :
    i.SharesConvention target ↔ target.convention = "" ∨ target.convention = "ccc" := by
  obtain ⟨c, op, _, silent, _⟩ := inserted.call
  have meant : conventionMeant c.convention = "ccc" := conventionMeant_eq_ccc.mpr (.inl silent)
  rw [← conventionMeant_eq_ccc]
  constructor
  · rintro ⟨tail, d, same, shared⟩
    rw [op] at same
    cases same
    rw [← shared, meant]
  · intro usual
    exact ⟨_, c, op, meant.trans usual.symm⟩

variable {σ : Type}

theorem mergeExisting_redirected {bridge : Bridge σ} {mode : Mode} {p : Profile} {caller callee : String} {m : Module}
    (coherent : m.Coherent) {l : Locator σ} {r : Redirection}
    (found : ((findRedirection bridge mode p caller callee m).run l).1 = .ok r) :
    ∃ g, Redirected r.rpc r.args r.target g ∧ ((mergeExisting bridge mode p caller callee m).run l).1 =
      (m.setFunction g, { mode := mode, changed := true, stats := { replaced := 1 } }) := by
  have replaceable := (findRedirection_checked found).replaceable
  obtain ⟨g, replaced, redirected⟩ := replaceable.redirected (coherent.functions _ replaceable.caller) m
  refine ⟨g, redirected, ?_⟩
  rw [mergeExisting, run_bind, found]
  simp only [replaced]
  rfl

theorem mergeExisting_inserts {m : Module} (resolved : m.Resolved) {r : Redirection} (checked : r.Checked m) {g h : Function}
    (redirected : Redirected r.rpc r.args r.target g) (listed : h ∈ (m.setFunction g).functions)
    (same : h.id = r.rpc.caller.id) :
    ∃ target ∈ (m.setFunction g).functions, r.target.SameHead target ∧ ∃ i, InsertedCall r.rpc.caller target h i := by
  have head := Function.SameHead.of_frame redirected.frame
  have caller := checked.replaceable.caller
  have whole : (m.setFunction g).symbolIds.Nodup := by
    rw [Module.symbolIds_setFunction]
    exact resolved.distinct
  have there := mem_setFunction_self caller head.id
  obtain rfl := Module.function_eq_of_id whole listed there (same.trans head.id.symm)
  obtain ⟨i, inserted⟩ := redirected.inserted (resolved.typed _ caller) checked.takes
  -- A function may be redirected to itself, and then the target is its new form.
  by_cases itself : r.target.id = h.id
  · have recursive := Module.function_eq_of_id resolved.distinct checked.target caller (itself.trans head.id)
    rw [recursive] at inserted ⊢
    exact ⟨h, there, head, i, inserted.of_same rfl head⟩
  · exact ⟨r.target, mem_setFunction_other checked.target itself, .refl _, i, inserted⟩

theorem commitMerge_inserts {m : Module} (resolved : m.Resolved) {plan : MergePlan} {merged : String}
    (checked : plan.Checked merged m) (p : Profile) (callee : String) {h : Function}
    (listed : h ∈ (commitMerge p callee plan m).1.functions) (same : h.id = plan.rpc.caller.id) :
    ∃ target ∈ (commitMerge p callee plan m).1.functions, plan.clone.SameHead target ∧
      ∃ i, InsertedCall plan.rpc.caller target h i := by
  obtain ⟨g, n, ds, notes, redirected, done, pared, _, _⟩ := checked.commit resolved.toCoherent p callee
  have caller := checked.replaceable.caller
  have head := Function.SameHead.of_frame redirected.frame
  have target := plan.target_same p m
  have takes : (plan.target p m).Takes plan.args := target.takes.mpr (Function.withSignature_takes checked.cloned)
  obtain ⟨i, inserted⟩ := redirected.inserted (resolved.typed _ caller) takes
  obtain ⟨g', stays, body⟩ := pared.present done.caller listed (same.trans head.id.symm)
  obtain rfl := Module.function_eq_of_id pared.distinct listed stays (same.trans (body.id.trans head.id).symm)
  -- The caller names the copy, so the copy is not erased.
  obtain ⟨copy, present, clone, _⟩ := done.clone
  obtain ⟨b, member, _, j, carried, calls⟩ := redirected.placed
  have names : h.Names copy.id := by
    rw [clone.id, ← target.id]
    exact body.symm.names (Function.names_of_calls member carried calls)
  obtain ⟨copy', kept, unchanged⟩ := pared.named present listed names
  have copied : plan.clone.SameHead copy' := clone.trans unchanged.toSameHead
  exact ⟨copy', kept, copied, i, inserted.of_same body.blocks (target.toSameHead.symm.trans copied)⟩

/-- A function of `m` has one more call in `n`, if it is there, and the call fits its target, which is as told. -/
def GainsCall (m n : Module) (told : Function → Prop) : Prop :=
  ∃ caller ∈ m.functions, ∀ g ∈ n.functions, g.id = caller.id →
    ∃ target ∈ n.functions, told target ∧ ∃ i, InsertedCall caller target g i

theorem GainsCall.mono {m n : Module} {told other : Function → Prop} (gains : GainsCall m n told)
    (implied : ∀ target, told target → other target) : GainsCall m n other := by
  obtain ⟨caller, listed, gained⟩ := gains
  refine ⟨caller, listed, fun g present same => ?_⟩
  obtain ⟨target, there, known, inserted⟩ := gained g present same
  exact ⟨target, there, implied target known, inserted⟩

theorem mergeExisting_gainsCall {bridge : Bridge σ} {mode : Mode} {p : Profile} {caller callee : String} {m : Module}
    (resolved : m.Resolved) {l : Locator σ}
    (replaced : ((mergeExisting bridge mode p caller callee m).run l).1.2.stats.replaced ≠ 0) :
    GainsCall m ((mergeExisting bridge mode p caller callee m).run l).1.1 fun _ => True := by
  cases found : ((findRedirection bridge mode p caller callee m).run l).1 with
  | error d =>
    rw [mergeExisting, run_bind, found] at replaced
    exact absurd rfl replaced
  | ok r =>
    have checked := findRedirection_checked found
    obtain ⟨g, redirected, form⟩ := mergeExisting_redirected resolved.toCoherent found
    rw [form]
    refine ⟨r.rpc.caller, checked.replaceable.caller, fun h listed same => ?_⟩
    obtain ⟨target, there, _, inserted⟩ := mergeExisting_inserts resolved checked redirected listed same
    exact ⟨target, there, trivial, inserted⟩

theorem mergeCallee_gainsCall {bridge : Bridge σ} {p : Profile} {caller callee : String} {m : Module}
    (resolved : m.Resolved) {l : Locator σ} {plan : MergePlan}
    (planned : ((planMerge bridge p caller callee m).run l).1 = .ok plan) :
    GainsCall m (commitMerge p callee plan m).1 fun target => target.convention = plan.source.convention := by
  have checked := planMerge_checked planned
  refine ⟨plan.rpc.caller, checked.replaceable.caller, fun h listed same => ?_⟩
  obtain ⟨target, there, head, inserted⟩ := commitMerge_inserts resolved checked p callee listed same
  exact ⟨target, there, head.convention.trans (Function.withSignature_convention checked.cloned), inserted⟩

theorem Renaming.run_replaced (r : Renaming) (mode : Mode) (found : Diagnostics) (m : Module) :
    (r.run mode found m).2.stats.replaced = 0 := by
  unfold run
  split <;> rfl

theorem renameCaller_replaced (caller : String) (m : Module) : (renameCaller caller m).2.stats.replaced = 0 := by
  unfold renameCaller
  split
  · rfl
  · exact Renaming.run_replaced _ _ _ _

theorem renameCallee_replaced (p : Profile) (callee : String) (m : Module) :
    (renameCallee p callee m).2.stats.replaced = 0 := by
  unfold renameCallee
  dsimp only
  split
  · rfl
  · split
    · rfl
    · split
      · rfl
      · exact Renaming.run_replaced _ _ _ _

/-- A run that replaces a stub call puts one call into the caller, which fits its target in the number and the types
of arguments and in the result. It shares the target's calling convention exactly where that is the one of C. -/
theorem inserted_call_fits (bridge : Bridge σ) (state : σ) {o : Options} {m : Module} (resolved : m.Resolved)
    (replaced : (run bridge state o m).1.2.stats.replaced ≠ 0) :
    ∃ caller ∈ m.functions, ∀ g ∈ (run bridge state o m).1.1.functions, g.id = caller.id →
      ∃ target ∈ (run bridge state o m).1.1.functions, ∃ i, InsertedCall caller target g i ∧
        (i.SharesConvention target ↔ target.convention = "" ∨ target.convention = "ccc") ∧
        (o.mode = .mergeCallee →
          ∃ plan, mergePlanOf bridge state o m = .ok plan ∧ target.convention = plan.source.convention) := by
  have gains : GainsCall m (run bridge state o m).1.1 fun target => o.mode = .mergeCallee →
      ∃ plan, mergePlanOf bridge state o m = .ok plan ∧ target.convention = plan.source.convention := by
    cases mode : o.mode with
    | renameCaller =>
      simp only [run, runMode, mode] at replaced
      exact absurd (renameCaller_replaced o.caller m) replaced
    | renameCallee =>
      simp only [run, runMode, mode] at replaced
      exact absurd (renameCallee_replaced o.effectiveProfile o.callee m) replaced
    | mergeCallee =>
      cases planned : mergePlanOf bridge state o m with
      | error d =>
        rw [mergePlanOf] at planned
        simp only [run, runMode, mode, mergeCallee, run_bind, planned] at replaced
        exact absurd rfl replaced
      | ok plan =>
        obtain ⟨_, _, module, _⟩ := run_of_planned mode planned
        rw [module]
        exact (mergeCallee_gainsCall resolved planned).mono fun _ shared _ => ⟨plan, rfl, shared⟩
    | mergeExisting =>
      simp only [run, runMode, mode] at replaced ⊢
      exact (mergeExisting_gainsCall resolved replaced).mono fun _ _ merging => absurd merging (by decide)
    | replaceStub =>
      simp only [run, runMode, mode] at replaced ⊢
      exact (mergeExisting_gainsCall resolved replaced).mono fun _ _ merging => absurd merging (by decide)
    | unknown code =>
      simp only [run, runMode, mode] at replaced
      exact absurd rfl replaced
  obtain ⟨caller, listed, gained⟩ := gains
  refine ⟨caller, listed, fun g present same => ?_⟩
  obtain ⟨target, there, told, i, inserted⟩ := gained g present same
  exact ⟨target, there, i, inserted, inserted.sharesConvention_iff, told⟩

namespace Halves

def redirecting : Options := { mode := .mergeExisting, caller := "a", callee := "b" }

theorem run_redirecting {m g : Module} {outcome : Outcome}
    (redirected : ((mergeExisting Bridge.inProcess .mergeExisting .go "a" "b" m).run (Locator.new ["a", "b"] ())).1 =
      (g, outcome)) :
    (run Bridge.inProcess () redirecting m).1.1 = g ∧ (run Bridge.inProcess () redirecting m).1.2.stats = outcome.stats := by
  have same : (run Bridge.inProcess () redirecting m).1.1 =
        ((mergeExisting Bridge.inProcess .mergeExisting .go "a" "b" m).run (Locator.new ["a", "b"] ())).1.1 ∧
      (run Bridge.inProcess () redirecting m).1.2.stats =
        ((mergeExisting Bridge.inProcess .mergeExisting .go "a" "b" m).run (Locator.new ["a", "b"] ())).1.2.stats := ⟨rfl, rfl⟩
  rw [same.1, same.2, redirected]
  exact ⟨rfl, rfl⟩

theorem program_replaced (width : UInt64) :
    (run Bridge.inProcess () redirecting (program width)).1.2.stats.replaced = 1 := by
  obtain ⟨r, found⟩ := findRedirection_isOk width
  obtain ⟨g, _, form⟩ := mergeExisting_redirected (program_sound width).coherent found
  rw [(run_redirecting form).2]

/-- A merged callee that is to be called by another convention. -/
def fastWrapper : Function := { wrapper with convention := "fastcc" }

def fastProgram : Module where
  functions := [stub, caller, fastWrapper]

theorem fastWrapper_name : fastWrapper.name = "main.wrapper__go2c" := wrapper_name

theorem fastProgram_findFunction (name : String) : fastProgram.findFunction name =
    if name = "main.make__rpc" then some stub
    else if name = "main.main" then some caller
    else if name = "main.wrapper__go2c" then some fastWrapper
    else none := by
  simp only [Module.findFunction, fastProgram, List.find?_cons, List.find?_nil, stub_name, caller_name, fastWrapper_name]
  grind

theorem fastProgram_resolved : fastProgram.Resolved := by
  apply Module.Sound.resolved
  apply sound_of_functions
  case distinct =>
    change List.Nodup [SymbolId.mk 1, ⟨5⟩, ⟨6⟩]
    decide
  case functions =>
    simp only [List.forall_mem_cons]
    exact ⟨outside_wellFormed _ _ _, calling_wellFormed _ _ _,
      Function.wellFormed_of_same (f := wrapper) rfl rfl (outside_wellFormed _ _ _), List.forall_mem_nil _⟩
  case declared =>
    have silent : ∀ {id}, ¬ fastWrapper.Names id := fun named => outside_names (show wrapper.Names _ from named)
    simp only [List.forall_mem_cons]
    refine ⟨fun _ named => absurd named outside_names, fun _ named => ⟨stub, ?_, (calling_names named).symm⟩,
      fun _ named => absurd named silent, List.forall_mem_nil _⟩
    simp

theorem fastProgram_findRedirection : ∃ args,
    ((findRedirection Bridge.inProcess .mergeExisting .go "a" "b" fastProgram).run (Locator.new ["a", "b"] ())).1 =
      .ok ⟨⟨caller, nullCall stub⟩, fastWrapper, args⟩ := by
  have target : ([Profile.go.mergedCalleeName "b"] ++ [Profile.go.existingCallee]).findSome? fastProgram.findFunction =
      some fastWrapper := by
    simp [fastProgram_findFunction, Profile.mergedCalleeName, Profile.go]
  have located := findRpc_of_caller (m := fastProgram) (by simp [fastProgram_findFunction])
    (by simp [fastProgram_findFunction]) (by simp [fastProgram_findFunction]) (by simp [fastProgram_findFunction]) rfl
  have named : "b".isEmpty = false := by decide
  have known : Profile.go.existingCallee.isEmpty = false := by decide
  rw [findRedirection, if_neg (by decide)]
  simp only [named, known, Bool.false_eq_true, if_false, target, run_bind, located]
  exact ⟨_, rfl⟩

end Halves

theorem halves_call_fits :
    ∃ caller ∈ (Halves.program 64).functions,
      ∀ g ∈ (run Bridge.inProcess () Halves.redirecting (Halves.program 64)).1.1.functions, g.id = caller.id →
        ∃ target ∈ (run Bridge.inProcess () Halves.redirecting (Halves.program 64)).1.1.functions, ∃ i,
          InsertedCall caller target g i := by
  obtain ⟨caller, listed, gained⟩ := inserted_call_fits Bridge.inProcess () (o := Halves.redirecting)
    (Halves.program_sound 64).resolved (by rw [Halves.program_replaced]; decide)
  refine ⟨caller, listed, fun g present same => ?_⟩
  obtain ⟨target, there, i, inserted, _⟩ := gained g present same
  exact ⟨target, there, i, inserted⟩

/-- A callee that wants its arguments passed in another way is called as a C function all the same. -/
theorem fast_wrapper_called_as_c :
    (run Bridge.inProcess () Halves.redirecting Halves.fastProgram).1.2.stats.replaced = 1 ∧
      ∃ g ∈ (run Bridge.inProcess () Halves.redirecting Halves.fastProgram).1.1.functions,
        ∃ target ∈ (run Bridge.inProcess () Halves.redirecting Halves.fastProgram).1.1.functions, ∃ i,
          InsertedCall Halves.caller target g i ∧ target.convention = "fastcc" ∧ ¬ i.SharesConvention target := by
  obtain ⟨args, found⟩ := Halves.fastProgram_findRedirection
  have checked := findRedirection_checked found
  obtain ⟨g, redirected, form⟩ := mergeExisting_redirected Halves.fastProgram_resolved.toCoherent found
  obtain ⟨module, stats⟩ := Halves.run_redirecting form
  have there := mem_setFunction_self checked.replaceable.caller (Function.SameHead.of_frame redirected.frame).id
  obtain ⟨target, listed, head, i, inserted⟩ := mergeExisting_inserts Halves.fastProgram_resolved checked redirected there
    (Function.SameHead.of_frame redirected.frame).id
  have fast : target.convention = "fastcc" := head.convention
  rw [module, stats]
  refine ⟨rfl, g, there, target, listed, i, inserted, fast, ?_⟩
  rw [inserted.sharesConvention_iff, fast]
  decide

end CallFusion
