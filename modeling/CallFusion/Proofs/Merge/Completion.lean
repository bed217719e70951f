import CallFusion.Proofs.Merge.Elision
import CallFusion.Proofs.Merge.Erasure
import CallFusion.Proofs.Merge.Redirection
import CallFusion.Proofs.Merge.Unchanged

/-!
When a merge is carried out whole. Nothing is edited unless everything was found, and then the copy is added
and the stub call redirected; but the marshalling calls stay when the module declares the copy intrinsic with
another type, or when one call is planned as both of them.
-/

namespace CallFusion

open Ir

/-- A diagnostic by which a merge says that it left marshalling calls as they are. -/
def Diagnostic.SaysStopped (d : Diagnostic) : Prop :=
  ∃ merged reason, d = .structural ("marshalling elision in '" ++ merged ++ "' stopped: " ++ reason)

theorem Diagnostic.SaysStopped.kind {d : Diagnostic} (stopped : d.SaysStopped) : d.kind = .structural := by
  obtain ⟨merged, reason, rfl⟩ := stopped
  rfl

/-- All that a plan calls for has been done: the copy is there, it is called in place of the stub, and each
marshalling call has given way to a memory copy. -/
structure Completed (plan : MergePlan) (m : Module) (found : Diagnostics) : Prop where
  cloned : ∃ f ∈ m.functions, f.id = plan.clone.id ∧ f.name = plan.clone.name
  replaced : ∃ g ∈ m.functions, g.id = plan.rpc.caller.id ∧ plan.rpc.site.id ∉ g.localIds ∧
    ∃ b ∈ g.blocks, b.id = plan.rpc.site.block ∧ ∃ i ∈ b.insts, i.Calls plan.clone
  elided : ∀ e, plan.marshalling = some e →
    (∃ f ∈ m.functions, f.id = plan.clone.id ∧ ∃ copy ∈ m.functions, copy.name = copyName ∧ AllCopied f copy e.sites) ∧
      ∀ d ∈ found, ¬ d.SaysStopped

/-- What the copies of a plan need: that the intrinsic, if there is one, has its proper type, and that the
plan does not name one ordinary call twice. -/
def MergePlan.Copyable (plan : MergePlan) (m : Module) : Prop :=
  ∀ e, plan.marshalling = some e →
    (∀ f, (m.addFunction plan.clone).findFunction copyName = some f → f.signature.same copySignature = true) ∧
      ¬ e.Overlaps

section

variable {f g copy target : Function} {m n : Module}

theorem AllCopied.of_same {sites : List CallSite} (copied : AllCopied f copy sites) (same : f.SameBody g)
    (value : target.value = copy.value) : AllCopied g target sites := by
  obtain ⟨gone, ids, distinct, placed⟩ := copied
  refine ⟨fun site listed => same.localIds ▸ gone site listed, ids, distinct, placed.imp ?_⟩
  rintro site id ⟨b, member, here, i, carried, number, calls⟩
  exact ⟨b, same.blocks ▸ member, here, i, carried, number, calls.of_value value⟩

theorem findFunction_congr {α : Type} (view : Function → α)
    (same : n.functions.map (fun f => (f.name, view f)) = m.functions.map fun f => (f.name, view f)) (name : String) :
    (n.findFunction name).map view = (m.findFunction name).map view := by
  have found : ∀ k : Module, (k.findFunction name).map view =
      ((k.functions.map fun f => (f.name, view f)).find? (·.1 == name)).map (·.2) := by
    intro k
    rw [Module.findFunction, List.find?_map, Option.map_map]
    rfl
  rw [found, found, same]

theorem declareCopy_ok_iff : (∃ r, declareCopy m = .ok r) ↔
    ∀ t, (m.findFunction copyName).map (·.signature) = some t → t.same copySignature = true := by
  unfold declareCopy
  cases m.findFunction copyName with
  | none => simp
  | some f =>
    by_cases proper : f.signature.same copySignature = true <;> simp [proper]

theorem copyDeclaration_name (id : SymbolId) : (copyDeclaration id).name = copyName := by
  apply Ident.shown_named (c := 'l') <;> simp [copyName]

theorem declareCopy_name (declared : declareCopy m = .ok (n, copy)) : copy ∈ n.functions ∧ copy.name = copyName := by
  rcases declareCopy_cases declared with ⟨rfl, found⟩ | ⟨rfl, rfl, _⟩
  · exact findFunction_mem found
  · exact ⟨List.mem_append_right _ (List.mem_singleton.mpr rfl), copyDeclaration_name _⟩

theorem declareCopy_keepsNames (declared : declareCopy m = .ok (n, copy)) : m.KeepsNames n := by
  rcases declareCopy_cases declared with ⟨rfl, _⟩ | ⟨rfl, rfl, _⟩
  · exact .refl n
  · exact Module.addFunction_keepsNames m.freshSymbol_not_mem

theorem mem_setFunction_self (listed : f ∈ m.functions) (same : g.id = f.id) : g ∈ (m.setFunction g).functions :=
  List.mem_map.mpr ⟨f, listed, by simp [same]⟩

theorem mem_setFunction_other (listed : f ∈ m.functions) (other : f.id ≠ g.id) : f ∈ (m.setFunction g).functions :=
  List.mem_map.mpr ⟨f, listed, by simp [other]⟩

/-- A module whose function was to lose its marshalling calls, and what was said about it. -/
structure Stripped (m : Module) (f : Function) (e : MarshallingPlan) (n : Module) (ds : Diagnostics) : Prop where
  coherent : n.Coherent
  others : ∀ g ∈ m.functions, g.id ≠ f.id → g ∈ n.functions
  function : ∃ h ∈ n.functions, f.SameHead h ∧ (ds = [] → ∃ copy ∈ n.functions, copy.name = copyName ∧
    AllCopied h copy e.sites ∧ f.Carries (e.sites.map (·.id)) copy.id h)
  symbols : m.KeepsNames n
  whole : ds = [] ↔ (∃ r, declareCopy m = .ok r) ∧ ¬ e.Overlaps
  stopped : ds = [] ∨ ∃ d, ds = [d] ∧ d.SaysStopped

theorem elideMarshalling_stripped {e : MarshallingPlan} (coherent : m.Coherent) (listed : f ∈ m.functions)
    (fits : e.Fits f) (merged : String) (o : Outcome) :
    ∃ ds, (elideMarshalling merged (some e) (m, o)).2.diagnostics = o.diagnostics ++ ds ∧
      Stripped m f e (elideMarshalling merged (some e) (m, o)).1 ds := by
  unfold elideMarshalling
  dsimp only
  rcases apply_cases coherent listed fits with
    ⟨fault, refused, applied⟩ | ⟨n, copy, g, count, failed, declared, applied, reworked, whole, copied⟩
  · rw [applied]
    have failed : ¬ ∃ r, declareCopy m = .ok r := by
      rintro ⟨r, done⟩
      rw [refused] at done
      cases done
    exact ⟨_, rfl, coherent, fun g member _ => member, ⟨f, listed, .refl f, fun none => nomatch none⟩, .refl m,
      iff_of_false (fun none => nomatch none) fun both => failed both.1, .inr ⟨_, rfl, _, _, rfl⟩⟩
  · rw [applied]
    obtain ⟨later, kept⟩ := declareCopy_coherent coherent declared
    have head := Function.SameHead.of_frame reworked.frame
    have number := head.id
    have there := mem_setFunction_self (kept f listed) number
    have intrinsic : failed = none → ∃ c ∈ (n.setFunction g).functions, c.name = copyName ∧ AllCopied g c e.sites ∧
        f.Carries (e.sites.map (·.id)) c.id g := by
      intro done
      obtain ⟨member, named⟩ := declareCopy_name declared
      obtain ⟨_, all, carries⟩ := copied done
      by_cases same : copy.id = g.id
      · obtain rfl := Module.function_eq_of_id later.distinct member (kept f listed) (same.trans number)
        exact ⟨g, there, head.name.trans named, all.of_same (.refl g) head.value, same ▸ carries⟩
      · exact ⟨copy, mem_setFunction_other member same, named, all, carries⟩
    have symbols := (declareCopy_keepsNames declared).trans
      (Module.setFunction_keepsNames later.distinct (kept f listed) number head.name)
    refine ⟨_, rfl, Module.setFunction_coherent later reworked.coherent, fun h member other => ?_, ?_, symbols, ?_, ?_⟩
    · exact mem_setFunction_other (kept h member) (number ▸ other)
    · refine ⟨g, there, head, fun silent => intrinsic ?_⟩
      cases failed with
      | none => rfl
      | some fault => cases silent
    · cases failed with
      | none => exact iff_of_true rfl ⟨⟨_, declared⟩, whole.mp rfl⟩
      | some fault =>
        refine iff_of_false (fun silent => nomatch silent) fun both => ?_
        cases whole.mpr both.2
    · cases failed with
      | none => exact .inl rfl
      | some fault => exact .inr ⟨_, rfl, _, _, rfl⟩

end

/-- A module in which the stub call is redirected and the marshalling calls are replaced, as far as they can
be, while the entry chain is still there. -/
structure Merged (plan : MergePlan) (m : Module) (g : Function) (n : Module) (ds : Diagnostics) : Prop where
  distinct : n.symbolIds.Nodup
  caller : g ∈ n.functions
  clone : ∃ h ∈ n.functions, plan.clone.SameHead h ∧ ∀ e, plan.marshalling = some e → ds = [] →
    ∃ copy ∈ n.functions, copy.name = copyName ∧ AllCopied h copy e.sites ∧
      plan.clone.Carries (e.sites.map (·.id)) copy.id h
  symbols : m.KeepsNames n
  whole : plan.marshalling ≠ none → (ds = [] ↔ plan.Copyable m)
  stopped : ds = [] ∨ ∃ d, ds = [d] ∧ d.SaysStopped

section

variable {m : Module} {plan : MergePlan} {merged : String}

theorem MergePlan.Checked.declareCopy_iff (checked : plan.Checked merged m) (coherent : m.Coherent) (p : Profile)
    {g : Function} (redirected : Redirected plan.rpc plan.args (plan.target p m) g) :
    (∃ r, declareCopy ((m.addFunction (plan.target p m)).setFunction g) = .ok r) ↔
      ∀ f, (m.addFunction plan.clone).findFunction copyName = some f → f.signature.same copySignature = true := by
  have number : g.id = plan.rpc.caller.id := by rw [redirected.frame]
  have caller : (g.name, g.signature) = (plan.rpc.caller.name, plan.rpc.caller.signature) := by
    rw [redirected.frame]
    rfl
  have target := plan.target_same p m
  have other : (plan.target p m).id ≠ g.id := number ▸ checked.target_other p
  have same : ((m.addFunction (plan.target p m)).setFunction g).functions.map (fun f => (f.name, f.signature)) =
      (m.addFunction plan.clone).functions.map fun f => (f.name, f.signature) := by
    simp only [Module.setFunction, Module.addFunction, List.map_append, List.map_map, List.map_cons, List.map_nil,
      beq_iff_eq, if_neg other, target.name, target.signature]
    congr 1
    apply List.map_congr_left
    intro h listed
    by_cases here : h.id = g.id
    · rw [Function.comp_apply, if_pos here, caller,
        Module.function_eq_of_id coherent.distinct listed checked.replaceable.caller (here.trans number)]
    · rw [Function.comp_apply, if_neg here]
  rw [declareCopy_ok_iff, findFunction_congr Function.signature same]
  simp

theorem MergePlan.Checked.elided (checked : plan.Checked merged m) (coherent : m.Coherent) (p : Profile) {g : Function}
    (redirected : Redirected plan.rpc plan.args (plan.target p m) g)
    (after : ((m.addFunction (plan.target p m)).setFunction g).Coherent)
    (listed : plan.target p m ∈ ((m.addFunction (plan.target p m)).setFunction g).functions) (name : String) (o : Outcome) :
    ∃ ds, (elideMarshalling name plan.marshalling
        ((m.addFunction (plan.target p m)).setFunction g, o)).2.diagnostics = o.diagnostics ++ ds ∧
      Merged plan m g (elideMarshalling name plan.marshalling
        ((m.addFunction (plan.target p m)).setFunction g, o)).1 ds := by
  have number : g.id = plan.rpc.caller.id := by rw [redirected.frame]
  have other : g.id ≠ (plan.target p m).id := number ▸ (checked.target_other p).symm
  have target := plan.target_same p m
  have caller : g ∈ ((m.addFunction (plan.target p m)).setFunction g).functions :=
    mem_setFunction_self (List.mem_append_left _ checked.replaceable.caller) number
  have copyable := checked.declareCopy_iff coherent p redirected
  have added := Module.addFunction_keepsNames (checked.target_fresh p)
  have symbols := added.trans (Module.setFunction_keepsNames
    (Module.addFunction_distinct coherent.distinct (checked.target_fresh p))
    (List.mem_append_left _ checked.replaceable.caller) number (Function.SameHead.of_frame redirected.frame).name)
  cases planned : plan.marshalling with
  | none =>
    refine ⟨[], (List.append_nil _).symm, after.distinct, caller, ⟨_, listed, target.toSameHead, fun e named => ?_⟩,
      symbols, fun some => (some planned).elim, .inl rfl⟩
    rw [planned] at named
    cases named
  | some e =>
    have fits := (checked.marshalling e planned).of_same target
    obtain ⟨ds, reported, stripped⟩ := elideMarshalling_stripped after listed fits name o
    obtain ⟨h, there, head, copied⟩ := stripped.function
    refine ⟨ds, reported, stripped.coherent.distinct, stripped.others g caller other,
      ⟨h, there, target.toSameHead.trans head, fun e' also silent => ?_⟩, symbols.trans stripped.symbols, fun _ => ?_,
      stripped.stopped⟩
    · obtain rfl : e = e' := Option.some.inj (planned.symm.trans also)
      obtain ⟨copy, member, intrinsic, all, carries⟩ := copied silent
      exact ⟨copy, member, intrinsic, all, carries.congr target.blocks.symm rfl⟩
    · rw [stripped.whole, copyable, MergePlan.Copyable]
      simp [planned]

theorem AllCopied.names {f copy : Function} {sites : List CallSite} (copied : AllCopied f copy sites) (some : sites ≠ []) :
    f.Names copy.id := by
  obtain ⟨_, ids, _, placed⟩ := copied
  cases placed with
  | nil => exact (some rfl).elim
  | cons first _ =>
    obtain ⟨b, member, _, i, carried, _, calls⟩ := first
    exact Function.names_of_calls member carried calls

/-- Once the entry chain is erased, what a plan calls for has been done as far as the copies could be made and
the caller was not itself erased. -/
theorem Merged.completed_iff {g : Function} {n k : Module} {ds notes extra : Diagnostics} {doomed : List SymbolId} {p : Profile}
    (done : Merged plan m g n ds) (redirected : Redirected plan.rpc plan.args (plan.target p m) g)
    (pared : Pared doomed n k) (found : ∀ e, plan.marshalling = some e → Diagnostics.Notes plan.found)
    (quiet : Diagnostics.Notes notes) (others : ∀ d ∈ extra, d.kind = .dependencyUnavailable) :
    Completed plan k (plan.found ++ ds ++ notes ++ extra) ↔
      plan.Copyable m ∧ ∃ f ∈ k.functions, f.id = plan.rpc.caller.id := by
  have number : g.id = plan.rpc.caller.id := by rw [redirected.frame]
  have target := plan.target_same p m
  constructor
  · intro completed
    obtain ⟨f, there, same, _⟩ := completed.replaced
    refine ⟨fun e planned => ?_, f, there, same⟩
    have silent : ds = [] := by
      refine done.stopped.resolve_right ?_
      rintro ⟨d, rfl, stopped⟩
      exact (completed.elided e planned).2 d (by simp) stopped
    exact (done.whole (by simp [planned])).mp silent e planned
  · rintro ⟨copyable, f, there, same⟩
    obtain ⟨g', stays, body⟩ := pared.present done.caller there (same.trans number.symm)
    obtain ⟨b, member, here, i, carried, calls⟩ := redirected.placed
    obtain ⟨h, listed, head, copied⟩ := done.clone
    have names : g'.Names h.id := by
      rw [head.id, ← target.id]
      exact body.symm.names (Function.names_of_calls member carried calls)
    obtain ⟨h', kept, unchanged⟩ := pared.named listed stays names
    constructor
    case cloned => exact ⟨h', kept, unchanged.id.trans head.id, unchanged.name.trans head.name⟩
    case replaced =>
      refine ⟨g', stays, body.id.trans number, body.localIds ▸ redirected.removed, b, body.blocks ▸ member, here, i, carried, ?_⟩
      exact calls.of_value target.value.symm
    case elided =>
      intro e planned
      have silent : ds = [] := (done.whole (by simp [planned])).mpr copyable
      constructor
      · obtain ⟨copy, member, intrinsic, all, _⟩ := copied e planned silent
        obtain ⟨copy', still, same⟩ := pared.named member kept (unchanged.symm.names (all.names (by simp [MarshallingPlan.sites])))
        exact ⟨h', kept, unchanged.id.trans head.id, copy', still, same.name.trans intrinsic, all.of_same unchanged same.value⟩
      · intro d listed stopped
        have kind := stopped.kind
        simp only [silent, List.append_nil, List.mem_append] at listed
        rcases listed with (early | late) | bridge
        · rw [found e planned d early] at kind
          cases kind
        · rw [quiet d late] at kind
          cases kind
        · rw [others d bridge] at kind
          cases kind

theorem mem_entryChain_ids {p : Profile} {callee : String} {source : Function} {n : Module} (distinct : n.symbolIds.Nodup)
    {f : Function} (listed : f ∈ n.functions) (chosen : f.id ∈ (entryChain p callee source n).map (·.id)) :
    f.name = p.entryName callee ∨ p.runtimeStartName? callee = some f.name ∨ f.id = source.id := by
  obtain ⟨c, member, same⟩ := List.mem_map.mp chosen
  have named : ∀ {name : String}, n.findFunction name = some c → f.name = name := by
    intro name found
    obtain ⟨there, called⟩ := findFunction_mem found
    rw [Module.function_eq_of_id distinct listed there same.symm, called]
  simp only [entryChain, List.mem_append, Option.mem_toList, List.mem_singleton] at member
  rcases member with (entry | start) | rfl
  · exact .inl (named entry)
  · obtain ⟨name, stem, found⟩ := Option.bind_eq_some_iff.mp start
    exact .inr (.inl (named found ▸ stem))
  · exact .inr (.inr same.symm)

theorem MergePlan.Checked.commit (checked : plan.Checked merged m) (coherent : m.Coherent) (p : Profile) (callee : String) :
    ∃ g n ds notes, Redirected plan.rpc plan.args (plan.target p m) g ∧ Merged plan m g n ds ∧
      Pared ((entryChain p callee plan.source n).map (·.id)) n (commitMerge p callee plan m).1 ∧ Diagnostics.Notes notes ∧
      (commitMerge p callee plan m).2.diagnostics = plan.found ++ ds ++ notes := by
  obtain ⟨g, redirected, replaced, after, listed⟩ := checked.redirected coherent p
  rw [commitMerge_of_replaced replaced]
  obtain ⟨ds, reported, done⟩ := checked.elided coherent p redirected after listed (plan.target p m).name plan.begun
  obtain ⟨pared, notes, quiet, added⟩ := eraseDoomed_foldl_pared
    (entryChain p callee plan.source (elideMarshalling (plan.target p m).name plan.marshalling
      ((m.addFunction (plan.target p m)).setFunction g, plan.begun)).1) done.distinct (plan.target p m).id plan.source.id
  rw [reported] at added
  exact ⟨g, _, ds, notes, redirected, done, pared, quiet, added⟩

/-- A merge that is carried out changes the module; it is complete if the marshalling calls could be copied and
the caller was not erased with the entry chain. -/
theorem commitMerge_completed_iff (checked : plan.Checked merged m) (coherent : m.Coherent) (p : Profile) (callee : String)
    {extra : Diagnostics} (others : ∀ d ∈ extra, d.kind = .dependencyUnavailable) :
    (commitMerge p callee plan m).1 ≠ m ∧
      (Completed plan (commitMerge p callee plan m).1 ((commitMerge p callee plan m).2.diagnostics ++ extra) ↔
        plan.Copyable m ∧ ∃ f ∈ (commitMerge p callee plan m).1.functions, f.id = plan.rpc.caller.id) ∧
      ((∃ f ∈ (commitMerge p callee plan m).1.functions, f.id = plan.rpc.caller.id) ∨
        plan.rpc.caller.name = p.entryName callee ∨ p.runtimeStartName? callee = some plan.rpc.caller.name ∨
          plan.rpc.caller.id = plan.source.id) := by
  obtain ⟨g, n, ds, notes, redirected, done, pared, quiet, reported⟩ := checked.commit coherent p callee
  have head := Function.SameHead.of_frame redirected.frame
  refine ⟨fun same => ?_, ?_, ?_⟩
  · rw [same] at pared
    obtain ⟨g', stays, body⟩ := pared.present done.caller checked.replaceable.caller head.id.symm
    have identity := Module.function_eq_of_id coherent.distinct stays checked.replaceable.caller (body.id.trans head.id)
    apply redirected.removed
    rw [← body.localIds, identity]
    exact CallSite.id_mem_localIds checked.replaceable.site
  · rw [reported]
    exact done.completed_iff redirected pared checked.notes quiet others
  · rcases pared.kept g done.caller with ⟨g', stays, body⟩ | ⟨chosen, _⟩
    · exact .inl ⟨g', stays, body.id.trans head.id⟩
    · rw [← head.name, ← head.id]
      exact .inr (mem_entryChain_ids done.distinct done.caller chosen)

end

variable {σ : Type}

/-- What a run in the merging mode is about to do, or why it does nothing. -/
def mergePlanOf (bridge : Bridge σ) (state : σ) (o : Options) (m : Module) : Except Diagnostic MergePlan :=
  ((planMerge bridge o.effectiveProfile o.caller o.callee m).run (Locator.new [o.caller, o.callee] state)).1

def lastLocator (bridge : Bridge σ) (state : σ) (o : Options) (m : Module) : Locator σ :=
  ((runMode bridge o m).run (Locator.new [o.caller, o.callee] state)).2

theorem run_of_found {bridge : Bridge σ} {state : σ} {o : Options} (mode : o.mode = .mergeCallee) {m : Module}
    {plan : MergePlan} {l : Locator σ} (found : (planMerge bridge o.effectiveProfile o.caller o.callee m).run
      (Locator.new [o.caller, o.callee] state) = (.ok plan, l)) :
    (run bridge state o m).1.1 = (commitMerge o.effectiveProfile o.callee plan m).1 ∧
      (run bridge state o m).1.2.changed = true ∧
      (run bridge state o m).1.2.diagnostics = (commitMerge o.effectiveProfile o.callee plan m).2.diagnostics ++ l.diagnostics ∧
      lastLocator bridge state o m = l := by
  have changed := commitMerge_changed o.effectiveProfile o.callee plan m
  simp only [run, lastLocator, runMode, mode, mergeCallee, run_bind, found]
  -- What the commit gives is passed on as it is.
  generalize commitMerge o.effectiveProfile o.callee plan m = committed at changed ⊢
  exact ⟨rfl, changed, rfl, rfl⟩

theorem run_of_planned {bridge : Bridge σ} {state : σ} {o : Options} (mode : o.mode = .mergeCallee) {m : Module}
    {plan : MergePlan} (planned : mergePlanOf bridge state o m = .ok plan) :
    ∃ extra : Diagnostics, (∀ d ∈ extra, d.kind = .dependencyUnavailable) ∧
      (run bridge state o m).1.1 = (commitMerge o.effectiveProfile o.callee plan m).1 ∧
      (run bridge state o m).1.2.diagnostics =
        (commitMerge o.effectiveProfile o.callee plan m).2.diagnostics ++ extra := by
  have quiet := planMerge_keeps (Locator.logical_quiet bridge) m o.effectiveProfile o.caller o.callee _
    (Locator.new_quiet [o.caller, o.callee] state)
  obtain ⟨module, _, diagnostics, _⟩ := run_of_found mode (Prod.ext planned rfl)
  exact ⟨_, quiet, module, diagnostics⟩

/-- A merging run leaves the module as it was or carries out its plan, and then it completes the plan exactly
when the marshalling calls can be copied and the caller is not erased, which only happens to a caller
that is of the entry chain. -/
theorem merge_completes_iff (bridge : Bridge σ) (state : σ) {o : Options} (mode : o.mode = .mergeCallee) {m : Module}
    (coherent : m.Coherent) :
    ((run bridge state o m).1.1 = m ∧ (run bridge state o m).1.2.changed = false ∧
      ∃ d, mergePlanOf bridge state o m = .error d) ∨
    ∃ plan, mergePlanOf bridge state o m = .ok plan ∧ (run bridge state o m).1.1 ≠ m ∧
      (Completed plan (run bridge state o m).1.1 (run bridge state o m).1.2.diagnostics ↔
        plan.Copyable m ∧ ∃ f ∈ (run bridge state o m).1.1.functions, f.id = plan.rpc.caller.id) ∧
      ((∃ f ∈ (run bridge state o m).1.1.functions, f.id = plan.rpc.caller.id) ∨
        plan.rpc.caller.name = o.effectiveProfile.entryName o.callee ∨
        o.effectiveProfile.runtimeStartName? o.callee = some plan.rpc.caller.name ∨
        plan.rpc.caller.id = plan.source.id) := by
  cases planned : mergePlanOf bridge state o m with
  | error d =>
    rw [mergePlanOf] at planned
    simp only [run, runMode, mode, mergeCallee, run_bind, planned]
    exact .inl ⟨rfl, rfl, d, rfl⟩
  | ok plan =>
    obtain ⟨extra, others, module, diagnostics⟩ := run_of_planned mode planned
    rw [module, diagnostics]
    exact .inr ⟨plan, rfl, commitMerge_completed_iff (planMerge_checked planned) coherent _ _ others⟩

namespace Halves

def merging : Options := { mode := .mergeCallee, caller := "a", callee := "b" }

theorem not_named_for_erasure {name : String} (other : name ≠ "main_for_b") :
    ¬ (name = merging.effectiveProfile.entryName merging.callee ∨
      merging.effectiveProfile.runtimeStartName? merging.callee = some name) := by
  rintro (entry | start)
  · exact other (entry.trans (by decide : "main_for_" ++ "b" = "main_for_b"))
  · cases start

theorem copyable_iff_of_copier {m : Module} {width : UInt64} (present : m.findFunction copyName = some (copier width))
    {plan : MergePlan} {e : MarshallingPlan} (planned : plan.marshalling = some e) (single : e.receive = none) :
    plan.Copyable m ↔ (copier width).signature.same copySignature = true := by
  have found : (m.addFunction plan.clone).findFunction copyName = some (copier width) := by
    simp only [Module.findFunction] at present
    simp [Module.findFunction, Module.addFunction, List.find?_append, present]
  have distinct : ¬ e.Overlaps := by
    rintro ⟨site, named, _⟩
    rw [single] at named
    cases named
  constructor
  · intro copyable
    exact (copyable e planned).1 _ found
  · intro typed e' planned'
    obtain rfl := Option.some.inj (planned.symm.trans planned')
    refine ⟨fun f here => ?_, distinct⟩
    obtain rfl := Option.some.inj (found.symm.trans here)
    exact typed

theorem copyable_iff (width : UInt64) {plan : MergePlan} {e : MarshallingPlan}
    (planned : plan.marshalling = some e) (single : e.receive = none) :
    plan.Copyable (program width) ↔ (copier width).signature.same copySignature = true :=
  copyable_iff_of_copier (by simp [findFunction_eq, copyName]) planned single

end Halves

/-- Where the copy intrinsic takes another length, the callee is cloned and called but its results are sent as
before. -/
theorem halves_left_incomplete : ∃ plan, mergePlanOf Bridge.inProcess () Halves.merging (Halves.program 32) = .ok plan ∧
    plan.marshalling.isSome = true ∧
    (run Bridge.inProcess () Halves.merging (Halves.program 32)).1.1 ≠ Halves.program 32 ∧
    ¬ Completed plan (run Bridge.inProcess () Halves.merging (Halves.program 32)).1.1
      (run Bridge.inProcess () Halves.merging (Halves.program 32)).1.2.diagnostics := by
  obtain ⟨args, size, found, planned⟩ := Halves.planMerge_eq 32
  have coherent := (Halves.program_sound 32).coherent
  obtain ⟨extra, others, module, diagnostics⟩ := run_of_planned (o := Halves.merging) rfl planned
  obtain ⟨changed, completed, _⟩ := commitMerge_completed_iff (planMerge_checked planned) coherent
    Halves.merging.effectiveProfile Halves.merging.callee others
  refine ⟨_, planned, rfl, ?_⟩
  rw [module, diagnostics]
  refine ⟨changed, fun done => ?_⟩
  have typed := (Halves.copyable_iff 32 rfl rfl).mp (completed.mp done).1
  exact absurd typed (by decide)

theorem halves_completed : ∃ plan, mergePlanOf Bridge.inProcess () Halves.merging (Halves.program 64) = .ok plan ∧
    Completed plan (run Bridge.inProcess () Halves.merging (Halves.program 64)).1.1
      (run Bridge.inProcess () Halves.merging (Halves.program 64)).1.2.diagnostics := by
  obtain ⟨args, size, found, planned⟩ := Halves.planMerge_eq 64
  have coherent := (Halves.program_sound 64).coherent
  rcases merge_completes_iff Bridge.inProcess () (o := Halves.merging) rfl coherent with
    ⟨_, _, d, failed⟩ | ⟨plan, made, _, completes, caller⟩
  · cases planned.symm.trans failed
  · cases planned.symm.trans made
    refine ⟨_, planned, completes.mpr ⟨(Halves.copyable_iff 64 rfl rfl).mpr (by decide), ?_⟩⟩
    have spared := Halves.not_named_for_erasure (by rw [Halves.caller_name]; decide : Halves.caller.name ≠ "main_for_b")
    rcases caller with listed | entry | start | source
    · exact listed
    · exact absurd (.inl entry) spared
    · exact absurd (.inr start) spared
    · cases source

end CallFusion
