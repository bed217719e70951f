import CallFusion.Proofs.Merge.Completion

/-!
What is left of the marshalling calls after a merge. The planned ones, which are the first of either name, give way
to copies; every other call of the body stays, and so does a second one of the same name.
-/

namespace CallFusion

open Ir

variable {σ : Type}

/-- The call site calls a function whose logical name is one of the two. -/
def Marshals (bridge : Bridge σ) (l : Locator σ) (names : MarshallingNames) (m : Module) (f : Function) (site : CallSite) :
    Prop :=
  l.nameAt bridge m f site ≠ "" ∧ (l.nameAt bridge m f site = names.receive ∨ l.nameAt bridge m f site = names.send)

/-- Two call sites of one number and one kind that call functions of one name. -/
structure SameCall (m : Module) (f : Function) (s : CallSite) (n : Module) (g : Function) (t : CallSite) : Prop where
  id : t.id = s.id
  kind : t.kind = s.kind
  name : (n.calledFunction? g t).map (·.name) = (m.calledFunction? f s).map (·.name)

/-- A function with the call sites of a body, where copies have taken the place of the given ones. -/
structure Elided (m : Module) (body : Function) (sites : List CallSite) (n : Module) (f : Function) : Prop where
  copied : ∃ copy ∈ n.functions, copy.name = copyName ∧ AllCopied f copy sites ∧
    ∀ t ∈ f.callSites, (∀ s ∈ body.callSites, t.id ≠ s.id) → n.calledFunction? f t = some copy
  later : ∀ t ∈ f.callSites, (∀ s ∈ body.callSites, t.id ≠ s.id) ∨ ∃ s ∈ body.callSites, SameCall m body s n f t
  earlier : ∀ s ∈ body.callSites, (∀ x ∈ sites, x.id ≠ s.id) → ∃ t ∈ f.callSites, SameCall m body s n f t

section

variable {m n : Module} {f g : Function} {s t : CallSite}

theorem SameCall.nameAt (same : SameCall m f s n g t) (bridge : Bridge σ) (l : Locator σ) :
    l.nameAt bridge n g t = l.nameAt bridge m f s := by
  have name := same.name
  unfold Locator.nameAt Locator.calleeName
  cases before : m.calledFunction? f s with
  | none =>
    rw [before, Option.map_none, Option.map_eq_none_iff] at name
    rw [name]
  | some target =>
    rw [before, Option.map_some, Option.map_eq_some_iff] at name
    obtain ⟨other, found, equal⟩ := name
    rw [found]
    dsimp only
    rw [equal]

theorem SameCall.marshals_iff (same : SameCall m f s n g t) {bridge : Bridge σ} {l : Locator σ} {names : MarshallingNames} :
    Marshals bridge l names n g t ↔ Marshals bridge l names m f s := by
  rw [Marshals, Marshals, same.nameAt]

/-- No marshalling call of the body is left exactly when there were none besides those that were replaced. -/
theorem Elided.clear_iff {sites : List CallSite} (elided : Elided m f sites n g) (bridge : Bridge σ) (l : Locator σ)
    (names : MarshallingNames) :
    (∀ t ∈ g.callSites, (∃ s ∈ f.callSites, t.id = s.id) → ¬ Marshals bridge l names n g t) ↔
      ∀ s ∈ f.callSites, Marshals bridge l names m f s → ∃ x ∈ sites, x.id = s.id := by
  constructor
  · intro clear s listed marshals
    by_contra unplanned
    obtain ⟨t, there, same⟩ := elided.earlier s listed fun x planned equal => unplanned ⟨x, planned, equal⟩
    exact clear t there ⟨s, listed, same.id⟩ (same.marshals_iff.mpr marshals)
  · rintro covered t there ⟨s, listed, number⟩ marshals
    rcases elided.later t there with new | ⟨s', listed', same⟩
    · exact new s listed number
    · obtain ⟨x, planned, equal⟩ := covered s' listed' (same.marshals_iff.mp marshals)
      obtain ⟨_, _, _, all, _⟩ := elided.copied
      apply all.gone x planned
      rw [equal, ← same.id]
      exact CallSite.id_mem_localIds there

end

section

variable {m : Module} {plan : MergePlan} {merged : String} {e : MarshallingPlan}

theorem Diagnostics.blocking_eq_false_iff {ds : Diagnostics} : ds.blocking = false ↔ Diagnostics.Notes ds := by
  simp [Diagnostics.blocking, Diagnostics.Notes]

theorem MergePlan.Checked.elided_of_notes (checked : plan.Checked merged m) (resolved : m.Resolved) (p : Profile)
    (callee : String) (planned : plan.marshalling = some e)
    (quiet : Diagnostics.Notes (commitMerge p callee plan m).2.diagnostics) {f : Function}
    (stays : f ∈ (commitMerge p callee plan m).1.functions) (same : f.id = plan.clone.id) :
    Elided m plan.clone e.sites (commitMerge p callee plan m).1 f := by
  obtain ⟨g, n, ds, notes, redirected, done, pared, _, reported⟩ := checked.commit resolved.toCoherent p callee
  have silent : ds = [] := by
    refine done.stopped.resolve_right ?_
    rintro ⟨d, rfl, stopped⟩
    have note := quiet d (by simp [reported])
    rw [stopped.kind] at note
    cases note
  obtain ⟨h, listed, head, copied⟩ := done.clone
  obtain ⟨copy, member, intrinsic, all, carries⟩ := copied e planned silent
  -- The function that stayed is the copied one, up to what the erasure did to the module around it.
  obtain ⟨h', listed', body⟩ := pared.source f stays
  obtain rfl := Module.function_eq_of_id done.distinct listed' listed (body.id.symm.trans (same.trans head.id.symm))
  obtain ⟨copy', still, unchanged⟩ :=
    pared.named member stays (body.symm.names (all.names (by simp [MarshallingPlan.sites])))
  have carries : plan.clone.Carries (e.sites.map (·.id)) copy.id f := carries.congr rfl body.blocks
  have matching : ∀ {s t}, s ∈ plan.clone.callSites → t ∈ f.callSites → plan.clone.Matching s f t →
      SameCall m plan.clone s (commitMerge p callee plan m).1 f t := by
    intro s t listed present matching
    refine ⟨matching.id, matching.kind, ?_⟩
    rw [Module.calledFunction?, Module.calledFunction?, matching.called]
    cases called : plan.clone.calledId? s with
    | none => rfl
    | some id =>
      -- What the body names was declared before the merge, so it is none of the new functions.
      have known : id ∈ m.symbolIds := by
        have named := Function.withSignature_names checked.cloned
          (Function.names_of_calledId? (Function.callee_held listed) called)
        exact (Module.declares_iff m id).mp (resolved.declared id (.function _ checked.source named))
      have names := Function.names_of_calledId? (Function.callee_held present) (matching.called.trans called)
      exact (pared.names done.distinct stays names).trans (done.symbols.names id known)
  constructor
  case copied =>
    refine ⟨copy', still, unchanged.name.trans intrinsic, all.of_same body unchanged.value, fun t present new => ?_⟩
    rcases carries.later t present with ⟨called, _⟩ | ⟨s, listed, matched⟩
    · rw [Module.calledFunction?, called, Option.bind_some, ← unchanged.id]
      exact Module.function?_of_mem pared.distinct still
    · exact absurd matched.id (new s listed)
  case later =>
    intro t present
    rcases carries.later t present with ⟨_, new⟩ | ⟨s, listed, matched⟩
    · exact .inl new
    · exact .inr ⟨s, listed, matching listed present matched⟩
  case earlier =>
    intro s listed unplanned
    obtain ⟨t, present, matched⟩ := carries.earlier s listed fun gone => by
      obtain ⟨x, planned, equal⟩ := List.mem_map.mp gone
      exact unplanned x planned equal
    exact ⟨t, present, matching listed present matched⟩

theorem MergePlan.Checked.clone_stays (checked : plan.Checked merged m) (coherent : m.Coherent) (p : Profile)
    (callee : String) : (∃ f ∈ (commitMerge p callee plan m).1.functions, f.id = plan.clone.id ∧ f.name = plan.clone.name) ∨
      plan.clone.name = p.entryName callee ∨ p.runtimeStartName? callee = some plan.clone.name := by
  obtain ⟨g, n, ds, notes, redirected, done, pared, _, _⟩ := checked.commit coherent p callee
  obtain ⟨h, listed, head, _⟩ := done.clone
  rcases pared.kept h listed with ⟨f, stays, body⟩ | ⟨chosen, _⟩
  · exact .inl ⟨f, stays, body.id.trans head.id, body.name.trans head.name⟩
  · rcases mem_entryChain_ids done.distinct listed chosen with entry | start | source
    · exact .inr (.inl (head.name.symm.trans entry))
    · exact .inr (.inr (head.name ▸ start))
    · have fresh := checked.target_fresh p
      rw [(plan.target_same p m).id, ← head.id, source] at fresh
      exact absurd (List.mem_append_left _ (List.mem_map.mpr ⟨_, checked.source, rfl⟩)) fresh

end

/-- A plan replaces the first receiving and the first sending call of a body. -/
structure PlansFirst (bridge : Bridge σ) (l : Locator σ) (names : MarshallingNames) (m : Module) (body : Function)
    (e : MarshallingPlan) : Prop where
  receive : e.receive = firstCall bridge m body l names.receive
  send : some e.send = firstCall bridge m body l names.send

section

variable {bridge : Bridge σ} {l l' : Locator σ} {names : MarshallingNames} {m : Module} {body : Function} {e : MarshallingPlan}

theorem PlansFirst.apart (first : PlansFirst bridge l names m body e) (numbered : body.localIds.Nodup)
    (apart : names.receive ≠ names.send) {site : CallSite} (received : e.receive = some site) : site.id ≠ e.send.id := by
  intro same
  obtain ⟨listed, _, receives⟩ := firstCall_named (first.receive.symm.trans received)
  obtain ⟨listed', _, sends⟩ := firstCall_named first.send.symm
  have call := CallSite.call_eq_of_id numbered listed listed' same
  have called : m.calledFunction? body site = m.calledFunction? body e.send := by
    rw [Module.calledFunction?, Module.calledFunction?, Function.calledId?, Function.calledId?, call]
  apply apart
  rw [← receives, ← sends]
  simp only [Locator.nameAt, Locator.calleeName, called]

theorem PlansFirst.not_overlaps (first : PlansFirst bridge l names m body e) (numbered : body.localIds.Nodup)
    (apart : names.receive ≠ names.send) : ¬ e.Overlaps := by
  rintro ⟨site, received, same, _⟩
  exact first.apart numbered apart received same

/-- The search for marshalling calls plans for the first ones. -/
theorem MarshallingPlan.Made.plansFirst {ds : Diagnostics} (made : MarshallingPlan.Made bridge m body names l e ds) :
    PlansFirst bridge
      ((findCall bridge m body names.send).run ((findCall bridge m body names.receive).run l).2).2 names m body e where
  receive := by
    rw [← made.receive]
    exact findCall_eq (findCall_keeps (Locator.logical_extends bridge _) m _ _ _ (.refl _))
  send := by
    rw [← made.send]
    exact findCall_eq (.refl _)

end

theorem planMerge_marshalling {bridge : Bridge σ} {p : Profile} {caller callee : String} {m : Module} {l l' : Locator σ}
    {plan : MergePlan} (planned : (planMerge bridge p caller callee m).run l = (.ok plan, l')) :
    (plan.marshalling = none ∧ ∃ d ∈ plan.found, d.kind ≠ .note) ∨
      ∃ e, plan.marshalling = some e ∧ PlansFirst bridge l' p.marshalling m plan.clone e := by
  obtain ⟨_, between, searched⟩ := planMerge_found planned
  rcases MarshallingPlan.make_cases searched with none | ⟨e, marshalling, made, rfl⟩
  · exact .inl none
  · exact .inr ⟨e, marshalling, made.plansFirst⟩

theorem exists_plan_of_changed {bridge : Bridge σ} {state : σ} {o : Options} (mode : o.mode = .mergeCallee) {m : Module}
    (changed : (run bridge state o m).1.2.changed = true) :
    ∃ plan l, (planMerge bridge o.effectiveProfile o.caller o.callee m).run (Locator.new [o.caller, o.callee] state) =
      (.ok plan, l) := by
  cases planned : ((planMerge bridge o.effectiveProfile o.caller o.callee m).run
      (Locator.new [o.caller, o.callee] state)).1 with
  | error d =>
    simp only [run, runMode, mode, mergeCallee, run_bind, planned] at changed
    cases changed
  | ok plan => exact ⟨plan, _, Prod.ext planned rfl⟩

theorem free_of_copyable {bridge : Bridge σ} {state : σ} {o : Options} (mode : o.mode = .mergeCallee) {m : Module}
    (coherent : m.Coherent) {plan : MergePlan} {l : Locator σ}
    (found : (planMerge bridge o.effectiveProfile o.caller o.callee m).run (Locator.new [o.caller, o.callee] state) =
      (.ok plan, l)) {e : MarshallingPlan} (planned : plan.marshalling = some e) (copyable : plan.Copyable m)
    (silent : l.diagnostics = []) : (run bridge state o m).1.2.diagnostics.blocking = false := by
  obtain ⟨checked, _⟩ := planMerge_found found
  obtain ⟨g, n, ds, notes, _, done, _, quiet, reported⟩ := checked.commit coherent o.effectiveProfile o.callee
  obtain ⟨_, _, diagnostics, _⟩ := run_of_found mode found
  -- Only the copying may add anything more severe than a note, once the bridge was of help.
  have whole : ds = [] := (done.whole (by simp [planned])).mpr copyable
  rw [Diagnostics.blocking_eq_false_iff, diagnostics, reported, silent, whole, List.append_nil, List.append_nil]
  exact (checked.notes e planned).append quiet

theorem elided_of_found {bridge : Bridge σ} {state : σ} {o : Options} (mode : o.mode = .mergeCallee) {m : Module}
    (resolved : m.Resolved) {plan : MergePlan} {l : Locator σ} (found : (planMerge bridge o.effectiveProfile o.caller
      o.callee m).run (Locator.new [o.caller, o.callee] state) = (.ok plan, l))
    (free : (run bridge state o m).1.2.diagnostics.blocking = false) :
    ∃ e, plan.marshalling = some e ∧ PlansFirst bridge l o.effectiveProfile.marshalling m plan.clone e ∧
      ((∃ f ∈ (run bridge state o m).1.1.functions, f.id = plan.clone.id ∧ f.name = plan.clone.name) ∨
        plan.clone.name = o.effectiveProfile.entryName o.callee ∨
        o.effectiveProfile.runtimeStartName? o.callee = some plan.clone.name) ∧
      ∀ f ∈ (run bridge state o m).1.1.functions, f.id = plan.clone.id →
        Elided m plan.clone e.sites (run bridge state o m).1.1 f := by
  obtain ⟨module, _, diagnostics, _⟩ := run_of_found mode found
  obtain ⟨checked, _⟩ := planMerge_found found
  have quiet := Diagnostics.blocking_eq_false_iff.mp free
  rw [diagnostics] at quiet
  have reported : Diagnostics.Notes (commitMerge o.effectiveProfile o.callee plan m).2.diagnostics :=
    fun d listed => quiet d (List.mem_append_left _ listed)
  rw [module]
  rcases planMerge_marshalling found with ⟨_, d, listed, severe⟩ | ⟨e, marshalling, first⟩
  · -- Without a plan for the marshalling calls the run would have reported why there is none.
    obtain ⟨_, _, ds, notes, _, _, _, _, all⟩ := checked.commit resolved.toCoherent o.effectiveProfile o.callee
    rw [all] at reported
    exact absurd (reported d (List.mem_append_left _ (List.mem_append_left _ listed))) severe
  · exact ⟨e, marshalling, first, checked.clone_stays resolved.toCoherent _ _,
      fun f stays same => checked.elided_of_notes resolved _ _ marshalling reported stays same⟩

/-- After a merge that changes the module and reports nothing but notes, the first receiving and the first sending
call of the copied body have given way to memory copies, every other call of the body is still made, and nothing
else is called besides the copies. Marshalling calls are left where the body has more than one of a name. -/
theorem marshalling_calls_elided (bridge : Bridge σ) (state : σ) {o : Options} (mode : o.mode = .mergeCallee)
    {m : Module} (resolved : m.Resolved) (changed : (run bridge state o m).1.2.changed = true)
    (free : (run bridge state o m).1.2.diagnostics.blocking = false) :
    ∃ plan e, mergePlanOf bridge state o m = .ok plan ∧ plan.marshalling = some e ∧
      plan.clone.name = (Ident.ofName (o.effectiveProfile.mergedCalleeName o.callee)).shown ∧
      PlansFirst bridge (lastLocator bridge state o m) o.effectiveProfile.marshalling m plan.clone e ∧
      ((∃ f ∈ (run bridge state o m).1.1.functions, f.id = plan.clone.id ∧ f.name = plan.clone.name) ∨
        plan.clone.name = o.effectiveProfile.entryName o.callee ∨
        o.effectiveProfile.runtimeStartName? o.callee = some plan.clone.name) ∧
      ∀ f ∈ (run bridge state o m).1.1.functions, f.id = plan.clone.id →
        Elided m plan.clone e.sites (run bridge state o m).1.1 f ∧
        ((∀ t ∈ f.callSites, (∃ s ∈ plan.clone.callSites, t.id = s.id) →
            ¬ Marshals bridge (lastLocator bridge state o m) o.effectiveProfile.marshalling (run bridge state o m).1.1 f t) ↔
          ∀ s ∈ plan.clone.callSites,
            Marshals bridge (lastLocator bridge state o m) o.effectiveProfile.marshalling m plan.clone s →
              ∃ x ∈ e.sites, x.id = s.id) := by
  obtain ⟨plan, l, found⟩ := exists_plan_of_changed mode changed
  obtain ⟨_, _, _, last⟩ := run_of_found mode found
  obtain ⟨e, marshalling, first, stays, elided⟩ := elided_of_found mode resolved found free
  have planned : mergePlanOf bridge state o m = .ok plan := congrArg Prod.fst found
  have name : plan.clone.name = (Ident.ofName (o.effectiveProfile.mergedCalleeName o.callee)).shown := by
    obtain ⟨_, form⟩ := Function.withSignature_ok (planMerge_found found).1.cloned
    rw [form]
    rfl
  rw [last]
  refine ⟨plan, e, planned, marshalling, name, first, stays, fun f listed same => ?_⟩
  exact ⟨elided f listed same, (elided f listed same).clear_iff bridge l _⟩

namespace Halves

theorem found_eq (width : UInt64) : ∃ args size found l,
    (planMerge Bridge.inProcess .go "a" "b" (program width)).run (Locator.new ["a", "b"] ()) =
      (.ok ⟨source, ⟨caller, nullCall stub⟩, args, merged, some ⟨merged.id, none, nullCall send, 0, size⟩, found⟩, l) ∧
    l.diagnostics = [] := by
  obtain ⟨args, size, found, planned⟩ := planMerge_eq width
  exact ⟨args, size, found, _, Prod.ext planned rfl,
    planMerge_keeps Locator.logical_silent (program width) .go "a" "b" (Locator.new ["a", "b"] ()) rfl⟩

end Halves

theorem halves_calls_elided : (run Bridge.inProcess () Halves.merging (Halves.program 64)).1.2.changed = true ∧
    (run Bridge.inProcess () Halves.merging (Halves.program 64)).1.2.diagnostics.blocking = false ∧
    ∃ e : MarshallingPlan, e.receive = none ∧ e.send = nullCall Halves.send ∧
      ∃ f ∈ (run Bridge.inProcess () Halves.merging (Halves.program 64)).1.1.functions, f.name = "NewCallee_b" ∧
        Elided (Halves.program 64) Halves.merged e.sites
          (run Bridge.inProcess () Halves.merging (Halves.program 64)).1.1 f := by
  obtain ⟨args, size, reports, l, found, silent⟩ := Halves.found_eq 64
  have sound := Halves.program_sound 64
  have mode : Halves.merging.mode = .mergeCallee := rfl
  obtain ⟨_, changed, _⟩ := run_of_found mode found
  have free := free_of_copyable mode sound.coherent found rfl ((Halves.copyable_iff 64 rfl rfl).mpr (by decide)) silent
  refine ⟨changed, free, ?_⟩
  obtain ⟨plan, e, planned, marshalling, name, first, stays, elided⟩ :=
    marshalling_calls_elided Bridge.inProcess () mode sound.resolved changed free
  cases planned.symm.trans (congrArg Prod.fst found)
  cases marshalling
  have named : (Halves.merged).name = "NewCallee_b" := by
    simp [Halves.merged, calling, Function.name, Ident.shown, Ident.reported, Ident.spelled?, isDigits]
  obtain ⟨f, listed, same, called⟩ := stays.resolve_right (Halves.not_named_for_erasure (by rw [named]; decide))
  exact ⟨⟨Halves.merged.id, none, nullCall Halves.send, 0, size⟩, rfl, rfl, f, listed, called.trans named,
    (elided f listed same).1⟩

namespace Halves

def sending (id : Nat) (name : String) : Block where
  id := id
  ident := .named name
  insts := [⟨id + 1, .number 0, .void, .call "" (nullCall send).call, []⟩]
  term := ⟨id + 2, .number 0, .void, .ret none, []⟩

/-- The callee with a return path more. -/
def forked : Function :=
  { source with blocks := [⟨0, .named "entry", [], ⟨1, .number 0, .void, .condBr (.const 5 (.truth true)) (.block 2) (.block 5), []⟩⟩,
      sending 2 "early", sending 5 "late"] }

def forkedProgram : Module where
  functions := [stub, send, copier 64, forked, caller]

def forkedMerged : Function :=
  { forked with
    id := ⟨6⟩
    symbol := .named "NewCallee_b"
    params := [8, 9, 10].map fun i => ⟨i, .number 0, .bytePointer, []⟩ }

theorem forked_operands : forked.operands =
    ([.const 5 (.truth true), .block 2, .block 5, send.value, .const 4 (.null .bytePointer), send.value,
      .const 4 (.null .bytePointer)] : List Value).map .code :=
  rfl

theorem forked_wellFormed : forked.WellFormed where
  numbered := by
    change List.Nodup [0, 1, 2, 3, 4, 5, 6, 7]
    decide
  directed := by simp [forked, sending, Terminator.targets]
  joined := by simp [forked, sending, Function.Joins]
  owned := by
    simp only [forked_operands, List.forall_mem_map, List.forall_mem_cons]
    have early : ∃ b ∈ forked.blocks, b.id = 2 := ⟨sending 2 "early", by simp [forked], rfl⟩
    have late : ∃ b ∈ forked.blocks, b.id = 5 := ⟨sending 5 "late", by simp [forked], rfl⟩
    exact ⟨trivial, early, late, trivial, trivial, trivial, trivial, List.forall_mem_nil _⟩

theorem forked_names {symbol : SymbolId} (named : forked.Names symbol) : symbol = send.id := by
  rcases named with ⟨o, present, names⟩ | ⟨c, personality, _⟩
  · rw [forked_operands] at present
    obtain ⟨v, listed, rfl⟩ := List.mem_map.mp present
    have mentioned := (Value.mentions_iff _ _).mpr names
    simp only [List.mem_cons, List.not_mem_nil, or_false] at listed
    rcases listed with rfl | rfl | rfl | rfl | rfl | rfl | rfl
    case inr.inr.inr.inl | inr.inr.inr.inr.inr.inl => exact Function.value_names names
    all_goals cases mentioned
  · cases personality

theorem forked_name : forked.name = "main_2nd_for_b" := source_name

theorem forkedMerged_name : forkedMerged.name = "NewCallee_b" := by apply Ident.shown_named (c := 'N') <;> simp

theorem forkedProgram_findFunction (name : String) : forkedProgram.findFunction name =
    if name = "main.make__rpc" then some stub
    else if name = "main.send__return__value__to__caller" then some send
    else if name = "llvm.memcpy.p0i8.p0i8.i64" then some (copier 64)
    else if name = "main_2nd_for_b" then some forked
    else if name = "main.main" then some caller
    else none := by
  simp only [Module.findFunction, forkedProgram, List.find?_cons, List.find?_nil, stub_name, send_name, copier_name, forked_name,
    caller_name]
  grind

theorem forkedProgram_resolved : forkedProgram.Resolved := by
  apply Module.Sound.resolved
  apply sound_of_functions
  case distinct =>
    change List.Nodup [SymbolId.mk 1, ⟨2⟩, ⟨3⟩, ⟨4⟩, ⟨5⟩]
    decide
  case functions =>
    simp only [List.forall_mem_cons]
    exact ⟨outside_wellFormed _ _ _, outside_wellFormed _ _ _, outside_wellFormed _ _ _, forked_wellFormed,
      calling_wellFormed _ _ _, List.forall_mem_nil _⟩
  case declared =>
    simp only [List.forall_mem_cons]
    refine ⟨fun _ named => absurd named outside_names, fun _ named => absurd named outside_names,
      fun _ named => absurd named outside_names, fun _ named => ⟨send, ?_, (forked_names named).symm⟩,
      fun _ named => ⟨stub, ?_, (calling_names named).symm⟩, List.forall_mem_nil _⟩
    · simp
    · simp

def sendIn (block : Nat) : CallSite := { nullCall send with block := block, id := block + 1 }

theorem forkedMerged_callSites : forkedMerged.callSites = [sendIn 2, sendIn 5] := rfl

theorem forkedProgram_found : ∃ args size found l,
    (planMerge Bridge.inProcess .go "a" "b" forkedProgram).run (Locator.new ["a", "b"] ()) =
      (.ok ⟨forked, ⟨caller, nullCall stub⟩, args, forkedMerged, some ⟨forkedMerged.id, none, sendIn 2, 0, size⟩, found⟩, l) ∧
    l.diagnostics = [] := by
  have present : forkedProgram.findFunction (Profile.go.realCalleeName "b") = some forked := by
    simp [forkedProgram_findFunction, Profile.realCalleeName, Profile.go]
  have fresh : forkedProgram.findFunction (Profile.go.mergedCalleeName "b") = none := by
    simp [forkedProgram_findFunction, Profile.mergedCalleeName, Profile.go]
  have cloned : forked.withSignature [.bytePointer, .bytePointer, .bytePointer] (Profile.go.mergedCalleeName "b")
      forkedProgram.freshSymbol = .ok forkedMerged := rfl
  have located := findRpc_of_caller (m := forkedProgram) (by simp [forkedProgram_findFunction])
    (by simp [forkedProgram_findFunction]) (by simp [forkedProgram_findFunction]) (by simp [forkedProgram_findFunction]) rfl
  have planned := planMerge_ok ⟨by decide, by decide⟩ present fresh located rfl cloned rfl
  obtain ⟨l, receive, sent⟩ := findCall_send (m := forkedProgram) (f := forkedMerged)
    (by rw [forkedMerged_callSites]; decide)
    (by rw [forkedMerged_callSites]; exact List.forall_mem_cons.mpr ⟨rfl, List.forall_mem_singleton.mpr rfl⟩)
    (List.cons_ne_nil _ _)
  obtain ⟨ds, made⟩ := MarshallingPlan.make_of_send Profile.go.marshalling Profile.go.payload rfl rfl receive sent rfl
  simp only [made] at planned
  exact ⟨_, _, _, _, Prod.ext planned rfl,
    planMerge_keeps Locator.logical_silent forkedProgram .go "a" "b" (Locator.new ["a", "b"] ()) rfl⟩

end Halves

/-- In a callee that sends on two return paths, the call of the second path is not replaced, and nothing is said of it. -/
theorem second_send_left : (run Bridge.inProcess () Halves.merging Halves.forkedProgram).1.2.changed = true ∧
    (run Bridge.inProcess () Halves.merging Halves.forkedProgram).1.2.diagnostics.blocking = false ∧
    ∃ f ∈ (run Bridge.inProcess () Halves.merging Halves.forkedProgram).1.1.functions, f.name = "NewCallee_b" ∧
      ∃ t ∈ f.callSites, Marshals Bridge.inProcess (lastLocator Bridge.inProcess () Halves.merging Halves.forkedProgram)
        Profile.go.marshalling (run Bridge.inProcess () Halves.merging Halves.forkedProgram).1.1 f t := by
  obtain ⟨args, size, reports, l, found, silent⟩ := Halves.forkedProgram_found
  have resolved := Halves.forkedProgram_resolved
  have mode : Halves.merging.mode = .mergeCallee := rfl
  obtain ⟨_, changed, _, last⟩ := run_of_found mode found
  have copier : Halves.forkedProgram.findFunction copyName = some (Halves.copier 64) := by
    simp [Halves.forkedProgram_findFunction, copyName]
  have free := free_of_copyable mode resolved.toCoherent found rfl
    ((Halves.copyable_iff_of_copier copier rfl rfl).mpr (by decide)) silent
  refine ⟨changed, free, ?_⟩
  obtain ⟨e, marshalling, first, stays, elided⟩ := elided_of_found mode resolved found free
  cases marshalling
  -- The search stopped at the first of two calls of one function.
  obtain ⟨_, known, sends⟩ := firstCall_named first.send.symm
  have alike : l.nameAt Bridge.inProcess Halves.forkedProgram Halves.forkedMerged (Halves.sendIn 5) =
      l.nameAt Bridge.inProcess Halves.forkedProgram Halves.forkedMerged (Halves.sendIn 2) := rfl
  obtain ⟨f, listed, same, named⟩ :=
    stays.resolve_right (Halves.not_named_for_erasure (by rw [Halves.forkedMerged_name]; decide))
  obtain ⟨t, there, kept⟩ := (elided f listed same).earlier (Halves.sendIn 5) (by simp [Halves.forkedMerged_callSites])
    fun x planned => by
      obtain rfl := List.mem_singleton.mp planned
      exact (by decide : (Halves.sendIn 2).id ≠ (Halves.sendIn 5).id)
  refine ⟨f, listed, named.trans Halves.forkedMerged_name, t, there, kept.marshals_iff.mpr ?_⟩
  rw [Marshals, last, alike]
  exact ⟨known, .inr sends⟩

end CallFusion
