import CallFusion.Proofs.Merge.Planning

/-!
Runs that report no change. Every mode either stops before its first edit or says that it changed the
module; the one edit whose failure a mode reports as no change cannot fail once the checks have passed.
-/

namespace CallFusion

open Ir

variable {σ : Type}

namespace Renaming

theorem applyTo_of_count_eq_zero {r : Renaming} {m : Module} (none : r.count m = 0) : r.applyTo m = m := by
  have kept : ∀ f ∈ m.functions, r.nameFor f = f.name := by
    intro f member
    by_contra renamed
    have counted : f ∈ m.functions.filter fun f => r.nameFor f != f.name :=
      List.mem_filter.mpr ⟨member, by simpa using renamed⟩
    rw [List.length_eq_zero_iff.mp none] at counted
    cases counted
  have functions : (m.functions.map fun f => { f with symbol := r.identFor f }) = m.functions.map fun f => f := by
    apply List.map_congr_left
    intro f member
    rw [identFor, if_pos (kept f member)]
  rw [applyTo, functions, List.map_id']

theorem run_eq_of_unchanged {r : Renaming} {mode : Mode} {found : Diagnostics} {m : Module}
    (unchanged : (r.run mode found m).2.changed = false) : (r.run mode found m).1 = m := by
  unfold run at unchanged ⊢
  split
  · rfl
  · next free =>
    rw [free] at unchanged
    exact applyTo_of_count_eq_zero (by simpa using unchanged)

end Renaming

theorem renameCaller_eq_of_unchanged {caller : String} {m : Module}
    (unchanged : (renameCaller caller m).2.changed = false) : (renameCaller caller m).1 = m := by
  unfold renameCaller at unchanged ⊢
  split
  · rfl
  · next named =>
    rw [if_neg named] at unchanged
    exact Renaming.run_eq_of_unchanged unchanged

theorem renameCallee_eq_of_unchanged {p : Profile} {callee : String} {m : Module}
    (unchanged : (renameCallee p callee m).2.changed = false) : (renameCallee p callee m).1 = m := by
  unfold renameCallee at unchanged ⊢
  split
  · rfl
  · next named =>
    rw [if_neg named] at unchanged
    split
    · rfl
    · next entry found =>
      simp only [found] at unchanged
      split
      · rfl
      · next boot ds started =>
        simp only [started] at unchanged
        exact Renaming.run_eq_of_unchanged unchanged

theorem elideMarshalling_changed (merged : String) (plan : Option MarshallingPlan) (state : Module × Outcome) :
    (elideMarshalling merged plan state).2.changed = state.2.changed := by
  cases plan <;> rfl

theorem eraseDoomed_changed (merged source : SymbolId) (state : Module × Outcome) (doomed : Function) :
    (eraseDoomed merged source state doomed).2.changed = state.2.changed := by
  obtain ⟨m, o⟩ := state
  unfold eraseDoomed
  dsimp only
  split
  · rfl
  · split <;> rfl

theorem eraseDoomed_foldl_changed (merged source : SymbolId) (chain : List Function) (state : Module × Outcome) :
    (chain.foldl (eraseDoomed merged source) state).2.changed = state.2.changed := by
  induction chain generalizing state with
  | nil => rfl
  | cons doomed chain ih => rw [List.foldl_cons, ih, eraseDoomed_changed]

/-- A merge that starts its edits reports a change. -/
theorem commitMerge_changed (p : Profile) (callee : String) (plan : MergePlan) (m : Module) :
    (commitMerge p callee plan m).2.changed = true := by
  unfold commitMerge
  dsimp only
  split
  · rfl
  · rw [eraseDoomed_foldl_changed, elideMarshalling_changed]

theorem mergeCallee_eq_of_unchanged {bridge : Bridge σ} {p : Profile} {caller callee : String} {m : Module}
    {l : Locator σ} (unchanged : ((mergeCallee bridge p caller callee m).run l).1.2.changed = false) :
    ((mergeCallee bridge p caller callee m).run l).1.1 = m := by
  rw [mergeCallee, run_bind] at unchanged ⊢
  cases planned : ((planMerge bridge p caller callee m).run l).1 with
  | error d => rfl
  | ok plan =>
    rw [planned] at unchanged
    rw [run_pure, commitMerge_changed] at unchanged
    cases unchanged

theorem mergeExisting_eq_of_unchanged {bridge : Bridge σ} {mode : Mode} {p : Profile} {caller callee : String}
    {m : Module} (coherent : ∀ f ∈ m.functions, f.Coherent) {l : Locator σ}
    (unchanged : ((mergeExisting bridge mode p caller callee m).run l).1.2.changed = false) :
    ((mergeExisting bridge mode p caller callee m).run l).1.1 = m := by
  rw [mergeExisting, run_bind] at unchanged ⊢
  cases found : ((findRedirection bridge mode p caller callee m).run l).1 with
  | error d => rfl
  | ok r =>
    have replaceable := (findRedirection_checked found).replaceable
    obtain ⟨g, replaced⟩ := Function.replaceCallSite_completes (coherent _ replaceable.caller) replaceable.site
      (replaceable.accepts r.target) r.rpc.site.attachments m
    rw [found] at unchanged
    simp only [replaceRpc, replaced] at unchanged
    cases unchanged

theorem runMode_eq_of_unchanged {bridge : Bridge σ} {o : Options} {m : Module}
    (coherent : ∀ f ∈ m.functions, f.Coherent) {l : Locator σ}
    (unchanged : ((runMode bridge o m).run l).1.2.changed = false) : ((runMode bridge o m).run l).1.1 = m := by
  unfold runMode at unchanged ⊢
  dsimp only at unchanged ⊢
  split
  · next selected =>
    rw [selected] at unchanged
    exact renameCaller_eq_of_unchanged unchanged
  · next selected =>
    rw [selected] at unchanged
    exact renameCallee_eq_of_unchanged unchanged
  · next selected =>
    rw [selected] at unchanged
    exact mergeCallee_eq_of_unchanged unchanged
  · next selected =>
    rw [selected] at unchanged
    exact mergeExisting_eq_of_unchanged coherent unchanged
  · next selected =>
    rw [selected] at unchanged
    exact mergeExisting_eq_of_unchanged coherent unchanged
  · rfl

/-- A run that reports no change leaves the module as it was, and once a redirection has passed its
checks its edit does not fail. -/
theorem unchanged_run_keeps_module (bridge : Bridge σ) (state : σ) (o : Options) (m : Module)
    (coherent : ∀ f ∈ m.functions, f.Coherent) :
    ((run bridge state o m).1.2.changed = false → (run bridge state o m).1.1 = m) ∧
      ∀ (mode : Mode) (p : Profile) (caller callee : String) (l : Locator σ) (r : Redirection),
        ((findRedirection bridge mode p caller callee m).run l).1 = .ok r →
          ∃ g, r.rpc.caller.replaceCallSite m r.rpc.site { callee := r.target.value, args := r.args } r.target.result
            r.rpc.site.attachments = (g, none) := by
  refine ⟨fun unchanged => runMode_eq_of_unchanged coherent unchanged, fun mode p caller callee l r found => ?_⟩
  have replaceable := (findRedirection_checked found).replaceable
  exact Function.replaceCallSite_completes (coherent _ replaceable.caller) replaceable.site (replaceable.accepts r.target)
    _ m

theorem halves_kept_unchanged :
    (run Bridge.inProcess () { mode := .mergeCallee } (Halves.program 64)).1.2.changed = false ∧
      (run Bridge.inProcess () { mode := .mergeCallee } (Halves.program 64)).1.1 = Halves.program 64 ∧
      ∃ r, ((findRedirection Bridge.inProcess .mergeExisting .go "a" "b" (Halves.program 64)).run
          (Locator.new ["a", "b"] ())).1 = .ok r ∧
        ∃ g, r.rpc.caller.replaceCallSite (Halves.program 64) r.rpc.site { callee := r.target.value, args := r.args }
          r.target.result r.rpc.site.attachments = (g, none) := by
  have result := unchanged_run_keeps_module Bridge.inProcess () { mode := .mergeCallee } (Halves.program 64)
    (Halves.program_sound 64).coherent.functions
  have unchanged : (run Bridge.inProcess () { mode := .mergeCallee } (Halves.program 64)).1.2.changed = false := rfl
  obtain ⟨r, found⟩ := Halves.findRedirection_isOk 64
  exact ⟨unchanged, result.1 unchanged, r, found, result.2 _ _ _ _ _ r found⟩

end CallFusion
