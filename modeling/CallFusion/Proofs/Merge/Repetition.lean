import CallFusion.Proofs.Merge.Leftovers
import CallFusion.Proofs.Merge.Renaming

/-!
Merging twice. What a merge leaves behind has a function of the merged name, so the same merge is refused before it looks
for anything else, whether or not the callee is still there and whatever became of the marshalling calls.
-/

namespace CallFusion

open Ir

/-- Why a merge stops at once in a module that has a function of the merged name. -/
def Profile.refusal (p : Profile) (callee : String) (m : Module) : Diagnostic :=
  if (m.findFunction (p.realCalleeName callee)).isSome then
    .structural ("'" ++ p.mergedCalleeName callee ++ "' already exists; callee '" ++ callee ++ "' was merged before")
  else .notFound ("function '" ++ p.realCalleeName callee ++ "' not found")

section

variable {σ : Type} {bridge : Bridge σ} {p : Profile} {caller callee : String} {m : Module} {l : Locator σ}

theorem Profile.refusal_blocking (p : Profile) (callee : String) (m : Module) :
    Diagnostics.blocking [p.refusal callee m] = true := by
  unfold refusal
  split <;> rfl

theorem findFunction_isSome {f : Function} (listed : f ∈ m.functions) : (m.findFunction f.name).isSome = true :=
  List.find?_isSome.mpr ⟨f, listed, beq_self_eq_true f.name⟩

theorem planMerge_named {plan : MergePlan} {l' : Locator σ}
    (planned : (planMerge bridge p caller callee m).run l = (.ok plan, l')) :
    caller.isEmpty = false ∧ callee.isEmpty = false := by
  rw [planMerge] at planned
  split at planned
  · cases planned
  · next named =>
    split at planned
    · cases planned
    · next named' => exact ⟨by simpa using named, by simpa using named'⟩

theorem planMerge_refused (named : caller.isEmpty = false ∧ callee.isEmpty = false)
    (merged : (m.findFunction (p.mergedCalleeName callee)).isSome = true) :
    (planMerge bridge p caller callee m).run l = (.error (p.refusal callee m), l) := by
  simp only [planMerge, named, Bool.false_eq_true, if_false, Profile.refusal]
  cases m.findFunction (p.realCalleeName callee) with
  | none => rfl
  | some source =>
    simp only [merged, if_true]
    rfl

theorem run_of_refused {state : σ} {o : Options} (mode : o.mode = .mergeCallee) {d : Diagnostic}
    (refused : (planMerge bridge o.effectiveProfile o.caller o.callee m).run (Locator.new [o.caller, o.callee] state) =
      (.error d, Locator.new [o.caller, o.callee] state)) :
    run bridge state o m = ((m, { mode := .mergeCallee, changed := false, diagnostics := [d] }), state) := by
  simp only [run, runMode, mode, mergeCallee, run_bind, refused]
  rfl

end

/-- A merge that was carried out is not carried out again. The second run finds nothing to do, says why, and leaves the
module and its bridge as they were. -/
theorem merge_not_repeated {σ τ : Type} (bridge : Bridge σ) (state : σ) (bridge' : Bridge τ) (state' : τ) {o : Options}
    (mode : o.mode = .mergeCallee) {m : Module}
    (coherent : m.Coherent) (changed : (run bridge state o m).1.2.changed = true) :
    run bridge' state' o (run bridge state o m).1.1 = (((run bridge state o m).1.1, {
        mode := .mergeCallee
        changed := false
        diagnostics := [o.effectiveProfile.refusal o.callee (run bridge state o m).1.1] }), state') ∧
      Diagnostics.blocking [o.effectiveProfile.refusal o.callee (run bridge state o m).1.1] = true := by
  obtain ⟨plan, l, found⟩ := exists_plan_of_changed mode changed
  obtain ⟨checked, _⟩ := planMerge_found found
  obtain ⟨module, _⟩ := run_of_found mode found
  have known := o.registered
  have name := checked.clone_name.trans (known.merged_shown o.callee)
  have merged : ((run bridge state o m).1.1.findFunction (o.effectiveProfile.mergedCalleeName o.callee)).isSome = true := by
    obtain ⟨_, apart⟩ := known.names_apart o.callee
    rw [module, ← name]
    rcases checked.clone_stays coherent o.effectiveProfile o.callee with ⟨f, stays, _, called⟩ | entry | start
    · rw [← called]
      exact findFunction_isSome stays
    · exact absurd (name.symm.trans entry) (apart _ (by simp [Profile.givenNames])).1
    · exact absurd name.symm (apart _ (by simp [Profile.givenNames, start])).1
  exact ⟨run_of_refused mode (planMerge_refused (planMerge_named found) merged), Profile.refusal_blocking _ _ _⟩

theorem halves_not_merged_again :
    (run Bridge.inProcess () Halves.merging (Halves.program 64)).1.2.changed = true ∧
      run Bridge.inProcess () Halves.merging (run Bridge.inProcess () Halves.merging (Halves.program 64)).1.1 =
        (((run Bridge.inProcess () Halves.merging (Halves.program 64)).1.1, {
          mode := .mergeCallee
          changed := false
          diagnostics := [Profile.go.refusal "b" (run Bridge.inProcess () Halves.merging (Halves.program 64)).1.1] }), ()) ∧
      Diagnostics.blocking
        [Profile.go.refusal "b" (run Bridge.inProcess () Halves.merging (Halves.program 64)).1.1] = true := by
  obtain ⟨args, size, reports, l, found, _⟩ := Halves.found_eq 64
  obtain ⟨_, changed, _⟩ := run_of_found (o := Halves.merging) rfl found
  exact ⟨changed, merge_not_repeated Bridge.inProcess () Bridge.inProcess () (o := Halves.merging) rfl
    (Halves.program_sound 64).coherent changed⟩

end CallFusion
