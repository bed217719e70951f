import CallFusion.Proofs.Ir.Cloning
import CallFusion.Proofs.Ir.Declarations
import CallFusion.Proofs.Merge.Reports

/-!
Erasing the entry chain. A function goes away only if it is one of the chain and nothing that stays names
it; all others keep their bodies, and nothing more severe than a note is reported.
-/

namespace CallFusion

open Ir

/-- What is left of a module once functions that nothing names were erased from it. -/
structure Pared (doomed : List SymbolId) (m n : Module) : Prop where
  distinct : n.symbolIds.Nodup
  source : ∀ g ∈ n.functions, ∃ f ∈ m.functions, f.SameBody g
  kept : ∀ f ∈ m.functions, (∃ g ∈ n.functions, f.SameBody g) ∨
    f.id ∈ doomed ∧ ∀ g ∈ n.functions, g.id ≠ f.id ∧ ¬ g.Names f.id

namespace Pared

variable {doomed others : List SymbolId} {m n k : Module} {f : Function}

theorem refl (distinct : m.symbolIds.Nodup) : Pared [] m m where
  distinct := distinct
  source := fun f listed => ⟨f, listed, .refl f⟩
  kept := fun f listed => .inl ⟨f, listed, .refl f⟩

theorem trans (first : Pared doomed m n) (second : Pared others n k) : Pared (doomed ++ others) m k where
  distinct := second.distinct
  source := by
    intro h listed
    obtain ⟨g, between, later⟩ := second.source h listed
    obtain ⟨f, member, before⟩ := first.source g between
    exact ⟨f, member, before.trans later⟩
  kept := by
    intro f listed
    rcases first.kept f listed with ⟨g, between, before⟩ | ⟨chosen, gone⟩
    · rcases second.kept g between with ⟨h, last, later⟩ | ⟨chosen, gone⟩
      · exact .inl ⟨h, last, before.trans later⟩
      · rw [before.id] at chosen gone
        exact .inr ⟨List.mem_append_right _ chosen, gone⟩
    · refine .inr ⟨List.mem_append_left _ chosen, fun h last => ?_⟩
      obtain ⟨g, between, later⟩ := second.source h last
      obtain ⟨other, unnamed⟩ := gone g between
      exact ⟨later.id ▸ other, fun named => unnamed (later.names named)⟩

theorem named (pared : Pared doomed m n) (listed : f ∈ m.functions) {g : Function} (stays : g ∈ n.functions)
    (names : g.Names f.id) : ∃ f' ∈ n.functions, f.SameBody f' :=
  (pared.kept f listed).resolve_right fun gone => (gone.2 g stays).2 names

theorem present (pared : Pared doomed m n) (listed : f ∈ m.functions) {g : Function} (stays : g ∈ n.functions)
    (same : g.id = f.id) : ∃ f' ∈ n.functions, f.SameBody f' :=
  (pared.kept f listed).resolve_right fun gone => (gone.2 g stays).1 same

theorem names (pared : Pared doomed m n) (before : m.symbolIds.Nodup) {g : Function} (stays : g ∈ n.functions)
    {id : SymbolId} (named : g.Names id) : (n.function? id).map (·.name) = (m.function? id).map (·.name) := by
  cases old : m.function? id with
  | some f =>
    obtain ⟨listed, rfl⟩ := function?_mem old
    obtain ⟨f', still, same⟩ := pared.named listed stays named
    rw [← same.id, Module.function?_of_mem pared.distinct still, Option.map_some, Option.map_some, same.name]
  | none =>
    cases new : n.function? id with
    | none => rfl
    | some h =>
      obtain ⟨present, rfl⟩ := function?_mem new
      obtain ⟨f, listed, same⟩ := pared.source h present
      rw [same.id, Module.function?_of_mem before listed] at old
      cases old

end Pared

theorem dropFunction_pared {m : Module} (distinct : m.symbolIds.Nodup) {target : SymbolId}
    (unnamed : ¬ (m.dropFunction target).Names target) : Pared [target] m (m.dropFunction target) where
  distinct := Module.dropFunction_distinct distinct target
  source := fun g listed => ⟨g, (List.mem_filter.mp listed).1, .refl g⟩
  kept := by
    intro f listed
    by_cases same : f.id = target
    · subst same
      refine .inr ⟨List.mem_singleton.mpr rfl, fun g stays => ⟨?_, fun named => unnamed (.function g stays named)⟩⟩
      simpa using (List.mem_filter.mp stays).2
    · exact .inl ⟨f, List.mem_filter.mpr ⟨listed, by simpa using same⟩, .refl f⟩

theorem setFunction_pared {m : Module} (distinct : m.symbolIds.Nodup) {f g : Function} (listed : f ∈ m.functions)
    (same : f.SameBody g) (doomed : List SymbolId) : Pared doomed m (m.setFunction g) where
  distinct := by
    rw [Module.symbolIds_setFunction]
    exact distinct
  source := by
    intro h present
    rcases Module.mem_setFunction present with rfl | old
    · exact ⟨f, listed, same⟩
    · exact ⟨h, old, .refl h⟩
  kept := by
    intro h present
    by_cases here : h.id = g.id
    · obtain rfl := Module.function_eq_of_id distinct listed present (same.id.symm.trans here.symm)
      exact .inl ⟨g, List.mem_map.mpr ⟨f, listed, by simp [here]⟩, same⟩
    · exact .inl ⟨h, List.mem_map.mpr ⟨h, present, by simp [here]⟩, .refl h⟩

/-- One step of the erasure. -/
theorem eraseDoomed_pared {state : Module × Outcome} (distinct : state.1.symbolIds.Nodup) (merged source : SymbolId)
    (doomed : Function) : Pared [doomed.id] state.1 (eraseDoomed merged source state doomed).1 ∧
      ∃ ds, Diagnostics.Notes ds ∧
        (eraseDoomed merged source state doomed).2.diagnostics = state.2.diagnostics ++ ds := by
  obtain ⟨m, o⟩ := state
  unfold eraseDoomed
  dsimp only
  split
  · next n removed =>
    obtain ⟨rfl, unnamed⟩ := Module.removeFunction?_eq removed
    exact ⟨dropFunction_pared distinct unnamed, [], .nil, (List.append_nil _).symm⟩
  · split
    · next g detached =>
      split at detached
      · obtain ⟨f, found, detached⟩ := Option.bind_eq_some_iff.mp detached
        refine ⟨setFunction_pared distinct (function?_mem found).1 (Function.detachSubprogram?_same detached) _, _,
          (Diagnostics.Notes.single _).append (.single _), List.append_assoc _ _ _⟩
      · cases detached
    · have whole : Pared [doomed.id] m m := by
        refine ⟨distinct, fun f listed => ⟨f, listed, .refl f⟩, fun f listed => .inl ⟨f, listed, .refl f⟩⟩
      exact ⟨whole, _, .single _, rfl⟩

/-- The whole erasure. -/
theorem eraseDoomed_foldl_pared (chain : List Function) {state : Module × Outcome} (distinct : state.1.symbolIds.Nodup)
    (merged source : SymbolId) :
    Pared (chain.map (·.id)) state.1 (chain.foldl (eraseDoomed merged source) state).1 ∧
      ∃ ds, Diagnostics.Notes ds ∧
        (chain.foldl (eraseDoomed merged source) state).2.diagnostics = state.2.diagnostics ++ ds := by
  induction chain generalizing state with
  | nil => exact ⟨.refl distinct, [], .nil, (List.append_nil _).symm⟩
  | cons doomed chain ih =>
    obtain ⟨step, first, quiet, reported⟩ := eraseDoomed_pared distinct merged source doomed
    obtain ⟨rest, later, silent, added⟩ := ih step.distinct
    refine ⟨step.trans rest, first ++ later, quiet.append silent, ?_⟩
    rw [List.foldl_cons, added, reported, List.append_assoc]

end CallFusion
