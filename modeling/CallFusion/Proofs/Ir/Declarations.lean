import CallFusion.Proofs.Ir.WellFormed

/-!
Edits of a module's list of functions. Exchanging a function keeps the declarations, adding one makes
them more, and a function goes away only when nothing names it.
-/

namespace CallFusion.Ir

namespace Module

variable {m : Module} {f g : Function}

theorem declares_iff (m : Module) (id : SymbolId) : m.Declares id ↔ id ∈ m.symbolIds := by
  simp [Declares, symbolIds]

theorem mem_setFunction (listed : g ∈ (m.setFunction f).functions) : g = f ∨ g ∈ m.functions := by
  obtain ⟨old, member, rfl⟩ := List.mem_map.mp listed
  by_cases same : old.id = f.id
  · exact .inl (by simp [same])
  · exact .inr (by simpa [same] using member)

@[simp] theorem symbolIds_setFunction (m : Module) (f : Function) : (m.setFunction f).symbolIds = m.symbolIds := by
  have ids : (m.functions.map fun g => if g.id == f.id then f else g).map (·.id) = m.functions.map (·.id) := by
    rw [List.map_map]
    apply List.map_congr_left
    intro g _
    by_cases same : g.id = f.id <;> simp [same]
  simp only [symbolIds, setFunction, ids]

theorem function?_setFunction (m : Module) (f : Function) (id : SymbolId) :
    (m.setFunction f).function? id = (m.function? id).map fun g => if g.id == f.id then f else g := by
  rw [function?, setFunction, List.find?_map]
  congr 2
  funext g
  by_cases same : g.id = f.id <;> simp [same]

theorem setFunction_coherent (coherent : m.Coherent) (function : f.Coherent) : (m.setFunction f).Coherent := by
  refine ⟨by rw [symbolIds_setFunction]; exact coherent.distinct, fun g listed => ?_⟩
  rcases mem_setFunction listed with rfl | old
  · exact function
  · exact coherent.functions g old

theorem setFunction_sound (sound : m.Sound) (function : f.WellFormed)
    (declared : ∀ id, f.Names id → m.Declares id) : (m.setFunction f).Sound where
  distinct := by
    rw [symbolIds_setFunction]
    exact sound.distinct
  functions := by
    intro g listed
    rcases mem_setFunction listed with rfl | old
    · exact function
    · exact sound.functions g old
  declared := by
    intro id named
    rw [declares_iff, symbolIds_setFunction, ← declares_iff]
    cases named with
    | function g listed named =>
      rcases mem_setFunction listed with rfl | old
      · exact declared id named
      · exact sound.declared id (.function g old named)
    | initializer g listed c init named => exact sound.declared id (.initializer g listed c init named)
    | tuple d listed c held named => exact sound.declared id (.tuple d listed c held named)

@[simp] theorem setFunction_setFunction {f g : Function} (same : g.id = f.id) (m : Module) :
    (m.setFunction f).setFunction g = m.setFunction g := by
  have functions : (m.functions.map fun h => if h.id == f.id then f else h).map (fun h => if h.id == g.id then g else h) =
      m.functions.map fun h => if h.id == g.id then g else h := by
    rw [List.map_map]
    apply List.map_congr_left
    intro h _
    by_cases here : h.id = f.id <;> simp [here, same]
  simp only [setFunction, functions]

theorem function_eq_of_id (distinct : m.symbolIds.Nodup) (first : f ∈ m.functions) (second : g ∈ m.functions)
    (same : f.id = g.id) : f = g :=
  List.inj_on_of_nodup_map distinct.of_append_left first second same

theorem map_setFunction {α : Type} {view : Function → α} (distinct : m.symbolIds.Nodup) (listed : f ∈ m.functions)
    (number : g.id = f.id) (same : view g = view f) : (m.setFunction g).functions.map view = m.functions.map view := by
  rw [setFunction, List.map_map]
  refine List.map_congr_left fun h present => ?_
  by_cases here : h.id = g.id
  · rw [Function.comp_apply, if_pos (by simpa using here), same,
      function_eq_of_id distinct present listed (here.trans number)]
  · rw [Function.comp_apply, if_neg (by simpa using here)]

theorem function?_of_mem (distinct : m.symbolIds.Nodup) (listed : f ∈ m.functions) : m.function? f.id = some f := by
  cases found : m.function? f.id with
  | none => simpa using List.find?_eq_none.mp found f listed
  | some g =>
    have same : g.id = f.id := by simpa using List.find?_some found
    rw [function_eq_of_id distinct (List.mem_of_find?_eq_some found) listed same]

theorem Declares.addFunction {id : SymbolId} (declared : m.Declares id) (f : Function) : (m.addFunction f).Declares id := by
  rcases declared with ⟨g, listed, same⟩ | other
  · exact .inl ⟨g, List.mem_append_left _ listed, same⟩
  · exact .inr other

/-- Every symbol of the module is one of the other module too, and the function behind it has the same name. -/
structure KeepsNames (m n : Module) : Prop where
  ids : m.symbolIds ⊆ n.symbolIds
  names : ∀ id ∈ m.symbolIds, (n.function? id).map (·.name) = (m.function? id).map (·.name)

theorem KeepsNames.refl (m : Module) : m.KeepsNames m := ⟨fun _ listed => listed, fun _ _ => rfl⟩

theorem KeepsNames.trans {n k : Module} (first : m.KeepsNames n) (second : n.KeepsNames k) : m.KeepsNames k :=
  ⟨fun _ listed => second.ids (first.ids listed),
    fun id listed => (second.names id (first.ids listed)).trans (first.names id listed)⟩

theorem setFunction_keepsNames (distinct : m.symbolIds.Nodup) (listed : f ∈ m.functions) (same : g.id = f.id)
    (name : g.name = f.name) : m.KeepsNames (m.setFunction g) where
  ids := by
    rw [symbolIds_setFunction]
    exact fun _ present => present
  names := by
    intro id _
    have lookup : (m.setFunction g).function? id = (m.function? id).map fun h => if h.id == g.id then g else h := by
      rw [function?, setFunction, List.find?_map]
      refine congrArg _ (congrFun (congrArg List.find? (funext fun h => ?_)) m.functions)
      by_cases here : h.id = g.id <;> simp [here]
    rw [lookup, Option.map_map]
    cases found : m.function? id with
    | none => rfl
    | some h =>
      rw [Option.map_some, Option.map_some, Function.comp_apply]
      by_cases here : h.id = g.id
      · rw [if_pos (by simpa using here), name,
          function_eq_of_id distinct (List.mem_of_find?_eq_some found) listed (here.trans same)]
      · rw [if_neg (by simpa using here)]

theorem addFunction_keepsNames (fresh : f.id ∉ m.symbolIds) : m.KeepsNames (m.addFunction f) where
  ids := by
    intro id listed
    rw [← declares_iff] at listed ⊢
    exact listed.addFunction f
  names := by
    intro id listed
    have other : (f.id == id) = false := by simpa using fun same : f.id = id => fresh (same ▸ listed)
    rw [function?, function?, addFunction, List.find?_append, List.find?_cons, other, List.find?_nil, Option.or_none]

theorem addFunction_declares (m : Module) (f : Function) : (m.addFunction f).Declares f.id :=
  .inl ⟨f, List.mem_append_right _ (List.mem_singleton.mpr rfl), rfl⟩

theorem addFunction_distinct (distinct : m.symbolIds.Nodup) (fresh : f.id ∉ m.symbolIds) :
    (m.addFunction f).symbolIds.Nodup := by
  simp only [symbolIds, addFunction, List.map_append, List.map_cons, List.map_nil, List.append_assoc,
    List.singleton_append] at fresh distinct ⊢
  exact List.nodup_middle.mpr (List.nodup_cons.mpr ⟨fresh, distinct⟩)

theorem addFunction_coherent (coherent : m.Coherent) (function : f.Coherent) (fresh : f.id ∉ m.symbolIds) :
    (m.addFunction f).Coherent := by
  refine ⟨addFunction_distinct coherent.distinct fresh, fun g listed => ?_⟩
  rcases List.mem_append.mp listed with old | new
  · exact coherent.functions g old
  · exact List.mem_singleton.mp new ▸ function

theorem addFunction_sound (sound : m.Sound) (function : f.WellFormed) (fresh : f.id ∉ m.symbolIds)
    (declared : ∀ id, f.Names id → m.Declares id) : (m.addFunction f).Sound where
  distinct := addFunction_distinct sound.distinct fresh
  functions := by
    intro g listed
    rcases List.mem_append.mp listed with old | new
    · exact sound.functions g old
    · exact List.mem_singleton.mp new ▸ function
  declared := by
    intro id named
    apply Declares.addFunction
    cases named with
    | function g listed named =>
      rcases List.mem_append.mp listed with old | new
      · exact sound.declared id (.function g old named)
      · exact declared id (List.mem_singleton.mp new ▸ named)
    | initializer g listed c init named => exact sound.declared id (.initializer g listed c init named)
    | tuple d listed c held named => exact sound.declared id (.tuple d listed c held named)

theorem freshSymbol_not_mem (m : Module) : m.freshSymbol ∉ m.symbolIds := by
  intro present
  have listed : m.freshSymbol.index ∈ m.symbols.map (·.1.index) := by
    simp only [symbolIds, List.mem_append, List.mem_map] at present
    simp only [symbols, List.map_append, List.map_map, List.mem_append, List.mem_map, Function.comp_apply]
    rcases present with ⟨f, member, same⟩ | ⟨g, member, same⟩ | ⟨a, member, same⟩
    · exact .inl (.inl (.inl ⟨f, member, by rw [same]⟩))
    · exact .inl (.inl (.inr ⟨g, member, by rw [same]⟩))
    · exact .inl (.inr ⟨a, member, by rw [same]⟩)
  have below := le_foldl_max (.inl listed : _ ∨ _ ≤ 0)
  exact Nat.not_succ_le_self _ below

theorem removeFunction?_eq {target : SymbolId} {n : Module} (removed : m.removeFunction? target = some n) :
    n = m.dropFunction target ∧ ¬ n.Names target := by
  unfold removeFunction? at removed
  split at removed
  · cases removed
  · next unreferenced =>
    split at removed
    · cases removed
      exact ⟨rfl, referenceCount_eq_zero_iff.mp (Nat.eq_zero_of_not_pos unreferenced)⟩
    · cases removed

theorem removeFunction?_present {target : SymbolId} {n : Module} (removed : m.removeFunction? target = some n) :
    ∃ f ∈ m.functions, f.id = target := by
  unfold removeFunction? at removed
  split at removed
  · cases removed
  · split at removed
    · next present =>
      obtain ⟨f, found⟩ := Option.isSome_iff_exists.mp present
      exact ⟨f, List.mem_of_find?_eq_some found, by simpa using List.find?_some found⟩
    · cases removed

theorem dropFunction_length (distinct : m.symbolIds.Nodup) (listed : f ∈ m.functions) :
    (m.dropFunction f.id).functions.length + 1 = m.functions.length := by
  have ids : (m.functions.map (·.id)).Nodup := distinct.of_append_left
  have present : f.id ∈ m.functions.map (·.id) := List.mem_map.mpr ⟨f, listed, rfl⟩
  calc (m.dropFunction f.id).functions.length + 1
      = ((m.functions.map (·.id)).filter (· != f.id)).length + 1 := by
        simp [dropFunction, List.filter_map, Function.comp_def]
    _ = ((m.functions.map (·.id)).erase f.id).length + 1 := by rw [ids.erase_eq_filter]
    _ = m.functions.length := by
        rw [List.length_erase_add_one present, List.length_map]

theorem dropFunction_distinct (distinct : m.symbolIds.Nodup) (target : SymbolId) :
    (m.dropFunction target).symbolIds.Nodup :=
  distinct.sublist ((List.filter_sublist.map _).append_right _)

/-- A function that is removed takes its mentions with it, and nothing else names it. -/
theorem removeFunction?_sound (sound : m.Sound) {target : SymbolId} {n : Module}
    (removed : m.removeFunction? target = some n) : n.Sound := by
  obtain ⟨rfl, unnamed⟩ := removeFunction?_eq removed
  have kept : ∀ f ∈ (m.dropFunction target).functions, f ∈ m.functions := fun f listed =>
    (List.mem_filter.mp listed).1
  refine ⟨dropFunction_distinct sound.distinct target, fun f listed => sound.functions f (kept f listed),
    fun id named => ?_⟩
  have other : id ≠ target := fun same => unnamed (same ▸ named)
  have declared : m.Declares id := by
    apply sound.declared id
    cases named with
    | function f listed named => exact .function f (kept f listed) named
    | initializer g listed c init named => exact .initializer g listed c init named
    | tuple d listed c held named => exact .tuple d listed c held named
  rcases declared with ⟨f, listed, same⟩ | others
  · exact .inl ⟨f, List.mem_filter.mpr ⟨listed, by simpa [same] using other⟩, same⟩
  · exact .inr others

end Module
end CallFusion.Ir
