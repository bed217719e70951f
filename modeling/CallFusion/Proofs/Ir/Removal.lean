import CallFusion.Proofs.Ir.Declarations

/-!
Removing a function. It goes exactly if nothing else refers to it: no operand or personality of another function, no
initializer, and no tuple that metadata definitions lead to, which may refer to one another in circles. Metadata that a
call has written out among its own arguments is none of these, and is not looked at.
-/

namespace CallFusion.Ir

namespace Module

variable {m : Module} {id : SymbolId}

/-- The fields of the tuples that metadata definitions lead to: a definition's own, those of a tuple in one of the
fields, and those of a definition that one of the fields refers to. -/
inductive Reaches (m : Module) : List Meta → Prop
  | defined {fields : List Meta} (d : MetaDef) (present : d ∈ m.metaDefs) (tuple : d.body = .tuple fields) : Reaches m fields
  | nested {fields inner : List Meta} (outer : Reaches m fields) (listed : .tuple inner ∈ fields) : Reaches m inner
  | linked {fields inner : List Meta} (outer : Reaches m fields) (d : MetaDef) (listed : .ref d.id ∈ fields)
      (present : d ∈ m.metaDefs) (tuple : d.body = .tuple inner) : Reaches m inner

/-- The places outside a function that refer to it. -/
inductive Refers (m : Module) (id : SymbolId) : Prop
  | operand (f : Function) (listed : f ∈ m.functions) (other : f.id ≠ id) (o : Operand Value) (present : o ∈ f.operands)
      (named : o.value.Names id)
  | personality (f : Function) (listed : f ∈ m.functions) (other : f.id ≠ id) (c : Constant) (held : f.personality = some c)
      (named : c.Names id)
  | initializer (g : Global) (listed : g ∈ m.globals) (c : Constant) (init : g.init = some c) (named : c.Names id)
  | tuple (fields : List Meta) (reached : m.Reaches fields) (c : Constant) (listed : .const c ∈ fields) (named : c.Names id)

def SpellsOut (m : Module) (id : SymbolId) : Prop := ∃ f ∈ m.functions, f.id ≠ id ∧ f.SpellsOut id

theorem Reaches.holds {fields : List Meta} (reached : m.Reaches fields) {c : Constant}
    (held : (Meta.tuple fields).Holds c) : ∃ d ∈ m.metaDefs, d.body.Holds c := by
  induction reached with
  | defined d present tuple => exact ⟨d, present, tuple ▸ held⟩
  | nested _ listed ih => exact ih (.nested listed held)
  | linked _ d _ present tuple _ => exact ⟨d, present, tuple ▸ held⟩

theorem Reaches.of_holds {body : Meta} {c : Constant} (held : body.Holds c) {fields : List Meta} (tuple : body = .tuple fields)
    (reached : m.Reaches fields) : ∃ inner, m.Reaches inner ∧ .const c ∈ inner := by
  induction held generalizing fields with
  | here listed =>
    cases tuple
    exact ⟨_, reached, listed⟩
  | nested listed _ ih =>
    cases tuple
    exact ih rfl (.nested reached listed)

/-- Following references from tuple to tuple leads to no other constants, since all that they lead to is defined. -/
theorem reaches_iff {c : Constant} :
    (∃ fields, m.Reaches fields ∧ .const c ∈ fields) ↔ ∃ d ∈ m.metaDefs, d.body.Holds c := by
  constructor
  · rintro ⟨fields, reached, listed⟩
    exact reached.holds (.here listed)
  · rintro ⟨d, present, held⟩
    have tuple : ∃ fields, d.body = .tuple fields := by
      revert held
      generalize d.body = body
      rintro (_ | _) <;> exact ⟨_, rfl⟩
    obtain ⟨fields, tuple⟩ := tuple
    exact Reaches.of_holds held tuple (.defined d present tuple)

theorem refers_iff : m.Refers id ↔ (m.dropFunction id).Names id := by
  have others : ∀ f, f ∈ (m.dropFunction id).functions ↔ f ∈ m.functions ∧ f.id ≠ id := fun f => by
    simp [dropFunction, List.mem_filter]
  constructor
  · rintro (⟨f, listed, other, o, present, named⟩ | ⟨f, listed, other, c, held, named⟩ | ⟨g, listed, c, init, named⟩ |
      ⟨fields, reached, c, listed, named⟩)
    · exact .function f ((others f).mpr ⟨listed, other⟩) (.inl ⟨o, present, named⟩)
    · exact .function f ((others f).mpr ⟨listed, other⟩) (.inr ⟨c, held, named⟩)
    · exact .initializer g listed c init named
    · obtain ⟨d, present, held⟩ := reaches_iff.mp ⟨fields, reached, listed⟩
      exact .tuple d present c held named
  · rintro (⟨f, listed, named⟩ | ⟨g, listed, c, init, named⟩ | ⟨d, listed, c, held, named⟩)
    · obtain ⟨present, other⟩ := (others f).mp listed
      rcases named with ⟨o, slot, named⟩ | ⟨c, held, named⟩
      · exact .operand f present other o slot named
      · exact .personality f present other c held named
    · exact .initializer g listed c init named
    · obtain ⟨fields, reached, inside⟩ := (reaches_iff (m := m)).mpr ⟨d, listed, held⟩
      exact .tuple fields reached c inside named

theorem referenceCount_eq_zero_iff_refers : m.referenceCount id = 0 ↔ ¬ m.Refers id :=
  referenceCount_eq_zero_iff.trans (not_congr refers_iff.symm)

theorem dropFunction_split {f : Function} (numbered : (m.functions.map (·.id)).Nodup) (listed : f ∈ m.functions) :
    ∃ before after, m.functions = before ++ f :: after ∧ m.dropFunction f.id =
      { m with functions := before ++ after, dropped := m.dropped ++ [f] } := by
  obtain ⟨before, after, split⟩ := List.append_of_mem listed
  refine ⟨before, after, split, ?_⟩
  rw [split, List.map_append, List.map_cons, List.nodup_append, List.nodup_cons] at numbered
  obtain ⟨_, ⟨behind, _⟩, ahead⟩ := numbered
  have earlier : ∀ g ∈ before, g.id ≠ f.id := fun g member =>
    ahead g.id (List.mem_map.mpr ⟨g, member, rfl⟩) f.id List.mem_cons_self
  have later : ∀ g ∈ after, g.id ≠ f.id := fun g member same => behind (same ▸ List.mem_map.mpr ⟨g, member, rfl⟩)
  have found : m.function? f.id = some f := by
    rw [function?, split, List.find?_append, List.find?_eq_none.mpr (by simpa using earlier)]
    simp
  have rest : m.functions.filter (·.id != f.id) = before ++ after := by
    rw [split, List.filter_append, List.filter_cons_of_neg (by simp), List.filter_eq_self.mpr (by simpa using earlier),
      List.filter_eq_self.mpr (by simpa using later)]
  rw [dropFunction, rest, found, Option.toList_some]

theorem removeFunction?_eq_of_mem {f : Function} (listed : f ∈ m.functions) : m.removeFunction? f.id =
    if m.referenceCount f.id = 0 then some (m.dropFunction f.id) else none := by
  have present : (m.function? f.id).isSome = true := List.find?_isSome.mpr ⟨f, listed, beq_self_eq_true f.id⟩
  unfold removeFunction?
  by_cases unreferenced : m.referenceCount f.id = 0 <;> simp [unreferenced, present, Nat.pos_iff_ne_zero]

end Module

/-- A function is removed, alone and with all others in their order, exactly if its references come to zero, which is
if nothing that is looked at refers to it. So a function that is mentioned elsewhere is taken for one that is
not exactly if all mentions of it are in metadata arguments that are written out. -/
theorem removed_iff_unreferenced {m : Module} {f : Function} (numbered : (m.functions.map (·.id)).Nodup)
    (listed : f ∈ m.functions) :
    (m.referenceCount f.id = 0 ↔ ¬ m.Refers f.id) ∧
    ((m.removeFunction? f.id).isSome = true ↔ ¬ m.Refers f.id) ∧
    (∀ n, m.removeFunction? f.id = some n → ∃ before after, m.functions = before ++ f :: after ∧
      n = { m with functions := before ++ after, dropped := m.dropped ++ [f] }) ∧
    ((m.referenceCount f.id = 0 ↔ ¬ (m.Refers f.id ∨ m.SpellsOut f.id)) ↔ (m.SpellsOut f.id → m.Refers f.id)) := by
  have counted := @Module.referenceCount_eq_zero_iff_refers m f.id
  refine ⟨counted, ?_, fun n removed => ?_, ?_⟩
  · rw [Module.removeFunction?_eq_of_mem listed, ← counted]
    split
    · next unreferenced => exact iff_of_true rfl unreferenced
    · next referenced => exact iff_of_false (fun none => nomatch none) referenced
  · obtain ⟨before, after, split, dropped⟩ := Module.dropFunction_split numbered listed
    rw [Module.removeFunction?_eq_of_mem listed] at removed
    split at removed
    · obtain rfl := Option.some.inj removed
      exact ⟨before, after, split, dropped⟩
    · cases removed
  · rw [counted]
    tauto

/-- A module with a call that is given a tuple holding a function, and another one that is defined and holds a second
function. The two definitions refer to each other. -/
def tagging : Module where
  functions := [
    { id := ⟨1⟩, symbol := .named "spelled", result := .void, params := [] },
    { id := ⟨2⟩, symbol := .named "kept", result := .void, params := [] },
    { id := ⟨3⟩, symbol := .named "tag", result := .void, params := [⟨0, .number 0, .metadata, []⟩] },
    { id := ⟨4⟩
      symbol := .named "tagged"
      result := .void
      params := []
      blocks := [
        { id := 0
          ident := .named "entry"
          insts := [⟨1, .number 0, .void, .call "" {
            callee := .symbol ⟨3⟩ (.pointer (.func .void [.metadata] false) 0)
            args := [.debugNode (.tuple [.const (.symbol ⟨1⟩ (.pointer (.func .void [] false) 0))])] }, []⟩]
          term := ⟨2, .number 0, .void, .ret none, []⟩ }] }]
  metaDefs := [⟨0, true, .tuple [.ref 1]⟩,
    ⟨1, true, .tuple [.ref 0, .tuple [.const (.symbol ⟨2⟩ (.pointer (.func .void [] false) 0))]]⟩]

theorem tagging_numbered : (tagging.functions.map (·.id)).Nodup := by
  change List.Nodup [SymbolId.mk 1, ⟨2⟩, ⟨3⟩, ⟨4⟩]
  decide

theorem tagging_removed : tagging.Refers ⟨2⟩ ∧ (tagging.removeFunction? ⟨2⟩).isSome = false ∧
    ∃ n, tagging.removeFunction? ⟨4⟩ = some n ∧ n.functions = tagging.functions.take 3 := by
  have circle : tagging.Reaches [.ref 0, .tuple [.const (.symbol ⟨2⟩ (.pointer (.func .void [] false) 0))]] :=
    .linked (.defined _ List.mem_cons_self rfl) _ List.mem_cons_self (List.mem_cons_of_mem _ List.mem_cons_self) rfl
  have refers : tagging.Refers ⟨2⟩ :=
    .tuple _ (.nested circle (List.mem_cons_of_mem _ List.mem_cons_self)) _ List.mem_cons_self ⟨_, .whole _, rfl⟩
  have kept := removed_iff_unreferenced tagging_numbered (List.mem_cons_of_mem _ List.mem_cons_self : tagging.functions[1] ∈ _)
  have last := removed_iff_unreferenced tagging_numbered (List.getElem_mem (n := 3) (by decide) : tagging.functions[3] ∈ _)
  refine ⟨refers, Bool.eq_false_iff.mpr fun removed => kept.2.1.mp removed refers, ?_⟩
  obtain ⟨n, removed⟩ := Option.isSome_iff_exists.mp (last.2.1.mpr (last.1.mp rfl))
  refine ⟨n, removed, ?_⟩
  have whole : tagging.removeFunction? ⟨4⟩ = some (tagging.dropFunction ⟨4⟩) := rfl
  obtain rfl := Option.some.inj (removed.symm.trans whole)
  rfl

/-- The function in the written-out tuple has no references and is removed, while the call still mentions it. -/
theorem tagging_spelled_removed : tagging.referenceCount ⟨1⟩ = 0 ∧ tagging.SpellsOut ⟨1⟩ ∧
    ∃ n, tagging.removeFunction? ⟨1⟩ = some n ∧ n.SpellsOut ⟨1⟩ ∧ ∀ f ∈ n.functions, f.id ≠ ⟨1⟩ := by
  have spelled : (tagging.functions[3]).SpellsOut ⟨1⟩ :=
    ⟨_, List.mem_cons_self, _, List.mem_cons_self, _, .tuple List.mem_cons_self (.const _), _, .whole _, rfl⟩
  refine ⟨rfl, ⟨_, List.getElem_mem _, by decide, spelled⟩, _, rfl, ⟨tagging.functions[3], ?_, by decide, spelled⟩, ?_⟩
  · exact List.mem_filter.mpr ⟨List.getElem_mem _, rfl⟩
  · intro f listed same
    simpa [same] using (List.mem_filter.mp listed).2

end CallFusion.Ir
