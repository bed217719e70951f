import CallFusion.Ir.Clone
import CallFusion.Proofs.Ir.WellFormed
import Mathlib.Data.List.Range

/-!
Copies of a function under another signature. A copy of a well-formed function is well formed: its slots
hold its own parameters where they held parameters with a counterpart, and no parameter without one is
left in them.
-/

namespace CallFusion.Ir

namespace Function

variable {f : Function}

theorem clearNumbers_blocks (f : Function) : f.clearNumbers.blocks = f.blocks.map fun b =>
    { b with
      ident := b.ident.clearNumber
      insts := b.insts.map fun i => { i with ident := i.ident.clearNumber }
      term := { b.term with ident := b.term.ident.clearNumber } } := rfl

theorem clearNumbers_operands (f : Function) : f.clearNumbers.operands = f.operands := by
  simp [operands, Block.operands, clearNumbers_blocks, List.flatMap_map]

theorem clearNumbers_localIds (f : Function) : f.clearNumbers.localIds = f.localIds := by
  simp [localIds, clearNumbers, List.flatMap_map, Function.comp_def]

theorem clearNumbers_results (f : Function) : f.clearNumbers.results = f.results := by
  simp [results, Block.results, clearNumbers, List.flatMap_map, List.filter_map, Function.comp_def, Instruction.value,
    Param.value, Terminal.value]

theorem clearNumbers_enters {source target : LocalId} : f.clearNumbers.Enters source target ↔ f.Enters source target := by
  simp [Enters, clearNumbers_blocks, Block.successors]

theorem clearNumbers_coherent (coherent : f.Coherent) : f.clearNumbers.Coherent := by
  constructor
  · rw [clearNumbers_localIds]
    exact coherent.numbered
  · intro c cleared v listed
    obtain ⟨b, member, rfl⟩ := List.mem_map.mp cleared
    exact coherent.directed b member v listed

theorem clearNumbers_owns {v : Value} (owned : f.Owns v) : f.clearNumbers.Owns v :=
  owned.mono (fun listed => (clearNumbers_results f).symm ▸ listed) fun b member =>
    ⟨_, List.mem_map.mpr ⟨b, member, rfl⟩, rfl⟩

theorem clearNumbers_shaped (shaped : f.Shaped) : f.clearNumbers.Shaped := by
  refine ⟨clearNumbers_coherent shaped.toCoherent, ?_⟩
  intro c cleared j inside
  obtain ⟨b, member, rfl⟩ := List.mem_map.mp cleared
  obtain ⟨i, carried, rfl⟩ := List.mem_map.mp inside
  exact (shaped.joined b member i carried).congr fun source => clearNumbers_enters

def paramAt (f : Function) (t : Ty) (i : Nat) : Param :=
  match f.params[i]? with
  | some p => if p.type.same t then ⟨p.id, p.ident.clearNumber, t, []⟩ else ⟨f.freshId + i, .number 0, t, []⟩
  | none => ⟨f.freshId + i, .number 0, t, []⟩

theorem paramsFor_eq (f : Function) (types : List Ty) : f.paramsFor types = types.zipIdx.map fun e => f.paramAt e.1 e.2 := rfl

theorem paramAt_id (f : Function) (t : Ty) (i : Nat) :
    (∃ p, f.params[i]? = some p ∧ (f.paramAt t i).id = p.id) ∨ (f.paramAt t i).id = f.freshId + i := by
  unfold paramAt
  split
  · next p given =>
    split
    · exact .inl ⟨p, given, rfl⟩
    · exact .inr rfl
  · exact .inr rfl

theorem param_lt_freshId {i : Nat} {p : Param} (given : f.params[i]? = some p) : p.id < f.freshId :=
  lt_freshId_of_mem_localIds (mem_localIds_of_param (List.mem_of_getElem? given))

theorem paramAt_id_injective (numbered : f.localIds.Nodup) {t u : Ty} {i j : Nat}
    (same : (f.paramAt t i).id = (f.paramAt u j).id) : i = j := by
  have ids : (f.params.map (·.id)).Nodup := numbered.of_append_left
  rcases f.paramAt_id t i with ⟨p, given, first⟩ | first <;> rcases f.paramAt_id u j with ⟨q, other, second⟩ | second
  · have equal : (f.params.map (·.id))[i]? = (f.params.map (·.id))[j]? := by
      rw [List.getElem?_map, List.getElem?_map, given, other, Option.map_some, Option.map_some, ← first, ← second, same]
    have within : i < (f.params.map (·.id)).length := by
      rw [List.length_map]
      exact (List.getElem?_eq_some_iff.mp given).1
    exact (List.getElem?_inj within ids).mp equal
  · have below := param_lt_freshId given
    rw [← first, same, second] at below
    exact absurd below (Nat.not_lt.mpr (Nat.le_add_right _ _))
  · have below := param_lt_freshId other
    rw [← second, ← same, first] at below
    exact absurd below (Nat.not_lt.mpr (Nat.le_add_right _ _))
  · exact Nat.add_left_cancel (first.symm.trans (same.trans second))

theorem paramsFor_ids_nodup (numbered : f.localIds.Nodup) (types : List Ty) :
    ((f.paramsFor types).map (·.id)).Nodup := by
  have positions : types.zipIdx.Nodup := by
    apply List.Nodup.of_map Prod.snd
    rw [List.zipIdx_map_snd]
    exact List.nodup_range'
  rw [paramsFor_eq, List.map_map]
  refine positions.map_on fun e first d second same => ?_
  have index := paramAt_id_injective numbered same
  have left := List.mem_zipIdx_iff_getElem?.mp first
  have right := List.mem_zipIdx_iff_getElem?.mp second
  rw [index, right] at left
  exact Prod.ext (Option.some.inj left).symm index

theorem paramsFor_id_cases {types : List Ty} {p : Param} (listed : p ∈ f.paramsFor types) :
    (∃ q ∈ f.params, p.id = q.id) ∨ p.id ∉ f.localIds := by
  obtain ⟨⟨t, i⟩, _, rfl⟩ := List.mem_map.mp listed
  rcases f.paramAt_id t i with ⟨q, given, same⟩ | fresh
  · exact .inl ⟨q, List.mem_of_getElem? given, same⟩
  · exact .inr (fresh ▸ f.freshId_not_mem i)

theorem param_kept_or_orphan (types : List Ty) {q : Param} (given : q ∈ f.params) :
    (∃ p ∈ f.paramsFor types, p.id = q.id) ∨ q ∈ f.orphans types := by
  obtain ⟨i, found⟩ := List.mem_iff_getElem?.mp given
  by_cases kept : ((types[i]?).map fun t => q.type.same t).getD false = true
  · obtain ⟨t, typed, same⟩ : ∃ t, types[i]? = some t ∧ q.type.same t = true := by
      cases typed : types[i]? with
      | none => simp [typed] at kept
      | some t => exact ⟨t, rfl, by simpa [typed] using kept⟩
    refine .inl ⟨f.paramAt t i, List.mem_map.mpr ⟨(t, i), List.mem_zipIdx_iff_getElem?.mpr typed, rfl⟩, ?_⟩
    simp [paramAt, found, same]
  · refine .inr (List.mem_map.mpr ⟨(q, i), List.mem_filter.mpr ⟨List.mem_zipIdx_iff_getElem?.mpr found, ?_⟩, rfl⟩)
    simpa using kept

theorem isOrphan_iff {orphans : List Param} {v : Value} :
    isOrphan orphans v = true ↔ ∃ p ∈ orphans, v.local? = some p.id := by
  simp only [isOrphan, List.any_eq_true, Param.value, Value.local_same, beq_iff_eq]

theorem carryOver_block (params orphans : List Param) (debug : Bool) (id : LocalId) :
    carryOver params orphans debug (.block id) = .block id := by
  have orphan : isOrphan orphans (.block id) = false := by
    rw [Bool.eq_false_iff, ne_eq, isOrphan_iff]
    simp
  have none : params.find? (fun p => p.value.same (.block id)) = none := by
    rw [List.find?_eq_none]
    exact fun p _ same => nomatch same
  rw [carryOver, orphan, Bool.and_false, if_neg Bool.false_ne_true, none]
  rfl

theorem carryOver_cases (params orphans : List Param) (debug : Bool) (v : Value) :
    (∃ t, carryOver params orphans debug v = .const 0 (.undef t)) ∨
      (∃ p ∈ params, carryOver params orphans debug v = p.value) ∨
      (carryOver params orphans debug v = v ∧ (debug = true → isOrphan orphans v = false) ∧
        ∀ p ∈ params, v.local? ≠ some p.id) := by
  unfold carryOver
  split
  · exact .inl ⟨_, rfl⟩
  · next stays =>
    cases found : params.find? fun p => p.value.same v with
    | some p => exact .inr (.inl ⟨p, List.mem_of_find?_eq_some found, rfl⟩)
    | none =>
      refine .inr (.inr ⟨rfl, fun debugged => by simpa [debugged] using stays, fun p listed held => ?_⟩)
      have different := List.find?_eq_none.mp found p listed
      rw [Param.value, Value.local_same, beq_iff_eq] at different
      exact different held

theorem withSignature_ok {types : List Ty} {name : String} {id : SymbolId} {g : Function}
    (cloned : f.withSignature types name id = .ok g) :
    (∀ o ∈ f.operands, o.debug = false → isOrphan (f.orphans types) o.value = false) ∧
      g = ((f.retyped types name id).mapOperands (carryOver (f.paramsFor types) (f.orphans types))).clearNumbers := by
  unfold withSignature at cloned
  split at cloned
  · cases cloned
  · dsimp only at cloned
    split at cloned
    · cases cloned
    · next none =>
      cases cloned
      refine ⟨fun o present code => ?_, rfl⟩
      simpa [code] using List.find?_eq_none.mp none o present

theorem retyped_coherent (coherent : f.Coherent) (types : List Ty) (name : String) (id : SymbolId) :
    (f.retyped types name id).Coherent := by
  refine ⟨?_, coherent.directed⟩
  rw [localIds_eq, List.nodup_append]
  refine ⟨paramsFor_ids_nodup coherent.numbered types, coherent.numbered.of_append_right, ?_⟩
  intro x param y inside same
  obtain ⟨p, listed, rfl⟩ := List.mem_map.mp param
  obtain ⟨b, member, held⟩ := List.mem_flatMap.mp inside
  rcases paramsFor_id_cases listed with ⟨q, given, equal⟩ | fresh
  · exact param_not_in_block coherent.numbered given member held (equal ▸ same)
  · exact fresh (same ▸ mem_localIds_of_block (f := f) member held)

theorem withSignature_coherent (coherent : f.Coherent) {types : List Ty} {name : String} {id : SymbolId}
    {g : Function} (cloned : f.withSignature types name id = .ok g) : g.Coherent := by
  obtain ⟨_, rfl⟩ := withSignature_ok cloned
  exact clearNumbers_coherent (mapOperands_coherent (carryOver_block _ _) (retyped_coherent coherent types name id))

theorem withSignature_owned {types : List Ty} {name : String} {id : SymbolId} {g : Function}
    (cloned : f.withSignature types name id = .ok g) (owned : ∀ o ∈ f.operands, f.Owns o.value) :
    ∀ o ∈ g.operands, g.Owns o.value := by
  obtain ⟨code, rfl⟩ := withSignature_ok cloned
  intro o present
  rw [clearNumbers_operands, operands_mapOperands] at present
  obtain ⟨old, member, rfl⟩ := List.mem_map.mp present
  apply clearNumbers_owns
  rw [owns_mapOperands, Operand.map_value]
  rcases carryOver_cases (f.paramsFor types) (f.orphans types) old.debug old.value with
    ⟨t, form⟩ | ⟨p, listed, form⟩ | ⟨form, debugged, apart⟩
  · rw [form]
    trivial
  · rw [form]
    exact List.mem_append_left _ (List.mem_map.mpr ⟨p, listed, rfl⟩)
  · rw [form]
    refine (owned old member).mono (fun listed => ?_) fun b inside => ⟨b, inside, rfl⟩
    rcases List.mem_append.mp listed with param | result
    · obtain ⟨q, given, held⟩ := List.mem_map.mp param
      have number : old.value.local? = some q.id := by rw [← held]; rfl
      rcases param_kept_or_orphan types given with ⟨p, kept, same⟩ | orphan
      · exact (apart p kept (same ▸ number)).elim
      · have lost := isOrphan_iff.mpr ⟨q, orphan, number⟩
        cases debug : old.debug with
        | false => rw [code old member debug] at lost; cases lost
        | true => rw [debugged debug] at lost; cases lost
    · exact List.mem_append_right _ result

theorem withSignature_wellFormed (wellFormed : f.WellFormed) {types : List Ty} {name : String} {id : SymbolId}
    {g : Function} (cloned : f.withSignature types name id = .ok g) : g.WellFormed := by
  have owned := withSignature_owned cloned wellFormed.owned
  obtain ⟨_, rfl⟩ := withSignature_ok cloned
  have shaped : (f.retyped types name id).Shaped := ⟨retyped_coherent wellFormed.toCoherent types name id,
    fun b member i carried => (wellFormed.joined b member i carried).congr fun _ => Iff.rfl⟩
  exact ⟨clearNumbers_shaped (mapOperands_shaped (carryOver_block _ _) shaped), owned⟩

theorem withSignature_id {types : List Ty} {name : String} {id : SymbolId} {g : Function}
    (cloned : f.withSignature types name id = .ok g) : g.id = id := by
  obtain ⟨_, rfl⟩ := withSignature_ok cloned
  rfl

def Takes (f : Function) (args : List (Argument Value)) : Prop :=
  List.Forall₂ (fun p a => p.type.same a.type = true) f.params args

theorem takes_iff {args : List (Argument Value)} :
    f.Takes args ↔ List.Forall₂ (fun t u => t.same u = true) (f.params.map (·.type)) (args.map (·.type)) := by
  rw [List.forall₂_map_left_iff, List.forall₂_map_right_iff]
  rfl

theorem withSignature_types {types : List Ty} {name : String} {id : SymbolId} {g : Function}
    (cloned : f.withSignature types name id = .ok g) : g.params.map (·.type) = types := by
  have typed : ∀ t i, (f.paramAt t i).type = t := by
    intro t i
    unfold paramAt
    split
    · split <;> rfl
    · rfl
  obtain ⟨_, rfl⟩ := withSignature_ok cloned
  calc _ = (types.zipIdx.map fun e => f.paramAt e.1 e.2).map (·.type) := by
        simp [clearNumbers, mapOperands, retyped, paramsFor_eq, Function.comp_def]
    _ = types.zipIdx.map Prod.fst := by simp [typed, Function.comp_def]
    _ = types := List.zipIdx_map_fst 0 _

theorem withSignature_takes {args : List (Argument Value)} {name : String} {id : SymbolId} {g : Function}
    (cloned : f.withSignature (args.map (·.type)) name id = .ok g) : g.Takes args := by
  rw [takes_iff, withSignature_types cloned, List.forall₂_same]
  exact fun t _ => beq_self_eq_true _

theorem withSignature_convention {types : List Ty} {name : String} {id : SymbolId} {g : Function}
    (cloned : f.withSignature types name id = .ok g) : g.convention = f.convention := by
  obtain ⟨_, rfl⟩ := withSignature_ok cloned
  rfl

theorem withSignature_names {types : List Ty} {name : String} {id : SymbolId} {g : Function}
    (cloned : f.withSignature types name id = .ok g) {s : SymbolId} (named : g.Names s) : f.Names s := by
  obtain ⟨_, rfl⟩ := withSignature_ok cloned
  rcases named with ⟨o, present, named⟩ | ⟨c, personality, named⟩
  · rw [clearNumbers_operands, operands_mapOperands] at present
    obtain ⟨old, member, rfl⟩ := List.mem_map.mp present
    rw [Operand.map_value] at named
    rcases carryOver_cases (f.paramsFor types) (f.orphans types) old.debug old.value with
      ⟨t, form⟩ | ⟨p, _, form⟩ | ⟨form, _⟩
    · rw [form] at named
      exact (Constant.not_names_undef t s named).elim
    · rw [form] at named
      exact named.elim
    · rw [form] at named
      exact .inl ⟨old, member, named⟩
  · exact .inr ⟨c, personality, named⟩

theorem withSignature_writesOut {types : List Ty} {name : String} {id : SymbolId} {g : Function}
    (cloned : f.withSignature types name id = .ok g) {node : Meta} (written : g.WritesOut node) : f.WritesOut node := by
  obtain ⟨_, rfl⟩ := withSignature_ok cloned
  have before : ((f.retyped types name id).mapOperands (carryOver (f.paramsFor types) (f.orphans types))).WritesOut node := by
    simpa [WritesOut, Block.callArguments, clearNumbers_blocks, List.flatMap_map] using written
  exact writesOut_mapOperands.mp before

/-- Two functions that are called and declared alike, attributes apart. -/
structure SameHead (f g : Function) : Prop where
  id : g.id = f.id
  result : g.result = f.result
  params : g.params.map (fun p => (p.id, p.type)) = f.params.map fun p => (p.id, p.type)
  name : g.name = f.name
  space : g.space = f.space
  variadic : g.variadic = f.variadic
  convention : g.convention = f.convention

/-- Two functions that differ in what is printed around their bodies only. -/
structure SameBody (f g : Function) : Prop extends SameHead f g where
  personality : g.personality = f.personality
  blocks : g.blocks = f.blocks

namespace SameHead

variable {g h : Function}

theorem refl (f : Function) : f.SameHead f := ⟨rfl, rfl, rfl, rfl, rfl, rfl, rfl⟩

theorem trans (first : f.SameHead g) (second : g.SameHead h) : f.SameHead h :=
  ⟨second.id.trans first.id, second.result.trans first.result, second.params.trans first.params,
    second.name.trans first.name, second.space.trans first.space, second.variadic.trans first.variadic,
    second.convention.trans first.convention⟩

theorem symm (same : f.SameHead g) : g.SameHead f :=
  ⟨same.id.symm, same.result.symm, same.params.symm, same.name.symm, same.space.symm, same.variadic.symm,
    same.convention.symm⟩

theorem types (same : f.SameHead g) : g.params.map (·.type) = f.params.map (·.type) := by
  simpa [Function.comp_def] using congrArg (List.map Prod.snd) same.params

theorem takes (same : f.SameHead g) {args : List (Argument Value)} : g.Takes args ↔ f.Takes args := by
  rw [takes_iff, takes_iff, same.types]

theorem signature (same : f.SameHead g) : g.signature = f.signature := by
  rw [Function.signature, same.result, same.types, same.variadic]
  rfl

theorem value (same : f.SameHead g) : g.value = f.value := by
  rw [Function.value, same.id, same.signature, same.space]
  rfl

theorem of_frame (frame : g = { f with blocks := g.blocks, dropped := g.dropped }) : f.SameHead g := by
  rw [frame]
  exact ⟨rfl, rfl, rfl, rfl, rfl, rfl, rfl⟩

end SameHead

namespace SameBody

variable {g h : Function}

theorem refl (f : Function) : f.SameBody f := ⟨.refl f, rfl, rfl⟩

theorem trans (first : f.SameBody g) (second : g.SameBody h) : f.SameBody h :=
  ⟨first.toSameHead.trans second.toSameHead, second.personality.trans first.personality, second.blocks.trans first.blocks⟩

theorem symm (same : f.SameBody g) : g.SameBody f :=
  ⟨same.toSameHead.symm, same.personality.symm, same.blocks.symm⟩

theorem localIds (same : f.SameBody g) : g.localIds = f.localIds := localIds_of_same same.params same.blocks

theorem coherent (same : f.SameBody g) (coherent : f.Coherent) : g.Coherent :=
  coherent_of_same same.params same.blocks coherent

theorem wellFormed (same : f.SameBody g) (wellFormed : f.WellFormed) : g.WellFormed :=
  wellFormed_of_same same.params same.blocks wellFormed

theorem names (same : f.SameBody g) {s : SymbolId} (named : g.Names s) : f.Names s := by
  rcases named with ⟨o, present, named⟩ | ⟨c, personality, named⟩
  · exact .inl ⟨o, by rwa [operands, same.blocks] at present, named⟩
  · exact .inr ⟨c, same.personality ▸ personality, named⟩

theorem writesOut (same : f.SameBody g) {node : Meta} (written : g.WritesOut node) : f.WritesOut node := by
  rwa [WritesOut, same.blocks] at written

end SameBody

theorem setParamAttrs_same (params : List Param) (i : Nat) (attrs : List String) :
    (setParamAttrs params i attrs).map (fun p => (p.id, p.type)) = params.map fun p => (p.id, p.type) := by
  apply List.ext_getElem?
  intro k
  simp only [setParamAttrs, List.getElem?_map, List.getElem?_modify]
  cases params[k]? with
  | none => rfl
  | some p => by_cases here : i = k <;> simp [here]

theorem copyParamAttrs_same (target f : Function) (pos : Int) (i : Nat) : f.SameBody (copyParamAttrs target f pos i) := by
  unfold copyParamAttrs
  dsimp only
  split
  · exact .refl f
  · split
    · exact ⟨⟨rfl, rfl, setParamAttrs_same _ _ _, rfl, rfl, rfl, rfl⟩, rfl, rfl⟩
    · exact .refl f

theorem copyParamAttrs_foldl_same (target f : Function) (positions : List (Int × Nat)) :
    f.SameBody (positions.foldl (fun g e => copyParamAttrs target g e.1 e.2) f) := by
  induction positions generalizing f with
  | nil => exact .refl f
  | cons e positions ih => exact (copyParamAttrs_same target f e.1 e.2).trans (ih _)

theorem copyCallAttributes_same (f target : Function) (positions : List Int) :
    f.SameBody (f.copyCallAttributes target positions) := by
  have first : f.SameBody
      { f with resultAttrs := if f.result.same target.result then target.resultAttrs else f.resultAttrs } :=
    ⟨⟨rfl, rfl, rfl, rfl, rfl, rfl, rfl⟩, rfl, rfl⟩
  exact first.trans (copyParamAttrs_foldl_same target _ positions.zipIdx)

theorem detachSubprogram?_same {g : Function} (detached : f.detachSubprogram? = some g) : f.SameBody g := by
  unfold detachSubprogram? at detached
  split at detached
  · cases detached
    exact ⟨⟨rfl, rfl, rfl, rfl, rfl, rfl, rfl⟩, rfl, rfl⟩
  · cases detached

end Function
end CallFusion.Ir
