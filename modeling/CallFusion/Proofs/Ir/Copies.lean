import CallFusion.Proofs.Ir.Cloning

/-!
A copy under another signature is its source renamed. Block by block and slot by slot it has what the source has,
with parameters, blocks and results replaced by those in the same positions; a debug slot that held a parameter
without a counterpart holds an undefined value.
-/

namespace CallFusion.Ir

/-- A part of a function that slots can hold, by its position. -/
inductive Place where
  | param (i : Nat)
  | block (b : Nat)
  | inst (b k : Nat)
  | term (b : Nat)
  deriving DecidableEq, Repr

/-- An operation without what its slots hold. -/
def Operation.shape (op : Operation Value) : Operation Unit := op.mapOperands fun _ _ => ()

def Terminator.shape (t : Terminator Value) : Terminator Unit := t.mapOperands fun _ _ => ()

theorem Operation.shape_mapOperands (h : Bool → Value → Value) (op : Operation Value) :
    (op.mapOperands h).shape = op.shape := by
  rw [shape, mapOperands_mapOperands]
  rfl

theorem Terminator.shape_mapOperands (h : Bool → Value → Value) (t : Terminator Value) :
    (t.mapOperands h).shape = t.shape := by
  rw [shape, mapOperands_mapOperands]
  rfl

namespace Function

def at? (f : Function) : Place → Option Value
  | .param i => (f.params[i]?).map Param.value
  | .block b => (f.blocks[b]?).map fun d => .block d.id
  | .inst b k => (f.blocks[b]?).bind fun d => (d.insts[k]?).bind fun i => if i.op.hasResult then some i.value else none
  | .term b => (f.blocks[b]?).bind fun d => if d.term.op.hasResult then some d.term.value else none

/-- The parameter at a position has a counterpart among the types. -/
def Keeps (f : Function) (types : List Ty) (i : Nat) : Prop := ∃ t, types[i]? = some t ∧ f.hasParam i t = true

/-- What a slot of the source holds, and what it holds in a copy. -/
structure Image (f g : Function) (types : List Ty) (o o' : Operand Value) : Prop where
  debug : o'.debug = o.debug
  kept : ∀ i, f.at? (.param i) = some o.value → f.Keeps types i → g.at? (.param i) = some o'.value
  lost : ∀ i, f.at? (.param i) = some o.value → ¬ f.Keeps types i →
    o.debug = true ∧ o'.value = .const 0 (.undef o.value.type)
  part : ∀ place, (∀ i, place ≠ .param i) → f.at? place = some o.value → g.at? place = some o'.value
  other : (∀ place, f.at? place ≠ some o.value) → o'.value = o.value

structure CopiedInst (f g : Function) (types : List Ty) (i j : Instruction) : Prop where
  type : j.type = i.type
  attachments : j.attachments = i.attachments
  shape : j.op.shape = i.op.shape
  slots : List.Forall₂ (f.Image g types) i.op.operands j.op.operands

structure CopiedTerm (f g : Function) (types : List Ty) (s t : Terminal) : Prop where
  type : t.type = s.type
  attachments : t.attachments = s.attachments
  shape : t.op.shape = s.op.shape
  slots : List.Forall₂ (f.Image g types) s.op.operands t.op.operands

/-- A function and a copy of it for other parameter types. -/
structure Copied (f : Function) (types : List Ty) (name : String) (g : Function) : Prop where
  name : g.symbol = .ofName name
  result : g.result = f.result
  linkage : g.linkage = f.linkage
  visibility : g.visibility = f.visibility
  convention : g.convention = f.convention
  attrs : g.attrs = f.attrs
  resultAttrs : g.resultAttrs = f.resultAttrs
  personality : g.personality = f.personality
  attachments : g.attachments = f.attachments
  params : g.params.map (·.type) = types
  blocks : List.Forall₂ (fun b c =>
    List.Forall₂ (f.CopiedInst g types) b.insts c.insts ∧ f.CopiedTerm g types b.term c.term) f.blocks g.blocks
  /-- Slots hold what is the copy's own, as far as those of the source hold what is the source's own. -/
  owned : (∀ o ∈ f.operands, f.Owns o.value) → ∀ o ∈ g.operands, g.Owns o.value
  /-- No number of a parameter without a counterpart is left. -/
  lost : ∀ i p, f.params[i]? = some p → ¬ f.Keeps types i → p.id ∉ g.localIds ∧ g.Unused p.id

variable {f : Function} {types : List Ty}

theorem keeps_iff {i : Nat} {p : Param} (given : f.params[i]? = some p) :
    f.Keeps types i ↔ ∃ t, types[i]? = some t ∧ p.type.same t = true := by
  simp [Keeps, hasParam, given]

theorem param_position (numbered : f.localIds.Nodup) {i j : Nat} {p q : Param} (first : f.params[i]? = some p)
    (second : f.params[j]? = some q) (same : p.id = q.id) : i = j := by
  have ids : (f.params.map (·.id)).Nodup := numbered.of_append_left
  have within : i < (f.params.map (·.id)).length := by
    rw [List.length_map]
    exact (List.getElem?_eq_some_iff.mp first).1
  refine (List.getElem?_inj within ids).mp ?_
  rw [List.getElem?_map, List.getElem?_map, first, second, Option.map_some, Option.map_some, same]

theorem paramAt_kept {i : Nat} {p : Param} (given : f.params[i]? = some p) {t : Ty} (same : p.type.same t = true) :
    f.paramAt t i = ⟨p.id, p.ident.clearNumber, t, []⟩ := by
  simp only [paramAt, given, same, if_true]

theorem mem_orphans {p : Param} : p ∈ f.orphans types ↔ ∃ i, f.params[i]? = some p ∧ ¬ f.Keeps types i := by
  have lost : ∀ i, f.params[i]? = some p →
      ((!((types[i]?).map fun t => p.type.same t).getD false) = true ↔ ¬ f.Keeps types i) := by
    intro i given
    rw [keeps_iff given]
    cases types[i]? <;> simp
  constructor
  · intro listed
    obtain ⟨⟨q, i⟩, found, rfl⟩ := List.mem_map.mp listed
    obtain ⟨position, orphan⟩ := List.mem_filter.mp found
    have given := List.mem_zipIdx_iff_getElem?.mp position
    exact ⟨i, given, (lost i given).mp orphan⟩
  · rintro ⟨i, given, orphan⟩
    have position : (p, i) ∈ f.params.zipIdx := List.mem_zipIdx_iff_getElem?.mpr given
    exact List.mem_map.mpr ⟨(p, i), List.mem_filter.mpr ⟨position, (lost i given).mpr orphan⟩, rfl⟩

theorem carryOver_kept (numbered : f.localIds.Nodup) {i : Nat} {p : Param} (given : f.params[i]? = some p) {t : Ty}
    (typed : types[i]? = some t) (same : p.type.same t = true) {v : Value} (held : v.local? = some p.id) (debug : Bool) :
    carryOver (f.paramsFor types) (f.orphans types) debug v = .local p.id t := by
  have stays : isOrphan (f.orphans types) v = false := by
    rw [Bool.eq_false_iff, ne_eq, isOrphan_iff]
    rintro ⟨q, orphan, number⟩
    obtain ⟨j, other, gone⟩ := mem_orphans.mp orphan
    have ids : p.id = q.id := Option.some.inj (held.symm.trans number)
    obtain rfl := param_position numbered given other ids
    rw [given] at other
    cases other
    exact gone ((keeps_iff given).mpr ⟨t, typed, same⟩)
  have counterpart := paramAt_kept given same
  have listed : f.paramAt t i ∈ f.paramsFor types :=
    List.mem_map.mpr ⟨(t, i), List.mem_zipIdx_iff_getElem?.mpr typed, rfl⟩
  have number : (f.paramAt t i).id = p.id := by rw [counterpart]
  unfold carryOver
  rw [stays, Bool.and_false, if_neg Bool.false_ne_true]
  cases found : (f.paramsFor types).find? fun q => q.value.same v with
  | none =>
    have missed := List.find?_eq_none.mp found _ listed
    rw [Param.value, Value.local_same, held, number] at missed
    exact absurd (beq_self_eq_true _) missed
  | some q =>
    have names := List.find?_some found
    simp only [Param.value, Value.local_same, held, beq_iff_eq] at names
    have same_id : q.id = (f.paramAt t i).id := (Option.some.inj names).symm.trans number.symm
    have distinct := paramsFor_ids_nodup numbered types
    have only := List.inj_on_of_nodup_map distinct (List.mem_of_find?_eq_some found) listed same_id
    rw [only, counterpart]
    rfl

theorem carryOver_orphan {i : Nat} {p : Param} (given : f.params[i]? = some p) (gone : ¬ f.Keeps types i) {v : Value}
    (held : v.local? = some p.id) :
    carryOver (f.paramsFor types) (f.orphans types) true v = .const 0 (.undef v.type) := by
  have orphan : isOrphan (f.orphans types) v = true :=
    isOrphan_iff.mpr ⟨p, mem_orphans.mpr ⟨i, given, gone⟩, held⟩
  rw [carryOver, orphan]
  rfl

theorem carryOver_other {v : Value} (noParam : ∀ p ∈ f.params, v.local? ≠ some p.id)
    (noFresh : ∀ k, v.local? ≠ some (f.freshId + k)) (debug : Bool) :
    carryOver (f.paramsFor types) (f.orphans types) debug v = v := by
  have stays : isOrphan (f.orphans types) v = false := by
    rw [Bool.eq_false_iff, ne_eq, isOrphan_iff]
    rintro ⟨q, orphan, number⟩
    obtain ⟨j, given, _⟩ := mem_orphans.mp orphan
    exact noParam q (List.mem_of_getElem? given) number
  have none : (f.paramsFor types).find? (fun q => q.value.same v) = none := by
    rw [List.find?_eq_none]
    intro q listed names
    rw [Param.value, Value.local_same, beq_iff_eq] at names
    obtain ⟨⟨t, i⟩, _, rfl⟩ := List.mem_map.mp listed
    rcases f.paramAt_id t i with ⟨p, given, same⟩ | fresh
    · exact noParam p (List.mem_of_getElem? given) (same ▸ names)
    · exact noFresh i (fresh ▸ names)
  unfold carryOver
  rw [stays, none, Bool.and_false, if_neg Bool.false_ne_true]
  rfl

theorem noFresh_of_present {o : Operand Value} (present : o ∈ f.operands) (k : Nat) :
    o.value.local? ≠ some (f.freshId + k) := by
  intro held
  obtain ⟨t, form⟩ := Value.local?_eq_some.mp held
  exact Nat.not_lt.mpr (Nat.le_add_right _ _) (lt_freshId_of_local present form)

@[simp] theorem at?_clearNumbers (f : Function) (place : Place) : f.clearNumbers.at? place = f.at? place := by
  cases place with
  | param i =>
    simp only [at?, clearNumbers, List.getElem?_map, Option.map_map]
    rfl
  | block b => simp [at?, clearNumbers, Function.comp_def]
  | inst b k =>
    simp only [at?, clearNumbers_blocks, List.getElem?_map]
    cases f.blocks[b]? with
    | none => rfl
    | some d =>
      simp only [Option.map_some, Option.bind_some, List.getElem?_map]
      cases d.insts[k]? <;> rfl
  | term b =>
    simp only [at?, clearNumbers_blocks, List.getElem?_map]
    cases f.blocks[b]? <;> rfl

@[simp] theorem at?_mapOperands (h : Bool → Value → Value) (f : Function) (place : Place) :
    (f.mapOperands h).at? place = f.at? place := by
  cases place with
  | param i => rfl
  | block b => simp [at?, Function.comp_def]
  | inst b k =>
    simp only [at?, mapOperands_blocks, List.getElem?_map]
    cases f.blocks[b]? with
    | none => rfl
    | some d =>
      simp only [Option.map_some, Option.bind_some, Block.mapOperands_insts, List.getElem?_map]
      cases d.insts[k]? with
      | none => rfl
      | some i => simp
  | term b =>
    simp only [at?, mapOperands_blocks, List.getElem?_map]
    cases f.blocks[b]? with
    | none => rfl
    | some d => simp

theorem at?_retyped {place : Place} (part : ∀ i, place ≠ .param i) (name : String) (id : SymbolId) :
    (f.retyped types name id).at? place = f.at? place := by
  cases place with
  | param i => exact (part i rfl).elim
  | _ => rfl

theorem at?_part {place : Place} (part : ∀ i, place ≠ .param i) {v : Value} (named : f.at? place = some v) :
    (∃ id, v = .block id) ∨ ∃ b ∈ f.blocks, ∃ x ∈ b.ids, v.local? = some x := by
  cases place with
  | param i => exact (part i rfl).elim
  | block b =>
    obtain ⟨d, _, rfl⟩ := Option.map_eq_some_iff.mp named
    exact .inl ⟨d.id, rfl⟩
  | inst b k =>
    obtain ⟨d, found, named⟩ := Option.bind_eq_some_iff.mp named
    obtain ⟨i, carried, named⟩ := Option.bind_eq_some_iff.mp named
    split at named
    · cases named
      exact .inr ⟨d, List.mem_of_getElem? found, i.id, Block.inst_id_mem_ids (List.mem_of_getElem? carried), rfl⟩
    · cases named
  | term b =>
    obtain ⟨d, found, named⟩ := Option.bind_eq_some_iff.mp named
    split at named
    · cases named
      exact .inr ⟨d, List.mem_of_getElem? found, d.term.id, d.term_id_mem_ids, rfl⟩
    · cases named

theorem at?_param {i : Nat} {v : Value} : f.at? (.param i) = some v ↔ ∃ p, f.params[i]? = some p ∧ v = p.value :=
  Option.map_eq_some_iff.trans (exists_congr fun _ => and_congr_right fun _ => eq_comm)

theorem at?_of_number (typed : f.Typed) {o : Operand Value} (present : o ∈ f.operands) {i : Nat} {p : Param}
    (given : f.params[i]? = some p) (held : o.value.local? = some p.id) : f.at? (.param i) = some o.value :=
  at?_param.mpr ⟨p, given, typed o present p.value (param_value_mem_results (List.mem_of_getElem? given)) p.id held rfl⟩

/-- What a slot of a copy holds is the image of what the slot of its source holds. -/
theorem image_carryOver (coherent : f.Coherent) (typed : f.Typed) {name : String} {id : SymbolId} {g : Function}
    (cloned : f.withSignature types name id = .ok g) {o : Operand Value} (present : o ∈ f.operands) :
    f.Image g types o (o.map (carryOver (f.paramsFor types) (f.orphans types))) := by
  obtain ⟨code, rfl⟩ := withSignature_ok cloned
  constructor
  case debug => rfl
  case kept =>
    intro i named keeps
    obtain ⟨p, given, form⟩ := at?_param.mp named
    obtain ⟨t, listed, same⟩ := (keeps_iff given).mp keeps
    have held : o.value.local? = some p.id := by rw [form]; rfl
    rw [Operand.map_value, carryOver_kept coherent.numbered given listed same held, at?_clearNumbers,
      at?_mapOperands, at?_param]
    refine ⟨f.paramAt t i, ?_, by rw [paramAt_kept given same]; rfl⟩
    simp [retyped, paramsFor_eq, listed]
  case lost =>
    -- code that uses such a parameter would have made the copy fail
    intro i named gone
    obtain ⟨p, given, form⟩ := at?_param.mp named
    have held : o.value.local? = some p.id := by rw [form]; rfl
    have debugged : o.debug = true := by
      by_contra plain
      have safe := code o present (Bool.eq_false_iff.mpr plain)
      rw [isOrphan_iff.mpr ⟨p, mem_orphans.mpr ⟨i, given, gone⟩, held⟩] at safe
      cases safe
    exact ⟨debugged, by rw [Operand.map_value, debugged, carryOver_orphan given gone held]⟩
  case part =>
    intro place part named
    rw [at?_clearNumbers, at?_mapOperands, at?_retyped part, named, Operand.map_value]
    rcases at?_part part named with ⟨b, block⟩ | ⟨b, member, x, inside, held⟩
    · rw [block, carryOver_block]
    · rw [carryOver_other (fun p given same => ?_) (noFresh_of_present present)]
      exact param_not_in_block coherent.numbered given member inside (Option.some.inj (same.symm.trans held))
  case other =>
    intro nowhere
    rw [Operand.map_value]
    refine carryOver_other (fun p given held => ?_) (noFresh_of_present present) _
    obtain ⟨i, position⟩ := List.mem_iff_getElem?.mp given
    exact nowhere (.param i) (at?_of_number typed present position held)

theorem lost_not_mem_paramsFor (numbered : f.localIds.Nodup) {i : Nat} {p : Param} (given : f.params[i]? = some p)
    (gone : ¬ f.Keeps types i) : ∀ q ∈ f.paramsFor types, q.id ≠ p.id := by
  intro q listed same
  have below := param_lt_freshId given
  obtain ⟨⟨t, j⟩, position, rfl⟩ := List.mem_map.mp listed
  have typed : types[j]? = some t := List.mem_zipIdx_iff_getElem?.mp position
  have fresh : ∀ k, p.id ≠ f.freshId + k := fun k equal => Nat.not_lt.mpr (Nat.le_add_right _ _) (equal ▸ below)
  change (f.paramAt t j).id = p.id at same
  rcases f.paramAt_id t j with ⟨q, other, equal⟩ | new
  · obtain rfl := param_position numbered given other (same.symm.trans equal)
    have differ : ¬ p.type.same t = true := fun agree => gone ((keeps_iff given).mpr ⟨t, typed, agree⟩)
    rw [paramAt, given] at same
    simp only [differ, if_false, Bool.false_eq_true] at same
    exact fresh i same.symm
  · exact fresh j (same.symm.trans new)

/-- A copy has nothing left of a parameter without a counterpart. -/
theorem lost_number (numbered : f.localIds.Nodup) {name : String} {id : SymbolId} {g : Function}
    (cloned : f.withSignature types name id = .ok g) {i : Nat} {p : Param} (given : f.params[i]? = some p)
    (gone : ¬ f.Keeps types i) : p.id ∉ g.localIds ∧ g.Unused p.id := by
  obtain ⟨code, rfl⟩ := withSignature_ok cloned
  have apart := lost_not_mem_paramsFor numbered given gone
  constructor
  · rw [clearNumbers_localIds, localIds_mapOperands, localIds_eq]
    intro present
    rcases List.mem_append.mp present with param | inside
    · obtain ⟨q, listed, same⟩ := List.mem_map.mp param
      exact apart q listed same
    · obtain ⟨b, member, held⟩ := List.mem_flatMap.mp inside
      exact param_not_in_block numbered (List.mem_of_getElem? given) member held rfl
  · intro o present
    rw [clearNumbers_operands, operands_mapOperands] at present
    obtain ⟨old, member, rfl⟩ := List.mem_map.mp present
    rw [Operand.map_value]
    rcases carryOver_cases (f.paramsFor types) (f.orphans types) old.debug old.value with
      ⟨t, form⟩ | ⟨q, listed, form⟩ | ⟨form, debugged, _⟩
    · simp [form]
    · rw [form]
      exact fun same => apart q listed (Option.some.inj same)
    · rw [form]
      intro held
      have orphan := isOrphan_iff.mpr ⟨p, mem_orphans.mpr ⟨i, given, gone⟩, held⟩
      cases debug : old.debug with
      | false => exact absurd orphan (by rw [code old member debug]; exact Bool.false_ne_true)
      | true => exact absurd orphan (by rw [debugged debug]; exact Bool.false_ne_true)

theorem withSignature_copied (coherent : f.Coherent) (typed : f.Typed) {name : String} {id : SymbolId} {g : Function}
    (cloned : f.withSignature types name id = .ok g) : f.Copied types name g := by
  obtain ⟨_, form⟩ := withSignature_ok cloned
  have slots : ∀ {ops : List (Operand Value)}, (∀ o ∈ ops, o ∈ f.operands) →
      List.Forall₂ (f.Image g types) ops (ops.map (Operand.map (carryOver (f.paramsFor types) (f.orphans types)))) := by
    intro ops inside
    rw [List.forall₂_map_right_iff, List.forall₂_same]
    exact fun o listed => image_carryOver coherent typed cloned (inside o listed)
  constructor
  case owned => exact withSignature_owned cloned
  case lost => exact fun i p given gone => lost_number coherent.numbered cloned given gone
  case params => exact withSignature_types cloned
  case blocks =>
    have blocks : g.blocks = f.blocks.map fun b =>
        { b.mapOperands (carryOver (f.paramsFor types) (f.orphans types)) with
          ident := b.ident.clearNumber
          insts := b.insts.map fun i =>
            { i.mapOperands (carryOver (f.paramsFor types) (f.orphans types)) with ident := i.ident.clearNumber }
          term := { b.term.mapOperands (carryOver (f.paramsFor types) (f.orphans types)) with
            ident := b.term.ident.clearNumber } } := by
      rw [form, clearNumbers_blocks, mapOperands_blocks, List.map_map]
      refine List.map_congr_left fun b _ => ?_
      simp only [Function.comp_apply, Block.mapOperands, List.map_map]
      rfl
    rw [blocks, List.forall₂_map_right_iff, List.forall₂_same]
    intro b member
    constructor
    · rw [List.forall₂_map_right_iff, List.forall₂_same]
      intro i carried
      refine ⟨rfl, rfl, i.op.shape_mapOperands _, ?_⟩
      rw [Instruction.mapOperands_op, Operation.operands_mapOperands]
      exact slots fun o listed => block_slot member (Block.inst_slot carried listed)
    · refine ⟨rfl, rfl, b.term.op.shape_mapOperands _, ?_⟩
      rw [Terminal.mapOperands_op, Terminator.operands_mapOperands]
      exact slots fun o listed => block_slot member (Block.term_slot listed)
  all_goals
    rw [form]
    rfl

/-- Code uses a parameter without a counterpart among the types. -/
def UsesLost (f : Function) (types : List Ty) : Prop :=
  ∃ o ∈ f.operands, o.debug = false ∧ ∃ i, f.at? (.param i) = some o.value ∧ ¬ f.Keeps types i

theorem usesLost_iff (typed : f.Typed) :
    f.UsesLost types ↔ ∃ o ∈ f.operands, o.debug = false ∧ isOrphan (f.orphans types) o.value = true := by
  refine exists_congr fun o => and_congr_right fun present => and_congr_right fun _ => ?_
  rw [isOrphan_iff]
  constructor
  · rintro ⟨i, named, gone⟩
    obtain ⟨p, given, form⟩ := at?_param.mp named
    exact ⟨p, mem_orphans.mpr ⟨i, given, gone⟩, by rw [form]; rfl⟩
  · rintro ⟨p, orphan, held⟩
    obtain ⟨i, given, gone⟩ := mem_orphans.mp orphan
    exact ⟨i, at?_of_number typed present given held, gone⟩

/-- A function is not copied if it has no body, or if its code would lose a parameter. -/
theorem withSignature_refused (typed : f.Typed) (refused : f.isDeclaration = true ∨ f.UsesLost types)
    (name : String) (id : SymbolId) :
    ∃ what, f.withSignature types name id = .error (.structural what) := by
  unfold withSignature
  split
  · exact ⟨_, rfl⟩
  · next body =>
    obtain ⟨o, present, code, orphan⟩ := (usesLost_iff typed).mp (refused.resolve_left body)
    dsimp only
    split
    · exact ⟨_, rfl⟩
    · next none =>
      have missed := List.find?_eq_none.mp none o present
      simp [code, orphan] at missed

theorem withSignature_completes (typed : f.Typed) (body : f.isDeclaration = false) (kept : ¬ f.UsesLost types)
    (name : String) (id : SymbolId) : ∃ g, f.withSignature types name id = .ok g := by
  have none : f.operands.find? (fun o => !o.debug && isOrphan (f.orphans types) o.value) = none := by
    rw [List.find?_eq_none]
    intro o present lost
    rw [Bool.and_eq_true, Bool.not_eq_true'] at lost
    exact kept ((usesLost_iff typed).mpr ⟨o, present, lost⟩)
  simp only [withSignature, body, none, Bool.false_eq_true, if_false]
  exact ⟨_, rfl⟩

end Function

/-- A copy is refused where there is no function, where the function has no body and where its code uses a parameter
without a counterpart. Everywhere else there is a copy, and it is the function renamed. -/
theorem copy_renames_source {source : Option Function} (coherent : ∀ f ∈ source, f.Coherent) (typed : ∀ f ∈ source, f.Typed)
    (types : List Ty) (name : String) (id : SymbolId) :
    (source = none → Function.cloneOf source types name id = .error (.functionNotFound name)) ∧
    ∀ f ∈ source,
      ((∃ what, Function.cloneOf source types name id = .error (.structural what)) ↔
        f.isDeclaration = true ∨ f.UsesLost types) ∧
      (¬ (f.isDeclaration = true ∨ f.UsesLost types) →
        ∃ g, Function.cloneOf source types name id = .ok g ∧ f.Copied types name g) := by
  refine ⟨fun missing => by rw [missing]; rfl, fun f given => ?_⟩
  obtain rfl := Option.mem_def.mp given
  have total : ¬ (f.isDeclaration = true ∨ f.UsesLost types) →
      ∃ g, f.withSignature types name id = .ok g := by
    intro allowed
    rw [not_or, Bool.not_eq_true] at allowed
    exact Function.withSignature_completes (typed f rfl) allowed.1 allowed.2 name id
  refine ⟨⟨?_, fun refused => Function.withSignature_refused (typed f rfl) refused name id⟩, fun allowed => ?_⟩
  · rintro ⟨what, failed⟩
    by_contra allowed
    obtain ⟨g, copied⟩ := total allowed
    rw [Function.cloneOf, copied] at failed
    cases failed
  · obtain ⟨g, copied⟩ := total allowed
    exact ⟨g, copied, Function.withSignature_copied (coherent f rfl) (typed f rfl) copied⟩

/-- A function with a parameter that only a debug slot holds. -/
def watching : Function where
  id := ⟨1⟩
  symbol := .named "watching"
  result := .int 32
  params := [⟨0, .named "x", .int 32, []⟩, ⟨1, .named "y", .bytePointer, []⟩]
  blocks := [⟨2, .named "entry",
    [⟨3, .named "r", .int 32, .freeze (.local 0 (.int 32)), []⟩,
      ⟨4, .number 0, .void, .call "" {
        callee := .symbol ⟨2⟩ (.pointer (.func .void [.metadata] false) 0)
        args := [.debugValue (.local 1 .bytePointer)] }, []⟩],
    ⟨5, .number 0, .void, .ret (some (.local 3 (.int 32))), []⟩⟩]

theorem watching_copied :
    ∃ g, Function.cloneOf (some watching) [.int 32] "copy" ⟨9⟩ = .ok g ∧ watching.Copied [.int 32] "copy" g := by
  have coherent : watching.Coherent := ⟨by decide, by simp [watching, Terminator.targets]⟩
  have typed : watching.Typed := by
    simp [Function.Typed, watching, Function.operands, Function.results, Block.operands, Block.results,
      Operation.operands, Terminator.operands, Call.argOperands, Call.bundleOperands, Argument.operands, Operand.code,
      Operation.hasResult, Terminator.hasResult, Param.value, Instruction.value, Value.symbol, Value.local?]
  have kept : ¬ watching.UsesLost [.int 32] := by
    rw [Function.usesLost_iff typed]
    decide +kernel
  have body : ¬ watching.isDeclaration = true := by decide
  refine ((copy_renames_source (by simpa using coherent) (by simpa using typed) [.int 32] "copy" ⟨9⟩).2 watching rfl).2 ?_
  exact fun refused => refused.elim body kept

end CallFusion.Ir
