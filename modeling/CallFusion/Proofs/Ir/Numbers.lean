import CallFusion.Proofs.Ir.Operands
import Mathlib.Data.List.Nodup

/-!
Numbers of the parts of a function. No two parts share a number, so a number leads to one block or one
instruction, and a fresh number is none of them.
-/

namespace CallFusion.Ir

def Block.ids (b : Block) : List LocalId := b.id :: (b.insts.map (·.id) ++ [b.term.id])

/-- What reading a function promises: every part has a number of its own, and control goes to blocks. -/
structure Function.Coherent (f : Function) : Prop where
  numbered : f.localIds.Nodup
  directed : ∀ b ∈ f.blocks, ∀ v ∈ b.term.op.targets, ∃ id, v = .block id

theorem le_foldl_max {x bound : Nat} {xs : List Nat} (present : x ∈ xs ∨ x ≤ bound) : x ≤ xs.foldl max bound := by
  induction xs generalizing bound with
  | nil => simpa using present
  | cons y ys ih =>
    apply ih
    rcases present with present | below
    · rcases List.mem_cons.mp present with rfl | later
      · exact .inr (Nat.le_max_right _ _)
      · exact .inl later
    · exact .inr (Nat.le_trans below (Nat.le_max_left _ _))

theorem nodup_exchange {before old new after : List Nat} (nodup : (before ++ (old ++ after)).Nodup)
    (distinct : new.Nodup) (fresh : ∀ x ∈ new, x ∈ old ∨ x ∉ before ++ (old ++ after)) :
    (before ++ (new ++ after)).Nodup := by
  simp only [List.nodup_append, List.mem_append] at nodup fresh ⊢
  obtain ⟨first, ⟨_, last, apart⟩, ahead⟩ := nodup
  refine ⟨first, ⟨distinct, last, ?_⟩, ?_⟩
  · intro x member y later same
    rcases fresh x member with kept | absent
    · exact apart x kept y later same
    · exact absent (.inr (.inr (same ▸ later)))
  · rintro x earlier y (member | later) same
    · rcases fresh y member with kept | absent
      · exact ahead x earlier y (.inl kept) same
      · exact absent (.inl (same ▸ earlier))
    · exact ahead x earlier y (.inr later) same

namespace Block

theorem id_mem_ids (b : Block) : b.id ∈ b.ids := List.mem_cons_self

theorem inst_id_mem_ids {b : Block} {i : Instruction} (member : i ∈ b.insts) : i.id ∈ b.ids :=
  List.mem_cons_of_mem _ (List.mem_append_left _ (List.mem_map.mpr ⟨i, member, rfl⟩))

theorem mem_ids_append {b : Block} {i : Instruction} {id : LocalId} :
    id ∈ { b with insts := b.insts ++ [i] }.ids ↔ id ∈ b.ids ∨ id = i.id := by
  simp only [ids, List.map_append, List.mem_cons, List.mem_append, List.map_cons, List.map_nil, List.not_mem_nil, or_false]
  grind

theorem term_id_mem_ids (b : Block) : b.term.id ∈ b.ids :=
  List.mem_cons_of_mem _ (List.mem_append_right _ List.mem_cons_self)

theorem inst_ids_nodup {b : Block} (distinct : b.ids.Nodup) : (b.insts.map (·.id)).Nodup :=
  ((List.nodup_cons.mp distinct).2).of_append_left

theorem indexOf?_split {b : Block} {earlier later : List Instruction} {i : Instruction}
    (insts : b.insts = earlier ++ i :: later) (ahead : ∀ j ∈ earlier, j.id ≠ i.id) :
    b.indexOf? i.id = some earlier.length := by
  have none : earlier.findIdx? (fun j => j.id == i.id) = none := by
    simpa [List.findIdx?_eq_none_iff] using ahead
  simp [indexOf?, insts, List.findIdx?_append, none, List.findIdx?_cons]

theorem find?_split {b : Block} {earlier later : List Instruction} {i : Instruction}
    (insts : b.insts = earlier ++ i :: later) (ahead : ∀ j ∈ earlier, j.id ≠ i.id) :
    b.insts.find? (fun j => j.id == i.id) = some i := by
  have none : earlier.find? (fun j => j.id == i.id) = none := by simpa using ahead
  simp [insts, none]

theorem exists_split {b : Block} (distinct : b.ids.Nodup) {i : Instruction} (member : i ∈ b.insts) :
    ∃ earlier later, b.insts = earlier ++ i :: later ∧ (∀ j ∈ earlier, j.id ≠ i.id) ∧ ∀ j ∈ later, j.id ≠ i.id := by
  obtain ⟨earlier, later, split⟩ := List.append_of_mem member
  have ids := inst_ids_nodup distinct
  rw [split, List.map_append, List.map_cons, List.nodup_append] at ids
  obtain ⟨_, last, apart⟩ := ids
  refine ⟨earlier, later, split, fun j first => ?_, fun j behind same => ?_⟩
  · exact apart j.id (List.mem_map.mpr ⟨j, first, rfl⟩) i.id List.mem_cons_self
  · exact (List.nodup_cons.mp last).1 (same ▸ List.mem_map.mpr ⟨j, behind, rfl⟩)

end Block

namespace Function

variable {f : Function}

theorem localIds_eq (f : Function) : f.localIds = f.params.map (·.id) ++ f.blocks.flatMap Block.ids := rfl

theorem mem_localIds_of_block {b : Block} (member : b ∈ f.blocks) {id : LocalId} (present : id ∈ b.ids) :
    id ∈ f.localIds :=
  List.mem_append_right _ (List.mem_flatMap.mpr ⟨b, member, present⟩)

theorem mem_localIds_of_param {p : Param} (member : p ∈ f.params) : p.id ∈ f.localIds :=
  List.mem_append_left _ (List.mem_map.mpr ⟨p, member, rfl⟩)

theorem block_ids_nodup (numbered : f.localIds.Nodup) {b : Block} (member : b ∈ f.blocks) : b.ids.Nodup := by
  have blocks : (f.blocks.flatMap Block.ids).Nodup := numbered.of_append_right
  exact (List.nodup_flatMap.mp blocks).1 b member

theorem block_unique (numbered : f.localIds.Nodup) {b c : Block} (first : b ∈ f.blocks) (second : c ∈ f.blocks)
    {id : LocalId} (inFirst : id ∈ b.ids) (inSecond : id ∈ c.ids) : b = c := by
  have blocks : (f.blocks.flatMap Block.ids).Nodup := numbered.of_append_right
  have apart := (List.nodup_flatMap.mp blocks).2
  obtain ⟨before, after, split⟩ := List.append_of_mem first
  rw [split, List.pairwise_append] at apart
  rw [split, List.mem_append, List.mem_cons] at second
  rcases second with earlier | same | later
  · exact (apart.2.2 c earlier b List.mem_cons_self inSecond inFirst).elim
  · exact same.symm
  · exact ((List.pairwise_cons.mp apart.2.1).1 c later inFirst inSecond).elim

theorem block_eq_of_id (numbered : f.localIds.Nodup) {b c : Block} (first : b ∈ f.blocks) (second : c ∈ f.blocks)
    (same : b.id = c.id) : b = c :=
  block_unique numbered first second b.id_mem_ids (same ▸ c.id_mem_ids)

theorem param_not_in_block (numbered : f.localIds.Nodup) {p : Param} (given : p ∈ f.params) {b : Block}
    (member : b ∈ f.blocks) {id : LocalId} (present : id ∈ b.ids) : p.id ≠ id := by
  rw [localIds_eq, List.nodup_append] at numbered
  exact numbered.2.2 p.id (List.mem_map.mpr ⟨p, given, rfl⟩) id (List.mem_flatMap.mpr ⟨b, member, present⟩)

/-- A block of a function, with the blocks ahead of it and behind it, which have other numbers. -/
structure SplitAt (f : Function) (before : List Block) (b : Block) (after : List Block) : Prop where
  blocks : f.blocks = before ++ b :: after
  ahead : ∀ c ∈ before, c.id ≠ b.id
  behind : ∀ c ∈ after, c.id ≠ b.id

theorem exists_splitAt (numbered : f.localIds.Nodup) {b : Block} (member : b ∈ f.blocks) :
    ∃ before after, f.SplitAt before b after := by
  obtain ⟨before, after, split⟩ := List.append_of_mem member
  have blocks : (f.blocks.flatMap Block.ids).Nodup := numbered.of_append_right
  have apart := (List.nodup_flatMap.mp blocks).2
  rw [split, List.pairwise_append] at apart
  obtain ⟨_, rest, crossing⟩ := apart
  refine ⟨before, after, split, fun c earlier same => ?_, fun c later same => ?_⟩
  · exact crossing c earlier b List.mem_cons_self c.id_mem_ids (same ▸ b.id_mem_ids)
  · exact (List.pairwise_cons.mp rest).1 c later b.id_mem_ids (same ▸ c.id_mem_ids)

namespace SplitAt

variable {before after : List Block} {b : Block}

theorem block? (split : f.SplitAt before b after) : f.block? b.id = some b := by
  have none : before.find? (fun c => c.id == b.id) = none := by simpa using split.ahead
  simp [Function.block?, split.blocks, none]

theorem updateBlock (split : f.SplitAt before b after) (h : Block → Block) :
    f.updateBlock b.id h = { f with blocks := before ++ h b :: after } := by
  have first : before.map (fun c => if c.id == b.id then h c else c) = before.map fun c => c :=
    List.map_congr_left fun c earlier => by simp [split.ahead c earlier]
  have last : after.map (fun c => if c.id == b.id then h c else c) = after.map fun c => c :=
    List.map_congr_left fun c later => by simp [split.behind c later]
  simp only [Function.updateBlock, split.blocks, List.map_append, List.map_cons, first, last, List.map_id',
    beq_self_eq_true, if_true]

theorem mapOperands (split : f.SplitAt before b after) (g : Bool → Value → Value) :
    (f.mapOperands g).SplitAt (before.map (·.mapOperands g)) (b.mapOperands g) (after.map (·.mapOperands g)) where
  blocks := by simp [split.blocks]
  ahead := by simpa using split.ahead
  behind := by simpa using split.behind

theorem exchanged (split : f.SplitAt before b after) {g : Function} {c : Block} (same : c.id = b.id)
    (blocks : g.blocks = before ++ c :: after) : g.SplitAt before c after where
  blocks := blocks
  ahead := by simpa [same] using split.ahead
  behind := by simpa [same] using split.behind

end SplitAt

theorem mem_updateBlock {id : LocalId} {h : Block → Block} {b : Block} (member : b ∈ f.blocks) :
    (b.id = id → h b ∈ (f.updateBlock id h).blocks) ∧ (b.id ≠ id → b ∈ (f.updateBlock id h).blocks) := by
  constructor
  · intro here
    exact List.mem_map.mpr ⟨b, member, by simp [here]⟩
  · intro other
    exact List.mem_map.mpr ⟨b, member, by simp [other]⟩

theorem updateBlock_congr {id : LocalId} {h k : Block → Block} (agree : ∀ b ∈ f.blocks, b.id = id → h b = k b) :
    f.updateBlock id h = f.updateBlock id k := by
  have blocks : f.blocks.map (fun b => if b.id == id then h b else b) =
      f.blocks.map fun b => if b.id == id then k b else b := by
    apply List.map_congr_left
    intro b member
    by_cases here : b.id = id
    · simp [here, agree b member here]
    · simp [here]
  simp only [updateBlock, blocks]

theorem mem_localIds_updateBlock {id x : LocalId} {h : Block → Block} (present : x ∈ (f.updateBlock id h).localIds) :
    x ∈ f.localIds ∨ ∃ b ∈ f.blocks, b.id = id ∧ x ∈ (h b).ids := by
  rw [localIds_eq] at present
  rcases List.mem_append.mp present with param | present
  · exact .inl (List.mem_append_left _ param)
  · obtain ⟨c, changed, held⟩ := List.mem_flatMap.mp present
    obtain ⟨b, member, rfl⟩ := List.mem_map.mp changed
    by_cases here : b.id = id
    · exact .inr ⟨b, member, here, by rwa [if_pos (by simpa using here)] at held⟩
    · rw [if_neg (by simpa using here)] at held
      exact .inl (mem_localIds_of_block member held)

theorem not_mem_localIds_updateBlock (numbered : f.localIds.Nodup) {b : Block} (member : b ∈ f.blocks) {x : LocalId}
    (own : x ∈ b.ids) {h : Block → Block} (lost : x ∉ (h b).ids) : x ∉ (f.updateBlock b.id h).localIds := by
  intro present
  rw [localIds_eq] at present
  rcases List.mem_append.mp present with param | inside
  · obtain ⟨p, given, equal⟩ := List.mem_map.mp param
    exact param_not_in_block numbered given member own equal
  · obtain ⟨c, changed, held⟩ := List.mem_flatMap.mp inside
    obtain ⟨d, within, rfl⟩ := List.mem_map.mp changed
    by_cases equal : d.id = b.id
    · obtain rfl := block_eq_of_id numbered within member equal
      exact lost (by simpa using held)
    · have unchanged : x ∈ d.ids := by simpa [equal] using held
      exact equal (congrArg Block.id (block_unique numbered within member unchanged own))

theorem block?_of_mem (numbered : f.localIds.Nodup) {b : Block} (member : b ∈ f.blocks) :
    f.block? b.id = some b := by
  obtain ⟨_, _, split⟩ := exists_splitAt numbered member
  exact split.block?

theorem mem_of_block? {id : LocalId} {b : Block} (found : f.block? id = some b) : b ∈ f.blocks ∧ b.id = id :=
  ⟨List.mem_of_find?_eq_some found, by simpa using List.find?_some found⟩

theorem lt_freshId_of_mem_localIds {id : LocalId} (present : id ∈ f.localIds) : id < f.freshId :=
  Nat.lt_succ_of_le (le_foldl_max (.inl (List.mem_append_left _ (List.mem_append_left _ present))))

theorem lt_freshId_of_mem_usedIds {id : LocalId} (present : id ∈ f.usedIds) : id < f.freshId :=
  Nat.lt_succ_of_le (le_foldl_max (.inl (List.mem_append_left _ (List.mem_append_right _ present))))

theorem lt_freshId_of_local {o : Operand Value} (present : o ∈ f.operands) {id : LocalId} {t : Ty}
    (held : o.value = .local id t) : id < f.freshId :=
  lt_freshId_of_mem_usedIds (List.mem_filterMap.mpr ⟨o, present, by simp [held, Value.local?]⟩)

def seen (f : Function) : List LocalId := f.localIds ++ f.dropped.map (·.1)

theorem mem_seen_of_mem_localIds {id : LocalId} (present : id ∈ f.localIds) : id ∈ f.seen := List.mem_append_left _ present

theorem seen_updateBlock (id : LocalId) {h : Block → Block} (keeps : ∀ b ∈ f.blocks, b.ids ⊆ (h b).ids) :
    f.seen ⊆ (f.updateBlock id h).seen := by
  intro x present
  rcases List.mem_append.mp present with inside | gone
  · apply mem_seen_of_mem_localIds
    rcases List.mem_append.mp inside with param | held
    · exact List.mem_append_left _ param
    · obtain ⟨b, member, held⟩ := List.mem_flatMap.mp held
      by_cases here : b.id = id
      · exact mem_localIds_of_block ((mem_updateBlock member).1 here) (keeps b member held)
      · exact mem_localIds_of_block ((mem_updateBlock member).2 here) held
  · exact List.mem_append_right _ gone

theorem freshId_not_mem_seen (f : Function) (k : Nat) : f.freshId + k ∉ f.seen := by
  intro present
  have below : f.freshId + k < f.freshId := by
    apply Nat.lt_succ_of_le
    apply le_foldl_max
    rcases List.mem_append.mp present with inside | gone
    · exact .inl (List.mem_append_left _ (List.mem_append_left _ inside))
    · exact .inl (List.mem_append_right _ gone)
  exact Nat.not_lt.mpr (Nat.le_add_right _ k) below

theorem freshId_not_mem (f : Function) (k : Nat) : f.freshId + k ∉ f.localIds := fun present =>
  f.freshId_not_mem_seen k (mem_seen_of_mem_localIds present)

end Function
end CallFusion.Ir
