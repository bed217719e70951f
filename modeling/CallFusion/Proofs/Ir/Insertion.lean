import CallFusion.Proofs.Ir.WellFormed

/-! Putting instructions into a block: everything that was there stays, and nothing but them is added. -/

namespace CallFusion.Ir

namespace Block

variable {b : Block} {k : Nat} {new : List Instruction}

theorem mem_insertAt {i : Instruction} : i ∈ (b.insertAt k new).insts ↔ i ∈ b.insts ∨ i ∈ new := by
  have whole : i ∈ b.insts ↔ i ∈ b.insts.take k ∨ i ∈ b.insts.drop k := by
    rw [← List.mem_append, List.take_append_drop]
  simp only [insertAt, List.mem_append, whole]
  tauto

theorem insertAt_ids (distinct : b.ids.Nodup) (own : (new.map (·.id)).Nodup) (fresh : ∀ i ∈ new, i.id ∉ b.ids) (k : Nat) :
    (b.insertAt k new).ids.Nodup ∧ ∀ x ∈ (b.insertAt k new).ids, x ∈ b.ids ∨ x ∈ new.map (·.id) := by
  have whole : b.insts.map (·.id) = (b.insts.take k).map (·.id) ++ (b.insts.drop k).map (·.id) := by
    rw [← List.map_append, List.take_append_drop]
  have apart : ∀ x ∈ new.map (·.id), x ∉ b.ids := by
    intro x listed
    obtain ⟨i, member, rfl⟩ := List.mem_map.mp listed
    exact fresh i member
  simp only [ids, insertAt, whole, List.map_append, List.nodup_cons, List.nodup_append, List.mem_append, List.mem_cons,
    List.not_mem_nil, or_false] at distinct apart ⊢
  generalize (b.insts.take k).map (·.id) = front at distinct apart ⊢
  generalize (b.insts.drop k).map (·.id) = back at distinct apart ⊢
  generalize new.map (·.id) = middle at own apart ⊢
  grind

end Block

namespace Function

variable {f g : Function} {new : List Instruction} {site : CallSite}

/-- A function that differs from another one by some more instructions. -/
structure Inserted (f : Function) (new : List Instruction) (g : Function) : Prop where
  coherent : g.Coherent
  shaped : f.Shaped → g.Shaped
  frame : g = { f with blocks := g.blocks }
  results : ∀ v ∈ f.results, v ∈ g.results
  added : ∀ i ∈ new, i.op.hasResult = true → i.value ∈ g.results
  operands : ∀ o ∈ g.operands, o ∈ f.operands ∨ ∃ i ∈ new, o ∈ i.op.operands
  blocks : ∀ b ∈ f.blocks, ∃ c ∈ g.blocks, c.id = b.id ∧ c.term = b.term ∧ ∀ i ∈ b.insts, i ∈ c.insts
  ids : ∀ x ∈ g.localIds, x ∈ f.localIds ∨ x ∈ new.map (·.id)
  origins : ∀ c ∈ g.blocks, (∃ b ∈ f.blocks, c.term = b.term) ∧ ∀ j ∈ c.insts, j ∈ new ∨ ∃ b ∈ f.blocks, j ∈ b.insts

theorem insertAt_inserted (coherent : f.Coherent) {b : Block} (member : b ∈ f.blocks) (own : (new.map (·.id)).Nodup)
    (fresh : ∀ i ∈ new, i.id ∉ f.localIds) (plain : ∀ i ∈ new, i.op.Plain) (k : Nat) :
    f.Inserted new (f.updateBlock b.id (·.insertAt k new)) := by
  have only : ∀ c ∈ f.blocks, c.id = b.id → c = b := fun c inside same =>
    block_eq_of_id coherent.numbered inside member same
  have apart : ∀ i ∈ new, i.id ∉ b.ids := fun i listed present => fresh i listed (mem_localIds_of_block member present)
  obtain ⟨distinct, known⟩ := Block.insertAt_ids (block_ids_nodup coherent.numbered member) own apart k
  have new_ids : ∀ x ∈ (b.insertAt k new).ids, x ∈ b.ids ∨ x ∉ f.localIds := by
    intro x present
    refine (known x present).imp_right fun listed => ?_
    obtain ⟨i, added, rfl⟩ := List.mem_map.mp listed
    exact fresh i added
  constructor
  case coherent => exact updateBlock_coherent coherent member distinct new_ids (coherent.directed b member)
  case shaped =>
    intro shaped
    refine updateBlock_shaped shaped member distinct new_ids rfl rfl fun i listed => ?_
    exact (Block.mem_insertAt.mp listed).imp_right (plain i)
  case frame => rfl
  case results =>
    intro v listed
    refine results_updateBlock listed fun c _ _ left => ?_
    rcases List.mem_append.mp left with inst | term
    · obtain ⟨i, held, rfl⟩ := List.mem_map.mp inst
      obtain ⟨present, named⟩ := List.mem_filter.mp held
      refine List.mem_append_left _ (List.mem_map.mpr ⟨i, List.mem_filter.mpr ⟨?_, named⟩, rfl⟩)
      exact Block.mem_insertAt.mpr (.inl present)
    · exact List.mem_append_right _ term
  case added =>
    intro i listed named
    apply List.mem_append_right
    refine List.mem_flatMap.mpr ⟨_, (mem_updateBlock member).1 rfl, List.mem_append_left _ ?_⟩
    exact List.mem_map.mpr ⟨i, List.mem_filter.mpr ⟨Block.mem_insertAt.mpr (.inr listed), named⟩, rfl⟩
  case operands =>
    intro o present
    rcases operands_updateBlock present with kept | ⟨c, within, _, held⟩
    · exact .inl kept
    · exact (Block.operands_insertAt.mp held).imp_left fun old => List.mem_flatMap.mpr ⟨c, within, old⟩
  case blocks =>
    intro c within
    by_cases here : c.id = b.id
    · exact ⟨_, (mem_updateBlock within).1 here, rfl, rfl, fun i carried => Block.mem_insertAt.mpr (.inl carried)⟩
    · exact ⟨c, (mem_updateBlock within).2 here, rfl, rfl, fun i carried => carried⟩
  case ids =>
    intro x present
    rcases mem_localIds_updateBlock present with kept | ⟨c, within, here, held⟩
    · exact .inl kept
    · obtain rfl := only c within here
      exact (known x held).imp_left (mem_localIds_of_block within)
  case origins =>
    intro c changed
    rcases mem_updateBlock_cases coherent.numbered member changed with rfl | within
    · refine ⟨⟨b, member, rfl⟩, fun j listed => ?_⟩
      exact (Block.mem_insertAt.mp listed).symm.imp_right fun old => ⟨b, member, old⟩
    · exact ⟨⟨c, within, rfl⟩, fun j carried => .inr ⟨c, within, carried⟩⟩

namespace Inserted

theorem held (inserted : f.Inserted new g) {b : Block} (member : b ∈ f.blocks) (held : site.HeldBy b) :
    ∃ c ∈ g.blocks, site.HeldBy c := by
  obtain ⟨c, present, same, term, insts⟩ := inserted.blocks b member
  obtain ⟨here, stands⟩ := held
  refine ⟨c, present, same.trans here, ?_⟩
  cases found : site.successors with
  | none =>
    rw [found] at stands
    obtain ⟨i, carried, own⟩ := stands
    exact ⟨i, insts i carried, own⟩
  | some successors =>
    rw [found] at stands
    rw [term]
    exact stands

theorem standsIn (inserted : f.Inserted new g) (stands : site.StandsIn f) : site.StandsIn g := by
  obtain ⟨b, member, here, own⟩ := stands
  obtain ⟨c, present, same, term, insts⟩ := inserted.blocks b member
  refine ⟨c, present, same.trans here, ?_⟩
  cases found : site.successors with
  | none =>
    rw [found] at own
    obtain ⟨i, carried, own⟩ := own
    exact ⟨i, insts i carried, own⟩
  | some successors =>
    rw [found] at own
    rw [term]
    exact own

theorem owns (inserted : f.Inserted new g) {v : Value} (owned : f.Owns v) : g.Owns v :=
  owned.mono (inserted.results v) fun b member => by
    obtain ⟨c, present, same, _⟩ := inserted.blocks b member
    exact ⟨c, present, same⟩

theorem seen (inserted : f.Inserted new g) {x : LocalId} (present : x ∈ f.seen) : x ∈ g.seen := by
  have params : g.params = f.params := by rw [inserted.frame]
  have dropped : g.dropped = f.dropped := by rw [inserted.frame]
  rw [Function.seen, localIds_eq, List.mem_append, List.mem_append] at present
  rcases present with (param | inside) | gone
  · exact List.mem_append_left _ (List.mem_append_left _ (params ▸ param))
  · obtain ⟨b, member, held⟩ := List.mem_flatMap.mp inside
    obtain ⟨c, kept, same, term, insts⟩ := inserted.blocks b member
    apply mem_seen_of_mem_localIds
    apply mem_localIds_of_block kept
    simp only [Block.ids, List.mem_cons, List.mem_append, List.not_mem_nil, or_false] at held
    rcases held with rfl | inst | rfl
    · exact same ▸ c.id_mem_ids
    · obtain ⟨i, carried, rfl⟩ := List.mem_map.mp inst
      exact Block.inst_id_mem_ids (insts i carried)
    · exact term ▸ c.term_id_mem_ids
  · exact List.mem_append_right _ (dropped ▸ gone)

theorem wellFormed (inserted : f.Inserted new g) (wellFormed : f.WellFormed)
    (owned : ∀ i ∈ new, ∀ o ∈ i.op.operands, f.Owns o.value) : g.WellFormed := by
  refine ⟨inserted.shaped wellFormed.toShaped, fun o present => ?_⟩
  rcases inserted.operands o present with kept | ⟨i, listed, held⟩
  · exact inserted.owns (wellFormed.owned o kept)
  · exact inserted.owns (owned i listed o held)

theorem names (inserted : f.Inserted new g) {id : SymbolId} (named : g.Names id) :
    f.Names id ∨ ∃ i ∈ new, ∃ o ∈ i.op.operands, o.value.Names id := by
  rcases named with ⟨o, present, named⟩ | ⟨c, personality, named⟩
  · rcases inserted.operands o present with kept | ⟨i, listed, held⟩
    · exact .inl (.inl ⟨o, kept, named⟩)
    · exact .inr ⟨i, listed, o, held, named⟩
  · have same : g.personality = f.personality := by rw [inserted.frame]
    exact .inl (.inr ⟨c, same ▸ personality, named⟩)

theorem writesOut (inserted : f.Inserted new g) {node : Meta} (written : g.WritesOut node) :
    f.WritesOut node ∨ ∃ i ∈ new, .debugNode node ∈ i.op.callArguments := by
  rw [writesOut_iff] at written ⊢
  obtain ⟨c, present, ⟨j, carried, passed⟩ | passed⟩ := written
  · rcases (inserted.origins c present).2 j carried with added | ⟨b, member, old⟩
    · exact .inr ⟨j, added, passed⟩
    · exact .inl ⟨b, member, .inl ⟨j, old, passed⟩⟩
  · obtain ⟨b, member, term⟩ := (inserted.origins c present).1
    exact .inl ⟨b, member, .inr (term ▸ passed)⟩

end Inserted

end Function
end CallFusion.Ir
