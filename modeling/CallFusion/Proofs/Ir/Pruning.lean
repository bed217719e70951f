import CallFusion.Proofs.Ir.WellFormed

/-!
Lowering an invoke. Its block no longer goes to the unwind block, whose phis lose their entries for that
edge; every other edge of the function and every other phi stays as it was.
-/

namespace CallFusion.Ir

def Instruction.withoutEntry (pred : LocalId) (i : Instruction) : Instruction :=
  match i.op with
  | .phi flags incoming => { i with op := .phi flags (incoming.filter fun p => !p.2.same (.block pred)) }
  | _ => i

namespace Instruction

variable (pred : LocalId) (i : Instruction)

@[simp] theorem withoutEntry_id : (i.withoutEntry pred).id = i.id := by
  unfold withoutEntry
  split <;> rfl

@[simp] theorem withoutEntry_value : (i.withoutEntry pred).value = i.value := by
  unfold withoutEntry
  split <;> rfl

@[simp] theorem withoutEntry_hasResult : (i.withoutEntry pred).op.hasResult = i.op.hasResult := by
  unfold withoutEntry
  split
  · next op => rw [op]; rfl
  · rfl

theorem withoutEntry_of_plain {i : Instruction} (plain : i.op.Plain) : i.withoutEntry pred = i := by
  unfold withoutEntry
  split
  · next flags incoming op => exact (plain flags incoming op).elim
  · rfl

theorem withoutEntry_operands {o : Operand Value} (present : o ∈ (i.withoutEntry pred).op.operands) :
    o ∈ i.op.operands := by
  unfold withoutEntry at present
  split at present
  · next flags incoming op =>
    rw [op]
    obtain ⟨p, listed, held⟩ := List.mem_flatMap.mp present
    exact List.mem_flatMap.mpr ⟨p, (List.mem_filter.mp listed).1, held⟩
  · exact present

theorem withoutEntry_mapOperands {h : Bool → Value → Value}
    (kept : ∀ v : Value, (h false v).block? = v.block?) :
    (i.mapOperands h).withoutEntry pred = (i.withoutEntry pred).mapOperands h := by
  cases op : i.op with
  | phi flags incoming =>
    simp [withoutEntry, mapOperands, op, Operation.mapOperands, List.filter_map, Function.comp_def, kept]
  | _ => simp [withoutEntry, mapOperands, op, Operation.mapOperands]

def SameButEntries (i j : Instruction) : Prop := j.id = i.id ∧ (j = i ∨ ¬ i.op.Plain ∧ ¬ j.op.Plain)

theorem SameButEntries.refl : i.SameButEntries i := ⟨rfl, .inl rfl⟩

theorem withoutEntry_sameButEntries : i.SameButEntries (i.withoutEntry pred) := by
  refine ⟨i.withoutEntry_id pred, ?_⟩
  unfold withoutEntry
  split
  · next flags incoming op => exact .inr ⟨fun plain => plain flags incoming op, fun plain => plain _ _ rfl⟩
  · exact .inl rfl

end Instruction

namespace Block

theorem dropIncoming_eq (b : Block) (pred : LocalId) :
    (b.dropIncoming pred).1 = { b with insts := b.insts.map (·.withoutEntry pred) } := rfl

theorem dropIncoming_ids (b : Block) (pred : LocalId) : (b.dropIncoming pred).1.ids = b.ids := by
  simp [dropIncoming_eq, ids, Function.comp_def]

theorem dropIncoming_results (b : Block) (pred : LocalId) : (b.dropIncoming pred).1.results = b.results := by
  simp [dropIncoming_eq, results, List.filter_map, Function.comp_def]
  rfl

def prune (b : Block) (site : CallSite) (normal : LocalId) : Block :=
  if site.unwind? = some b.id ∧ b.id ≠ normal then (b.dropIncoming site.block).1 else b

@[simp] theorem prune_id (b : Block) (site : CallSite) (normal : LocalId) : (b.prune site normal).id = b.id := by
  unfold prune
  split <;> rfl

@[simp] theorem prune_term (b : Block) (site : CallSite) (normal : LocalId) : (b.prune site normal).term = b.term := by
  unfold prune
  split <;> rfl

@[simp] theorem prune_ids (b : Block) (site : CallSite) (normal : LocalId) : (b.prune site normal).ids = b.ids := by
  unfold prune
  split
  · exact b.dropIncoming_ids site.block
  · rfl

@[simp] theorem prune_results (b : Block) (site : CallSite) (normal : LocalId) :
    (b.prune site normal).results = b.results := by
  unfold prune
  split
  · exact b.dropIncoming_results site.block
  · rfl

theorem mem_prune_insts {b : Block} {i : Instruction} (carried : i ∈ b.insts) (site : CallSite) (normal : LocalId) :
    ∃ j ∈ (b.prune site normal).insts, j.id = i.id ∧ (i.op.Plain → j = i) := by
  unfold prune
  split
  · exact ⟨i.withoutEntry site.block, List.mem_map.mpr ⟨i, carried, rfl⟩, i.withoutEntry_id _,
      Instruction.withoutEntry_of_plain _⟩
  · exact ⟨i, carried, rfl, fun _ => rfl⟩

theorem of_mem_prune_insts {b : Block} {site : CallSite} {normal : LocalId} {j : Instruction}
    (carried : j ∈ (b.prune site normal).insts) : ∃ i ∈ b.insts, i.SameButEntries j := by
  unfold prune at carried
  split at carried
  · obtain ⟨i, listed, rfl⟩ := List.mem_map.mp carried
    exact ⟨i, listed, i.withoutEntry_sameButEntries site.block⟩
  · exact ⟨j, carried, .refl j⟩

theorem prune_operands {b : Block} {site : CallSite} {normal : LocalId} {o : Operand Value}
    (present : o ∈ (b.prune site normal).operands) : o ∈ b.operands := by
  unfold prune at present
  split at present
  · rcases List.mem_append.mp present with inst | term
    · obtain ⟨i, carried, held⟩ := List.mem_flatMap.mp inst
      obtain ⟨old, member, rfl⟩ := List.mem_map.mp carried
      exact List.mem_append_left _ (List.mem_flatMap.mpr ⟨old, member, old.withoutEntry_operands _ held⟩)
    · exact List.mem_append_right _ term
  · exact present

theorem lower_ids_nodup {b : Block} (distinct : b.ids.Nodup) {inst : Instruction} (fresh : inst.id ∉ b.ids)
    {branch : LocalId} (new : branch ∉ b.ids) (other : branch ≠ inst.id) (normal : Value) :
    (b.lower inst branch normal).ids.Nodup := by
  simp only [ids, lower, List.map_append, List.map_cons, List.map_nil, List.append_assoc, List.nodup_cons,
    List.nodup_append, List.mem_append, List.mem_cons, List.not_mem_nil, or_false] at distinct fresh new ⊢
  grind

theorem term_id_not_mem_lower_ids {b : Block} (distinct : b.ids.Nodup) {inst : Instruction} (fresh : inst.id ∉ b.ids)
    {branch : LocalId} (new : branch ∉ b.ids) (normal : Value) : b.term.id ∉ (b.lower inst branch normal).ids := by
  simp only [ids, lower, List.map_append, List.map_cons, List.map_nil, List.nodup_cons, List.nodup_append,
    List.mem_append, List.mem_cons, List.not_mem_nil, or_false] at distinct fresh new ⊢
  grind

theorem mem_lower_ids {b : Block} {inst : Instruction} {branch : LocalId} {normal : Value} {id : LocalId}
    (present : id ∈ (b.lower inst branch normal).ids) : id ∈ b.ids ∨ id = inst.id ∨ id = branch := by
  simp only [ids, lower, List.map_append, List.map_cons, List.map_nil, List.mem_append, List.mem_cons,
    List.not_mem_nil, or_false] at present ⊢
  tauto

end Block

namespace Function

variable {f : Function} {site : CallSite} {inst : Instruction}

theorem prune_eq (f : Function) (site : CallSite) (normal : LocalId) :
    f.prune site normal = { f with blocks := f.blocks.map (·.prune site normal) } := by
  unfold prune
  cases unwinds : site.unwind? with
  | none => simp [Block.prune, unwinds]
  | some unwind =>
    by_cases stays : unwind = normal
    · have kept : ∀ b : Block, b.prune site normal = b := by
        intro b
        simp only [Block.prune, unwinds, Option.some.injEq]
        exact if_neg fun abandoned => abandoned.2 (abandoned.1 ▸ stays)
      simp [stays, kept]
    · have blocks : f.blocks.map (fun b => if b.id == unwind then (b.dropIncoming site.block).1 else b) =
          f.blocks.map (·.prune site normal) := by
        apply List.map_congr_left
        intro b _
        by_cases here : b.id = unwind
        · simp [Block.prune, unwinds, here, stays]
        · simp [Block.prune, unwinds, here, Ne.symm here]
      simp only [stays, if_false, dropIncoming, updateBlock, blocks]

theorem prune_blocks (f : Function) (site : CallSite) (normal : LocalId) :
    (f.prune site normal).blocks = f.blocks.map (·.prune site normal) := by
  rw [prune_eq]

theorem prune_params (f : Function) (site : CallSite) (normal : LocalId) : (f.prune site normal).params = f.params := by
  rw [prune_eq]

theorem prune_results (f : Function) (site : CallSite) (normal : LocalId) :
    (f.prune site normal).results = f.results := by
  simp [results, prune_blocks, prune_params, List.flatMap_map]

theorem prune_operands {f : Function} {site : CallSite} {normal : LocalId} {o : Operand Value}
    (present : o ∈ (f.prune site normal).operands) : o ∈ f.operands := by
  rw [operands, prune_blocks] at present
  obtain ⟨c, changed, held⟩ := List.mem_flatMap.mp present
  obtain ⟨b, member, rfl⟩ := List.mem_map.mp changed
  exact List.mem_flatMap.mpr ⟨b, member, Block.prune_operands held⟩

theorem prune_localIds (f : Function) (site : CallSite) (normal : LocalId) :
    (f.prune site normal).localIds = f.localIds := by
  simp [localIds_eq, prune_blocks, prune_params, List.flatMap_map]

theorem mem_lowered {normal branch : LocalId} {c : Block}
    (changed : c ∈ ((f.updateBlock site.block (·.lower inst branch (.block normal))).prune site normal).blocks) :
    ∃ b ∈ f.blocks, c.id = b.id ∧
      c.term.op = (if b.id = site.block then .br (.block normal) else b.term.op) ∧
      ∀ i ∈ c.insts, (∃ old ∈ b.insts ++ [inst], i = if site.unwind? = some b.id ∧ b.id ≠ normal then
        old.withoutEntry site.block else old) := by
  rw [prune_blocks] at changed
  obtain ⟨d, inside, rfl⟩ := List.mem_map.mp changed
  obtain ⟨b, member, rfl⟩ := List.mem_map.mp inside
  refine ⟨b, member, ?_, ?_, ?_⟩
  · by_cases here : b.id = site.block <;> simp [here, Block.lower]
  · by_cases here : b.id = site.block <;> simp [here, Block.lower]
  · intro i carried
    have known : ∀ old ∈ (if b.id == site.block then b.lower inst branch (.block normal) else b).insts,
        old ∈ b.insts ++ [inst] := by
      intro old listed
      by_cases here : b.id = site.block
      · simpa [here, Block.lower] using listed
      · exact List.mem_append_left _ (by simpa [here] using listed)
    have same : (if b.id == site.block then b.lower inst branch (.block normal) else b).id = b.id := by
      split <;> rfl
    unfold Block.prune at carried
    rw [same] at carried
    split at carried
    · next abandoned =>
      rw [Block.dropIncoming_eq] at carried
      obtain ⟨old, listed, rfl⟩ := List.mem_map.mp carried
      exact ⟨old, known old listed, by rw [if_pos abandoned]⟩
    · next stays => exact ⟨i, known i carried, by rw [if_neg stays]⟩

/-- Lowering an invoke takes its unwind edge away and no other. -/
theorem enters_lowered {b : Block} (member : b ∈ f.blocks) (here : b.id = site.block)
    {normal branch : LocalId} (taken : .block normal ∈ b.term.op.targets) (source target : LocalId) :
    ((f.updateBlock site.block (·.lower inst branch (.block normal))).prune site normal).Enters source target ↔
      f.Enters source target ∧ (source = site.block → target = normal) := by
  constructor
  · rintro ⟨c, changed, rfl, next⟩
    obtain ⟨old, inside, same, term, _⟩ := mem_lowered changed
    rw [Block.mem_successors, term] at next
    rw [same]
    by_cases lowered : old.id = site.block
    · rw [if_pos lowered] at next
      have reached : target = normal := by simpa [Terminator.targets] using next
      refine ⟨⟨b, member, here.trans lowered.symm, ?_⟩, fun _ => reached⟩
      rw [Block.mem_successors, reached]
      exact taken
    · rw [if_neg lowered] at next
      exact ⟨⟨old, inside, rfl, Block.mem_successors.mpr next⟩, fun equal => (lowered equal).elim⟩
  · rintro ⟨⟨old, inside, rfl, next⟩, only⟩
    refine ⟨((if old.id == site.block then old.lower inst branch (.block normal) else old).prune site normal), ?_, ?_, ?_⟩
    · rw [prune_blocks]
      exact List.mem_map.mpr ⟨_, List.mem_map.mpr ⟨old, inside, rfl⟩, rfl⟩
    · by_cases lowered : old.id = site.block <;> simp [lowered, Block.lower]
    · rw [Block.mem_successors, Block.prune_term]
      by_cases lowered : old.id = site.block
      · simp [lowered, Block.lower, Terminator.targets, only lowered]
      · simpa [lowered, Block.mem_successors] using next

theorem joins_lowered {g : Function} {normal block : LocalId}
    (enters : ∀ source, g.Enters source block ↔ f.Enters source block ∧ (source = site.block → block = normal))
    (stays : ¬ (site.unwind? = some block ∧ block ≠ normal) → f.Enters site.block block → block = normal)
    {i : Instruction} (joined : f.Joins block i.op) :
    g.Joins block (if site.unwind? = some block ∧ block ≠ normal then i.withoutEntry site.block else i).op := by
  cases op : i.op with
  | phi flags incoming =>
    rw [op] at joined
    split
    · next abandoned =>
      -- the entry of the invoke's block goes where its edge goes
      simp only [Instruction.withoutEntry, op, Joins, enters] at joined ⊢
      intro v
      have filtered : v ∈ (incoming.filter fun p => !p.2.same (.block site.block)).map (·.2) ↔
          v ∈ incoming.map (·.2) ∧ v ≠ .block site.block := by
        simp only [List.mem_map, List.mem_filter, Value.same_block, Bool.not_eq_true', beq_eq_false_iff_ne]
        constructor
        · rintro ⟨p, ⟨listed, different⟩, rfl⟩
          exact ⟨⟨p, listed, rfl⟩, fun equal => different (by rw [equal]; rfl)⟩
        · rintro ⟨⟨p, listed, rfl⟩, different⟩
          exact ⟨p, ⟨listed, fun same => different (Value.block?_eq_some.mp same)⟩, rfl⟩
      rw [filtered, joined v]
      constructor
      · rintro ⟨⟨source, enters, rfl⟩, different⟩
        exact ⟨source, ⟨enters, fun same => (different (same ▸ rfl)).elim⟩, rfl⟩
      · rintro ⟨source, ⟨enters, only⟩, rfl⟩
        refine ⟨⟨source, enters, rfl⟩, fun same => abandoned.2 (only ?_)⟩
        exact Value.block.inj same
    · next kept =>
      -- an edge from the invoke's block can only be the one that stays
      simp only [op, Joins, enters] at joined ⊢
      intro v
      rw [joined v]
      constructor
      · rintro ⟨source, enters, rfl⟩
        exact ⟨source, ⟨enters, fun same => stays kept (same ▸ enters)⟩, rfl⟩
      · rintro ⟨source, ⟨enters, _⟩, rfl⟩
        exact ⟨source, enters, rfl⟩
  | _ =>
    have plain : i.op.Plain := by
      intro flags incoming equal
      rw [op] at equal
      cases equal
    rw [Instruction.withoutEntry_of_plain _ plain, ite_self]
    exact joins_of_plain plain _

theorem lowered_coherent (coherent : f.Coherent) {b : Block} (member : b ∈ f.blocks) (here : b.id = site.block)
    (normal : LocalId) {branch : LocalId} (fresh : inst.id ∉ f.localIds) (new : branch ∉ f.localIds)
    (other : branch ≠ inst.id) :
    ((f.updateBlock site.block (·.lower inst branch (.block normal))).prune site normal).Coherent := by
  have inside : ∀ {id : LocalId}, id ∉ f.localIds → id ∉ b.ids := fun absent present =>
    absent (mem_localIds_of_block member present)
  constructor
  · rw [prune_localIds, ← here]
    apply updateBlock_numbered coherent.numbered member
    · exact Block.lower_ids_nodup (block_ids_nodup coherent.numbered member) (inside fresh) (inside new) other _
    · intro id present
      rcases Block.mem_lower_ids present with old | rfl | rfl
      · exact .inl old
      · exact .inr fresh
      · exact .inr new
  · intro c changed v listed
    obtain ⟨old, known, _, term, _⟩ := mem_lowered changed
    rw [term] at listed
    split at listed
    · exact ⟨normal, by simpa [Terminator.targets] using listed⟩
    · exact coherent.directed old known v listed

/-- A lowered invoke with its phi entries dropped leaves the function in shape. -/
theorem lowered_shaped (shaped : f.Shaped) {b : Block} (member : b ∈ f.blocks) (here : b.id = site.block)
    {normal branch : LocalId} {unwind : Value} (successors : site.successors = some (.block normal, unwind))
    (taken : .block normal ∈ b.term.op.targets) (others : ∀ v ∈ b.term.op.targets, v = .block normal ∨ v = unwind)
    (fresh : inst.id ∉ f.localIds) (new : branch ∉ f.localIds) (other : branch ≠ inst.id)
    (plain : inst.op.Plain) :
    ((f.updateBlock site.block (·.lower inst branch (.block normal))).prune site normal).Shaped := by
  obtain ⟨g, lowered⟩ : ∃ g, (f.updateBlock site.block (·.lower inst branch (.block normal))).prune site normal = g :=
    ⟨_, rfl⟩
  have enters : ∀ source target, g.Enters source target ↔
      f.Enters source target ∧ (source = site.block → target = normal) := by
    rw [← lowered]
    exact enters_lowered member here taken
  refine ⟨lowered_coherent shaped.toCoherent member here normal fresh new other, fun c changed i carried => ?_⟩
  obtain ⟨old, known, same, _, insts⟩ := mem_lowered changed
  obtain ⟨j, listed, rfl⟩ := insts i carried
  rw [same]
  rcases List.mem_append.mp listed with kept | new
  · rw [lowered]
    refine joins_lowered (enters · old.id) (fun stays entered => ?_) (shaped.joined old known j kept)
    obtain ⟨c, present, source, next⟩ := entered
    obtain rfl := block_eq_of_id shaped.numbered present member (source.trans here.symm)
    rcases others _ (Block.mem_successors.mp next) with equal | equal
    · exact Value.block.inj equal
    · by_contra different
      exact stays ⟨by simp [CallSite.unwind?, successors, ← equal], different⟩
  · obtain rfl := List.mem_singleton.mp new
    rw [Instruction.withoutEntry_of_plain _ plain, ite_self]
    exact joins_of_plain plain _

end Function
end CallFusion.Ir
