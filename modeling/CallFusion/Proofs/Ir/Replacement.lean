import CallFusion.Proofs.Ir.Pruning

/-!
Replacing a call site keeps a function well formed: the new call stands where the old one stood, the old
result is gone and so are its uses, and everything else is as it was.
-/

namespace CallFusion.Ir

/-- What a slot holds once a site is replaced: debug slots lose a result whose type changes, and all
others hold the new one. -/
def CallSite.rename (site : CallSite) (type : Ty) (new : Value) (debug : Bool) (v : Value) : Value :=
  (site.detach type debug v).substitute site.id new

namespace CallSite

variable (site : CallSite) (type : Ty) (new : Value)

theorem rename_of_ne {v : Value} (other : v.local? ≠ some site.id) (debug : Bool) :
    site.rename type new debug v = v := by
  have kept : site.detach type debug v = v := by
    simp [detach, value, Value.dropDebug_local, other]
  rw [rename, kept, Value.substitute_of_ne other]

theorem rename_block (debug : Bool) (id : LocalId) : site.rename type new debug (.block id) = .block id :=
  site.rename_of_ne type new (by simp) debug

theorem rename_cases (debug : Bool) (v : Value) :
    (v.local? ≠ some site.id ∧ site.rename type new debug v = v) ∨
      (v.local? = some site.id ∧
        (site.rename type new debug v = new ∨ debug = true ∧ ∃ t, site.rename type new debug v = .const 0 (.undef t))) := by
  by_cases old : v.local? = some site.id
  · refine .inr ⟨old, ?_⟩
    unfold rename detach
    split
    · exact .inl (if_pos old)
    · rw [value, Value.dropDebug_local]
      split
      · next dropped => exact .inr ⟨dropped.1, _, rfl⟩
      · exact .inl (if_pos old)
  · exact .inl ⟨old, site.rename_of_ne type new old debug⟩

end CallSite

def Instruction.Calls (i : Instruction) (target : Function) : Prop :=
  ∃ tail c, i.op = .call tail c ∧ c.callee = target.value

theorem Instruction.Calls.rename {i : Instruction} {target : Function} (calls : i.Calls target) (site : CallSite) (type : Ty)
    (new : Value) : (i.mapOperands (site.rename type new)).Calls target := by
  obtain ⟨tail, c, op, callee⟩ := calls
  refine ⟨tail, c.mapOperands (site.rename type new), by rw [Instruction.mapOperands_op, op]; rfl, ?_⟩
  have kept : site.rename type new false target.value = target.value :=
    site.rename_of_ne type new (v := target.value) (by simp [Function.value, Value.symbol]) false
  rw [Call.mapOperands, callee, kept]

theorem Instruction.Calls.plain {i : Instruction} {target : Function} (calls : i.Calls target) : i.op.Plain := by
  obtain ⟨tail, c, op, _⟩ := calls
  intro flags incoming phi
  rw [op] at phi
  cases phi

theorem Instruction.Calls.of_value {i : Instruction} {target other : Function} (calls : i.Calls target)
    (same : other.value = target.value) : i.Calls other := by
  obtain ⟨tail, c, op, callee⟩ := calls
  exact ⟨tail, c, op, callee.trans same.symm⟩

theorem Function.names_of_calls {f target : Function} {b : Block} (member : b ∈ f.blocks) {i : Instruction}
    (carried : i ∈ b.insts) (calls : i.Calls target) : f.Names target.id := by
  obtain ⟨tail, c, op, callee⟩ := calls
  refine .inl ⟨.code target.value, ?_, .symbol target.id _, .whole _, beq_self_eq_true _⟩
  refine List.mem_flatMap.mpr ⟨b, member, List.mem_append_left _ (List.mem_flatMap.mpr ⟨i, carried, ?_⟩)⟩
  rw [op, ← callee]
  exact List.mem_cons_self

namespace Block

theorem exchange_mapOperands (b : Block) (id : LocalId) (inst : Instruction) (r : Bool → Value → Value) :
    (b.mapOperands r).exchange id (inst.mapOperands r) = (b.exchange id inst).mapOperands r := by
  simp only [exchange, mapOperands, List.map_map, Block.mk.injEq, true_and, and_true]
  apply List.map_congr_left
  intro i _
  by_cases here : i.id = id <;> simp [here]

theorem mem_exchange {b : Block} {id : LocalId} {new j : Instruction} (listed : j ∈ (b.exchange id new).insts) :
    j = new ∨ j ∈ b.insts ∧ j.id ≠ id := by
  obtain ⟨i, carried, rfl⟩ := List.mem_map.mp listed
  by_cases here : i.id = id
  · exact .inl (if_pos here)
  · exact .inr (by simpa [here] using carried)

theorem mem_exchange_operands {b : Block} {id : LocalId} {new : Instruction} {o : Operand Value}
    (held : o ∈ (b.exchange id new).operands) : o ∈ b.operands ∨ o ∈ new.op.operands := by
  rcases List.mem_append.mp held with inst | term
  · obtain ⟨j, listed, slot⟩ := List.mem_flatMap.mp inst
    rcases mem_exchange listed with rfl | ⟨old, _⟩
    · exact .inr slot
    · exact .inl (List.mem_append_left _ (List.mem_flatMap.mpr ⟨j, old, slot⟩))
  · exact .inl (List.mem_append_right _ term)

theorem mem_lower_operands {b : Block} {new : Instruction} {branch normal : LocalId} {o : Operand Value}
    (held : o ∈ (b.lower new branch (.block normal)).operands) :
    o ∈ b.operands ∨ o ∈ new.op.operands ∨ o = .code (.block normal) := by
  rcases List.mem_append.mp held with inst | term
  · rw [lower, List.flatMap_append, List.mem_append] at inst
    rcases inst with old | last
    · exact .inl (List.mem_append_left _ old)
    · exact .inr (.inl (by simpa using last))
  · exact .inr (.inr (List.mem_singleton.mp term))

theorem mem_exchange_results {b : Block} {id : LocalId} (new : Instruction) {v : Value} (left : v ∈ b.results)
    (other : v.local? ≠ some id) : v ∈ (b.exchange id new).results := by
  rcases List.mem_append.mp left with inst | term
  · obtain ⟨i, held, rfl⟩ := List.mem_map.mp inst
    obtain ⟨present, named⟩ := List.mem_filter.mp held
    have kept : i.id ≠ id := fun equal => other (by simp [Instruction.value, equal])
    refine List.mem_append_left _ (List.mem_map.mpr ⟨i, List.mem_filter.mpr ⟨?_, named⟩, rfl⟩)
    exact List.mem_map.mpr ⟨i, present, if_neg kept⟩
  · exact List.mem_append_right _ term

theorem mem_lower_results {b : Block} (new : Instruction) (branch : LocalId) (normal : Value) {v : Value}
    (left : v ∈ b.results) (other : b.term.op.hasResult = true → v ≠ b.term.value) :
    v ∈ (b.lower new branch normal).results := by
  rcases List.mem_append.mp left with inst | term
  · apply List.mem_append_left
    rw [lower, List.filter_append, List.map_append]
    exact List.mem_append_left _ inst
  · split at term
    · next named => exact (other named (List.mem_singleton.mp term)).elim
    · cases term

theorem exchange_ids {b : Block} {id : LocalId} {new : Instruction} (distinct : b.ids.Nodup) {old : Instruction}
    (carried : old ∈ b.insts) (same : old.id = id) (fresh : new.id ∉ b.ids) :
    (b.exchange id new).ids.Nodup ∧ id ∉ (b.exchange id new).ids ∧
      ∀ x ∈ (b.exchange id new).ids, x ∈ b.ids ∨ x = new.id := by
  obtain ⟨earlier, later, insts, ahead, behind⟩ := b.exists_split distinct carried
  subst same
  have form : (b.exchange old.id new).ids =
      b.id :: (earlier.map (·.id) ++ new.id :: later.map (·.id) ++ [b.term.id]) := by
    rw [ids, exchange_split insts ahead behind, List.map_append, List.map_cons]
  rw [form]
  simp only [ids, insts, List.map_append, List.map_cons, List.nodup_cons, List.nodup_append, List.mem_append,
    List.mem_cons, List.not_mem_nil, or_false] at distinct fresh ⊢
  grind

theorem lower_mapOperands {r : Bool → Value → Value} {normal : Value} (kept : r false normal = normal) (b : Block)
    (inst : Instruction) (branch : LocalId) :
    (b.mapOperands r).lower (inst.mapOperands r) branch normal = (b.lower inst branch normal).mapOperands r := by
  simp [lower, mapOperands, Terminal.mapOperands, Terminator.mapOperands, kept]

theorem dropIncoming_mapOperands {r : Bool → Value → Value} (kept : ∀ v : Value, (r false v).block? = v.block?) (b : Block)
    (pred : LocalId) : ((b.mapOperands r).dropIncoming pred).1 = (b.dropIncoming pred).1.mapOperands r := by
  simp only [dropIncoming_eq, mapOperands, List.map_map, Block.mk.injEq, true_and, and_true]
  apply List.map_congr_left
  intro i _
  exact i.withoutEntry_mapOperands pred kept

end Block

namespace Function

variable {f : Function} {site : CallSite} {call : Call Value} {type : Ty}

theorem updateBlock_mapOperands {id : LocalId} {h k : Block → Block} {r : Bool → Value → Value}
    (commute : ∀ b, h (b.mapOperands r) = (k b).mapOperands r) :
    (f.mapOperands r).updateBlock id h = (f.updateBlock id k).mapOperands r := by
  have blocks : (f.blocks.map (·.mapOperands r)).map (fun b => if b.id == id then h b else b) =
      (f.blocks.map fun b => if b.id == id then k b else b).map (·.mapOperands r) := by
    rw [List.map_map, List.map_map]
    apply List.map_congr_left
    intro b _
    by_cases here : b.id = id
    · simp [here, commute b]
    · simp [here]
  simp only [updateBlock, mapOperands, blocks]

theorem prune_mapOperands {r : Bool → Value → Value} (kept : ∀ v : Value, (r false v).block? = v.block?) (site : CallSite)
    (normal : LocalId) : (f.mapOperands r).prune site normal = (f.prune site normal).mapOperands r := by
  unfold prune
  cases site.unwind? with
  | none => rfl
  | some unwind =>
    by_cases stays : unwind = normal
    · simp only [stays, if_true]
    · simp only [stays, if_false]
      exact updateBlock_mapOperands fun b => b.dropIncoming_mapOperands kept site.block

def newcomer (f : Function) (site : CallSite) (call : Call Value) (type : Ty) (attached : List Attachment) :
    Instruction :=
  (f.mapOperands (site.detach type)).replacementFor site call type attached

theorem substitute_block? (id new : LocalId) (t : Ty) (v : Value) : (v.substitute id (.local new t)).block? = v.block? := by
  cases v with
  | «local» x u =>
    by_cases same : x = id <;> simp [Value.substitute, same]
  | _ => rfl

theorem rename_block? (site : CallSite) (type : Ty) (new : Instruction) (v : Value) :
    (site.rename type new.value false v).block? = v.block? := by
  rw [CallSite.rename, CallSite.detach_code]
  exact substitute_block? _ _ _ v

/-- A site that its function still holds is replaced by an acceptable call: the call is put in its place,
and then every slot is renamed. -/
theorem replaceCallSite_form (coherent : f.Coherent) {b : Block} (member : b ∈ f.blocks) (held : site.HeldBy b)
    (accepted : f.Accepts site call type) (attached : List Attachment) (m : Module) :
    ∃ gone, (site.StandsIn f → site.id ∈ gone.map (·.1)) ∧
      ((site.successors = none ∧
        f.replaceCallSite m site call type attached =
          (((f.updateBlock site.block (·.exchange site.id (f.newcomer site call type attached))).mapOperands
            (site.rename type (f.newcomer site call type attached).value)).note gone, none)) ∨
      ∃ normal unwind branch, site.successors = some (.block normal, unwind) ∧ branch ∉ f.seen ∧
        branch ≠ (f.newcomer site call type attached).id ∧
        f.replaceCallSite m site call type attached =
          ((((f.updateBlock site.block (·.lower (f.newcomer site call type attached) branch (.block normal))).prune
            site normal).mapOperands (site.rename type (f.newcomer site call type attached).value)).note gone, none)) := by
  obtain ⟨gone, own, ⟨ordinary, replaced⟩ | ⟨normal, unwind, branch, exceptional, new, other, replaced⟩⟩ :=
    replaceCallSite_eq coherent member held accepted attached m
  · refine ⟨gone, own, .inl ⟨ordinary, ?_⟩⟩
    rw [replaced, CallSite.value, redirect_local,
      updateBlock_mapOperands fun c => c.exchange_mapOperands site.id (f.newcomer site call type attached) (site.detach type),
      mapOperands_mapOperands]
    rfl
  · refine ⟨gone, own, .inr ⟨normal, unwind, branch, exceptional, new, other, ?_⟩⟩
    have kept := rename_block? site type (f.newcomer site call type attached)
    rw [replaced, CallSite.value, redirect_local,
      updateBlock_mapOperands fun c => Block.lower_mapOperands (site.detach_block type false normal) c
        (f.newcomer site call type attached) branch,
      mapOperands_mapOperands]
    exact congrArg (fun g => (g.note gone, none)) (prune_mapOperands kept site normal)

/-- A function in which an instruction has taken the place of a call site, while its slots still hold what
they held. -/
structure Placed (f : Function) (site : CallSite) (new : Instruction) (g : Function) : Prop where
  coherent : g.Coherent
  shaped : f.Shaped → g.Shaped
  frame : g = { f with blocks := g.blocks }
  results : ∀ v ∈ f.results, v.local? ≠ some site.id → v ∈ g.results
  operands : ∀ o ∈ g.operands, o ∈ f.operands ∨ o ∈ new.op.operands
  insts : ∀ b ∈ f.blocks, ∀ i ∈ b.insts, i.id ≠ site.id →
    ∃ c ∈ g.blocks, c.id = b.id ∧ ∃ j ∈ c.insts, j.id = i.id ∧ (i.op.Plain → j = i)
  terms : ∀ b ∈ f.blocks, ∃ c ∈ g.blocks, c.id = b.id ∧
    (c.term = b.term ∨ b.id = site.block ∧ ∃ normal unwind, site.successors = some (normal, unwind) ∧
      c.term.op = .br normal)
  placed : ∃ c ∈ g.blocks, c.id = site.block ∧ new ∈ c.insts
  ids : ∀ x ∈ g.localIds, x ∈ f.localIds ∨ x ∉ f.seen
  removed : site.StandsIn f → site.id ∉ g.localIds
  origins : ∀ c ∈ g.blocks, ∀ j ∈ c.insts, j = new ∨ ∃ b ∈ f.blocks, ∃ i ∈ b.insts, i.SameButEntries j
  ends : ∀ c ∈ g.blocks, (∃ b ∈ f.blocks, c.term = b.term) ∨ ∃ target, c.term.op = .br target

theorem exchange_placed (coherent : f.Coherent) {b : Block} (member : b ∈ f.blocks) (here : b.id = site.block)
    {old : Instruction} (carried : old ∈ b.insts) (same : old.id = site.id) {new : Instruction}
    (unseen : new.id ∉ f.seen) (plain : new.op.Plain) :
    f.Placed site new (f.updateBlock site.block (·.exchange site.id new)) := by
  have fresh : new.id ∉ f.localIds := fun present => unseen (mem_seen_of_mem_localIds present)
  have distinct := block_ids_nodup coherent.numbered member
  have inside : new.id ∉ b.ids := fun present => fresh (mem_localIds_of_block member present)
  obtain ⟨nodup, absent, known⟩ := Block.exchange_ids distinct carried same inside
  have only : ∀ c ∈ f.blocks, c.id = site.block → c = b := fun c present equal =>
    block_eq_of_id coherent.numbered present member (equal.trans here.symm)
  have new_ids : ∀ x ∈ (b.exchange site.id new).ids, x ∈ b.ids ∨ x ∉ f.localIds := by
    intro x present
    rcases known x present with old | rfl
    · exact .inl old
    · exact .inr fresh
  constructor
  case coherent =>
    rw [← here]
    exact updateBlock_coherent coherent member nodup new_ids (coherent.directed b member)
  case shaped =>
    intro shaped
    rw [← here]
    refine updateBlock_shaped shaped member nodup new_ids rfl rfl fun i listed => ?_
    rcases Block.mem_exchange listed with rfl | ⟨old, _⟩
    · exact .inr plain
    · exact .inl old
  case frame => rfl
  case results =>
    intro v listed other
    exact results_updateBlock listed fun c _ _ left => Block.mem_exchange_results new left other
  case operands =>
    intro o present
    rcases operands_updateBlock present with kept | ⟨c, within, _, held⟩
    · exact .inl kept
    · exact (Block.mem_exchange_operands held).imp_left fun old => List.mem_flatMap.mpr ⟨c, within, old⟩
  case insts =>
    intro c present i listed other
    by_cases equal : c.id = site.block
    · exact ⟨_, (mem_updateBlock present).1 equal, rfl, i, List.mem_map.mpr ⟨i, listed, if_neg other⟩, rfl, fun _ => rfl⟩
    · exact ⟨c, (mem_updateBlock present).2 equal, rfl, i, listed, rfl, fun _ => rfl⟩
  case terms =>
    intro c present
    by_cases equal : c.id = site.block
    · exact ⟨_, (mem_updateBlock present).1 equal, rfl, .inl rfl⟩
    · exact ⟨c, (mem_updateBlock present).2 equal, rfl, .inl rfl⟩
  case placed =>
    exact ⟨_, (mem_updateBlock member).1 here, here, List.mem_map.mpr ⟨old, carried, if_pos same⟩⟩
  case ids =>
    intro x present
    rcases mem_localIds_updateBlock present with kept | ⟨c, within, equal, held⟩
    · exact .inl kept
    · obtain rfl := only c within equal
      rcases known x held with old | rfl
      · exact .inl (mem_localIds_of_block within old)
      · exact .inr unseen
  case removed =>
    intro _
    rw [← here]
    exact not_mem_localIds_updateBlock coherent.numbered member (same ▸ Block.inst_id_mem_ids carried) absent
  case origins =>
    intro c changed j listed
    rw [← here] at changed
    rcases mem_updateBlock_cases coherent.numbered member changed with rfl | within
    · exact (Block.mem_exchange listed).imp_right fun old => ⟨b, member, j, old.1, .refl j⟩
    · exact .inr ⟨c, within, j, listed, .refl j⟩
  case ends =>
    intro c changed
    rw [← here] at changed
    rcases mem_updateBlock_cases coherent.numbered member changed with rfl | within
    · exact .inl ⟨b, member, rfl⟩
    · exact .inl ⟨c, within, rfl⟩

theorem lowered_placed (coherent : f.Coherent) {b : Block} (member : b ∈ f.blocks) (here : b.id = site.block)
    {normal branch : LocalId} {unwind : Value} (successors : site.successors = some (.block normal, unwind))
    (named : b.term.op.hasResult = true → b.term.id = site.id) (taken : .block normal ∈ b.term.op.targets)
    (others : ∀ v ∈ b.term.op.targets, v = .block normal ∨ v = unwind) {new : Instruction}
    (unseen : new.id ∉ f.seen) (apart : branch ∉ f.seen) (other : branch ≠ new.id) (plain : new.op.Plain) :
    f.Placed site new ((f.updateBlock site.block (·.lower new branch (.block normal))).prune site normal) := by
  have fresh : new.id ∉ f.localIds := fun present => unseen (mem_seen_of_mem_localIds present)
  have free : branch ∉ f.localIds := fun present => apart (mem_seen_of_mem_localIds present)
  have only : ∀ c ∈ f.blocks, c.id = site.block → c = b := fun c present equal =>
    block_eq_of_id coherent.numbered present member (equal.trans here.symm)
  have pruned : ∀ c ∈ (f.updateBlock site.block (·.lower new branch (.block normal))).blocks,
      c.prune site normal ∈ ((f.updateBlock site.block (·.lower new branch (.block normal))).prune site normal).blocks := by
    intro c changed
    rw [prune_blocks]
    exact List.mem_map.mpr ⟨c, changed, rfl⟩
  constructor
  case coherent => exact lowered_coherent coherent member here normal fresh free other
  case shaped => exact fun shaped => lowered_shaped shaped member here successors taken others fresh free other plain
  case frame =>
    rw [prune_eq]
    rfl
  case results =>
    intro v listed different
    rw [prune_results]
    refine results_updateBlock listed fun c present equal left => Block.mem_lower_results new branch _ left fun result => ?_
    obtain rfl := only c present equal
    rintro rfl
    exact different (by simp [Terminal.value, named result])
  case operands =>
    intro o present
    rcases operands_updateBlock (prune_operands present) with kept | ⟨c, within, equal, held⟩
    · exact .inl kept
    · obtain rfl := only c within equal
      rcases Block.mem_lower_operands held with old | call | rfl
      · exact .inl (List.mem_flatMap.mpr ⟨c, within, old⟩)
      · exact .inr call
      · have slot := Terminator.code_mem_operands_of_mem_targets taken
        exact .inl (List.mem_flatMap.mpr ⟨c, within, List.mem_append_right _ slot⟩)
  case insts =>
    intro c present i listed _
    by_cases equal : c.id = site.block
    · exact ⟨_, pruned _ ((mem_updateBlock present).1 equal), Block.prune_id _ _ _,
        Block.mem_prune_insts (List.mem_append_left _ listed) site normal⟩
    · exact ⟨_, pruned _ ((mem_updateBlock present).2 equal), Block.prune_id _ _ _, Block.mem_prune_insts listed site normal⟩
  case terms =>
    intro c present
    by_cases equal : c.id = site.block
    · refine ⟨_, pruned _ ((mem_updateBlock present).1 equal), Block.prune_id _ _ _, .inr ⟨equal, _, _, successors, ?_⟩⟩
      rw [Block.prune_term]
      rfl
    · refine ⟨_, pruned _ ((mem_updateBlock present).2 equal), Block.prune_id _ _ _, .inl ?_⟩
      rw [Block.prune_term]
  case placed =>
    have last : new ∈ (b.lower new branch (.block normal)).insts := List.mem_append_right _ (List.mem_singleton.mpr rfl)
    obtain ⟨j, listed, _, same⟩ := Block.mem_prune_insts last site normal
    exact ⟨_, pruned _ ((mem_updateBlock member).1 here), (Block.prune_id _ _ _).trans here, same plain ▸ listed⟩
  case ids =>
    intro x present
    rw [prune_localIds, localIds_eq] at present
    rcases mem_localIds_updateBlock present with kept | ⟨c, within, _, held⟩
    · exact .inl kept
    · rcases Block.mem_lower_ids held with old | rfl | rfl
      · exact .inl (mem_localIds_of_block within old)
      · exact .inr unseen
      · exact .inr apart
  case removed =>
    intro stands present
    have own : b.term.id = site.id := by
      obtain ⟨c, within, equal, own⟩ := stands
      obtain rfl := only c within equal
      rw [successors] at own
      exact own
    rw [prune_localIds, ← own, ← here] at present
    have inside : ∀ {id : LocalId}, id ∉ f.localIds → id ∉ b.ids := fun absent within =>
      absent (mem_localIds_of_block member within)
    have lost := Block.term_id_not_mem_lower_ids (block_ids_nodup coherent.numbered member) (inside fresh) (inside free)
      (.block normal)
    exact not_mem_localIds_updateBlock coherent.numbered member b.term_id_mem_ids lost present
  case origins =>
    intro c changed j listed
    rw [prune_blocks] at changed
    obtain ⟨d, lowered, rfl⟩ := List.mem_map.mp changed
    obtain ⟨i, carried, same⟩ := Block.of_mem_prune_insts listed
    rw [← here] at lowered
    rcases mem_updateBlock_cases coherent.numbered member lowered with rfl | within
    · rcases List.mem_append.mp carried with old | last
      · exact .inr ⟨b, member, i, old, same⟩
      · obtain rfl := List.mem_singleton.mp last
        exact .inl (same.2.resolve_right fun phis => phis.1 plain)
    · exact .inr ⟨d, within, i, carried, same⟩
  case ends =>
    intro c changed
    rw [prune_blocks] at changed
    obtain ⟨d, lowered, rfl⟩ := List.mem_map.mp changed
    rw [Block.prune_term]
    rw [← here] at lowered
    rcases mem_updateBlock_cases coherent.numbered member lowered with rfl | within
    · exact .inr ⟨_, rfl⟩
    · exact .inl ⟨d, within, rfl⟩

theorem newcomer_unseen (f : Function) (site : CallSite) (call : Call Value) (type : Ty) (attached : List Attachment) :
    (f.newcomer site call type attached).id ∉ f.seen := by
  have fresh := (f.mapOperands (site.detach type)).freshId_not_mem_seen 0
  rwa [seen, localIds_mapOperands] at fresh

theorem replaceCallSite_placed (coherent : f.Coherent) {b : Block} (member : b ∈ f.blocks) (held : site.HeldBy b)
    (accepted : f.Accepts site call type) (attached : List Attachment) (m : Module) :
    ∃ g gone, f.Placed site (f.newcomer site call type attached) g ∧ (site.StandsIn f → site.id ∈ gone.map (·.1)) ∧
      f.replaceCallSite m site call type attached =
        ((g.mapOperands (site.rename type (f.newcomer site call type attached).value)).note gone, none) := by
  have unseen := f.newcomer_unseen site call type attached
  have plain : (f.newcomer site call type attached).op.Plain := fun _ _ equal => nomatch equal
  obtain ⟨gone, own, ⟨ordinary, replaced⟩ | ⟨normal, unwind, branch, exceptional, apart, other, replaced⟩⟩ :=
    replaceCallSite_form coherent member held accepted attached m
  · obtain ⟨here, stands⟩ := held
    rw [ordinary] at stands
    obtain ⟨old, carried, same⟩ := stands
    exact ⟨_, gone, exchange_placed coherent member here carried same unseen plain, own, replaced⟩
  · obtain ⟨here, stands⟩ := held
    rw [exceptional] at stands
    obtain ⟨named, taken, others⟩ := stands
    exact ⟨_, gone, lowered_placed coherent member here exceptional named taken others unseen apart other plain, own, replaced⟩

namespace Placed

variable {g : Function} {new : Instruction}

theorem blocks (placed : f.Placed site new g) : ∀ b ∈ f.blocks, ∃ c ∈ g.blocks, c.id = b.id := by
  intro b member
  obtain ⟨c, present, same, _⟩ := placed.terms b member
  exact ⟨c, present, same⟩

theorem owns (placed : f.Placed site new g) {v : Value} (owned : f.Owns v) (other : v.local? ≠ some site.id) : g.Owns v :=
  owned.mono (fun listed => placed.results v listed other) placed.blocks

theorem owns_new (placed : f.Placed site new g) (result : new.op.hasResult = true) : g.Owns new.value := by
  obtain ⟨c, present, _, listed⟩ := placed.placed
  apply List.mem_append_right
  refine List.mem_flatMap.mpr ⟨c, present, List.mem_append_left _ ?_⟩
  exact List.mem_map.mpr ⟨new, List.mem_filter.mpr ⟨listed, result⟩, rfl⟩

theorem wellFormed (placed : f.Placed site new g) (wellFormed : f.WellFormed)
    (owned : ∀ o ∈ new.op.operands, f.Owns o.value) (result : new.op.hasResult = true) (type : Ty) :
    (g.mapOperands (site.rename type new.value)).WellFormed := by
  refine ⟨mapOperands_shaped (site.rename_block type new.value) (placed.shaped wellFormed.toShaped), fun o present => ?_⟩
  rw [operands_mapOperands] at present
  obtain ⟨old, member, rfl⟩ := List.mem_map.mp present
  rw [owns_mapOperands, Operand.map_value]
  have before : f.Owns old.value := (placed.operands old member).elim (wellFormed.owned old) (owned old)
  rcases site.rename_cases type new.value old.debug old.value with ⟨other, same⟩ | ⟨_, same | ⟨_, t, same⟩⟩
  · rw [same]
    exact placed.owns before other
  · rw [same]
    exact placed.owns_new result
  · rw [same]
    trivial

theorem names (placed : f.Placed site new g) (type : Ty) {id : SymbolId}
    (named : (g.mapOperands (site.rename type new.value)).Names id) :
    f.Names id ∨ ∃ o ∈ new.op.operands, o.value.Names id := by
  rcases named with ⟨o, present, named⟩ | ⟨c, personality, named⟩
  · rw [operands_mapOperands] at present
    obtain ⟨old, member, rfl⟩ := List.mem_map.mp present
    rw [Operand.map_value] at named
    rcases site.rename_cases type new.value old.debug old.value with ⟨_, same⟩ | ⟨_, same | ⟨_, t, same⟩⟩
    · rw [same] at named
      exact (placed.operands old member).imp (fun kept => .inl ⟨old, kept, named⟩) fun added => ⟨old, added, named⟩
    · rw [same] at named
      exact named.elim
    · rw [same] at named
      exact (Constant.not_names_undef t id named).elim
  · have same : g.personality = f.personality := by rw [placed.frame]
    exact .inl (.inr ⟨c, same ▸ personality, named⟩)

theorem writesOut (placed : f.Placed site new g) (type : Ty) {node : Meta}
    (written : (g.mapOperands (site.rename type new.value)).WritesOut node) :
    f.WritesOut node ∨ .debugNode node ∈ new.op.callArguments := by
  rw [writesOut_mapOperands, writesOut_iff] at written
  rw [writesOut_iff]
  obtain ⟨c, present, ⟨j, carried, passed⟩ | passed⟩ := written
  · rcases placed.origins c present j carried with rfl | ⟨b, member, i, old, _, same | ⟨_, entries⟩⟩
    · exact .inr passed
    · exact .inl ⟨b, member, .inl ⟨i, old, same ▸ passed⟩⟩
    · obtain ⟨flags, incoming, phi⟩ : ∃ flags incoming, j.op = .phi flags incoming := by simpa [Operation.Plain] using entries
      rw [phi] at passed
      cases passed
  · rcases placed.ends c present with ⟨b, member, term⟩ | ⟨target, branch⟩
    · exact .inl ⟨b, member, .inr (term ▸ passed)⟩
    · rw [branch] at passed
      cases passed

theorem code_rename (placed : f.Placed site new g) (type : Ty) {o : Operand Value}
    (present : o ∈ (g.mapOperands (site.rename type new.value)).operands) (code : o.debug = false) :
    o ∈ f.operands ∨ o ∈ new.op.operands ∨ o.value.local? = some new.id := by
  rw [operands_mapOperands] at present
  obtain ⟨old, member, rfl⟩ := List.mem_map.mp present
  have debug : old.debug = false := code
  rcases site.rename_cases type new.value old.debug old.value with ⟨_, same⟩ | ⟨_, same | ⟨debugged, _⟩⟩
  · have kept : old.map (site.rename type new.value) = old := by
      cases old
      exact congrArg₂ Operand.mk same rfl
    rw [kept]
    exact (placed.operands old member).imp_right .inl
  · rw [Operand.map_value, same]
    exact .inr (.inr rfl)
  · rw [debug] at debugged
    cases debugged

theorem terms_rename (placed : f.Placed site new g) (coherent : f.Coherent) (type : Ty) :
    ∀ b ∈ f.blocks, ∃ c ∈ (g.mapOperands (site.rename type new.value)).blocks, c.id = b.id ∧
      ((c.term.op.hasResult = b.term.op.hasResult ∧ c.term.id = b.term.id ∧ c.term.op.targets = b.term.op.targets) ∨
        b.id = site.block ∧ ∃ normal unwind, site.successors = some (normal, unwind) ∧ c.term.op = .br normal) := by
  intro b member
  have blocks := site.rename_block type new.value
  obtain ⟨e, present, same, kept | ⟨block, normal, unwind, successors, branch⟩⟩ := placed.terms b member
  · refine ⟨_, List.mem_map.mpr ⟨e, present, rfl⟩, same, .inl ?_⟩
    have directed := coherent.directed b member
    rw [← kept] at directed ⊢
    exact ⟨Terminator.hasResult_mapOperands _ _, rfl, targets_mapOperands_of_directed blocks directed⟩
  · refine ⟨_, List.mem_map.mpr ⟨e, present, rfl⟩, same, .inr ⟨block, normal, unwind, successors, ?_⟩⟩
    obtain ⟨id, rfl⟩ : ∃ id, normal = .block id :=
      placed.coherent.directed e present normal (by rw [branch]; exact List.mem_singleton.mpr rfl)
    rw [Block.mapOperands_term, Terminal.mapOperands_op, branch]
    exact congrArg Terminator.br (blocks false id)

theorem mem_rename (placed : f.Placed site new g) (type : Ty) :
    ∃ c ∈ (g.mapOperands (site.rename type new.value)).blocks, c.id = site.block ∧
      new.mapOperands (site.rename type new.value) ∈ c.insts := by
  obtain ⟨c, present, here, listed⟩ := placed.placed
  exact ⟨_, List.mem_map.mpr ⟨c, present, rfl⟩, here, List.mem_map.mpr ⟨new, listed, rfl⟩⟩

theorem eq_of_new_id (placed : f.Placed site new g) (type : Ty) {j : Instruction}
    (carried : j ∈ (g.mapOperands (site.rename type new.value)).instructions) (fresh : j.id ∉ f.localIds) :
    j = new.mapOperands (site.rename type new.value) := by
  obtain ⟨d, changed, inside⟩ := List.mem_flatMap.mp carried
  obtain ⟨d, within, rfl⟩ := List.mem_map.mp changed
  obtain ⟨j, old, rfl⟩ := List.mem_map.mp inside
  rcases placed.origins d within j old with rfl | ⟨b, member, i, known, same, _⟩
  · rfl
  · rw [Instruction.mapOperands_id, same] at fresh
    exact absurd (mem_localIds_of_block member (Block.inst_id_mem_ids known)) fresh

end Placed

end Function
end CallFusion.Ir
