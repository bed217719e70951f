import CallFusion.Proofs.Ir.Mentions
import CallFusion.Proofs.Ir.Splice

/-!
Well-formed functions and modules. Operands name values of their own function, the entries of a phi are
the predecessors of its block, and every symbol that is named is declared. That a block ends in a
terminator is part of what a block is.
-/

namespace CallFusion.Ir

def Block.results (b : Block) : List Value :=
  (b.insts.filter (·.op.hasResult)).map (·.value) ++ if b.term.op.hasResult then [b.term.value] else []

def Operation.Plain (op : Operation Value) : Prop := ∀ flags incoming, op ≠ .phi flags incoming

namespace Function

variable (f : Function)

def results : List Value := f.params.map (·.value) ++ f.blocks.flatMap (·.results)

/-- Whether a value may be used in the function: a local or block has to be its own. -/
def Owns : Value → Prop
  | .local id t => .local id t ∈ f.results
  | .block id => ∃ b ∈ f.blocks, b.id = id
  | .metadata _ _ _ => False
  | _ => True

/-- Control may go from the end of one block to another. -/
def Enters (source target : LocalId) : Prop := ∃ b ∈ f.blocks, b.id = source ∧ target ∈ b.successors

/-- A phi of the given block has an entry for each predecessor of the block, and no other. -/
def Joins (block : LocalId) : Operation Value → Prop
  | .phi _ incoming => ∀ v, v ∈ incoming.map (·.2) ↔ ∃ source, f.Enters source block ∧ v = .block source
  | _ => True

/-- Numbers, targets and phis are as they should be, whatever the operands are. -/
structure Shaped : Prop extends f.Coherent where
  joined : ∀ b ∈ f.blocks, ∀ i ∈ b.insts, f.Joins b.id i.op

structure WellFormed : Prop extends f.Shaped where
  owned : ∀ o ∈ f.operands, f.Owns o.value

/-- An operand that has the number of a result is that result, its type included. -/
def Typed : Prop :=
  ∀ o ∈ f.operands, ∀ v ∈ f.results, ∀ id, o.value.local? = some id → v.local? = some id → o.value = v

end Function

namespace Module

/-- A function, global or alias of the module has this number. -/
def Declares (m : Module) (id : SymbolId) : Prop :=
  (∃ f ∈ m.functions, f.id = id) ∨ (∃ g ∈ m.globals, g.id = id) ∨ ∃ a ∈ m.aliases, a.id = id

def symbolIds (m : Module) : List SymbolId :=
  m.functions.map (·.id) ++ (m.globals.map (·.id) ++ m.aliases.map (·.id))

/-- What reading a module promises: symbols have numbers of their own, and functions are coherent. -/
structure Coherent (m : Module) : Prop where
  distinct : m.symbolIds.Nodup
  functions : ∀ f ∈ m.functions, f.Coherent

/-- What it promises besides: operands have the types of what they refer to, and what is named is declared. -/
structure Resolved (m : Module) : Prop extends m.Coherent where
  typed : ∀ f ∈ m.functions, f.Typed
  declared : ∀ id, m.Names id → m.Declares id

/-- Functions are well formed, and what is named is declared, as far as erasing a function goes by it. -/
structure Sound (m : Module) : Prop where
  distinct : m.symbolIds.Nodup
  functions : ∀ f ∈ m.functions, f.WellFormed
  declared : ∀ id, m.Names id → m.Declares id

/-- What is written out in arguments and tuple definitions is declared as well. -/
structure WellFormed (m : Module) : Prop extends m.Sound where
  spelled : ∀ id, m.WrittenOut id → m.Declares id

theorem Sound.coherent {m : Module} (sound : m.Sound) : m.Coherent :=
  ⟨sound.distinct, fun f listed => (sound.functions f listed).toCoherent⟩

end Module

theorem Block.mem_successors {b : Block} {id : LocalId} : id ∈ b.successors ↔ .block id ∈ b.term.op.targets := by
  simp [Block.successors, Value.block?_eq_some]

namespace Function

variable {f g : Function}

theorem results_local?_sublist (f : Function) : (f.results.map Value.local?).Sublist (f.localIds.map some) := by
  have block : ∀ b : Block, (b.results.map Value.local?).Sublist (b.ids.map some) := by
    intro b
    have insts : (((b.insts.filter (·.op.hasResult)).map (·.value)).map Value.local?).Sublist
        ((b.insts.map (·.id)).map some) := by
      rw [List.map_map, List.map_map]
      exact List.filter_sublist.map _
    have term : ((if b.term.op.hasResult then [b.term.value] else []).map Value.local?).Sublist ([b.term.id].map some) := by
      split
      · exact List.Sublist.refl _
      · exact List.nil_sublist _
    rw [Block.results, Block.ids, List.map_append, List.map_cons, List.map_append]
    exact (insts.append term).trans (List.sublist_cons_self _ _)
  have blocks : ∀ bs : List Block, ((bs.flatMap Block.results).map Value.local?).Sublist ((bs.flatMap Block.ids).map some) := by
    intro bs
    induction bs with
    | nil => exact List.Sublist.refl _
    | cons b bs ih =>
      rw [List.flatMap_cons, List.flatMap_cons, List.map_append, List.map_append]
      exact (block b).append ih
  rw [results, localIds_eq, List.map_append, List.map_append, List.map_map, List.map_map]
  exact (List.Sublist.refl _).append (blocks f.blocks)

theorem results_unique (numbered : f.localIds.Nodup) {v w : Value} (first : v ∈ f.results) (second : w ∈ f.results)
    (same : v.local? = w.local?) : v = w :=
  List.inj_on_of_nodup_map ((numbered.map fun _ _ => Option.some.inj).sublist f.results_local?_sublist) first second same

theorem WellFormed.typed (wellFormed : f.WellFormed) : f.Typed := by
  intro o present v listed id held same
  obtain ⟨t, form⟩ := Value.local?_eq_some.mp held
  have owned := wellFormed.owned o present
  rw [form] at owned
  rw [form]
  exact results_unique wellFormed.numbered owned listed same.symm

theorem param_value_mem_results {p : Param} (given : p ∈ f.params) : p.value ∈ f.results :=
  List.mem_append_left _ (List.mem_map.mpr ⟨p, given, rfl⟩)

theorem Owns.mono {v : Value} (owned : f.Owns v) (results : v ∈ f.results → v ∈ g.results)
    (blocks : ∀ b ∈ f.blocks, ∃ c ∈ g.blocks, c.id = b.id) : g.Owns v := by
  cases v with
  | «local» id t => exact results owned
  | block id =>
    obtain ⟨b, member, rfl⟩ := owned
    exact blocks b member
  | const mention c => trivial
  | asm mention t code => trivial
  | metadata call position content => exact owned

theorem wellFormed_of_declaration (bare : f.blocks = []) (own : (f.params.map (·.id)).Nodup) : f.WellFormed := by
  have nothing : ∀ b, b ∉ f.blocks := fun b => bare ▸ List.not_mem_nil
  have ids : f.localIds = f.params.map (·.id) := by rw [localIds_eq, bare, List.flatMap_nil, List.append_nil]
  refine ⟨⟨⟨ids ▸ own, fun b member => absurd member (nothing b)⟩, fun b member => absurd member (nothing b)⟩, fun o present => ?_⟩
  obtain ⟨b, member, _⟩ := List.mem_flatMap.mp present
  exact absurd member (nothing b)

theorem joins_of_plain {op : Operation Value} (plain : op.Plain) (block : LocalId) : f.Joins block op := by
  cases op with
  | phi flags incoming => exact (plain flags incoming rfl).elim
  | _ => trivial

theorem Joins.congr {block : LocalId} {op : Operation Value} (joined : f.Joins block op)
    (enters : ∀ source, g.Enters source block ↔ f.Enters source block) : g.Joins block op := by
  cases op with
  | phi flags incoming => simpa only [Joins, enters] using joined
  | _ => trivial

theorem localIds_of_same (params : g.params.map (fun p => (p.id, p.type)) = f.params.map fun p => (p.id, p.type))
    (blocks : g.blocks = f.blocks) : g.localIds = f.localIds := by
  have ids : g.params.map (·.id) = f.params.map (·.id) := by
    simpa [Function.comp_def] using congrArg (List.map Prod.fst) params
  rw [localIds_eq, ids, blocks]
  rfl

theorem coherent_of_same (params : g.params.map (fun p => (p.id, p.type)) = f.params.map fun p => (p.id, p.type))
    (blocks : g.blocks = f.blocks) (coherent : f.Coherent) : g.Coherent :=
  ⟨localIds_of_same params blocks ▸ coherent.numbered, blocks ▸ coherent.directed⟩

theorem wellFormed_of_same (params : g.params.map (fun p => (p.id, p.type)) = f.params.map fun p => (p.id, p.type))
    (blocks : g.blocks = f.blocks) (wellFormed : f.WellFormed) : g.WellFormed := by
  have values : g.params.map (·.value) = f.params.map (·.value) := by
    simpa [Function.comp_def, Param.value] using congrArg (List.map fun q => Value.local q.1 q.2) params
  have results : g.results = f.results := by rw [Function.results, Function.results, values, blocks]
  have enters : ∀ source target, g.Enters source target ↔ f.Enters source target := by
    intro source target
    rw [Enters, Enters, blocks]
  refine ⟨⟨coherent_of_same params blocks wellFormed.toCoherent, ?_⟩, ?_⟩
  · rw [blocks]
    exact fun b member i inside => (wellFormed.joined b member i inside).congr fun source => enters source b.id
  · intro o present
    rw [Function.operands, blocks] at present
    exact (wellFormed.owned o present).mono (fun listed => results ▸ listed) fun b member => ⟨b, blocks ▸ member, rfl⟩

theorem note_coherent (coherent : f.Coherent) (gone : List (LocalId × Ident)) : (f.note gone).Coherent :=
  coherent_of_same (f := f) rfl rfl coherent

theorem note_wellFormed (wellFormed : f.WellFormed) (gone : List (LocalId × Ident)) : (f.note gone).WellFormed :=
  wellFormed_of_same (f := f) rfl rfl wellFormed

theorem joins_mapOperands {h : Bool → Value → Value} (kept : ∀ debug id, h debug (.block id) = .block id)
    {block : LocalId} {op : Operation Value} (enters : ∀ source, g.Enters source block ↔ f.Enters source block)
    (joined : f.Joins block op) : g.Joins block (op.mapOperands h) := by
  cases op with
  | phi flags incoming =>
    simp only [Joins, Operation.mapOperands, List.map_map, enters] at joined ⊢
    have same : incoming.map (fun p => h false p.2) = incoming.map (·.2) := by
      apply List.map_congr_left
      intro p listed
      obtain ⟨source, _, held⟩ := (joined p.2).mp (List.mem_map.mpr ⟨p, listed, rfl⟩)
      rw [held, kept]
    exact fun v => (same ▸ joined v :)
  | _ => trivial

theorem targets_mapOperands_of_directed {h : Bool → Value → Value}
    (kept : ∀ debug id, h debug (.block id) = .block id) {t : Terminator Value}
    (directed : ∀ v ∈ t.targets, ∃ id, v = .block id) : (t.mapOperands h).targets = t.targets := by
  rw [Terminator.targets_mapOperands]
  calc t.targets.map (h false) = t.targets.map fun v => v := List.map_congr_left fun v listed => by
        obtain ⟨id, rfl⟩ := directed v listed
        exact kept false id
    _ = t.targets := List.map_id' _

theorem mapOperands_coherent {h : Bool → Value → Value} (kept : ∀ debug id, h debug (.block id) = .block id)
    (coherent : f.Coherent) : (f.mapOperands h).Coherent := by
  constructor
  · rw [localIds_mapOperands]
    exact coherent.numbered
  · intro c mapped v listed
    obtain ⟨b, member, rfl⟩ := List.mem_map.mp mapped
    rw [Block.mapOperands_term, Terminal.mapOperands_op,
      targets_mapOperands_of_directed kept (coherent.directed b member)] at listed
    exact coherent.directed b member v listed

theorem mapOperands_shaped {h : Bool → Value → Value} (kept : ∀ debug id, h debug (.block id) = .block id)
    (shaped : f.Shaped) : (f.mapOperands h).Shaped := by
  have targets : ∀ b ∈ f.blocks, (b.mapOperands h).term.op.targets = b.term.op.targets := fun b member =>
    targets_mapOperands_of_directed kept (shaped.directed b member)
  have enters : ∀ source target, (f.mapOperands h).Enters source target ↔ f.Enters source target := by
    intro source target
    constructor
    · rintro ⟨_, mapped, rfl, next⟩
      obtain ⟨b, member, rfl⟩ := List.mem_map.mp mapped
      refine ⟨b, member, rfl, ?_⟩
      rwa [Block.mem_successors, targets b member, ← Block.mem_successors] at next
    · rintro ⟨b, member, rfl, next⟩
      refine ⟨_, List.mem_map.mpr ⟨b, member, rfl⟩, rfl, ?_⟩
      rwa [Block.mem_successors, targets b member, ← Block.mem_successors]
  refine ⟨mapOperands_coherent kept shaped.toCoherent, fun c mapped j inside => ?_⟩
  obtain ⟨b, member, rfl⟩ := List.mem_map.mp mapped
  obtain ⟨i, carried, rfl⟩ := List.mem_map.mp inside
  exact joins_mapOperands kept (fun source => enters source b.id) (shaped.joined b member i carried)

@[simp] theorem results_mapOperands (h : Bool → Value → Value) (f : Function) : (f.mapOperands h).results = f.results := by
  simp [results, Block.results, List.flatMap_map, List.filter_map, Function.comp_def]

theorem owns_mapOperands {h : Bool → Value → Value} {v : Value} : (f.mapOperands h).Owns v ↔ f.Owns v := by
  have blocks : ∀ b ∈ (f.mapOperands h).blocks, ∃ c ∈ f.blocks, c.id = b.id := by
    intro c mapped
    obtain ⟨b, member, rfl⟩ := List.mem_map.mp mapped
    exact ⟨b, member, rfl⟩
  constructor
  · intro owned
    exact owned.mono (fun listed => results_mapOperands h f ▸ listed) blocks
  · intro owned
    exact owned.mono (fun listed => (results_mapOperands h f).symm ▸ listed) fun b member =>
      ⟨b.mapOperands h, List.mem_map.mpr ⟨b, member, rfl⟩, rfl⟩

theorem mapOperands_wellFormed {h : Bool → Value → Value} (kept : ∀ debug id, h debug (.block id) = .block id)
    (wellFormed : f.WellFormed) (owned : ∀ o ∈ f.operands, f.Owns (h o.debug o.value)) :
    (f.mapOperands h).WellFormed := by
  refine ⟨mapOperands_shaped kept wellFormed.toShaped, fun o present => ?_⟩
  rw [operands_mapOperands] at present
  obtain ⟨old, member, rfl⟩ := List.mem_map.mp present
  exact owns_mapOperands.mpr (owned old member)

theorem results_updateBlock {id : LocalId} {h : Block → Block} {v : Value} (listed : v ∈ f.results)
    (kept : ∀ b ∈ f.blocks, b.id = id → v ∈ b.results → v ∈ (h b).results) : v ∈ (f.updateBlock id h).results := by
  rcases List.mem_append.mp listed with param | inside
  · exact List.mem_append_left _ param
  · obtain ⟨b, member, left⟩ := List.mem_flatMap.mp inside
    apply List.mem_append_right
    by_cases here : b.id = id
    · exact List.mem_flatMap.mpr ⟨h b, (mem_updateBlock member).1 here, kept b member here left⟩
    · exact List.mem_flatMap.mpr ⟨b, (mem_updateBlock member).2 here, left⟩

theorem enters_updateBlock {id : LocalId} {h : Block → Block}
    (kept : ∀ b ∈ f.blocks, b.id = id → (h b).id = b.id ∧ (h b).term.op.targets = b.term.op.targets)
    (source target : LocalId) : (f.updateBlock id h).Enters source target ↔ f.Enters source target := by
  have same : ∀ b ∈ f.blocks, (if b.id == id then h b else b).id = b.id ∧
      (if b.id == id then h b else b).term.op.targets = b.term.op.targets := by
    intro b member
    by_cases here : b.id = id
    · simpa [here] using kept b member here
    · simp [here]
  simp only [Enters, updateBlock, List.mem_map, exists_exists_and_eq_and, Block.mem_successors]
  constructor
  · rintro ⟨b, member, rfl, next⟩
    exact ⟨b, member, (same b member).1.symm, (same b member).2 ▸ next⟩
  · rintro ⟨b, member, rfl, next⟩
    exact ⟨b, member, (same b member).1, (same b member).2.symm ▸ next⟩

theorem updateBlock_numbered (numbered : f.localIds.Nodup) {b : Block} (member : b ∈ f.blocks) {h : Block → Block}
    (distinct : (h b).ids.Nodup) (fresh : ∀ x ∈ (h b).ids, x ∈ b.ids ∨ x ∉ f.localIds) :
    (f.updateBlock b.id h).localIds.Nodup := by
  obtain ⟨before, after, split⟩ := exists_splitAt numbered member
  have whole : f.localIds =
      (f.params.map (·.id) ++ before.flatMap Block.ids) ++ (b.ids ++ after.flatMap Block.ids) := by
    simp [localIds_eq, split.blocks]
  rw [split.updateBlock]
  rw [whole] at numbered fresh
  have exchanged := nodup_exchange numbered distinct fresh
  simpa [localIds_eq] using exchanged

theorem mem_updateBlock_cases (numbered : f.localIds.Nodup) {b : Block} (member : b ∈ f.blocks) {h : Block → Block}
    {c : Block} (changed : c ∈ (f.updateBlock b.id h).blocks) : c = h b ∨ c ∈ f.blocks := by
  obtain ⟨old, inside, rfl⟩ := List.mem_map.mp changed
  by_cases here : old.id = b.id
  · exact .inl (by simp [block_eq_of_id numbered inside member here])
  · exact .inr (by simpa [here] using inside)

theorem updateBlock_coherent (coherent : f.Coherent) {b : Block} (member : b ∈ f.blocks) {h : Block → Block}
    (distinct : (h b).ids.Nodup) (fresh : ∀ x ∈ (h b).ids, x ∈ b.ids ∨ x ∉ f.localIds)
    (directed : ∀ v ∈ (h b).term.op.targets, ∃ id, v = .block id) : (f.updateBlock b.id h).Coherent := by
  refine ⟨updateBlock_numbered coherent.numbered member distinct fresh, fun c changed v listed => ?_⟩
  rcases mem_updateBlock_cases coherent.numbered member changed with rfl | inside
  · exact directed v listed
  · exact coherent.directed c inside v listed

/-- Changing the instructions of one block keeps a function in shape when new instructions have new
numbers and are no phis. -/
theorem updateBlock_shaped (shaped : f.Shaped) {b : Block} (member : b ∈ f.blocks) {h : Block → Block}
    (distinct : (h b).ids.Nodup) (fresh : ∀ x ∈ (h b).ids, x ∈ b.ids ∨ x ∉ f.localIds) (same : (h b).id = b.id)
    (term : (h b).term = b.term)
    (insts : ∀ i ∈ (h b).insts, i ∈ b.insts ∨ i.op.Plain) : (f.updateBlock b.id h).Shaped := by
  have only : ∀ c ∈ f.blocks, c.id = b.id → c = b := fun c inside here =>
    block_eq_of_id shaped.numbered inside member here
  have enters : ∀ source target, (f.updateBlock b.id h).Enters source target ↔ f.Enters source target :=
    enters_updateBlock fun c inside here => by
      rw [only c inside here]
      exact ⟨same, by rw [term]⟩
  refine ⟨updateBlock_coherent shaped.toCoherent member distinct fresh fun v listed => ?_, fun c changed i carried => ?_⟩
  · exact shaped.directed b member v (term ▸ listed)
  · rcases mem_updateBlock_cases shaped.numbered member changed with rfl | inside
    · rcases insts i carried with old | new
      · rw [same]
        exact (shaped.joined b member i old).congr fun source => enters source b.id
      · exact joins_of_plain new _
    · exact (shaped.joined c inside i carried).congr fun source => enters source c.id

end Function

theorem Module.Sound.resolved {m : Module} (sound : m.Sound) : m.Resolved where
  toCoherent := sound.coherent
  typed := fun f listed => (sound.functions f listed).typed
  declared := sound.declared

end CallFusion.Ir
