import CallFusion.Proofs.Ir.Execution
import CallFusion.Proofs.Ir.Replacement

/-!
What lowering an invoke makes of a function, block by block: the invoke's block ends in the call and a
branch, the block it unwound to loses the phi entries of that edge, and all slots are renamed.
-/

namespace CallFusion.Ir

@[simp] theorem Operation.isPhi_mapOperands {α β : Type} (h : Bool → α → β) (op : Operation α) :
    (op.mapOperands h).isPhi = op.isPhi := by
  cases op <;> rfl

@[simp] theorem Operation.isCall_mapOperands {α β : Type} (h : Bool → α → β) (op : Operation α) :
    (op.mapOperands h).isCall = op.isCall := by
  cases op <;> rfl

theorem Terminator.chooses_mapOperands {α β : Type} (h : Bool → α → β) (op : Terminator α) :
    (op.mapOperands h).Chooses ↔ op.Chooses := by
  cases op <;> rfl

theorem Operation.mapOperands_eq_call {α β : Type} {h : Bool → α → β} {op : Operation α} {tail : String} {c : Call β}
    (same : op.mapOperands h = .call tail c) : ∃ old, op = .call tail old ∧ c = old.mapOperands h := by
  cases op <;> cases same
  exact ⟨_, rfl, rfl⟩

theorem Terminator.mapOperands_eq_br {α β : Type} {h : Bool → α → β} {op : Terminator α} {v : β}
    (same : op.mapOperands h = .br v) : ∃ w, op = .br w ∧ h false w = v := by
  cases op <;> cases same
  exact ⟨_, rfl, rfl⟩

theorem Terminator.mapOperands_eq_invoke {α β : Type} {h : Bool → α → β} {op : Terminator α} {c : Call β} {n u : β}
    (same : op.mapOperands h = .invoke c n u) :
    ∃ old x y, op = .invoke old x y ∧ c = old.mapOperands h ∧ h false x = n ∧ h false y = u := by
  cases op <;> cases same
  exact ⟨_, _, _, rfl, rfl, rfl, rfl⟩

/-- What an invoke is replaced with: a call and a branch to the normal continuation. -/
structure Replacement where
  site : CallSite
  type : Ty
  new : Instruction
  branch : LocalId
  normal : LocalId

namespace Replacement

variable (R : Replacement) (block source : LocalId) (i : Instruction) (d : Block)

def rename : Bool → Value → Value := R.site.rename R.type R.new.value

def lowerInst : Instruction :=
  (if R.site.unwind? = some block ∧ block ≠ R.normal then i.withoutEntry R.site.block else i).mapOperands R.rename

def lower : Block :=
  ((if d.id = R.site.block then d.lower R.new R.branch (.block R.normal) else d).prune R.site R.normal).mapOperands R.rename

theorem rename_block (debug : Bool) (id : LocalId) : R.rename debug (.block id) = .block id :=
  R.site.rename_block R.type R.new.value debug id

theorem rename_block? (v : Value) : (R.rename false v).block? = v.block? :=
  Function.rename_block? R.site R.type R.new v

@[simp] theorem lowerInst_id : (R.lowerInst block i).id = i.id := by
  unfold lowerInst
  split <;> simp

theorem lowerInst_of_noPhi {i : Instruction} (noPhi : i.op.isPhi = false) :
    R.lowerInst block i = i.mapOperands R.rename := by
  have plain : i.op.Plain := by
    intro flags incoming phi
    rw [phi] at noPhi
    cases noPhi
  unfold lowerInst
  split
  · rw [Instruction.withoutEntry_of_plain _ plain]
  · rfl

@[simp] theorem lowerInst_isPhi : (R.lowerInst block i).op.isPhi = i.op.isPhi := by
  cases phi : i.op.isPhi with
  | false =>
    rw [R.lowerInst_of_noPhi block phi]
    simpa using phi
  | true =>
    cases op : i.op with
    | phi flags incoming =>
      unfold lowerInst
      rw [Instruction.mapOperands_op, Operation.isPhi_mapOperands]
      split
      · simp only [Instruction.withoutEntry, op]
        rfl
      · rw [op]
        rfl
    | _ =>
      rw [op] at phi
      cases phi

theorem lowerInst_arrival? (kept : ¬ (R.site.unwind? = some block ∧ block ≠ R.normal ∧ source = R.site.block)) :
    (R.lowerInst block i).arrival? source =
      (i.arrival? source).map (R.rename false) := by
  cases op : i.op with
  | phi flags incoming =>
    have renamed : ∀ entries : List (Value × Value),
        ((entries.map fun e => (R.rename false e.1, R.rename false e.2)).find? fun e =>
          e.2.block? == some source).map (·.1) =
        ((entries.find? fun e => e.2.block? == some source).map (·.1)).map (R.rename false) := by
      intro entries
      simp only [List.find?_map, Function.comp_def, rename_block?, Option.map_map]
    by_cases abandoned : R.site.unwind? = some block ∧ block ≠ R.normal
    · have other : source ≠ R.site.block := fun same => kept ⟨abandoned.1, abandoned.2, same⟩
      have found : (incoming.filter fun e => !e.2.same (.block R.site.block)).find? (fun e => e.2.block? == some source) =
          incoming.find? fun e => e.2.block? == some source := by
        rw [List.find?_filter]
        congr 1
        funext e
        by_cases here : e.2.block? = some source <;> simp [here, other]
      simp only [Instruction.arrival?, lowerInst, if_pos abandoned, Instruction.withoutEntry, op, Instruction.mapOperands,
        Operation.mapOperands, renamed, found]
    · simp only [Instruction.arrival?, lowerInst, if_neg abandoned, op, Instruction.mapOperands, Operation.mapOperands, renamed]
  | _ =>
    have noPhi : i.op.isPhi = false := by
      rw [op]
      rfl
    rw [R.lowerInst_of_noPhi block noPhi]
    simp [Instruction.arrival?, op, Operation.mapOperands]

@[simp] theorem lower_id : (R.lower d).id = d.id := by
  unfold lower
  rw [Block.mapOperands_id, Block.prune_id]
  split <;> rfl

theorem lower_insts : (R.lower d).insts =
    (if d.id = R.site.block then d.insts ++ [R.new] else d.insts).map (R.lowerInst d.id) := by
  have same : (if d.id = R.site.block then d.lower R.new R.branch (.block R.normal) else d).id = d.id := by
    split <;> rfl
  have insts : (if d.id = R.site.block then d.lower R.new R.branch (.block R.normal) else d).insts =
      if d.id = R.site.block then d.insts ++ [R.new] else d.insts := by
    split <;> rfl
  unfold lower
  rw [Block.mapOperands_insts, ← insts, Block.prune, same]
  unfold lowerInst
  split
  · rw [Block.dropIncoming_eq, List.map_map]
    rfl
  · rfl

theorem lower_phis (noPhi : R.new.op.isPhi = false) : (R.lower d).phis =
    d.phis.map (R.lowerInst d.id) := by
  have tail : (d.insts ++ [R.new]).takeWhile (·.op.isPhi) = d.insts.takeWhile (·.op.isPhi) := by
    rw [List.takeWhile_append]
    split
    · next whole => simp [noPhi, (List.takeWhile_sublist _).eq_of_length whole]
    · rfl
  rw [Block.phis, lower_insts, List.takeWhile_map]
  simp only [Function.comp_def, lowerInst_isPhi]
  split
  · rw [tail, Block.phis]
  · rfl

theorem lower_term : (R.lower d).term =
    if d.id = R.site.block then ⟨R.branch, .number 0, .void, .br (.block R.normal), []⟩
    else d.term.mapOperands R.rename := by
  unfold lower
  rw [Block.mapOperands_term, Block.prune_term]
  split
  · simp [Block.lower, Terminal.mapOperands, Terminator.mapOperands, R.rename_block]
  · rfl

theorem lowered_blocks (f : Function) :
    (((f.updateBlock R.site.block (·.lower R.new R.branch (.block R.normal))).prune R.site R.normal).mapOperands
      R.rename).blocks = f.blocks.map R.lower := by
  rw [Function.mapOperands_blocks, Function.prune_blocks, Function.updateBlock, List.map_map, List.map_map]
  apply List.map_congr_left
  intro d _
  simp [lower, Function.comp_def]

end Replacement

/-- An invoke of a well-formed function, and the function in which a call has taken its place. -/
structure Lowering extends Replacement where
  before : Function
  after : Function
  home : Block
  unwind : Value
  call : Call Value
  wellFormed : before.WellFormed
  agree : site.type.same type = true
  member : home ∈ before.blocks
  at_home : site.block = home.id
  number : site.id = home.term.id
  op : home.term.op = .invoke site.call (.block normal) unwind
  fresh : new.id ∉ before.localIds
  calls : new.op = .call "" call
  callee : call.callee = site.call.callee
  args : call.args.map Argument.bare = site.call.args.map Argument.bare
  params : after.params = before.params
  blocks : after.blocks = before.blocks.map toReplacement.lower

namespace Lowering

variable {d : Block} {pc : Nat}

theorem unmentioned (L : Lowering) {o : Operand Value}
    (present : o ∈ L.before.operands) : o.value.local? ≠ some L.new.id := by
  intro held
  obtain ⟨t, form⟩ := Value.local?_eq_some.mp held
  have owned := L.wellFormed.owned o present
  rw [form] at owned
  have listed : Value.local L.new.id t ∈ L.before.results := owned
  have inside := (L.before.results_local?_sublist).subset (List.mem_map.mpr ⟨_, listed, rfl⟩)
  obtain ⟨id, known, same⟩ := List.mem_map.mp inside
  exact L.fresh (Option.some.inj same ▸ known)

theorem new_noPhi (L : Lowering) : L.new.op.isPhi = false := by
  rw [L.calls]
  rfl

theorem only (L : Lowering) (within : d ∈ L.before.blocks)
    (here : d.id = L.site.block) : d = L.home :=
  Function.block_eq_of_id L.wellFormed.numbered within L.member (here.trans L.at_home)

theorem inst_apart (L : Lowering) (within : d ∈ L.before.blocks)
    {i : Instruction} (carried : i ∈ d.insts) : i.id ≠ L.site.id ∧ i.id ≠ L.new.id := by
  have inside := Block.inst_id_mem_ids carried
  constructor
  · intro same
    rw [L.number] at same
    have home := Function.block_unique L.wellFormed.numbered within L.member inside (same ▸ L.home.term_id_mem_ids)
    have distinct := Function.block_ids_nodup L.wellFormed.numbered within
    rw [Block.ids, List.nodup_cons, List.nodup_append] at distinct
    exact distinct.2.2.2 i.id (List.mem_map.mpr ⟨i, carried, rfl⟩) d.term.id List.mem_cons_self (home ▸ same)
  · intro same
    exact L.fresh (same ▸ Function.mem_localIds_of_block within inside)

theorem term_apart (L : Lowering) (within : d ∈ L.before.blocks)
    (other : d.id ≠ L.site.block) : d.term.id ≠ L.site.id ∧ d.term.id ≠ L.new.id := by
  constructor
  · intro same
    rw [L.number] at same
    have equal := Function.block_unique L.wellFormed.numbered within L.member d.term_id_mem_ids
      (same ▸ L.home.term_id_mem_ids)
    exact other (equal ▸ L.at_home.symm)
  · intro same
    exact L.fresh (same ▸ Function.mem_localIds_of_block within d.term_id_mem_ids)

theorem inst_slots (L : Lowering) (within : d ∈ L.before.blocks) {i : Instruction} (carried : i ∈ d.insts) :
    ∀ o ∈ i.op.operands, o ∈ L.before.operands := fun _ present =>
  Function.block_slot within (Block.inst_slot carried present)

theorem term_slots (L : Lowering) (within : d ∈ L.before.blocks) :
    ∀ o ∈ d.term.op.operands, o ∈ L.before.operands := fun _ present =>
  Function.block_slot within (Block.term_slot present)

theorem arrival_slot {i : Instruction} {source : LocalId} {v : Value} (arrives : i.arrival? source = some v) :
    .code v ∈ i.op.operands := by
  unfold Instruction.arrival? at arrives
  split at arrives
  · next flags incoming op =>
    obtain ⟨e, found, rfl⟩ := Option.map_eq_some_iff.mp arrives
    rw [op]
    exact List.mem_flatMap.mpr ⟨e, List.mem_of_find?_eq_some found, List.mem_cons_self⟩
  · cases arrives

theorem mem_lowered (L : Lowering) (within : d ∈ L.before.blocks) :
    L.lower d ∈ L.after.blocks := by
  rw [L.blocks]
  exact List.mem_map.mpr ⟨d, within, rfl⟩

theorem of_mem_lowered (L : Lowering) {e : Block} (member : e ∈ L.after.blocks) :
    ∃ d ∈ L.before.blocks, e = L.lower d := by
  rw [L.blocks] at member
  obtain ⟨d, within, rfl⟩ := List.mem_map.mp member
  exact ⟨d, within, rfl⟩

theorem inst_at (L : Lowering) (within : pc < d.insts.length) :
    (L.lower d).insts[pc]? = (d.insts[pc]?).map (L.lowerInst d.id) := by
  rw [Replacement.lower_insts, List.getElem?_map]
  split
  · rw [List.getElem?_append_left within]
  · rfl

theorem inst_there (L : Lowering) {i : Instruction} (at_pc : d.insts[pc]? = some i) (noPhi : i.op.isPhi = false) :
    (L.lower d).insts[pc]? = some (i.mapOperands L.rename) := by
  obtain ⟨inside, _⟩ := List.getElem?_eq_some_iff.mp at_pc
  rw [L.inst_at inside, at_pc, Option.map_some, L.lowerInst_of_noPhi d.id noPhi]

theorem call_at (L : Lowering) :
    (L.lower L.home).insts[L.home.insts.length]? =
      some (L.new.mapOperands L.rename) := by
  rw [Replacement.lower_insts, if_pos L.at_home.symm, List.getElem?_map, List.getElem?_append_right (Nat.le_refl _),
    Nat.sub_self, List.getElem?_cons_zero, Option.map_some,
    L.lowerInst_of_noPhi L.home.id L.new_noPhi]

theorem length_other (L : Lowering) (other : d.id ≠ L.site.block) : (L.lower d).insts.length = d.insts.length := by
  rw [Replacement.lower_insts, if_neg other, List.length_map]

theorem length_here (L : Lowering) (here : d.id = L.site.block) :
    (L.lower d).insts.length = d.insts.length + 1 := by
  rw [Replacement.lower_insts, if_pos here, List.length_map, List.length_append, List.length_singleton]

theorem inst_back (L : Lowering) (within : d ∈ L.before.blocks) {j : Instruction}
    (at_pc : (L.lower d).insts[pc]? = some j) :
    (∃ i, d.insts[pc]? = some i ∧ j = L.lowerInst d.id i) ∨
      (d = L.home ∧ pc = L.home.insts.length ∧ j = L.new.mapOperands L.rename) := by
  by_cases ahead : pc < d.insts.length
  · left
    rw [L.inst_at ahead] at at_pc
    obtain ⟨i, there, rfl⟩ := Option.map_eq_some_iff.mp at_pc
    exact ⟨i, there, rfl⟩
  · obtain ⟨inside, _⟩ := List.getElem?_eq_some_iff.mp at_pc
    by_cases here : d.id = L.site.block
    · right
      rw [L.length_here here] at inside
      obtain rfl : pc = d.insts.length := by omega
      have home := L.only within here
      rw [home, L.call_at] at at_pc
      exact ⟨home, by rw [home], (Option.some.inj at_pc).symm⟩
    · rw [L.length_other here] at inside
      exact (ahead inside).elim

theorem call_back (L : Lowering) {i : Instruction} {block : LocalId} {tail : String} {c : Call Value}
    (op : (L.lowerInst block i).op = .call tail c) :
    ∃ old, i.op = .call tail old ∧ c = old.mapOperands L.rename := by
  have noPhi : i.op.isPhi = false := by
    rw [← L.lowerInst_isPhi block, op]
    rfl
  rw [L.lowerInst_of_noPhi block noPhi] at op
  exact Operation.mapOperands_eq_call op

theorem term_other (L : Lowering) (other : d.id ≠ L.site.block) :
    (L.lower d).term = d.term.mapOperands L.rename := by
  rw [Replacement.lower_term, if_neg other]

theorem term_back (L : Lowering)
    (notBranch : ∀ v, (L.lower d).term.op ≠ .br v) : d.id ≠ L.site.block := by
  intro here
  apply notBranch (.block L.normal)
  rw [Replacement.lower_term, if_pos here]

theorem rename_eq_block (L : Lowering) {v : Value} {id : LocalId} (renamed : L.rename false v = .block id) : v = .block id := by
  have same := L.rename_block? v
  rw [renamed, Value.block?_block] at same
  exact Value.block?_eq_some.mp same.symm

theorem call_slots (L : Lowering) (within : d ∈ L.before.blocks) {i : Instruction} {tail : String} {c : Call Value}
    (at_pc : d.insts[pc]? = some i) (op : i.op = .call tail c) : ∀ o ∈ (Operation.call "" c).operands, o ∈ L.before.operands := by
  intro o present
  apply L.inst_slots within (List.mem_of_getElem? at_pc)
  rw [op]
  exact present

theorem invoked_slots (L : Lowering) (within : d ∈ L.before.blocks) {c : Call Value} {n u : Value}
    (op : d.term.op = .invoke c n u) :
    ∀ o ∈ (Operation.call "" c).operands, o ∈ L.before.operands := by
  intro o present
  apply L.term_slots within
  rw [op]
  simp only [Operation.operands, Terminator.operands, List.mem_cons, List.mem_append] at present ⊢
  tauto

theorem other_of_op (L : Lowering) (within : d ∈ L.before.blocks)
    (op : ∀ c n u, d.term.op ≠ .invoke c n u) : d.id ≠ L.site.block := by
  intro here
  obtain rfl := L.only within here
  exact op _ _ _ L.op

theorem edge_kept (L : Lowering) (apart : d.id ≠ L.site.block) {target : Block} :
    ¬ (L.site.unwind? = some target.id ∧ target.id ≠ L.normal ∧ d.id = L.site.block) := fun edge => apart edge.2.2

theorem continuations (L : Lowering) :
    (∃ t ∈ L.before.blocks, t.id = L.normal) ∧ ∃ t ∈ L.before.blocks, L.unwind = .block t.id := by
  have slots := L.term_slots L.member
  rw [L.op] at slots
  have taken : ∀ {v : Value}, v ∈ (Terminator.invoke L.site.call (.block L.normal) L.unwind).targets → L.before.Owns v := fun listed =>
    L.wellFormed.owned _ (slots _ (Terminator.code_mem_operands_of_mem_targets listed))
  constructor
  · exact taken List.mem_cons_self
  · have listed : L.unwind ∈ (Terminator.invoke L.site.call (.block L.normal) L.unwind).targets :=
      List.mem_cons_of_mem _ List.mem_cons_self
    obtain ⟨id, form⟩ := L.wellFormed.directed L.home L.member L.unwind (L.op ▸ listed)
    obtain ⟨t, there, rfl⟩ : ∃ t ∈ L.before.blocks, t.id = id := by
      have owned := taken listed
      rw [form] at owned
      exact owned
    exact ⟨t, there, form⟩

end Lowering

namespace Function

variable {f : Function} {site : CallSite} {call : Call Value} {type : Ty}

theorem newcomer_of_agree (agree : site.type.same type = true) (attached : List Attachment) :
    f.newcomer site call type attached = f.replacementFor site call type attached := by
  rw [newcomer, CallSite.detach_of_same agree, f.mapOperands_same]

/-- An invoke that is replaced by a call of the same callee, with the same arguments and result type, is
lowered. -/
theorem replaceCallSite_lowering (wellFormed : f.WellFormed) (listed : site ∈ f.callSites)
    (exceptional : site.isExceptional = true) (callee : call.callee = site.call.callee)
    (args : call.args.map Argument.bare = site.args) (agree : site.type.same type = true)
    (attached : List Attachment) (m : Module) :
    ∃ L : Lowering, L.before = f ∧ L.site = site ∧ L.new = f.replacementFor site call type attached ∧
      f.replaceCallSite m site call type attached = (L.after, none) := by
  obtain ⟨b, member, found⟩ := List.mem_flatMap.mp listed
  obtain ⟨gone, _, ⟨ordinary, _⟩ | ⟨normal, unwind, branch, successors, _, _, replaced⟩⟩ :=
    replaceCallSite_form wellFormed.toCoherent member (CallSite.heldBy_of_mem found) (.inl agree) attached m
  · rw [CallSite.isExceptional, ordinary] at exceptional
    cases exceptional
  · have unseen := f.newcomer_unseen site call type attached
    rw [newcomer_of_agree agree] at replaced unseen
    rcases CallSite.cases_of_mem found with ⟨i, _, k, tail, _, same⟩ | ⟨n, u, op, same⟩
    · rw [same] at successors
      cases successors
    · rw [same, Option.some.injEq, Prod.mk.injEq] at successors
      obtain ⟨rfl, rfl⟩ := successors
      generalize form : note _ gone = g at replaced
      exact ⟨{
        site, type, branch, normal, call, wellFormed, agree, member, op, callee, args
        new := f.replacementFor site call type attached
        before := f
        after := g
        home := b
        unwind := u
        at_home := by rw [same]
        number := by rw [same]
        fresh := fun present => unseen (mem_seen_of_mem_localIds present)
        calls := rfl
        params := by
          rw [← form, note_params, mapOperands_params, prune_params]
          rfl
        blocks := by
          rw [← form, note_blocks]
          exact Replacement.lowered_blocks ⟨site, type, f.replacementFor site call type attached, branch, normal⟩ f
      }, rfl, rfl, rfl, replaced⟩

end Function

end CallFusion.Ir
