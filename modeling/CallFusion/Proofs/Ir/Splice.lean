import CallFusion.Ir.Splice
import CallFusion.Proofs.Ir.Uses

/-!
What replacing a call site does. The new call takes the place of the old one, or stands at the end of
the invoke's block with a branch behind it, and every use of the old result becomes one of the new.
A site that still stands in its function is always replaced.
-/

namespace CallFusion.Ir

namespace Block

def exchange (b : Block) (id : LocalId) (inst : Instruction) : Block :=
  { b with insts := b.insts.map fun i => if i.id = id then inst else i }

theorem exchange_split {b : Block} {earlier later : List Instruction} {old : Instruction}
    (insts : b.insts = earlier ++ old :: later) (ahead : ∀ j ∈ earlier, j.id ≠ old.id)
    (behind : ∀ j ∈ later, j.id ≠ old.id) (inst : Instruction) :
    b.exchange old.id inst = { b with insts := earlier ++ inst :: later } := by
  have first : earlier.map (fun j => if j.id = old.id then inst else j) = earlier.map fun j => j :=
    List.map_congr_left fun j listed => if_neg (ahead j listed)
  have last : later.map (fun j => if j.id = old.id then inst else j) = later.map fun j => j :=
    List.map_congr_left fun j listed => if_neg (behind j listed)
  rw [exchange, insts, List.map_append, List.map_cons, if_pos rfl, first, last, List.map_id', List.map_id']

def lower (b : Block) (inst : Instruction) (branch : LocalId) (normal : Value) : Block :=
  { b with insts := b.insts ++ [inst], term := ⟨branch, .number 0, .void, .br normal, []⟩ }

end Block

theorem Block.operands_insertAt {b : Block} {k : Nat} {new : List Instruction} {o : Operand Value} :
    o ∈ (b.insertAt k new).operands ↔ o ∈ b.operands ∨ ∃ i ∈ new, o ∈ i.op.operands := by
  have whole : ∀ i, i ∈ b.insts ↔ i ∈ b.insts.take k ∨ i ∈ b.insts.drop k := by
    intro i
    rw [← List.mem_append, List.take_append_drop]
  simp only [Block.insertAt, Block.operands, List.mem_append, List.mem_flatMap, whole]
  grind

theorem Block.operands_append {b : Block} {i : Instruction} {o : Operand Value} :
    o ∈ { b with insts := b.insts ++ [i] }.operands ↔ o ∈ b.operands ∨ o ∈ i.op.operands := by
  simp only [Block.operands, List.flatMap_append, List.mem_append, List.flatMap_cons, List.flatMap_nil,
    List.append_nil]
  tauto

namespace CallSite

/-- Whether a block still holds what a call site was found as. An invoke counts as held when the block
goes where the invoke went, so that lowering it again does no harm. -/
def HeldBy (site : CallSite) (b : Block) : Prop :=
  b.id = site.block ∧
    match site.successors with
    | none => ∃ i ∈ b.insts, i.id = site.id
    | some (normal, unwind) =>
      (b.term.op.hasResult = true → b.term.id = site.id) ∧ normal ∈ b.term.op.targets ∧
        ∀ v ∈ b.term.op.targets, v = normal ∨ v = unwind

/-- Whether the function has the very instruction or terminator that a call site was found as. -/
def StandsIn (site : CallSite) (f : Function) : Prop :=
  ∃ b ∈ f.blocks, b.id = site.block ∧
    match site.successors with
    | none => ∃ i ∈ b.insts, i.id = site.id
    | some _ => b.term.id = site.id

/-- What becomes of a slot before a site is replaced by a call of the given result type: debug slots
lose a result whose type changes. -/
def detach (site : CallSite) (type : Ty) (debug : Bool) (v : Value) : Value :=
  if site.type.same type then v else site.value.dropDebug debug v

theorem detach_of_same {site : CallSite} {type : Ty} (agree : site.type.same type = true) :
    site.detach type = fun _ v => v := by
  funext debug v
  simp [detach, agree]

theorem detach_of_differ {site : CallSite} {type : Ty} (differ : ¬ site.type.same type = true) :
    site.detach type = site.value.dropDebug := by
  funext debug v
  simp [detach, differ]

theorem detach_block (site : CallSite) (type : Ty) (debug : Bool) (id : LocalId) :
    site.detach type debug (.block id) = .block id := by
  simp [detach, value, Value.dropDebug_block]

theorem detach_code (site : CallSite) (type : Ty) (v : Value) : site.detach type false v = v := by
  simp [detach, Value.dropDebug_code]

theorem detach_local? {site : CallSite} {type : Ty} (differ : ¬ site.type.same type = true) {debug : Bool} {v : Value}
    (held : (site.detach type debug v).local? = some site.id) : debug = false ∧ v.local? = some site.id := by
  simp only [detach, if_neg differ, value, Value.dropDebug_local] at held
  by_cases dropped : debug = true ∧ v.local? = some site.id
  · rw [if_pos dropped] at held
    cases held
  · rw [if_neg dropped] at held
    exact ⟨by simpa [held] using dropped, held⟩

theorem cases_of_mem {b : Block} {site : CallSite} (found : site ∈ b.callSites) :
    (∃ i ∈ b.insts, ∃ k tail, i.op = .call tail site.call ∧
      site = ⟨b.id, some k, i.id, i.ident, i.type, site.call, i.attachments, none⟩) ∨
    (∃ normal unwind, b.term.op = .invoke site.call normal unwind ∧
      site = ⟨b.id, none, b.term.id, b.term.ident, b.term.type, site.call, b.term.attachments, some (normal, unwind)⟩) := by
  rcases List.mem_append.mp found with ordinary | exceptional
  · obtain ⟨⟨i, k⟩, member, called⟩ := List.mem_filterMap.mp ordinary
    obtain ⟨c, calls, rfl⟩ := Option.map_eq_some_iff.mp called
    refine .inl ⟨i, (List.mem_zipIdx_iff_getElem?.mp member |> List.mem_of_getElem?), k, ?_⟩
    unfold Instruction.call? at calls
    split at calls
    · next tail _ op => exact ⟨tail, by simpa [op] using calls, rfl⟩
    · cases calls
  · split at exceptional
    · next c normal unwind op =>
      obtain rfl := List.mem_singleton.mp exceptional
      exact .inr ⟨normal, unwind, op, rfl⟩
    · cases exceptional

theorem heldBy_of_mem {b : Block} {site : CallSite} (found : site ∈ b.callSites) : site.HeldBy b := by
  rcases cases_of_mem found with ⟨i, member, k, tail, _, same⟩ | ⟨normal, unwind, op, same⟩
  · rw [same]
    exact ⟨rfl, i, member, rfl⟩
  · rw [same]
    exact ⟨rfl, fun _ => rfl, by simp [op, Terminator.targets], by simp [op, Terminator.targets]⟩

theorem id_mem_ids {b : Block} {site : CallSite} (inside : site ∈ b.callSites) : site.id ∈ b.ids := by
  rcases cases_of_mem inside with ⟨i, carried, _, _, _, same⟩ | ⟨_, _, _, same⟩
  · rw [same]
    exact Block.inst_id_mem_ids carried
  · rw [same]
    exact b.term_id_mem_ids

theorem id_mem_localIds {f : Function} {site : CallSite} (listed : site ∈ f.callSites) : site.id ∈ f.localIds := by
  obtain ⟨b, member, inside⟩ := List.mem_flatMap.mp listed
  exact Function.mem_localIds_of_block member (id_mem_ids inside)

theorem operands_of_mem {b : Block} {site : CallSite} (found : site ∈ b.callSites) {o : Operand Value}
    (present : o ∈ (Operation.call "" site.call).operands) : o ∈ b.operands := by
  rcases cases_of_mem found with ⟨i, member, k, tail, op, _⟩ | ⟨normal, unwind, op, _⟩
  · apply List.mem_append_left
    exact List.mem_flatMap.mpr ⟨i, member, by rw [op]; exact present⟩
  · apply List.mem_append_right
    rw [op]
    simp only [Operation.operands, Terminator.operands, List.mem_cons, List.mem_append] at present ⊢
    tauto

end CallSite

namespace Function

def note (f : Function) (gone : List (LocalId × Ident)) : Function := { f with dropped := f.dropped ++ gone }

@[simp] theorem note_blocks (f : Function) (gone : List (LocalId × Ident)) : (f.note gone).blocks = f.blocks := rfl

@[simp] theorem note_params (f : Function) (gone : List (LocalId × Ident)) : (f.note gone).params = f.params := rfl

@[simp] theorem note_localIds (f : Function) (gone : List (LocalId × Ident)) : (f.note gone).localIds = f.localIds := rfl

@[simp] theorem note_operands (f : Function) (gone : List (LocalId × Ident)) : (f.note gone).operands = f.operands := rfl

variable {f : Function} {site : CallSite} {inst : Instruction}

theorem operands_updateBlock {id : LocalId} {h : Block → Block} {o : Operand Value}
    (present : o ∈ (f.updateBlock id h).operands) : o ∈ f.operands ∨ ∃ b ∈ f.blocks, b.id = id ∧ o ∈ (h b).operands := by
  obtain ⟨c, changed, inside⟩ := List.mem_flatMap.mp present
  obtain ⟨b, member, rfl⟩ := List.mem_map.mp changed
  by_cases here : b.id = id
  · exact .inr ⟨b, member, here, by simpa [here] using inside⟩
  · exact .inl (List.mem_flatMap.mpr ⟨b, member, by simpa [here] using inside⟩)

theorem unused_updateBlock {id : LocalId} {h : Block → Block} {x : LocalId} (unused : f.Unused x)
    (changed : ∀ b ∈ f.blocks, b.id = id → ∀ o ∈ (h b).operands, o.value.local? ≠ some x) :
    (f.updateBlock id h).Unused x := by
  intro o present
  rcases operands_updateBlock present with kept | ⟨b, member, here, inside⟩
  · exact unused o kept
  · exact changed b member here o inside

theorem unused_extended {id : LocalId} {h : Block → Block} {x : LocalId}
    (grown : ∀ b o, o ∈ (h b).operands → o ∈ b.operands ∨ o ∈ inst.op.operands)
    (unused : f.Unused x ∧ ∀ o ∈ inst.op.operands, o.value.local? ≠ some x) : (f.updateBlock id h).Unused x :=
  unused_updateBlock unused.1 fun b member _ o present =>
    (grown b o present).elim (fun kept => unused.1 o (List.mem_flatMap.mpr ⟨b, member, kept⟩)) (unused.2 o)

theorem eraseInstruction_eq {before after : List Block} {b : Block} (split : f.SplitAt before b after)
    {earlier later : List Instruction} {old : Instruction} (insts : b.insts = earlier ++ old :: later)
    (ahead : ∀ j ∈ earlier, j.id ≠ old.id) (unused : f.Unused old.id) (m : Module) :
    f.eraseInstruction m b.id old =
      .ok { f with
        blocks := before ++ { b with insts := earlier ++ later } :: after
        dropped := f.dropped ++ [(old.id, old.ident)] } := by
  have none : (if old.op.hasResult then f.useCount old.value else 0) = 0 := by
    rw [Instruction.value, f.useCount_eq_zero_iff.mpr unused, ite_self]
  have rest := split.updateBlock fun c => { c with insts := c.insts.eraseIdx earlier.length }
  rw [insts, List.eraseIdx_append_of_length_le (Nat.le_refl _), Nat.sub_self, List.eraseIdx_cons_zero] at rest
  simp only [eraseInstruction, none, split.block?, Option.bind_some, Block.indexOf?_split insts ahead, rest,
    gt_iff_lt, Nat.lt_irrefl, if_false]

theorem spliceOrdinary_eq (numbered : f.localIds.Nodup) {b : Block} (member : b ∈ f.blocks)
    (here : b.id = site.block) {old : Instruction} (carried : old ∈ b.insts) (same : old.id = site.id)
    (fresh : inst.id ∉ f.localIds)
    (allowed : site.type.same inst.type = true ∨
      f.Unused site.id ∧ ∀ o ∈ inst.op.operands, o.value.local? ≠ some site.id) (m : Module) :
    f.spliceOrdinary m site inst =
      (((f.updateBlock site.block (·.exchange site.id inst)).redirect site.value inst.value).note
        [(old.id, old.ident)], none) := by
  obtain ⟨before, after, split⟩ := exists_splitAt numbered member
  obtain ⟨earlier, later, insts, ahead, behind⟩ := b.exists_split (block_ids_nodup numbered member) carried
  have other : inst.id ≠ old.id := fun equal =>
    fresh (equal ▸ mem_localIds_of_block member (Block.inst_id_mem_ids carried))
  have placed : b.insertAt earlier.length [inst] = { b with insts := earlier ++ inst :: old :: later } := by
    simp [Block.insertAt, insts]
  have exchanged := Block.exchange_split insts ahead behind inst
  have insertedSplit : (f.updateBlock b.id (·.insertAt earlier.length [inst])).SplitAt before
      { b with insts := earlier ++ inst :: old :: later } after :=
    split.exchanged rfl (by rw [split.updateBlock, placed])
  have permitted : site.type.same inst.value.type = true ∨
      (f.updateBlock b.id (·.insertAt earlier.length [inst])).Unused old.id := by
    rw [same]
    refine allowed.imp_right (unused_extended fun c o present => ?_)
    simpa using Block.operands_insertAt.mp present
  have unused : ((f.updateBlock b.id (·.insertAt earlier.length [inst])).redirect (.local old.id site.type)
      inst.value).Unused old.id :=
    unused_redirect (by simpa [Instruction.value] using other) site.type
  simp only [spliceOrdinary, ← here, ← same, CallSite.value, split.block?, Option.bind_some,
    Block.indexOf?_split insts ahead, replaceAllUses_eq permitted]
  simp only [redirect_local] at unused ⊢
  generalize (fun (_ : Bool) (v : Value) => v.substitute old.id inst.value) = rename at unused ⊢
  have redirectedSplit := insertedSplit.mapOperands rename
  have redirectedInsts : ({ b with insts := earlier ++ inst :: old :: later }.mapOperands rename).insts =
      (earlier ++ [inst]).map (·.mapOperands rename) ++ old.mapOperands rename :: later.map (·.mapOperands rename) := by
    simp
  have redirectedAhead : ∀ j ∈ (earlier ++ [inst]).map (·.mapOperands rename), j.id ≠ (old.mapOperands rename).id := by
    simpa [or_imp, forall_and] using ⟨ahead, other⟩
  have found := redirectedSplit.block?
  have erased := eraseInstruction_eq redirectedSplit redirectedInsts redirectedAhead unused m
  have oldFound := Block.find?_split redirectedInsts redirectedAhead
  simp only [Block.mapOperands_id, Instruction.mapOperands_id] at found erased oldFound
  simp only [found, Option.bind_some, oldFound, erased]
  simp only [split.updateBlock, exchanged]
  simp [mapOperands, Block.mapOperands, note]

def prune (f : Function) (site : CallSite) (normal : LocalId) : Function :=
  match site.unwind? with
  | some unwind => if unwind = normal then f else (f.dropIncoming unwind site.block).1
  | none => f

theorem replaceTerminator_eq {before after : List Block} {b : Block} (split : f.SplitAt before b after)
    (unused : b.term.op.hasResult = true → f.Unused b.term.id) (t : Terminal) (m : Module) :
    f.replaceTerminator m b.id (some t) =
      .ok { f with
        blocks := before ++ { b with term := t } :: after
        dropped := f.dropped ++ [(b.term.id, b.term.ident)] } := by
  have none : (if b.term.op.hasResult then (f.useCount b.term.value : Int) else 0) = 0 := by
    split_ifs with named
    · rw [Terminal.value, f.useCount_eq_zero_iff.mpr (unused named)]
      rfl
    · rfl
  simp only [replaceTerminator, split.block?, Option.map_some, none, split.updateBlock, gt_iff_lt, Int.lt_irrefl,
    if_false, Option.toList_some]

theorem replaceTerminator_redirect {before after : List Block} {b : Block} (split : f.SplitAt before b after)
    {g : Function} (appended : f.updateBlock b.id (fun c => { c with insts := c.insts ++ [inst] }) = g)
    (unused : b.term.op.hasResult = true → (g.redirect site.value inst.value).Unused b.term.id) (branch normal : LocalId)
    (m : Module) :
    (g.redirect site.value inst.value).replaceTerminator m b.id
        (some ⟨branch, .number 0, .void, .br (.block normal), []⟩) =
      .ok (((f.updateBlock b.id (·.lower inst branch (.block normal))).redirect site.value inst.value).note
        [(b.term.id, b.term.ident)]) := by
  have form : g = { f with blocks := before ++ { b with insts := b.insts ++ [inst] } :: after } := by
    rw [← appended, split.updateBlock]
  have appendedSplit : g.SplitAt before { b with insts := b.insts ++ [inst] } after :=
    split.exchanged rfl (by rw [form])
  have redirectedSplit := appendedSplit.mapOperands fun _ v => v.substitute site.id inst.value
  rw [CallSite.value, redirect_local] at unused
  have replaced := replaceTerminator_eq redirectedSplit (by simpa using unused)
    ⟨branch, .number 0, .void, .br (.block normal), []⟩ m
  rw [Block.mapOperands_id] at replaced
  rw [CallSite.value, redirect_local, redirect_local, split.updateBlock, replaced, form]
  simp [mapOperands, Block.mapOperands, Block.lower, Terminal.mapOperands, Terminator.mapOperands, note,
    Value.substitute_block]

/-- Lowering an invoke puts the call and a branch at the end of its block, redirects its result and
drops the phi entries of the unwind edge. -/
theorem spliceInvoke_eq (numbered : f.localIds.Nodup) {b : Block} (member : b ∈ f.blocks)
    (here : b.id = site.block) (held : b.term.op.hasResult = true → b.term.id = site.id)
    (fresh : inst.id ∉ f.localIds)
    (allowed : site.type.same inst.type = true ∨
      f.Unused site.id ∧ ∀ o ∈ inst.op.operands, o.value.local? ≠ some site.id) (normal : LocalId) (m : Module) :
    ∃ branch, branch ∉ f.seen ∧ branch ≠ inst.id ∧
      f.spliceInvoke m site (.block normal) inst =
        ((((f.updateBlock site.block (·.lower inst branch (.block normal))).redirect site.value inst.value).prune
          site normal).note [(b.term.id, b.term.ident)], none) := by
  obtain ⟨before, after, split⟩ := exists_splitAt numbered member
  obtain ⟨g, appended⟩ : ∃ g, f.updateBlock b.id (fun c => { c with insts := c.insts ++ [inst] }) = g := ⟨_, rfl⟩
  have known : f.seen ⊆ g.seen :=
    appended ▸ seen_updateBlock b.id fun c _ _ present => Block.mem_ids_append.mpr (.inl present)
  have taking : inst.id ∈ g.seen := by
    rw [← appended]
    apply mem_seen_of_mem_localIds
    exact mem_localIds_of_block ((mem_updateBlock member).1 rfl) (Block.mem_ids_append.mpr (.inr rfl))
  have permitted : site.type.same inst.value.type = true ∨ g.Unused site.id := by
    rw [← appended]
    exact allowed.imp_right (unused_extended fun c o present => Block.operands_append.mp present)
  have unused : b.term.op.hasResult = true → (g.redirect site.value inst.value).Unused b.term.id := by
    intro named
    rw [held named]
    refine unused_redirect (fun equal => fresh ?_) _
    rw [show inst.id = b.term.id from (Option.some.inj equal).trans (held named).symm]
    exact mem_localIds_of_block member b.term_id_mem_ids
  -- The number for the branch is taken after the redirection, which changes no numbers.
  obtain ⟨branch, taken⟩ : ∃ branch, (g.redirect site.value inst.value).freshId = branch := ⟨_, rfl⟩
  have unseen : branch ∉ g.seen := by
    have fresh := (g.redirect site.value inst.value).freshId_not_mem_seen 0
    rwa [Nat.add_zero, taken, seen, CallSite.value, redirect_local, localIds_mapOperands] at fresh
  refine ⟨branch, fun present => unseen (known present), fun equal => unseen (equal ▸ taking), ?_⟩
  have lowered := replaceTerminator_redirect split appended unused branch normal m
  have redirected : g.replaceAllUses m site.value inst.value = .ok (g.redirect site.value inst.value, g.useCount site.value) :=
    replaceAllUses_eq permitted m
  rw [here] at appended lowered
  simp only [spliceInvoke, appended, redirected, taken, lowered, Value.block?_block, prune]
  cases site.unwind? with
  | none => rfl
  | some unwind =>
    by_cases stays : unwind = normal
    · simp only [stays, if_true]
    · simp only [stays, if_false]
      rfl

/-- Whether a call of this result type may take the place of a site: its result has the type of the
old one, or no code uses the old one. -/
def Accepts (f : Function) (site : CallSite) (call : Call Value) (type : Ty) : Prop :=
  site.type.same type = true ∨
    f.UnusedInCode site.id ∧
      ∀ o ∈ (Operation.call "" call).operands, o.debug = false → o.value.local? ≠ some site.id

def replacement (f : Function) (site : CallSite) (call : Call Value) (type : Ty) (attached : List Attachment) :
    Instruction :=
  (f.mapOperands (site.detach type)).replacementFor site (call.mapOperands (site.detach type)) type attached

variable {call : Call Value} {type : Ty}

theorem replacement_allowed (accepted : f.Accepts site call type) (attached : List Attachment) :
    site.type.same (f.replacement site call type attached).type = true ∨
      (f.mapOperands (site.detach type)).Unused site.id ∧
        ∀ o ∈ (f.replacement site call type attached).op.operands, o.value.local? ≠ some site.id := by
  refine or_iff_not_imp_left.mpr fun differ => ?_
  obtain ⟨code, passed⟩ := accepted.resolve_left differ
  refine ⟨unused_mapOperands fun o present held => ?_, fun o present held => ?_⟩
  · have still := CallSite.detach_local? differ held
    exact code o present still.1 still.2
  · rw [show (f.replacement site call type attached).op.operands = _ from
      Operation.operands_mapOperands (site.detach type) (.call "" call)] at present
    obtain ⟨old, member, rfl⟩ := List.mem_map.mp present
    have still := CallSite.detach_local? differ held
    exact passed old member still.1 still.2

theorem replaceCallSite_prepared (passes : site.type.same type = true ∨ f.UnusedInCode site.id) (call : Call Value)
    (attached : List Attachment) (m : Module) :
    f.replaceCallSite m site call type attached =
      match site.successors with
      | none => (f.mapOperands (site.detach type)).spliceOrdinary m site (f.replacement site call type attached)
      | some (normal, _) =>
        match normal.block? with
        | none => (f.mapOperands (site.detach type), some (.structural "invoke has no normal continuation block"))
        | some _ =>
          (f.mapOperands (site.detach type)).spliceInvoke m site normal (f.replacement site call type attached) := by
  have guard : (!site.type.same type && !(f.codeUses site.value).isEmpty) = false := by
    rcases passes with agree | unused
    · rw [agree, Bool.not_true, Bool.false_and]
    · rw [CallSite.value, f.codeUses_isEmpty_iff.mpr unused, Bool.not_true, Bool.and_false]
  have detached : (if site.type.same type = true then f else (f.dropDebugUses site.value).1) =
      f.mapOperands (site.detach type) := by
    split_ifs with agree
    · rw [CallSite.detach_of_same agree, f.mapOperands_same]
    · rw [CallSite.detach_of_differ agree]
      rfl
  have passed : (if site.type.same type = true then call else call.mapOperands site.value.dropDebug) =
      call.mapOperands (site.detach type) := by
    split_ifs with agree
    · rw [CallSite.detach_of_same agree, call.mapOperands_same]
    · rw [CallSite.detach_of_differ agree]
  cases found : site.successors with
  | none => simp only [replaceCallSite, guard, detached, passed, found, replacement, Bool.false_eq_true, if_false]
  | some successors =>
    obtain ⟨normal, unwind⟩ := successors
    cases target : normal.block? <;>
      simp only [replaceCallSite, guard, detached, passed, found, target, replacement, Bool.false_eq_true, if_false]

/-- A site that its function still holds is replaced whenever the new call is acceptable, and this is
the function that comes out. -/
theorem replaceCallSite_eq (coherent : f.Coherent) {b : Block} (member : b ∈ f.blocks) (held : site.HeldBy b)
    (accepted : f.Accepts site call type) (attached : List Attachment) (m : Module) :
    ∃ gone, (site.StandsIn f → site.id ∈ gone.map (·.1)) ∧
      ((site.successors = none ∧
        f.replaceCallSite m site call type attached =
          ((((f.mapOperands (site.detach type)).updateBlock site.block
            (·.exchange site.id (f.replacement site call type attached))).redirect site.value
              (f.replacement site call type attached).value).note gone, none)) ∨
      ∃ normal unwind branch, site.successors = some (.block normal, unwind) ∧ branch ∉ f.seen ∧
        branch ≠ (f.replacement site call type attached).id ∧
        f.replaceCallSite m site call type attached =
          (((((f.mapOperands (site.detach type)).updateBlock site.block
            (·.lower (f.replacement site call type attached) branch (.block normal))).redirect site.value
              (f.replacement site call type attached).value).prune site normal).note gone, none)) := by
  have passed := f.replaceCallSite_prepared (accepted.imp_right And.left) call attached m
  have numbered : (f.mapOperands (site.detach type)).localIds.Nodup := by
    rw [localIds_mapOperands]
    exact coherent.numbered
  have fresh : (f.replacement site call type attached).id ∉ (f.mapOperands (site.detach type)).localIds :=
    (f.mapOperands (site.detach type)).freshId_not_mem 0
  have inside : b.mapOperands (site.detach type) ∈ (f.mapOperands (site.detach type)).blocks :=
    List.mem_map.mpr ⟨b, member, rfl⟩
  have allowed := replacement_allowed accepted attached
  obtain ⟨here, stands⟩ := held
  cases found : site.successors with
  | none =>
    rw [found] at stands
    obtain ⟨i, carried, same⟩ := stands
    have spliced := spliceOrdinary_eq numbered inside here (List.mem_map.mpr ⟨i, carried, rfl⟩) same fresh allowed m
    refine ⟨_, fun _ => ?_, .inl ⟨rfl, Eq.trans ?_ spliced⟩⟩
    · simpa using same.symm
    · rw [passed, found]
  | some successors =>
    obtain ⟨normal, unwind⟩ := successors
    rw [found] at stands
    obtain ⟨named, taken, _⟩ := stands
    obtain ⟨id, rfl⟩ := coherent.directed b member normal taken
    obtain ⟨branch, new, other, spliced⟩ :=
      spliceInvoke_eq numbered inside here (by simpa using named) fresh allowed id m
    rw [seen, localIds_mapOperands] at new
    refine ⟨_, fun stands => ?_, .inr ⟨id, unwind, branch, rfl, new, other, Eq.trans ?_ spliced⟩⟩
    · obtain ⟨c, present, equal, own⟩ := stands
      obtain rfl := block_eq_of_id coherent.numbered present member (equal.trans here.symm)
      rw [found] at own
      simpa using own.symm
    · rw [passed, found]
      rfl

/-- Replacing a call site of the function by an acceptable call does not fail. -/
theorem replaceCallSite_completes (coherent : f.Coherent) (found : site ∈ f.callSites)
    (accepted : f.Accepts site call type) (attached : List Attachment) (m : Module) :
    ∃ g, f.replaceCallSite m site call type attached = (g, none) := by
  obtain ⟨b, member, inside⟩ := List.mem_flatMap.mp found
  obtain ⟨gone, _, ⟨_, replaced⟩ | ⟨_, _, _, _, _, _, replaced⟩⟩ :=
    replaceCallSite_eq coherent member (CallSite.heldBy_of_mem inside) accepted attached m
  · exact ⟨_, replaced⟩
  · exact ⟨_, replaced⟩

end Function
end CallFusion.Ir
