import CallFusion.Proofs.Ir.Lowering

/-!
Replacing a call site is exact and atomic. It is refused only where code would be left with a result of
another type, and then nothing is edited. Otherwise the new call stands where the old one stood, the slots
that held the old result hold its heir, and the rest of the function is as it was.
-/

namespace CallFusion.Ir

section

variable {α β γ : Type} {R : α → β → Prop} {as : List α} {bs : List β}

theorem forall₂_mem_right (both : List.Forall₂ R as bs) {b : β} (member : b ∈ bs) : ∃ a ∈ as, R a b := by
  obtain ⟨k, within, rfl⟩ := List.getElem_of_mem member
  have inside : k < as.length := both.length_eq ▸ within
  exact ⟨as[k], List.getElem_mem _, both.get inside within⟩

theorem forall₂_mem_left (both : List.Forall₂ R as bs) {a : α} (member : a ∈ as) : ∃ b ∈ bs, R a b := by
  obtain ⟨b, listed, related⟩ := forall₂_mem_right both.flip member
  exact ⟨b, listed, related⟩

theorem forall₂_trans {S : β → γ → Prop} {T : α → γ → Prop} (trans : ∀ {a b c}, R a b → S b c → T a c) {cs : List γ}
    (first : List.Forall₂ R as bs) (second : List.Forall₂ S bs cs) : List.Forall₂ T as cs := by
  induction first generalizing cs with
  | nil =>
    cases second
    exact .nil
  | cons head _ ih =>
    cases second with
    | cons next rest => exact .cons (trans head next) (ih rest)

end

namespace CallSite

/-- What a slot holds in place of the old result: the new one if the types agree, and otherwise an undefined
value of the old type. -/
def heir (site : CallSite) (new : Instruction) : Value :=
  if site.type.same new.type then new.value else .const 0 (.undef site.type)

/-- What becomes of any other instruction: its slots hold the heir of the old result, and its phi entries for an
edge that went away are dropped. -/
def carried (site : CallSite) (new : Instruction) (block : LocalId) (i : Instruction) : Instruction :=
  (if site.unwind? = some block ∧ site.normal? ≠ some block then i.withoutEntry site.block else i).mapOperands
    fun _ v => v.substitute site.id (site.heir new)

@[simp] theorem carried_id {site : CallSite} {new i : Instruction} {block : LocalId} :
    (site.carried new block i).id = i.id := by
  unfold carried
  split <;> simp

/-- The given call as an instruction. It bears the old name if the types agree. -/
structure Takeover (site : CallSite) (call : Call Value) (type : Ty) (attached : List Attachment) (new : Instruction) :
    Prop where
  op : new.op = .call "" call
  typed : new.type = type
  attachments : new.attachments = attached
  ident : site.type.same type = true → new.ident = site.ident

/-- One block before and after the site was replaced. -/
structure Exchanged (site : CallSite) (new : Instruction) (b c : Block) : Prop where
  id : c.id = b.id
  ident : c.ident = b.ident
  elsewhere : b.id ≠ site.block → c.insts = b.insts.map (site.carried new b.id) ∧
    c.term = b.term.mapOperands fun _ v => v.substitute site.id (site.heir new)
  /-- The new call is where the old one was. -/
  ordinary : b.id = site.block → site.successors = none → ∃ earlier old later, b.insts = earlier ++ old :: later ∧
    site.index = some earlier.length ∧ old.id = site.id ∧
    c.insts = earlier.map (site.carried new b.id) ++ new :: later.map (site.carried new b.id) ∧
    c.term = b.term.mapOperands fun _ v => v.substitute site.id (site.heir new)
  /-- The new call is the last instruction, and a branch takes the invoke's place. -/
  lowered : b.id = site.block → ∀ normal unwind, site.successors = some (normal, unwind) →
    c.insts = b.insts.map (site.carried new b.id) ++ [new] ∧ c.term.op = .br normal

def Inherits (site : CallSite) (new : Instruction) (o : Operand Value) : Prop :=
  site.type.same new.type = true ∨ (o.debug = false → o.value.local? ≠ some site.id)

def settle (site : CallSite) (inst : Instruction) : Instruction :=
  inst.mapOperands fun _ v => v.substitute site.id (site.heir inst)

theorem getElem?_of_mem {b : Block} {site : CallSite} {k : Nat} (found : site ∈ b.callSites)
    (index : site.index = some k) : ∃ i, b.insts[k]? = some i ∧ i.id = site.id := by
  rcases List.mem_append.mp found with ordinary | exceptional
  · obtain ⟨⟨i, n⟩, member, called⟩ := List.mem_filterMap.mp ordinary
    obtain ⟨c, _, rfl⟩ := Option.map_eq_some_iff.mp called
    obtain rfl := Option.some.inj index
    exact ⟨i, List.mem_zipIdx_iff_getElem?.mp member, rfl⟩
  · split at exceptional
    · obtain rfl := List.mem_singleton.mp exceptional
      cases index
    · cases exceptional

theorem rename_eq_substitute {site : CallSite} {new : Instruction} {debug : Bool} {v : Value}
    (allowed : site.Inherits new ⟨v, debug⟩) :
    site.rename new.type new.value debug v = v.substitute site.id (site.heir new) := by
  by_cases agree : site.type.same new.type = true
  · rw [rename, detach_of_same agree, heir, if_pos agree]
  by_cases held : v.local? = some site.id
  · have debugged : debug = true := by
      by_contra code
      exact allowed.resolve_left agree (Bool.eq_false_iff.mpr code) held
    have inherited : v.substitute site.id (site.heir new) = .const 0 (.undef site.type) := by
      rw [Value.substitute, if_pos held, heir, if_neg agree]
    rw [rename, detach, if_neg agree, value, Value.dropDebug_local, if_pos ⟨debugged, held⟩, inherited,
      Value.substitute_of_ne (by simp)]
  · rw [rename_of_ne _ _ _ held, Value.substitute_of_ne held]

theorem mapOperands_inherited {site : CallSite} {new i : Instruction} (slots : ∀ o ∈ i.op.operands, site.Inherits new o) :
    i.mapOperands (site.rename new.type new.value) =
      i.mapOperands fun _ v => v.substitute site.id (site.heir new) := by
  have same := i.op.mapOperands_congr (g := fun _ v => v.substitute site.id (site.heir new)) fun o present =>
    rename_eq_substitute (slots o present)
  rw [Instruction.mapOperands, Instruction.mapOperands, same]

theorem term_inherited {site : CallSite} {new : Instruction} {t : Terminal}
    (slots : ∀ o ∈ t.op.operands, site.Inherits new o) :
    t.mapOperands (site.rename new.type new.value) =
      t.mapOperands fun _ v => v.substitute site.id (site.heir new) := by
  have same := t.op.mapOperands_congr (g := fun _ v => v.substitute site.id (site.heir new)) fun o present =>
    rename_eq_substitute (slots o present)
  rw [Terminal.mapOperands, Terminal.mapOperands, same]

theorem carried_of_ordinary {site : CallSite} (ordinary : site.successors = none) (new : Instruction) (block : LocalId) :
    site.carried new block = (·.mapOperands fun _ v => v.substitute site.id (site.heir new)) := by
  funext i
  have none : site.unwind? = none := by rw [unwind?, ordinary]; rfl
  rw [carried, none, if_neg (by simp)]

end CallSite

theorem Replacement.lowerInst_carried (R : Replacement) (typed : R.type = R.new.type) {unwind : Value}
    (successors : R.site.successors = some (.block R.normal, unwind)) (block : LocalId) {i : Instruction}
    (slots : ∀ o ∈ i.op.operands, R.site.Inherits R.new o) :
    R.lowerInst block i = R.site.carried (R.site.settle R.new) block i := by
  have normal : R.site.normal? = some R.normal := by rw [CallSite.normal?, successors]; rfl
  rw [lowerInst, rename, CallSite.carried, normal, typed]
  simp only [Option.some.injEq, ne_eq, eq_comm (a := R.normal)]
  apply CallSite.mapOperands_inherited
  intro o present
  refine slots o ?_
  split at present
  · exact i.withoutEntry_operands _ present
  · exact present

theorem Instruction.mapOperands_eq_self {i : Instruction} {h : Bool → Value → Value}
    (kept : ∀ o ∈ i.op.operands, h o.debug o.value = o.value) : i.mapOperands h = i := by
  rw [mapOperands, i.op.mapOperands_congr (g := fun _ v => v) kept, Operation.mapOperands_same]

namespace Function

variable {f : Function} {site : CallSite} {call : Call Value} {type : Ty}

theorem not_unused_of_slot {b : Block} (member : b ∈ f.blocks) {o : Operand Value} (present : o ∈ b.operands) {id : LocalId}
    (held : o.value.local? = some id) : ¬ f.Unused id := fun unused => unused o (block_slot member present) held

theorem replaceAllUses_refused {id : LocalId} {t : Ty} (new : Value) (differ : ¬ t.same new.type = true)
    (used : ¬ f.Unused id) (m : Module) : ∃ what, f.replaceAllUses m (.local id t) new = .error (.structural what) := by
  have counted : f.useCount (.local id t) ≠ 0 := fun none => used (f.useCount_eq_zero_iff.mp none)
  have types : ¬ (Value.local id t).type.same new.type = true := differ
  exact ⟨_, by simp only [replaceAllUses, counted, if_false, types]; rfl⟩

/-- A result that code uses is not exchanged for one of another type, and nothing is edited. -/
theorem replaceCallSite_refused (differ : ¬ site.type.same type = true) (used : ¬ f.UnusedInCode site.id) (call : Call Value)
    (attached : List Attachment) (m : Module) :
    ∃ what, f.replaceCallSite m site call type attached = (f, some (.structural what)) := by
  have some : (f.codeUses site.value).isEmpty = false := by
    rw [Bool.eq_false_iff]
    exact fun none => used (f.codeUses_isEmpty_iff.mp none)
  exact ⟨_, by simp only [replaceCallSite, differ, some, Bool.not_false, Bool.and_true, if_true]; rfl⟩

theorem spliceOrdinary_refused {inst : Instruction} {b : Block} (member : b ∈ f.blocks) (here : b.id = site.block)
    (differ : ¬ site.type.same inst.type = true) {o : Operand Value} (present : o ∈ inst.op.operands)
    (held : o.value.local? = some site.id) (m : Module) : (f.spliceOrdinary m site inst).2 ≠ none := by
  unfold spliceOrdinary
  split
  · exact Option.some_ne_none _
  · next k _ =>
    have inserted := (mem_updateBlock (h := (·.insertAt k [inst])) member).1 here
    have slot : o ∈ (b.insertAt k [inst]).operands :=
      Block.operands_insertAt.mpr (.inr ⟨inst, List.mem_singleton.mpr rfl, present⟩)
    obtain ⟨what, refused⟩ := replaceAllUses_refused inst.value differ (not_unused_of_slot inserted slot held) m
    dsimp only
    rw [CallSite.value, refused]
    exact Option.some_ne_none _

theorem spliceInvoke_refused {inst : Instruction} {b : Block} (member : b ∈ f.blocks) (here : b.id = site.block)
    (differ : ¬ site.type.same inst.type = true) {o : Operand Value} (present : o ∈ inst.op.operands)
    (held : o.value.local? = some site.id) (normal : Value) (m : Module) :
    (f.spliceInvoke m site normal inst).2 ≠ none := by
  have appended := (mem_updateBlock (h := fun c => { c with insts := c.insts ++ [inst] }) member).1 here
  have slot : o ∈ { b with insts := b.insts ++ [inst] }.operands := Block.operands_append.mpr (.inr present)
  obtain ⟨what, refused⟩ := replaceAllUses_refused inst.value differ (not_unused_of_slot appended slot held) m
  unfold spliceInvoke
  dsimp only
  rw [CallSite.value, refused]
  exact Option.some_ne_none _

theorem accepts_of_replaced {b : Block} (member : b ∈ f.blocks) (here : b.id = site.block) {attached : List Attachment}
    {m : Module} (done : (f.replaceCallSite m site call type attached).2 = none) : f.Accepts site call type := by
  by_cases agree : site.type.same type = true
  · exact .inl agree
  by_cases code : f.UnusedInCode site.id
  · refine .inr ⟨code, fun o present plain held => ?_⟩
    rw [replaceCallSite_prepared (.inr code)] at done
    have slot : o.map (site.detach type) ∈ (f.replacement site call type attached).op.operands := by
      rw [show (f.replacement site call type attached).op.operands = _ from
        Operation.operands_mapOperands (site.detach type) (.call "" call)]
      exact List.mem_map.mpr ⟨o, present, rfl⟩
    have same : (o.map (site.detach type)).value.local? = some site.id := by
      rw [Operand.map_value, plain, CallSite.detach_code, held]
    have inside : b.mapOperands (site.detach type) ∈ (f.mapOperands (site.detach type)).blocks :=
      List.mem_map.mpr ⟨b, member, rfl⟩
    cases successors : site.successors with
    | none =>
      rw [successors] at done
      exact spliceOrdinary_refused inside here agree slot same m done
    | some targets =>
      rw [successors] at done
      dsimp only at done
      split at done
      · cases done
      · exact spliceInvoke_refused inside here agree slot same targets.1 m done
  · obtain ⟨what, refused⟩ := replaceCallSite_refused agree code call attached m
    rw [refused] at done
    cases done

theorem exists_split_at (numbered : f.localIds.Nodup) {b : Block} (member : b ∈ f.blocks) (found : site ∈ b.callSites)
    (ordinary : site.successors = none) : ∃ earlier old later, b.insts = earlier ++ old :: later ∧
      site.index = some earlier.length ∧ old.id = site.id ∧
      (∀ j ∈ earlier, j.id ≠ old.id) ∧ ∀ j ∈ later, j.id ≠ old.id := by
  rcases CallSite.cases_of_mem found with ⟨_, _, k, _, _, same⟩ | ⟨_, _, _, same⟩
  · have index : site.index = some k := by rw [same]
    obtain ⟨old, at_k, own⟩ := CallSite.getElem?_of_mem found index
    obtain ⟨within, here⟩ := List.getElem?_eq_some_iff.mp at_k
    have insts : b.insts = b.insts.take k ++ old :: b.insts.drop (k + 1) := by
      rw [← here, List.getElem_cons_drop, List.take_append_drop]
    have distinct := Block.inst_ids_nodup (block_ids_nodup numbered member)
    rw [insts, List.map_append, List.map_cons, List.nodup_append] at distinct
    refine ⟨_, old, _, insts, ?_, own, fun j ahead => ?_, fun j behind same => ?_⟩
    · rw [index, List.length_take, Nat.min_eq_left (Nat.le_of_lt within)]
    · exact distinct.2.2 j.id (List.mem_map.mpr ⟨j, ahead, rfl⟩) old.id List.mem_cons_self
    · exact (List.nodup_cons.mp distinct.2.1).1 (same ▸ List.mem_map.mpr ⟨j, behind, rfl⟩)
  · rw [same] at ordinary
    cases ordinary

/-- A function before and after a site was replaced: blocks other than as said, and all that is no block, are kept. -/
structure Replaced (f : Function) (site : CallSite) (new : Instruction) (g : Function) : Prop where
  frame : ∃ gone, g = { f with blocks := g.blocks, dropped := f.dropped ++ gone }
  unused : g.Unused site.id
  blocks : List.Forall₂ (site.Exchanged new) f.blocks g.blocks

namespace Replaced

variable {g : Function} {new : Instruction} {c : Block}

theorem entry_before (replaced : f.Replaced site new g) (first : g.blocks.head? = some c) :
    ∃ b, f.blocks.head? = some b ∧ site.Exchanged new b c := by
  have blocks := replaced.blocks
  cases after : g.blocks with
  | nil =>
    rw [after] at first
    cases first
  | cons d rest =>
    rw [after] at first blocks
    obtain rfl : d = c := Option.some.inj first
    obtain ⟨b, _, exchanged, _, before⟩ := List.forall₂_cons_right_iff.mp blocks
    exact ⟨b, by rw [before]; rfl, exchanged⟩

theorem block_before (replaced : f.Replaced site new g) (member : c ∈ g.blocks) :
    ∃ b ∈ f.blocks, site.Exchanged new b c := forall₂_mem_right replaced.blocks member

end Replaced

theorem Placed.unused {g : Function} {new : Instruction} (placed : f.Placed site new g) (other : new.id ≠ site.id)
    (slots : ∀ o ∈ f.operands, site.Inherits new o) (own : ∀ o ∈ new.op.operands, site.Inherits new o) :
    (g.mapOperands (site.rename new.type new.value)).Unused site.id := by
  apply unused_mapOperands
  intro o present
  rw [CallSite.rename_eq_substitute ((placed.operands o present).elim (slots o) (own o))]
  by_cases held : o.value.local? = some site.id
  · rw [Value.substitute, if_pos held, CallSite.heir]
    split
    · simpa [Instruction.value] using other
    · simp
  · rwa [Value.substitute_of_ne held]

theorem Accepts.inherits (accepted : f.Accepts site call type) (inst : Instruction) (typed : inst.type = type) :
    ∀ o ∈ f.operands, site.Inherits inst o := fun o present => by
  rw [CallSite.Inherits, typed]
  exact accepted.imp_right fun unused => unused.1 o present

theorem Accepts.inherits_own (accepted : f.Accepts site call type) (inst : Instruction) (typed : inst.type = type) :
    ∀ o ∈ (Operation.call "" call).operands, site.Inherits inst o := fun o present => by
  rw [CallSite.Inherits, typed]
  exact accepted.imp_right fun unused => unused.2 o present

section Blocks

variable {inst : Instruction} {d : Block} (slots : ∀ o ∈ f.operands, site.Inherits inst o)
  (own : ∀ o ∈ inst.op.operands, site.Inherits inst o) (within : d ∈ f.blocks)

include slots within

theorem inst_inherits : ∀ i ∈ d.insts, i.mapOperands (site.rename inst.type inst.value) =
    i.mapOperands fun _ v => v.substitute site.id (site.heir inst) := fun _ carried =>
  CallSite.mapOperands_inherited fun o present => slots o (block_slot within (Block.inst_slot carried present))

theorem term_inherits : d.term.mapOperands (site.rename inst.type inst.value) =
    d.term.mapOperands fun _ v => v.substitute site.id (site.heir inst) :=
  CallSite.term_inherited fun o present => slots o (block_slot within (Block.term_slot present))

include own

theorem exchanged_ordinary (numbered : f.localIds.Nodup) (listed : site ∈ f.callSites) (ordinary : site.successors = none) :
    site.Exchanged (site.settle inst) d ((if d.id = site.block then d.exchange site.id inst else d).mapOperands
      (site.rename inst.type inst.value)) := by
  have carried : ∀ i ∈ d.insts, i.mapOperands (site.rename inst.type inst.value) =
      site.carried (site.settle inst) d.id i := by
    rw [CallSite.carried_of_ordinary ordinary]
    exact inst_inherits slots within
  have term := term_inherits slots within
  constructor
  case id => split <;> rfl
  case ident => split <;> rfl
  case elsewhere =>
    intro other
    rw [if_neg other]
    exact ⟨List.map_congr_left carried, term⟩
  case ordinary =>
    intro here _
    obtain ⟨b, member, found⟩ := List.mem_flatMap.mp listed
    obtain rfl := block_eq_of_id numbered within member (here.trans (CallSite.heldBy_of_mem found).1.symm)
    obtain ⟨earlier, old, later, insts, index, number, ahead, behind⟩ := exists_split_at numbered member found ordinary
    refine ⟨earlier, old, later, insts, index, number, ?_, ?_⟩
    · rw [insts, List.forall_mem_append, List.forall_mem_cons] at carried
      rw [if_pos here, ← number, Block.exchange_split insts ahead behind, Block.mapOperands_insts, List.map_append,
        List.map_cons, CallSite.mapOperands_inherited own, List.map_congr_left carried.1, List.map_congr_left carried.2.2]
      rfl
    · rw [if_pos here]
      exact term
  case lowered =>
    intro _ normal unwind exceptional
    rw [ordinary] at exceptional
    cases exceptional

end Blocks

theorem exchanged_invoke (R : Replacement) (typed : R.type = R.new.type) {unwind : Value}
    (successors : R.site.successors = some (.block R.normal, unwind)) (plain : R.new.op.isPhi = false)
    (slots : ∀ o ∈ f.operands, R.site.Inherits R.new o) (own : ∀ o ∈ R.new.op.operands, R.site.Inherits R.new o)
    {d : Block} (within : d ∈ f.blocks) : R.site.Exchanged (R.site.settle R.new) d (R.lower d) := by
  have carried : ∀ i ∈ d.insts, R.lowerInst d.id i = R.site.carried (R.site.settle R.new) d.id i := fun i held =>
    R.lowerInst_carried typed successors d.id fun o present => slots o (block_slot within (Block.inst_slot held present))
  have settled : R.lowerInst d.id R.new = R.site.settle R.new := by
    rw [R.lowerInst_of_noPhi d.id plain, Replacement.rename, typed]
    exact CallSite.mapOperands_inherited own
  constructor
  case id => exact R.lower_id d
  case ident =>
    unfold Replacement.lower Block.prune
    split <;> split <;> rfl
  case elsewhere =>
    intro other
    rw [R.lower_insts, if_neg other, R.lower_term, if_neg other, Replacement.rename, typed]
    exact ⟨List.map_congr_left carried, term_inherits slots within⟩
  case ordinary =>
    intro _ ordinary
    rw [ordinary] at successors
    cases successors
  case lowered =>
    intro here first second same
    rw [successors] at same
    cases same
    rw [R.lower_insts, if_pos here, List.map_append, List.map_congr_left carried, List.map_singleton, settled, R.lower_term,
      if_pos here]
    exact ⟨rfl, rfl⟩

/-- An accepted call takes the place of the site. -/
theorem replaceCallSite_replaced (coherent : f.Coherent) (listed : site ∈ f.callSites) (accepted : f.Accepts site call type)
    (attached : List Attachment) (m : Module) :
    ∃ g, f.replaceCallSite m site call type attached = (g, none) ∧
      f.Replaced site (site.settle (f.newcomer site call type attached)) g := by
  obtain ⟨b, member, found⟩ := List.mem_flatMap.mp listed
  have held := CallSite.heldBy_of_mem found
  have other : (f.newcomer site call type attached).id ≠ site.id := fun same =>
    f.newcomer_unseen site call type attached (same ▸ mem_seen_of_mem_localIds (CallSite.id_mem_localIds listed))
  have slots := accepted.inherits (f.newcomer site call type attached) rfl
  have own := accepted.inherits_own (f.newcomer site call type attached) rfl
  obtain ⟨g, gone, placed, _, replaced⟩ := replaceCallSite_placed coherent member held accepted attached m
  refine ⟨_, replaced, ⟨gone, ?_⟩, placed.unused other slots own, ?_⟩
  · rw [placed.frame]
    rfl
  obtain ⟨_, _, ⟨ordinary, form⟩ | ⟨normal, unwind, branch, exceptional, _, _, form⟩⟩ :=
    replaceCallSite_form coherent member held accepted attached m
  · obtain ⟨same, _⟩ := Prod.mk.inj (replaced.symm.trans form)
    rw [same, note_blocks, mapOperands_blocks, updateBlock, List.map_map, List.forall₂_map_right_iff, List.forall₂_same]
    intro d within
    simp only [Function.comp_apply, beq_iff_eq]
    exact exchanged_ordinary slots own within coherent.numbered listed ordinary
  · obtain ⟨same, _⟩ := Prod.mk.inj (replaced.symm.trans form)
    have blocks := Replacement.lowered_blocks ⟨site, type, f.newcomer site call type attached, branch, normal⟩ f
    rw [Replacement.rename] at blocks
    rw [same, note_blocks, blocks, List.forall₂_map_right_iff, List.forall₂_same]
    exact fun d within => exchanged_invoke ⟨site, type, _, branch, normal⟩ rfl exceptional rfl slots own within

theorem newcomer_takeover (f : Function) (site : CallSite) (call : Call Value) (type : Ty) (attached : List Attachment) :
    site.Takeover call type attached (f.newcomer site call type attached) where
  op := rfl
  typed := rfl
  attachments := rfl
  ident := fun agree => if_pos agree

end Function

/-- A call site is exchanged for a call that does not use its result, unless code uses the result and its
type would change: then there is an error, and the function is as it was. -/
theorem call_site_exchanged {f : Function} {site : CallSite} {call : Call Value} (coherent : f.Coherent)
    (listed : site ∈ f.callSites) (apart : ∀ o ∈ (Operation.call "" call).operands, o.value.local? ≠ some site.id)
    (type : Ty) (attached : List Attachment) (m : Module) :
    ((f.replaceCallSite m site call type attached).2 ≠ none ↔
      ¬ site.type.same type = true ∧ ¬ f.UnusedInCode site.id) ∧
    ((f.replaceCallSite m site call type attached).2 ≠ none → (f.replaceCallSite m site call type attached).1 = f) ∧
    ((f.replaceCallSite m site call type attached).2 = none →
      ∃ new, site.Takeover call type attached new ∧ new.id ∉ f.seen ∧
        f.Replaced site new (f.replaceCallSite m site call type attached).1) := by
  by_cases accepted : site.type.same type = true ∨ f.UnusedInCode site.id
  · have accepts : f.Accepts site call type :=
      accepted.imp_right fun unused => ⟨unused, fun o present _ => apart o present⟩
    obtain ⟨g, replaced, exchanged⟩ := Function.replaceCallSite_replaced coherent listed accepts attached m
    have settled : site.settle (f.newcomer site call type attached) = f.newcomer site call type attached :=
      Instruction.mapOperands_eq_self fun o present => Value.substitute_of_ne (apart o present) _
    rw [settled] at exchanged
    rw [replaced]
    have passes : ¬ (¬ site.type.same type = true ∧ ¬ f.UnusedInCode site.id) := fun refused =>
      accepted.elim refused.1 refused.2
    exact ⟨iff_of_false (fun failed => failed rfl) passes, fun failed => (failed rfl).elim, fun _ =>
      ⟨_, f.newcomer_takeover site call type attached, f.newcomer_unseen site call type attached, exchanged⟩⟩
  · rw [not_or] at accepted
    obtain ⟨what, refused⟩ := Function.replaceCallSite_refused accepted.1 accepted.2 call attached m
    rw [refused]
    exact ⟨iff_of_true (Option.some_ne_none _) accepted, fun _ => rfl, fun done => (Option.some_ne_none _ done).elim⟩

/-- A function that traces the result of its call and does not use it otherwise. -/
def tracing : Function where
  id := ⟨1⟩
  symbol := .named "tracing"
  result := .void
  params := []
  blocks := [
    { id := 0
      ident := .named "entry"
      insts := [
        ⟨1, .named "r", .int 32, .call "" {
          callee := .symbol ⟨2⟩ (.pointer (.func (.int 32) [] false) 0)
          args := [] }, []⟩,
        ⟨2, .number 0, .void, .call "" {
          callee := .symbol ⟨3⟩ (.pointer (.func .void [.metadata] false) 0)
          args := [.debugValue (.local 1 (.int 32))] }, []⟩]
      term := ⟨3, .number 0, .void, .ret none, []⟩ }]

theorem tracing_exchanged :
    let site : CallSite := ⟨0, some 0, 1, .named "r", .int 32,
      { callee := .symbol ⟨2⟩ (.pointer (.func (.int 32) [] false) 0), args := [] }, [], none⟩
    let call : Call Value := { callee := .symbol ⟨4⟩ (.pointer (.func (.int 64) [] false) 0), args := [] }
    ∃ new, site.Takeover call (.int 64) [] new ∧
      tracing.Replaced site new (tracing.replaceCallSite {} site call (.int 64) []).1 := by
  intro site call
  have coherent : tracing.Coherent := ⟨by decide, by simp [tracing, Terminator.targets]⟩
  have apart : ∀ o ∈ (Operation.call "" call).operands, o.value.local? ≠ some site.id := by
    simp [call, Operation.operands, Call.argOperands, Call.bundleOperands, Operand.code, Value.symbol]
  have listed : site ∈ tracing.callSites := List.mem_cons_self
  obtain ⟨failed, _, done⟩ := call_site_exchanged coherent listed apart (.int 64) [] {}
  have succeeds : (tracing.replaceCallSite {} site call (.int 64) []).2 = none := by
    by_contra error
    have slots : tracing.operands = [.code (.symbol ⟨2⟩ (.pointer (.func (.int 32) [] false) 0)),
        .code (.symbol ⟨3⟩ (.pointer (.func .void [.metadata] false) 0)), ⟨.local 1 (.int 32), true⟩] := rfl
    refine (failed.mp error).2 fun o present code held => ?_
    simp only [slots, List.mem_cons, List.not_mem_nil, or_false] at present
    rcases present with rfl | rfl | rfl
    · cases held
    · cases held
    · cases code
  obtain ⟨new, takeover, _, replaced⟩ := done succeeds
  exact ⟨new, takeover, replaced⟩

end CallFusion.Ir
