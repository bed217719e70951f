import CallFusion.Proofs.Ir.Exchange
import CallFusion.Proofs.Ir.Insertion

/-!
Several call sites exchanged one after the other. An edit of a block moves whatever stands behind it, so what
becomes of the block is said instruction by instruction and without positions: one that was exchanged is replaced
by what was put in for it, and any other one stays, with its slots settled. Two edits then are one with both
exchanges.
-/

namespace CallFusion.Ir

/-- An instruction that is not the call site, no phi, and does not use the result. -/
structure CallSite.Passes (site : CallSite) (i : Instruction) : Prop where
  id : i.id ≠ site.id
  plain : i.op.Plain
  slots : ∀ o ∈ i.op.operands, o.value.local? ≠ some site.id

theorem CallSite.Passes.carried {site : CallSite} {i : Instruction} (passes : site.Passes i) (new : Instruction)
    (block : LocalId) : site.carried new block i = i := by
  rw [CallSite.carried, Instruction.withoutEntry_of_plain _ passes.plain, ite_self]
  exact Instruction.mapOperands_eq_self fun o present => Value.substitute_of_ne (passes.slots o present) _

/-- A call site and what took its place: some instructions, and a call behind them. -/
structure Swap where
  site : CallSite
  ahead : List Instruction
  call : Instruction
  branch : LocalId

namespace Swap

def placed (x : Swap) : List Instruction := x.ahead ++ [x.call]

def at? (xs : List Swap) (id : LocalId) : Option Swap := xs.find? (·.site.id == id)

def settle (xs : List Swap) (block : LocalId) (i : Instruction) : Instruction :=
  xs.foldl (fun i x => x.site.carried x.call block i) i

def settleTerm (xs : List Swap) (t : Terminal) : Terminal :=
  xs.foldl (fun t x => t.mapOperands fun _ v => v.substitute x.site.id (x.site.heir x.call)) t

def outcome (xs : List Swap) (block : LocalId) (i : Instruction) : List Instruction :=
  match at? xs i.id with
  | some x => x.placed
  | none => [settle xs block i]

def tail (xs : List Swap) (t : Terminal) : List Instruction :=
  match at? xs t.id with
  | some x => x.placed
  | none => []

/-- What was put in for one site is out of reach of the exchange of another one. -/
structure Apart (x y : Swap) : Prop where
  placed : ∀ i ∈ x.placed, y.site.Passes i
  branch : x.branch ≠ y.site.id

variable {xs : List Swap} {x y : Swap} {block id : LocalId} {i : Instruction} {t : Terminal}

theorem at?_append : at? (xs ++ [y]) id = (at? xs id).or (at? [y] id) := List.find?_append

theorem at?_singleton : at? [y] id = if y.site.id = id then some y else none := by
  rw [at?, List.find?_singleton]
  simp only [beq_iff_eq]

theorem at?_mem (found : at? xs id = some x) : x ∈ xs := List.mem_of_find?_eq_some found

@[simp] theorem settle_append :
    settle (xs ++ [y]) block i = y.site.carried y.call block (settle xs block i) := List.foldl_append

@[simp] theorem settleTerm_append : settleTerm (xs ++ [y]) t =
    (settleTerm xs t).mapOperands fun _ v => v.substitute y.site.id (y.site.heir y.call) := List.foldl_append

@[simp] theorem settle_singleton : settle [y] block i = y.site.carried y.call block i := rfl

@[simp] theorem settleTerm_singleton :
    settleTerm [y] t = t.mapOperands fun _ v => v.substitute y.site.id (y.site.heir y.call) := rfl

@[simp] theorem settle_id : (settle xs block i).id = i.id := by
  induction xs generalizing i with
  | nil => rfl
  | cons x xs ih => exact ih.trans CallSite.carried_id

@[simp] theorem settleTerm_id : (settleTerm xs t).id = t.id := by
  induction xs generalizing t with
  | nil => rfl
  | cons x xs ih => exact ih.trans (Terminal.mapOperands_id _ t)

theorem outcome_singleton : outcome [y] block i = if i.id = y.site.id then y.placed else [y.site.carried y.call block i] := by
  rw [outcome, at?_singleton]
  by_cases same : y.site.id = i.id
  · rw [if_pos same, if_pos same.symm]
  · rw [if_neg same, if_neg (Ne.symm same)]
    rfl

theorem outcome_of_passes {is : List Instruction} (passes : ∀ i ∈ is, y.site.Passes i) (block : LocalId) :
    is.flatMap (outcome [y] block) = is := by
  have each : ∀ i ∈ is, outcome [y] block i = [i] := fun i listed => by
    rw [outcome_singleton, if_neg (passes i listed).id, (passes i listed).carried]
  rw [List.flatMap_congr each, List.flatMap_singleton']

theorem outcome_append (apart : ∀ x ∈ xs, x.Apart y) (block : LocalId) (i : Instruction) :
    (outcome xs block i).flatMap (outcome [y] block) = outcome (xs ++ [y]) block i := by
  cases found : at? xs i.id with
  | some x =>
    have both : at? (xs ++ [y]) i.id = some x := by rw [at?_append, found, Option.some_or]
    simp only [outcome, found, both]
    exact outcome_of_passes (apart x (at?_mem found)).placed block
  | none =>
    have last : at? (xs ++ [y]) i.id = at? [y] i.id := by rw [at?_append, found, Option.none_or]
    simp only [outcome, found, last, List.flatMap_singleton, settle_id, settle_append, settle_singleton]

end Swap

open Swap

/-- A block before and after call sites were exchanged. -/
structure Exchanges (xs : List Swap) (b c : Block) : Prop where
  id : c.id = b.id
  ident : c.ident = b.ident
  insts : c.insts = b.insts.flatMap (outcome xs b.id) ++ tail xs b.term
  kept : at? xs b.term.id = none → c.term = settleTerm xs b.term
  lowered : ∀ x, at? xs b.term.id = some x → ∃ normal unwind, x.site.successors = some (.block normal, unwind) ∧
    c.term = ⟨x.branch, .number 0, .void, .br (.block normal), []⟩

theorem Exchanges.ids_kept {xs : List Swap} {b c : Block} (exchanges : Exchanges xs b c) {id : LocalId}
    (present : id ∈ b.ids) (other : at? xs id = none) : id ∈ c.ids := by
  rw [Block.ids, List.mem_cons, List.mem_append, List.mem_singleton] at present
  rcases present with rfl | inst | rfl
  · exact exchanges.id ▸ c.id_mem_ids
  · obtain ⟨i, carried, rfl⟩ := List.mem_map.mp inst
    have inside : settle xs b.id i ∈ c.insts := by
      rw [exchanges.insts, List.mem_append, List.mem_flatMap]
      refine .inl ⟨i, carried, ?_⟩
      rw [outcome, other]
      exact List.mem_singleton.mpr rfl
    exact settle_id ▸ Block.inst_id_mem_ids inside
  · have kept : c.term.id = b.term.id := (congrArg Terminal.id (exchanges.kept other)).trans settleTerm_id
    exact kept ▸ c.term_id_mem_ids

/-- Two edits in a row are one with the exchanges of both. -/
theorem Exchanges.append {xs : List Swap} {y : Swap} {b c d : Block} (first : Exchanges xs b c)
    (second : Exchanges [y] c d) (apart : ∀ x ∈ xs, x.Apart y) : Exchanges (xs ++ [y]) b d where
  id := second.id.trans first.id
  ident := second.ident.trans first.ident
  insts := by
    -- a block has one terminator, so at most one of the exchanges puts a call at its end
    have ends : (tail xs b.term).flatMap (outcome [y] b.id) ++ tail [y] c.term = tail (xs ++ [y]) b.term := by
      cases found : at? xs b.term.id with
      | some x =>
        obtain ⟨normal, unwind, _, term⟩ := first.lowered x found
        have other : at? [y] c.term.id = none := by
          rw [term, at?_singleton, if_neg (Ne.symm (apart x (at?_mem found)).branch)]
        have both : at? (xs ++ [y]) b.term.id = some x := by rw [at?_append, found, Option.some_or]
        simp only [tail, found, other, both, List.append_nil]
        exact outcome_of_passes (apart x (at?_mem found)).placed b.id
      | none =>
        have last : at? (xs ++ [y]) b.term.id = at? [y] b.term.id := by rw [at?_append, found, Option.none_or]
        simp only [tail, found, last, first.kept found, settleTerm_id, List.flatMap_nil, List.nil_append]
    calc d.insts
      _ = (b.insts.flatMap (outcome xs b.id) ++ tail xs b.term).flatMap (outcome [y] b.id) ++ tail [y] c.term := by
          rw [second.insts, first.insts, first.id]
      _ = b.insts.flatMap (outcome (xs ++ [y]) b.id) ++
            ((tail xs b.term).flatMap (outcome [y] b.id) ++ tail [y] c.term) := by
          simp only [List.flatMap_append, List.flatMap_assoc, outcome_append apart, List.append_assoc]
      _ = _ := by rw [ends]
  kept := by
    intro none
    rw [at?_append, Option.or_eq_none_iff] at none
    have term := first.kept none.1
    rw [settleTerm_append, ← term]
    exact second.kept (by rw [term, settleTerm_id]; exact none.2)
  lowered := by
    intro x found
    rw [at?_append, Option.or_eq_some_iff] at found
    rcases found with early | ⟨none, late⟩
    · obtain ⟨normal, unwind, successors, term⟩ := first.lowered x early
      refine ⟨normal, unwind, successors, ?_⟩
      rw [second.kept (by rw [term, at?_singleton, if_neg (Ne.symm (apart x (at?_mem early)).branch)]), term]
      rfl
    · exact second.lowered x (by rw [first.kept none, settleTerm_id]; exact late)

/-- A block before and after instructions were put in right ahead of a call site. -/
structure AheadOf (site : CallSite) (new : List Instruction) (b c : Block) : Prop where
  id : c.id = b.id
  ident : c.ident = b.ident
  term : c.term = b.term
  insts : c.insts = b.insts.flatMap (fun i => if i.id = site.id then new ++ [i] else [i]) ++
    if b.term.id = site.id then new else []

theorem AheadOf.exchanges {x : Swap} {b c d : Block} (ahead : AheadOf x.site x.ahead b c)
    (second : Exchanges [{ x with ahead := [] }] c d) (passes : ∀ i ∈ x.ahead, x.site.Passes i) : Exchanges [x] b d where
  id := second.id.trans ahead.id
  ident := second.ident.trans ahead.ident
  insts := by
    have each : ∀ i : Instruction, (if i.id = x.site.id then x.ahead ++ [i] else [i]).flatMap
        (outcome [{ x with ahead := [] }] b.id) = outcome [x] b.id i := by
      intro i
      by_cases same : i.id = x.site.id
      · rw [if_pos same, List.flatMap_append, outcome_of_passes (y := { x with ahead := [] }) passes, List.flatMap_singleton,
          outcome_singleton, outcome_singleton, if_pos same, if_pos same]
        rfl
      · rw [if_neg same, List.flatMap_singleton, outcome_singleton, outcome_singleton, if_neg same, if_neg same]
    have ends : (if b.term.id = x.site.id then x.ahead else []).flatMap (outcome [{ x with ahead := [] }] b.id) ++
        tail [{ x with ahead := [] }] b.term = tail [x] b.term := by
      by_cases same : b.term.id = x.site.id
      · rw [if_pos same, outcome_of_passes (y := { x with ahead := [] }) passes, tail, tail, at?_singleton, at?_singleton,
          if_pos same.symm, if_pos same.symm]
        rfl
      · rw [if_neg same, tail, tail, at?_singleton, at?_singleton, if_neg (Ne.symm same), if_neg (Ne.symm same)]
        rfl
    rw [second.insts, ahead.insts, ahead.id, ahead.term, List.flatMap_append, List.flatMap_assoc, List.append_assoc, ends,
      funext each]
  kept := by
    intro none
    rw [← ahead.term] at none ⊢
    exact second.kept (by simpa [at?_singleton] using none)
  lowered := by
    intro y found
    rw [← ahead.term] at found
    rw [at?_singleton] at found
    split at found
    · next same =>
      cases found
      exact second.lowered { x with ahead := [] } (by rw [at?_singleton, if_pos same])
    · cases found

namespace CallSite.StandsIn

variable {f : Function} {site : CallSite} {d : Block}

theorem exceptional (stands : site.StandsIn f) (numbered : f.localIds.Nodup) {successors : Value × Value}
    (invoke : site.successors = some successors) (within : d ∈ f.blocks) :
    (d.term.id = site.id ↔ d.id = site.block) ∧ ∀ i ∈ d.insts, i.id ≠ site.id := by
  obtain ⟨b, member, here, own⟩ := stands
  rw [invoke] at own
  refine ⟨⟨fun same => ?_, fun same => ?_⟩, fun i carried same => ?_⟩
  · rw [Function.block_unique numbered within member d.term_id_mem_ids (same.trans own.symm ▸ b.term_id_mem_ids)]
    exact here
  · rw [Function.block_eq_of_id numbered within member (same.trans here.symm)]
    exact own
  · obtain rfl := Function.block_unique numbered within member (Block.inst_id_mem_ids carried)
      (same.trans own.symm ▸ b.term_id_mem_ids)
    have distinct := Function.block_ids_nodup numbered within
    rw [Block.ids, List.nodup_cons, List.nodup_append] at distinct
    exact distinct.2.2.2 i.id (List.mem_map.mpr ⟨i, carried, rfl⟩) d.term.id List.mem_cons_self (same.trans own.symm)

theorem ordinary (stands : site.StandsIn f) (numbered : f.localIds.Nodup) (call : site.successors = none)
    (within : d ∈ f.blocks) : d.term.id ≠ site.id ∧ (d.id ≠ site.block → ∀ i ∈ d.insts, i.id ≠ site.id) := by
  obtain ⟨b, member, here, own⟩ := stands
  rw [call] at own
  obtain ⟨old, listed, number⟩ := own
  refine ⟨fun same => ?_, fun other i carried same => other ?_⟩
  · obtain rfl := Function.block_unique numbered within member d.term_id_mem_ids
      (same.trans number.symm ▸ Block.inst_id_mem_ids listed)
    have distinct := Function.block_ids_nodup numbered within
    rw [Block.ids, List.nodup_cons, List.nodup_append] at distinct
    exact distinct.2.2.2 old.id (List.mem_map.mpr ⟨old, listed, rfl⟩) d.term.id List.mem_cons_self (number.trans same.symm)
  · rw [Function.block_unique numbered within member (Block.inst_id_mem_ids carried)
      (same.trans number.symm ▸ Block.inst_id_mem_ids listed)]
    exact here

theorem elsewhere (stands : site.StandsIn f) (numbered : f.localIds.Nodup) (within : d ∈ f.blocks)
    (other : d.id ≠ site.block) : d.term.id ≠ site.id ∧ ∀ i ∈ d.insts, i.id ≠ site.id := by
  cases successors : site.successors with
  | none =>
    obtain ⟨last, inside⟩ := stands.ordinary numbered successors within
    exact ⟨last, inside other⟩
  | some pair =>
    obtain ⟨home, inside⟩ := stands.exceptional numbered successors within
    exact ⟨mt home.mp other, inside⟩

end CallSite.StandsIn

namespace Function

variable {f : Function} {site : CallSite} {call : Call Value} {type : Ty}

section

variable {inst : Instruction} {d : Block} (slots : ∀ o ∈ f.operands, site.Inherits inst o)
  (apart : ∀ o ∈ inst.op.operands, o.value.local? ≠ some site.id) (numbered : f.localIds.Nodup) (stands : site.StandsIn f)
  (within : d ∈ f.blocks)

include slots apart numbered stands within

theorem ordinary_exchanges (ordinary : site.successors = none) (branch : LocalId) :
    Exchanges [⟨site, [], inst, branch⟩] d ((if d.id = site.block then d.exchange site.id inst else d).mapOperands
      (site.rename inst.type inst.value)) := by
  obtain ⟨last, elsewhere⟩ := stands.ordinary numbered ordinary within
  have none : Swap.at? [⟨site, [], inst, branch⟩] d.term.id = none := by rw [at?_singleton, if_neg (Ne.symm last)]
  have carried := inst_inherits slots within
  have settled : inst.mapOperands (site.rename inst.type inst.value) = inst :=
    Instruction.mapOperands_eq_self fun o present => site.rename_of_ne _ _ (apart o present) o.debug
  constructor
  case id => split <;> rfl
  case ident => split <;> rfl
  case insts =>
    have each : ∀ i ∈ d.insts, outcome [⟨site, [], inst, branch⟩] d.id i =
        [if i.id = site.id then inst else i.mapOperands (site.rename inst.type inst.value)] := by
      intro i listed
      rw [outcome_singleton, CallSite.carried_of_ordinary ordinary, carried i listed]
      by_cases same : i.id = site.id
      · rw [if_pos same, if_pos same]
        rfl
      · rw [if_neg same, if_neg same]
    rw [tail, none, List.append_nil, List.flatMap_congr each, ← List.map_eq_flatMap, Block.mapOperands_insts]
    split
    · rw [Block.exchange, List.map_map]
      refine List.map_congr_left fun i _ => ?_
      rw [Function.comp_apply, apply_ite (Instruction.mapOperands _), settled]
    · next other => exact List.map_congr_left fun i listed => by rw [if_neg (elsewhere other i listed)]
  case kept =>
    intro _
    rw [settleTerm_singleton, ← term_inherits slots within]
    split <;> rfl
  case lowered =>
    intro x found
    cases none.symm.trans found

theorem invoke_exchanges {branch normal : LocalId} {unwind : Value}
    (invoke : site.successors = some (.block normal, unwind)) (plain : inst.op.isPhi = false) :
    Exchanges [⟨site, [], inst, branch⟩] d (Replacement.lower ⟨site, inst.type, inst, branch, normal⟩ d) := by
  obtain ⟨home, elsewhere⟩ := stands.exceptional numbered invoke within
  have settled : site.settle inst = inst :=
    Instruction.mapOperands_eq_self fun o present => Value.substitute_of_ne (apart o present) _
  have carried : ∀ i ∈ d.insts, Replacement.lowerInst ⟨site, inst.type, inst, branch, normal⟩ d.id i =
      site.carried inst d.id i := fun i listed => by
    have lowered := Replacement.lowerInst_carried ⟨site, inst.type, inst, branch, normal⟩ rfl invoke d.id fun o present =>
      slots o (block_slot within (Block.inst_slot listed present))
    rwa [settled] at lowered
  -- the new call is put in before the names are exchanged, and is passed over by that
  have last : Replacement.lowerInst ⟨site, inst.type, inst, branch, normal⟩ d.id inst = inst := by
    rw [Replacement.lowerInst_of_noPhi _ d.id plain]
    exact Instruction.mapOperands_eq_self fun o present => site.rename_of_ne _ _ (apart o present) o.debug
  have each : ∀ i ∈ d.insts, outcome [⟨site, [], inst, branch⟩] d.id i = [site.carried inst d.id i] := fun i listed => by
    rw [outcome_singleton, if_neg (elsewhere i listed)]
  constructor
  case id => exact Replacement.lower_id _ d
  case ident =>
    unfold Replacement.lower Block.prune
    split <;> split <;> rfl
  case insts =>
    rw [Replacement.lower_insts, List.flatMap_congr each, ← List.map_eq_flatMap, tail, at?_singleton]
    by_cases here : d.id = site.block
    · rw [if_pos here, if_pos (home.mpr here).symm, List.map_append, List.map_congr_left carried, List.map_singleton, last]
      rfl
    · rw [if_neg here, if_neg (Ne.symm (mt home.mp here)), List.map_congr_left carried, List.append_nil]
  case kept =>
    intro none
    rw [at?_singleton, ite_eq_right_iff] at none
    have other : d.id ≠ site.block := fun here => nomatch none (home.mpr here).symm
    rw [Replacement.lower_term, if_neg other, settleTerm_singleton]
    exact term_inherits slots within
  case lowered =>
    intro x found
    rw [at?_singleton] at found
    split at found
    · next own =>
      cases found
      exact ⟨normal, unwind, invoke, by rw [Replacement.lower_term, if_pos (home.mp own.symm)]⟩
    · cases found

end

/-- An accepted call that does not use the result takes the place of a site that stands in the function, whatever
position was recorded for it. -/
theorem replaceCallSite_exchanges (coherent : f.Coherent) {b : Block} (member : b ∈ f.blocks) (held : site.HeldBy b)
    (stands : site.StandsIn f) (accepted : f.Accepts site call type)
    (apart : ∀ o ∈ (Operation.call "" call).operands, o.value.local? ≠ some site.id) (attached : List Attachment)
    (m : Module) :
    ∃ g branch, f.replaceCallSite m site call type attached = (g, none) ∧ branch ∉ f.seen ∧
      List.Forall₂ (Exchanges [⟨site, [], f.newcomer site call type attached, branch⟩]) f.blocks g.blocks := by
  have slots := accepted.inherits (f.newcomer site call type attached) rfl
  obtain ⟨gone, _, ⟨ordinary, form⟩ | ⟨normal, unwind, branch, exceptional, unseen, _, form⟩⟩ :=
    replaceCallSite_form coherent member held accepted attached m
  · refine ⟨_, _, form, f.newcomer_unseen site call type attached, ?_⟩
    rw [note_blocks, mapOperands_blocks, updateBlock, List.map_map, List.forall₂_map_right_iff, List.forall₂_same]
    intro d within
    simp only [Function.comp_apply, beq_iff_eq]
    exact ordinary_exchanges slots apart coherent.numbered stands within ordinary _
  · refine ⟨_, branch, form, unseen, ?_⟩
    have blocks := Replacement.lowered_blocks ⟨site, type, f.newcomer site call type attached, branch, normal⟩ f
    rw [Replacement.rename] at blocks
    rw [note_blocks, blocks, List.forall₂_map_right_iff, List.forall₂_same]
    exact fun d within => invoke_exchanges slots apart coherent.numbered stands within exceptional rfl

end Function
end CallFusion.Ir
