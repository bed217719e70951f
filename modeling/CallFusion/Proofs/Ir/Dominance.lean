import CallFusion.Proofs.Ir.Exchange
import CallFusion.Proofs.Ir.Simulation

/-!
Definitions reach their uses. Along every walk from the entry block to a use, the part of the function that
defines the value is passed before the use. Replacing a call site keeps this, although lowering an invoke
moves the definition from an edge into the block and takes an edge away.
-/

namespace CallFusion.Ir

/-- Whether a terminator's result is defined on the edge of this number. Calls that branch have theirs on the
normal edge only. -/
def Terminator.definesOn {α : Type} : Terminator α → Nat → Bool
  | invoke _ _ _, k => k == 0
  | callBr _ _ _, k => k == 0
  | _, _ => true

@[simp] theorem Terminator.definesOn_mapOperands {α β : Type} (h : Bool → α → β) (t : Terminator α) :
    (t.mapOperands h).definesOn = t.definesOn := by
  funext k
  cases t <;> rfl

/-- What a block has defined when control leaves it by the edge of this number. -/
def Block.leaving (b : Block) (k : Nat) : List LocalId :=
  b.insts.map (·.id) ++ if b.term.op.definesOn k then [b.term.id] else []

def Value.KnownAmong (v : Value) (known : List LocalId) : Prop := ∀ id, v.local? = some id → id ∈ known

theorem Value.knownAmong_block (id : LocalId) (known : List LocalId) : (Value.block id).KnownAmong known := by
  intro x held
  cases held

theorem Value.knownAmong_const (mention : Nat) (c : Constant) (known : List LocalId) :
    (Value.const mention c).KnownAmong known := by
  intro x held
  cases held

namespace Function

/-- Walks from the entry block: the edges taken, the last one first, and the block where the walk ends. -/
inductive Walk (f : Function) : List (Block × Nat) → Block → Prop
  | entry {b : Block} (first : f.blocks.head? = some b) : f.Walk [] b
  | step {trail : List (Block × Nat)} {b c : Block} {k : Nat} (walk : f.Walk trail b)
      (edge : b.term.op.targets[k]? = some (.block c.id)) (member : c ∈ f.blocks) : f.Walk ((b, k) :: trail) c

/-- What is defined ahead of position `n` of the block where a walk ends. -/
def known (f : Function) (trail : List (Block × Nat)) (b : Block) (n : Nat) : List LocalId :=
  f.params.map (·.id) ++ ((b.insts.take n).map (·.id) ++ trail.flatMap fun passed => passed.1.leaving passed.2)

/-- On every walk from the entry block, what a slot holds is defined ahead of its use. A phi uses the entry of
an edge where the edge is taken. Debug slots count as uses if `debug` is set. -/
structure Dominated (f : Function) (debug : Bool) : Prop where
  insts : ∀ {trail : List (Block × Nat)} {b : Block}, f.Walk trail b →
    ∀ {n : Nat} {i : Instruction}, b.insts[n]? = some i → i.op.isPhi = false →
      ∀ o ∈ i.op.operands, (o.debug = true → debug = true) → o.value.KnownAmong (f.known trail b n)
  terms : ∀ {trail : List (Block × Nat)} {b : Block}, f.Walk trail b →
    ∀ o ∈ b.term.op.operands, (o.debug = true → debug = true) → o.value.KnownAmong (f.known trail b b.insts.length)
  phis : ∀ {trail : List (Block × Nat)} {p b : Block} {k : Nat}, f.Walk ((p, k) :: trail) b → ∀ i ∈ b.insts,
    ∀ flags incoming, i.op = .phi flags incoming →
      ∀ e ∈ incoming, e.2 = .block p.id → e.1.KnownAmong (f.known ((p, k) :: trail) b 0)

/-- The values of these slots are defined at the site, on every walk to it. -/
def AvailableAt (f : Function) (debug : Bool) (site : CallSite) (slots : List (Operand Value)) : Prop :=
  ∀ {trail : List (Block × Nat)} {b : Block}, f.Walk trail b → b.id = site.block →
    ∀ o ∈ slots, (o.debug = true → debug = true) →
      o.value.KnownAmong (f.known trail b (site.index.getD b.insts.length))

theorem Walk.member {f : Function} {trail : List (Block × Nat)} {b : Block} (walk : f.Walk trail b) : b ∈ f.blocks := by
  cases walk with
  | entry first => exact List.mem_of_head? first
  | step _ _ member => exact member

end Function

namespace CallSite

variable {site : CallSite} {new i : Instruction} {block : LocalId}

/-- What the number of a local becomes when the new call takes the place of the site. -/
def successor (site : CallSite) (new : Instruction) (id : LocalId) : LocalId := if id = site.id then new.id else id

theorem successor_of_ne {id : LocalId} (other : id ≠ site.id) : site.successor new id = id := if_neg other

theorem carried_of_noPhi (noPhi : i.op.isPhi = false) :
    site.carried new block i = i.mapOperands fun _ v => v.substitute site.id (site.heir new) := by
  have plain : i.op.Plain := by
    intro flags incoming op
    rw [op] at noPhi
    cases noPhi
  rw [carried, Instruction.withoutEntry_of_plain _ plain, ite_self]

theorem carried_isPhi : (site.carried new block i).op.isPhi = i.op.isPhi := by
  unfold carried
  split
  · rw [Instruction.mapOperands_op, Operation.isPhi_mapOperands, Instruction.withoutEntry]
    split
    · next op =>
      rw [op]
      rfl
    · rfl
  · simp

theorem carried_entries {flags : List String} {incoming : List (Value × Value)}
    (op : (site.carried new block i).op = .phi flags incoming) :
    ∃ entries, i.op = .phi flags entries ∧ ∀ e ∈ incoming, ∃ x ∈ entries,
      e = (x.1.substitute site.id (site.heir new), x.2.substitute site.id (site.heir new)) := by
  unfold carried at op
  cases form : i.op with
  | phi old entries =>
    split at op
    · simp only [Instruction.mapOperands_op, Instruction.withoutEntry, form, Operation.mapOperands,
        Operation.phi.injEq] at op
      obtain ⟨rfl, rfl⟩ := op
      refine ⟨entries, rfl, fun e listed => ?_⟩
      obtain ⟨x, kept, rfl⟩ := List.mem_map.mp listed
      exact ⟨x, (List.mem_filter.mp kept).1, rfl⟩
    · simp only [Instruction.mapOperands_op, form, Operation.mapOperands, Operation.phi.injEq] at op
      obtain ⟨rfl, rfl⟩ := op
      refine ⟨entries, rfl, fun e listed => ?_⟩
      obtain ⟨x, kept, rfl⟩ := List.mem_map.mp listed
      exact ⟨x, kept, rfl⟩
  | _ =>
    split at op <;> simp [Instruction.withoutEntry, form, Operation.mapOperands] at op

theorem substitute_known {v : Value} {before after : List LocalId} (known : v.KnownAmong before)
    (carried : ∀ x ∈ before, site.successor new x ∈ after) :
    (v.substitute site.id (site.heir new)).KnownAmong after := by
  intro id held
  by_cases old : v.local? = some site.id
  · rw [Value.substitute, if_pos old, heir] at held
    split at held
    · obtain rfl : new.id = id := Option.some.inj held
      simpa [successor] using carried site.id (known site.id old)
    · cases held
  · rw [Value.substitute_of_ne old] at held
    have other : id ≠ site.id := fun same => old (same ▸ held)
    simpa [successor, other] using carried id (known id held)

/-- A block that was left on a walk, and the block that is left in its place. -/
structure Retraced (site : CallSite) (new : Instruction) (old passed : Block × Nat) : Prop where
  block : passed.1.id = old.1.id
  left : ∀ x ∈ old.1.leaving old.2, site.successor new x ∈ passed.1.leaving passed.2

theorem substitute_eq_block {v : Value} {id : LocalId}
    (held : v.substitute site.id (site.heir new) = .block id) : v = .block id := by
  by_cases old : v.local? = some site.id
  · rw [Value.substitute, if_pos old, heir] at held
    split at held <;> cases held
  · rwa [Value.substitute_of_ne old] at held

end CallSite

namespace Function

variable {f g : Function} {site : CallSite} {new : Instruction} {b c : Block}

theorem site_not_elsewhere (numbered : f.localIds.Nodup) (listed : site ∈ f.callSites) (member : b ∈ f.blocks)
    (other : b.id ≠ site.block) : site.id ∉ b.ids := by
  intro present
  obtain ⟨d, within, found⟩ := List.mem_flatMap.mp listed
  have same := block_unique numbered member within present (CallSite.id_mem_ids found)
  exact other (same ▸ (CallSite.heldBy_of_mem found).1)

theorem invoke_at_end (numbered : f.localIds.Nodup) (listed : site ∈ f.callSites) (member : b ∈ f.blocks)
    (here : b.id = site.block) {normal unwind : Value} (successors : site.successors = some (normal, unwind)) :
    b.term.op = .invoke site.call normal unwind ∧ b.term.id = site.id ∧ site.id ∉ b.insts.map (·.id) := by
  obtain ⟨d, within, found⟩ := List.mem_flatMap.mp listed
  obtain rfl := block_eq_of_id numbered within member ((CallSite.heldBy_of_mem found).1.trans here.symm)
  rcases CallSite.cases_of_mem found with ⟨_, _, _, _, _, same⟩ | ⟨n, u, op, same⟩
  · rw [same] at successors
    cases successors
  · rw [same] at successors
    cases successors
    have number : d.term.id = site.id := by rw [same]
    refine ⟨op, number, fun present => ?_⟩
    have distinct := (List.nodup_cons.mp (block_ids_nodup numbered member)).2
    rw [List.nodup_append] at distinct
    exact distinct.2.2 _ present _ List.mem_cons_self number.symm

end Function

namespace CallSite.Exchanged

variable {f : Function} {site : CallSite} {new : Instruction} {b c : Block}

theorem cases (exchanged : site.Exchanged new b c) :
    (b.id ≠ site.block ∧ c.insts = b.insts.map (site.carried new b.id) ∧
      c.term = b.term.mapOperands fun _ v => v.substitute site.id (site.heir new)) ∨
    (b.id = site.block ∧ site.successors = none ∧ ∃ earlier old later, b.insts = earlier ++ old :: later ∧
      site.index = some earlier.length ∧ old.id = site.id ∧
      c.insts = earlier.map (site.carried new b.id) ++ new :: later.map (site.carried new b.id) ∧
      c.term = b.term.mapOperands fun _ v => v.substitute site.id (site.heir new)) ∨
    (b.id = site.block ∧ ∃ normal unwind, site.successors = some (normal, unwind) ∧
      c.insts = b.insts.map (site.carried new b.id) ++ [new] ∧ c.term.op = .br normal) := by
  by_cases here : b.id = site.block
  · right
    cases successors : site.successors with
    | none => exact .inl ⟨here, rfl, exchanged.ordinary here successors⟩
    | some targets => exact .inr ⟨here, _, _, rfl, exchanged.lowered here _ _ successors⟩
  · exact .inl ⟨here, exchanged.elsewhere here⟩

theorem term_before (exchanged : site.Exchanged new b c) :
    c.term = b.term.mapOperands (fun _ v => v.substitute site.id (site.heir new)) ∧ c.insts.length = b.insts.length ∨
      ∃ normal unwind, site.successors = some (normal, unwind) ∧ b.id = site.block ∧ c.term.op = .br normal := by
  rcases exchanged.cases with ⟨_, insts, term⟩ | ⟨_, _, _, _, _, before, _, _, insts, term⟩ |
    ⟨here, normal, unwind, successors, _, branch⟩
  · exact .inl ⟨term, by rw [insts, List.length_map]⟩
  · exact .inl ⟨term, by simp [insts, before]⟩
  · exact .inr ⟨normal, unwind, successors, here, branch⟩

theorem carried_ids {is : List Instruction} (absent : site.id ∉ is.map (·.id)) (block : LocalId) :
    (is.map (site.carried new block)).map (·.id) = (is.map (·.id)).map (site.successor new) := by
  rw [List.map_map, List.map_map]
  refine List.map_congr_left fun i listed => ?_
  have other : i.id ≠ site.id := fun same => absent (same ▸ List.mem_map.mpr ⟨i, listed, rfl⟩)
  simp [site.successor_of_ne other]

section Function

variable (exchanged : site.Exchanged new b c) (numbered : f.localIds.Nodup) (listed : site ∈ f.callSites)
  (member : b ∈ f.blocks)

include exchanged numbered listed member

theorem inst_ids : c.insts.map (·.id) = (b.insts.map (·.id)).map (site.successor new) ++
    if b.id = site.block ∧ site.successors ≠ none then [new.id] else [] := by
  rcases exchanged.cases with ⟨other, after, _⟩ | ⟨here, ordinary, earlier, old, later, insts, _, number, after, _⟩ |
    ⟨here, normal, unwind, successors, after, _⟩
  · have absent : site.id ∉ b.insts.map (·.id) := fun present =>
      Function.site_not_elsewhere numbered listed member other (List.mem_cons_of_mem _ (List.mem_append_left _ present))
    rw [after, carried_ids absent, if_neg fun both => other both.1, List.append_nil]
  · have distinct := Block.inst_ids_nodup (Function.block_ids_nodup numbered member)
    rw [insts, List.map_append, List.map_cons, number, List.nodup_append, List.nodup_cons] at distinct
    obtain ⟨_, ⟨behind, _⟩, ahead⟩ := distinct
    have first : (earlier.map (site.carried new b.id)).map (·.id) = _ :=
      carried_ids (fun present => ahead _ present _ List.mem_cons_self rfl) b.id
    have last : (later.map (site.carried new b.id)).map (·.id) = _ := carried_ids behind b.id
    have stands : site.successor new site.id = new.id := if_pos rfl
    rw [after, insts, if_neg fun both => both.2 ordinary, List.append_nil]
    simp only [List.map_append, List.map_cons, first, last, number, stands]
  · obtain ⟨_, _, absent⟩ := Function.invoke_at_end numbered listed member here successors
    rw [after, List.map_append, carried_ids absent, if_pos ⟨here, by simp [successors]⟩]
    rfl

theorem defined_kept {n : Nat} {x : LocalId} (early : x ∈ (b.insts.take n).map (·.id)) :
    site.successor new x ∈ (c.insts.take n).map (·.id) := by
  rw [List.map_take, exchanged.inst_ids numbered listed member, List.take_append, ← List.map_take]
  exact List.mem_append_left _ (List.mem_map.mpr ⟨x, List.map_take ▸ early, rfl⟩)

theorem term_id_ne (stays : c.term = b.term.mapOperands fun _ v => v.substitute site.id (site.heir new)) :
    b.term.id ≠ site.id := by
  intro same
  rcases exchanged.cases with ⟨other, _⟩ | ⟨_, _, earlier, old, later, insts, _, number, _⟩ |
    ⟨here, normal, unwind, successors, _, branch⟩
  · exact Function.site_not_elsewhere numbered listed member other (same ▸ b.term_id_mem_ids)
  · have distinct := (List.nodup_cons.mp (Function.block_ids_nodup numbered member)).2
    rw [List.nodup_append] at distinct
    have carried : old ∈ b.insts := insts ▸ List.mem_append_right _ List.mem_cons_self
    exact distinct.2.2 _ (List.mem_map.mpr ⟨old, carried, rfl⟩) _ List.mem_cons_self (number.trans same.symm)
  · have invoke := (Function.invoke_at_end numbered listed member here successors).1
    rw [stays, Terminal.mapOperands_op, invoke] at branch
    cases branch

theorem leaving {k : Nat} {x : LocalId} (passed : x ∈ b.leaving k) : site.successor new x ∈ c.leaving k := by
  rcases List.mem_append.mp passed with inst | term
  · apply List.mem_append_left
    rw [exchanged.inst_ids numbered listed member]
    exact List.mem_append_left _ (List.mem_map.mpr ⟨x, inst, rfl⟩)
  · split at term
    · next defined =>
      obtain rfl := List.mem_singleton.mp term
      rcases exchanged.term_before with ⟨stays, _⟩ | ⟨normal, unwind, successors, here, _⟩
      · rw [site.successor_of_ne (exchanged.term_id_ne numbered listed member stays), Block.leaving, stays]
        apply List.mem_append_right
        simp [defined]
      · -- the new call stands in the block now, and not on the edge
        obtain ⟨_, number, _⟩ := Function.invoke_at_end numbered listed member here successors
        apply List.mem_append_left
        rw [exchanged.inst_ids numbered listed member, number, if_pos ⟨here, by simp [successors]⟩]
        exact List.mem_append_right _ (List.mem_singleton.mpr (if_pos rfl))
    · cases term

end Function

theorem edge (exchanged : site.Exchanged new b c) (coherent : f.Coherent) (listed : site ∈ f.callSites)
    (member : b ∈ f.blocks) {k : Nat} {target : LocalId} (edge : c.term.op.targets[k]? = some (.block target)) :
    b.term.op.targets[k]? = some (.block target) := by
  rcases exchanged.term_before with ⟨stays, _⟩ | ⟨normal, unwind, successors, here, branch⟩
  · rw [stays, Terminal.mapOperands_op] at edge
    rwa [Function.targets_mapOperands_of_directed (fun _ _ => rfl) (coherent.directed b member)] at edge
  · rw [(Function.invoke_at_end coherent.numbered listed member here successors).1]
    rw [branch] at edge
    cases k with
    | zero => exact edge
    | succ k => cases edge

theorem inst_before (exchanged : site.Exchanged new b c) (listed : site ∈ f.callSites) {n : Nat} {j : Instruction}
    (at_n : c.insts[n]? = some j) :
    (∃ i, b.insts[n]? = some i ∧ j = site.carried new b.id i) ∨
      b.id = site.block ∧ n = site.index.getD b.insts.length ∧ j = new := by
  have carried : ∀ {is : List Instruction} {k : Nat}, (is.map (site.carried new b.id))[k]? = some j →
      ∃ i, is[k]? = some i ∧ j = site.carried new b.id i := by
    intro is k there
    rw [List.getElem?_map] at there
    obtain ⟨i, found, rfl⟩ := Option.map_eq_some_iff.mp there
    exact ⟨i, found, rfl⟩
  rcases exchanged.cases with ⟨_, after, _⟩ | ⟨here, _, earlier, old, later, insts, position, _, after, _⟩ |
    ⟨here, normal, unwind, successors, after, _⟩
  · rw [after] at at_n
    exact .inl (carried at_n)
  · -- an ordinary call: the new one stands at the position of the old one, and no other moves
    rw [after, List.getElem?_append, List.length_map] at at_n
    rw [insts, position, List.getElem?_append]
    split at at_n
    · next ahead =>
      rw [if_pos ahead]
      exact .inl (carried at_n)
    · next behind =>
      rw [if_neg behind]
      cases distance : n - earlier.length with
      | zero =>
        rw [distance, List.getElem?_cons_zero] at at_n
        have position : n = earlier.length := by omega
        exact .inr ⟨here, position, (Option.some.inj at_n).symm⟩
      | succ k =>
        rw [distance, List.getElem?_cons_succ] at at_n
        exact .inl (carried at_n)
  · -- an invoke, which has no recorded position: the new one stands behind all instructions
    have index : site.index = none := by
      obtain ⟨_, _, found⟩ := List.mem_flatMap.mp listed
      rcases CallSite.cases_of_mem found with ⟨_, _, _, _, _, same⟩ | ⟨_, _, _, same⟩
      · rw [same] at successors
        cases successors
      · rw [same]
    rw [after, List.getElem?_append, List.length_map] at at_n
    split at at_n
    · exact .inl (carried at_n)
    · next behind =>
      cases distance : n - b.insts.length with
      | zero =>
        rw [distance] at at_n
        have position : n = b.insts.length := by omega
        exact .inr ⟨here, by rw [index, Option.getD_none, position], (Option.some.inj at_n).symm⟩
      | succ k =>
        rw [distance] at at_n
        cases at_n

end CallSite.Exchanged

namespace Function

variable {f g : Function} {site : CallSite} {new : Instruction}

/-- A walk after the exchange is a walk before it. -/
theorem Replaced.walk_before (replaced : f.Replaced site new g) (coherent : f.Coherent)
    (listed : site ∈ f.callSites) {trail : List (Block × Nat)} {c : Block} (walk : g.Walk trail c) :
    ∃ before b, f.Walk before b ∧ site.Exchanged new b c ∧ List.Forall₂ (site.Retraced new) before trail := by
  induction walk with
  | entry first =>
    obtain ⟨b, entry, exchanged⟩ := replaced.entry_before first
    exact ⟨[], b, .entry entry, exchanged, .nil⟩
  | step walk edge member ih =>
    obtain ⟨before, b, walked, exchanged, retraced⟩ := ih
    obtain ⟨d, within, next⟩ := replaced.block_before member
    rw [next.id] at edge
    have taken := exchanged.edge coherent listed walked.member edge
    refine ⟨_, d, .step walked taken within, next, .cons ⟨exchanged.id, ?_⟩ retraced⟩
    exact fun x left => exchanged.leaving coherent.numbered listed walked.member left

theorem Replaced.known_before (replaced : f.Replaced site new g) (numbered : f.localIds.Nodup)
    (listed : site ∈ f.callSites) {before trail : List (Block × Nat)} {b c : Block}
    (exchanged : site.Exchanged new b c) (member : b ∈ f.blocks) (retraced : List.Forall₂ (site.Retraced new) before trail)
    (n : Nat) :
    ∀ x ∈ f.known before b n, site.successor new x ∈ g.known trail c n := by
  intro x present
  simp only [known, List.mem_append] at present ⊢
  refine present.imp (fun given => ?_) (Or.imp (fun early => ?_) fun passed => ?_)
  · obtain ⟨p, listed_p, rfl⟩ := List.mem_map.mp given
    obtain ⟨d, within, found⟩ := List.mem_flatMap.mp listed
    obtain ⟨gone, frame⟩ := replaced.frame
    rw [site.successor_of_ne (param_not_in_block numbered listed_p within (CallSite.id_mem_ids found)), frame]
    exact List.mem_map.mpr ⟨p, listed_p, rfl⟩
  · exact exchanged.defined_kept numbered listed member early
  · clear present
    induction retraced with
    | nil => cases passed
    | cons step _ ih =>
      rw [List.flatMap_cons, List.mem_append] at passed ⊢
      exact passed.imp (step.left x) ih

/-- Replacing a call site keeps definitions ahead of their uses. -/
theorem Replaced.dominated (replaced : f.Replaced site new g) (coherent : f.Coherent)
    (listed : site ∈ f.callSites) {debug : Bool} (dominated : f.Dominated debug) {call : Call Value}
    (op : new.op = .call "" (call.mapOperands fun _ v => v.substitute site.id (site.heir new)))
    (available : f.AvailableAt debug site (Operation.call "" call).operands) : g.Dominated debug := by
  constructor
  case insts =>
    intro trail c walk n j at_n noPhi o present counts
    obtain ⟨before, b, walked, exchanged, retraced⟩ := replaced.walk_before coherent listed walk
    have known := replaced.known_before coherent.numbered listed exchanged walked.member retraced n
    rcases exchanged.inst_before listed at_n with ⟨i, found, rfl⟩ | ⟨here, rfl, placed⟩
    · rw [CallSite.carried_isPhi] at noPhi
      rw [CallSite.carried_of_noPhi noPhi, Instruction.mapOperands_op, Operation.operands_mapOperands] at present
      obtain ⟨old, slot, rfl⟩ := List.mem_map.mp present
      exact CallSite.substitute_known (dominated.insts walked found noPhi old slot counts) known
    · -- the new call asks for no more than its operands where the old one stood
      have settled : new.op = (Operation.call "" call).mapOperands fun _ v => v.substitute site.id (site.heir new) := op
      rw [placed, settled, Operation.operands_mapOperands] at present
      obtain ⟨old, slot, rfl⟩ := List.mem_map.mp present
      exact CallSite.substitute_known (available walked here old slot counts) known
  case terms =>
    intro trail c walk o present counts
    obtain ⟨before, b, walked, exchanged, retraced⟩ := replaced.walk_before coherent listed walk
    rcases exchanged.term_before with ⟨term, length⟩ | ⟨target, unwind, successors, here, branch⟩
    · rw [term, Terminal.mapOperands_op, Terminator.operands_mapOperands] at present
      obtain ⟨old, slot, rfl⟩ := List.mem_map.mp present
      rw [length]
      have known := replaced.known_before coherent.numbered listed exchanged walked.member retraced b.insts.length
      exact CallSite.substitute_known (dominated.terms walked old slot counts) known
    · -- the branch that takes the invoke's place names a block, and no local
      have listed : target ∈ b.term.op.targets := by
        rw [(invoke_at_end coherent.numbered listed walked.member here successors).1]
        exact List.mem_cons_self
      obtain ⟨id, rfl⟩ := coherent.directed b walked.member target listed
      rw [branch] at present
      obtain rfl := List.mem_singleton.mp present
      exact Value.knownAmong_block id _
  case phis =>
    intro trail p c k walk j carried flags incoming phi e listed_e source
    obtain ⟨before, b, walked, exchanged, retraced⟩ := replaced.walk_before coherent listed walk
    obtain ⟨⟨q, l⟩, rest, step, _, rfl⟩ := List.forall₂_cons_right_iff.mp retraced
    have known := replaced.known_before coherent.numbered listed exchanged walked.member retraced 0
    obtain ⟨n, at_n⟩ := List.getElem?_of_mem carried
    rcases exchanged.inst_before listed at_n with ⟨i, found, rfl⟩ | ⟨_, _, placed⟩
    · obtain ⟨entries, old, all⟩ := CallSite.carried_entries phi
      obtain ⟨x, entry, rfl⟩ := all e listed_e
      have same : x.2 = .block q.id := (CallSite.substitute_eq_block source).trans (congrArg _ step.block)
      have used := dominated.phis walked i (List.mem_of_getElem? found) flags entries old x entry same
      exact CallSite.substitute_known used known
    · rw [placed, op] at phi
      cases phi

end Function

/-- In a function where every definition reaches its uses, a call site that is replaced by a call with operands
that are available there leaves a function where every definition reaches its uses. -/
theorem dominance_kept {f g : Function} {site : CallSite} {call : Call Value} {type : Ty}
    {attached : List Attachment} {m : Module} {debug : Bool} (coherent : f.Coherent) (dominated : f.Dominated debug) (listed : site ∈ f.callSites)
    (available : f.AvailableAt debug site (Operation.call "" call).operands)
    (done : f.replaceCallSite m site call type attached = (g, none)) : g.Dominated debug := by
  obtain ⟨b, member, found⟩ := List.mem_flatMap.mp listed
  have accepted := Function.accepts_of_replaced member (CallSite.heldBy_of_mem found).1 (by rw [done])
  obtain ⟨_, form, replaced⟩ := Function.replaceCallSite_replaced coherent listed accepted attached m
  rw [done] at form
  cases form
  exact replaced.dominated coherent listed dominated rfl available

theorem invoking_walks {trail : List (Block × Nat)} {b : Block} (walk : invoking.Walk trail b) :
    trail = [] ∧ invoking.blocks[0]? = some b ∨
      ∃ e, invoking.blocks[0]? = some e ∧
        (trail = [(e, 0)] ∧ invoking.blocks[1]? = some b ∨ trail = [(e, 1)] ∧ invoking.blocks[2]? = some b) := by
  induction walk with
  | entry first => exact .inl ⟨rfl, first⟩
  | @step trail b c k walk edge member ih =>
    right
    rcases ih with ⟨rfl, here⟩ | ⟨e, _, ⟨rfl, here⟩ | ⟨rfl, here⟩⟩
    · refine ⟨b, here, ?_⟩
      obtain rfl := Option.some.inj here
      simp only [invoking, List.mem_cons, List.not_mem_nil, or_false] at member
      rcases k with _ | _ | k
      · rcases member with rfl | rfl | rfl <;> simp [Terminator.targets, invoking] at edge ⊢
      · rcases member with rfl | rfl | rfl <;> simp [Terminator.targets, invoking] at edge ⊢
      · cases edge
    · obtain rfl := Option.some.inj here
      cases edge
    · obtain rfl := Option.some.inj here
      cases edge

theorem invoking_dominated : invoking.Dominated true where
  insts := by
    intro trail b walk n i at_n noPhi
    have phis : ∀ b ∈ invoking.blocks, ∀ i ∈ b.insts, i.op.isPhi = true := by simp [invoking, Operation.isPhi]
    rw [phis b walk.member i (List.mem_of_getElem? at_n)] at noPhi
    cases noPhi
  terms := by
    intro trail b walk o present _
    rcases invoking_walks walk with ⟨rfl, here⟩ | ⟨e, first, ⟨rfl, here⟩ | ⟨rfl, here⟩⟩ <;>
      obtain rfl := Option.some.inj here
    · rcases List.mem_cons.mp present with rfl | branches
      · exact Value.knownAmong_const 0 _ _
      · rcases List.mem_pair.mp branches with rfl | rfl
        · exact Value.knownAmong_block 2 _
        · exact Value.knownAmong_block 5 _
    · obtain rfl := List.mem_singleton.mp present
      simp [Value.KnownAmong, Operand.code, Function.known]
    · obtain rfl := List.mem_singleton.mp present
      simp [Value.KnownAmong, Operand.code, Function.known]
  phis := by
    intro trail p b k walk i carried flags incoming op e listed source
    rcases invoking_walks walk with ⟨_, _⟩ | ⟨e, first, ⟨same, here⟩ | ⟨same, here⟩⟩
    · contradiction
    · obtain ⟨⟨rfl, rfl⟩, rfl⟩ := List.cons.inj same |>.imp_left Prod.mk.inj
      obtain rfl := Option.some.inj here
      obtain rfl := Option.some.inj first
      obtain rfl := List.mem_singleton.mp carried
      cases op
      obtain rfl := List.mem_singleton.mp listed
      simp [Value.KnownAmong, Function.known, Block.leaving, Terminator.definesOn]
    · obtain rfl := Option.some.inj here
      obtain rfl := List.mem_singleton.mp carried
      cases op
      obtain rfl := List.mem_singleton.mp listed
      exact Value.knownAmong_const 4 _ _

theorem invoking_dominance_kept :
    ∃ g, invoking.replaceCallSite {} invokingSite invokingSite.call .bytePointer [] = (g, none) ∧
      g.Dominated true := by
  have listed : invokingSite ∈ invoking.callSites := List.mem_cons_self
  have coherent := invoking_wellFormed.toCoherent
  have agree : invokingSite.type.same .bytePointer = true := by decide +kernel
  have accepted : invoking.Accepts invokingSite invokingSite.call .bytePointer := .inl agree
  obtain ⟨g, done⟩ := Function.replaceCallSite_completes coherent listed accepted [] {}
  refine ⟨g, done, dominance_kept coherent invoking_dominated listed (fun _ _ o present _ => ?_) done⟩
  obtain rfl := List.mem_singleton.mp present
  exact Value.knownAmong_const 0 _ _

end CallFusion.Ir
