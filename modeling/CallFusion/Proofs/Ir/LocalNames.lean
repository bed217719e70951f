import CallFusion.Ir.Numbering
import CallFusion.Proofs.Ir.Exchanges
import Mathlib.Data.List.Flatten
import Mathlib.Data.List.Pairwise

/-!
Names of locals. Parameters, blocks, results of instructions and results of terminators share one set of names. A
local is told apart by its number, so names are distinct if no two numbers bear one name.
-/

namespace CallFusion.Ir

def Ident.name? : Ident → Option String
  | .named s => some s
  | .number _ => none

theorem Ident.name?_eq_some {i : Ident} {s : String} : i.name? = some s ↔ i = .named s := by
  cases i <;> simp [name?]

/-- The block's own identifier and those of its instructions, with the numbers that bear them. -/
def Block.labels (b : Block) : List (LocalId × Ident) :=
  (b.id, b.ident) :: (b.insts.filter (·.isNumbered)).map fun i => (i.id, i.ident)

def Block.ends (b : Block) : List (LocalId × Ident) :=
  if b.term.isNumbered then [(b.term.id, b.term.ident)] else []

namespace Function

def localNames (f : Function) : List String := f.numberedIdents.filterMap Ident.name?

def Labels (f : Function) (id : LocalId) (s : String) : Prop :=
  (∃ p ∈ f.params, p.id = id ∧ p.ident = .named s) ∨ ∃ b ∈ f.blocks, (id, .named s) ∈ b.labels

def Ends (f : Function) (id : LocalId) (s : String) : Prop := ∃ b ∈ f.blocks, (id, .named s) ∈ b.ends

def bearers (f : Function) : List (LocalId × Ident) :=
  f.params.map (fun p => (p.id, p.ident)) ++ f.blocks.flatMap fun b => b.labels ++ b.ends

variable {f g : Function} {id : LocalId} {s : String}

theorem mem_bearers : (id, .named s) ∈ f.bearers ↔ f.Labels id s ∨ f.Ends id s := by
  simp only [bearers, Labels, Ends, List.mem_append, List.mem_map, List.mem_flatMap, Prod.mk.injEq, or_assoc]
  refine or_congr_right ⟨?_, ?_⟩
  · rintro ⟨b, member, label | last⟩
    · exact .inl ⟨b, member, label⟩
    · exact .inr ⟨b, member, last⟩
  · rintro (⟨b, member, label⟩ | ⟨b, member, last⟩)
    · exact ⟨b, member, .inl label⟩
    · exact ⟨b, member, .inr last⟩

theorem bearers_idents (f : Function) : f.bearers.map (·.2) = f.numberedIdents := by
  have block : ∀ b : Block, (b.labels ++ b.ends).map (·.2) =
      b.ident :: ((b.insts.filter (·.isNumbered)).map (·.ident) ++ if b.term.isNumbered then [b.term.ident] else []) := by
    intro b
    simp only [Block.labels, Block.ends, List.map_append, List.map_cons, List.map_map, List.cons_append]
    split <;> rfl
  rw [bearers, numberedIdents, List.map_append, List.map_map, List.map_flatMap]
  congr 1
  exact List.flatMap_congr fun b _ => block b

theorem bearers_ids (f : Function) : (f.bearers.map (·.1)).Sublist f.localIds := by
  have block : ∀ b : Block, ((b.labels ++ b.ends).map (·.1)).Sublist b.ids := by
    intro b
    have insts : ((b.insts.filter (·.isNumbered)).map (·.id)).Sublist (b.insts.map (·.id)) := List.filter_sublist.map _
    have last : (b.ends.map (·.1)).Sublist [b.term.id] := by
      unfold Block.ends
      split
      · exact .refl _
      · exact List.nil_sublist _
    rw [Block.labels, List.map_append, List.map_cons, List.map_map]
    exact (insts.append last).cons_cons b.id
  rw [bearers, localIds_eq, List.map_append, List.map_map, List.map_flatMap]
  exact (List.Sublist.refl _).append (List.Sublist.flatMap_right f.blocks fun b _ => block b)

theorem Ends.mem_localIds (last : f.Ends id s) : id ∈ f.localIds :=
  f.bearers_ids.subset (List.mem_map.mpr ⟨_, mem_bearers.mpr (.inr last), rfl⟩)

theorem localNames_nodup_iff (numbered : f.localIds.Nodup) : f.localNames.Nodup ↔
    ∀ id id' s, f.Labels id s ∨ f.Ends id s → f.Labels id' s ∨ f.Ends id' s → id = id' := by
  simp only [← mem_bearers]
  have ids : f.bearers.Pairwise fun e e' => e.1 ≠ e'.1 := List.pairwise_map.mp (numbered.sublist f.bearers_ids)
  rw [localNames, ← bearers_idents, List.Nodup, List.pairwise_filterMap, List.pairwise_map]
  constructor
  · intro apart id id' s first second
    by_contra differ
    have : Std.Symm fun e e' : LocalId × Ident =>
        ∀ b, e.2.name? = some b → ∀ b', e'.2.name? = some b' → b ≠ b' :=
      ⟨fun e e' apart b named b' named' => (apart b' named' b named).symm⟩
    exact apart.forall first second (fun same => differ (congrArg Prod.fst same)) s rfl s rfl rfl
  · intro unique
    refine ids.imp_of_mem fun {e e'} first second differ b named b' named' same => differ ?_
    have form : e = (e.1, .named b) := Prod.ext rfl (Ident.name?_eq_some.mp named)
    have form' : e' = (e'.1, .named b) := Prod.ext rfl (Ident.name?_eq_some.mp (same ▸ named'))
    rw [form] at first
    rw [form'] at second
    exact unique e.1 e'.1 b first second

end Function

namespace CallSite

variable {site : CallSite} {new i : Instruction} {block : LocalId}

@[simp] theorem carried_ident : (site.carried new block i).ident = i.ident := by
  unfold carried Instruction.withoutEntry
  split
  · split <;> rfl
  · rfl

@[simp] theorem carried_isNumbered : (site.carried new block i).isNumbered = i.isNumbered := by
  unfold carried Instruction.isNumbered
  split
  · rw [Instruction.mapOperands_op, Operation.hasResult_mapOperands, Instruction.withoutEntry_hasResult]
    unfold Instruction.withoutEntry
    split <;> rfl
  · rw [Instruction.mapOperands_op, Operation.hasResult_mapOperands]
    rfl

end CallSite

namespace Swap

variable {xs : List Swap} {block : LocalId} {i : Instruction} {t : Terminal}

@[simp] theorem settle_ident : (settle xs block i).ident = i.ident := by
  induction xs generalizing i with
  | nil => rfl
  | cons x xs ih => exact ih.trans CallSite.carried_ident

@[simp] theorem settle_isNumbered : (settle xs block i).isNumbered = i.isNumbered := by
  induction xs generalizing i with
  | nil => rfl
  | cons x xs ih => exact ih.trans CallSite.carried_isNumbered

@[simp] theorem settleTerm_ident : (settleTerm xs t).ident = t.ident := by
  induction xs generalizing t with
  | nil => rfl
  | cons x xs ih => exact ih.trans (Terminal.mapOperands_ident _ t)

@[simp] theorem settleTerm_isNumbered : (settleTerm xs t).isNumbered = t.isNumbered := by
  induction xs generalizing t with
  | nil => rfl
  | cons x xs ih =>
    refine ih.trans ?_
    rw [Terminal.isNumbered, Terminal.mapOperands_op, Terminator.hasResult_mapOperands]
    rfl

end Swap

namespace Exchanges

variable {xs : List Swap} {b c : Block} (exchanges : Exchanges xs b c)

include exchanges

theorem inst_before {j : Instruction} (listed : j ∈ c.insts) :
    (∃ i ∈ b.insts, j = Swap.settle xs b.id i) ∨ ∃ x ∈ xs, j ∈ x.placed := by
  rw [exchanges.insts, List.mem_append, List.mem_flatMap] at listed
  rcases listed with ⟨i, carried, inside⟩ | last
  · unfold Swap.outcome at inside
    split at inside
    · next x found => exact .inr ⟨x, Swap.at?_mem found, inside⟩
    · exact .inl ⟨i, carried, List.mem_singleton.mp inside⟩
  · unfold Swap.tail at last
    split at last
    · next x found => exact .inr ⟨x, Swap.at?_mem found, last⟩
    · cases last

theorem placed {i : Instruction} (carried : i ∈ b.insts) {x : Swap} (found : Swap.at? xs i.id = some x) :
    ∀ j ∈ x.placed, j ∈ c.insts := by
  intro j listed
  rw [exchanges.insts]
  refine List.mem_append_left _ (List.mem_flatMap.mpr ⟨i, carried, ?_⟩)
  rwa [Swap.outcome, found]

theorem labels (silent : ∀ x ∈ xs, x.call.isNumbered = false) {e : LocalId × Ident} (listed : e ∈ c.labels) :
    e ∈ b.labels ∨ ∃ x ∈ xs, ∃ i ∈ x.ahead, e = (i.id, i.ident) := by
  rcases List.mem_cons.mp listed with own | inst
  · rw [own, exchanges.id, exchanges.ident]
    exact .inl List.mem_cons_self
  · obtain ⟨j, held, rfl⟩ := List.mem_map.mp inst
    obtain ⟨present, numbered⟩ := List.mem_filter.mp held
    rcases exchanges.inst_before present with ⟨i, carried, rfl⟩ | ⟨x, exchanged, placed⟩
    · left
      rw [Swap.settle_id, Swap.settle_ident]
      rw [Swap.settle_isNumbered] at numbered
      exact List.mem_cons_of_mem _ (List.mem_map.mpr ⟨i, List.mem_filter.mpr ⟨carried, numbered⟩, rfl⟩)
    · rcases List.mem_append.mp placed with ahead | call
      · exact .inr ⟨x, exchanged, j, ahead, rfl⟩
      · rw [List.mem_singleton.mp call, silent x exchanged] at numbered
        cases numbered

theorem ends_kept (other : Swap.at? xs b.term.id = none) : c.ends = b.ends := by
  rw [Block.ends, exchanges.kept other, Swap.settleTerm_isNumbered, Swap.settleTerm_id, Swap.settleTerm_ident]
  rfl

theorem ends {e : LocalId × Ident} (listed : e ∈ c.ends) : e ∈ b.ends := by
  cases found : Swap.at? xs b.term.id with
  | none => exact exchanges.ends_kept found ▸ listed
  | some x =>
    obtain ⟨_, _, _, term⟩ := exchanges.lowered x found
    rw [Block.ends, term] at listed
    cases listed

end Exchanges

namespace Function

variable {f g : Function} {xs : List Swap} {id : LocalId} {s : String}

theorem Labels.before (labels : g.Labels id s) (params : g.params = f.params)
    (blocks : List.Forall₂ (Exchanges xs) f.blocks g.blocks) (silent : ∀ x ∈ xs, x.call.isNumbered = false) :
    f.Labels id s ∨ ∃ x ∈ xs, ∃ i ∈ x.ahead, i.id = id ∧ i.ident = .named s := by
  rcases labels with ⟨p, given, same⟩ | ⟨c, member, listed⟩
  · exact .inl (.inl ⟨p, params ▸ given, same⟩)
  · obtain ⟨b, within, exchanges⟩ := forall₂_mem_right blocks member
    rcases exchanges.labels silent listed with old | ⟨x, exchanged, i, ahead, same⟩
    · exact .inl (.inr ⟨b, within, old⟩)
    · obtain ⟨rfl, ident⟩ := Prod.mk.inj same
      exact .inr ⟨x, exchanged, i, ahead, rfl, ident.symm⟩

theorem Ends.before (last : g.Ends id s) (blocks : List.Forall₂ (Exchanges xs) f.blocks g.blocks) : f.Ends id s := by
  obtain ⟨c, member, listed⟩ := last
  obtain ⟨b, within, exchanges⟩ := forall₂_mem_right blocks member
  exact ⟨b, within, exchanges.ends listed⟩

end Function
end CallFusion.Ir
