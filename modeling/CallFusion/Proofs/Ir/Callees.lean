import CallFusion.Proofs.Ir.WellFormed
import Mathlib.Data.List.Perm.Subperm

/-!
The function behind the callee of a call, which is found by following bitcasts. The fuel of that search is always
enough: a chain of casts that has an end passes no instruction twice.
-/

namespace CallFusion.Ir

theorem Constant.names_of_stripCasts {c : Constant} {id : SymbolId} (named : c.stripCasts.Names id) : c.Names id := by
  fun_induction Constant.stripCasts c with
  | case1 c type ih =>
    obtain ⟨part, below, points⟩ := ih named
    exact ⟨part, .inside (List.mem_singleton.mpr rfl) below, points⟩
  | case2 => exact named

namespace Function

variable {f g h : Function} {v w x : Value} {ids : List LocalId}

theorem castSource?_eq_some (found : f.castSource? v = some x) :
    ∃ id type, v = .local id type ∧ ∃ i ∈ f.instructions, i.id = id ∧ ∃ type, i.op = .cast .bitcast x type := by
  unfold castSource? at found
  split at found
  · next id type =>
    obtain ⟨i, carried, op⟩ := Option.bind_eq_some_iff.mp found
    refine ⟨id, type, rfl, i, List.mem_of_find?_eq_some carried, by simpa using List.find?_some carried, ?_⟩
    split at op
    · next source target cast =>
      cases op
      exact ⟨target, cast⟩
    · cases op
  · cases found

theorem instruction?_of_mem (numbered : f.localIds.Nodup) {i : Instruction} (carried : i ∈ f.instructions) :
    f.instruction? i.id = some i := by
  have present : (f.instruction? i.id).isSome = true := List.find?_isSome.mpr ⟨i, carried, beq_self_eq_true i.id⟩
  obtain ⟨j, found⟩ := Option.isSome_iff_exists.mp present
  rw [found]
  obtain ⟨b, member, inside⟩ := List.mem_flatMap.mp carried
  obtain ⟨c, within, also⟩ := List.mem_flatMap.mp (List.mem_of_find?_eq_some found)
  have same : j.id = i.id := by simpa using List.find?_some found
  obtain rfl := block_unique numbered member within (Block.inst_id_mem_ids inside) (same ▸ Block.inst_id_mem_ids also)
  rw [List.inj_on_of_nodup_map (Block.inst_ids_nodup (block_ids_nodup numbered member)) also inside same]

theorem castSource?_of_mem (numbered : f.localIds.Nodup) {i : Instruction} (carried : i ∈ f.instructions) {target : Ty}
    (op : i.op = .cast .bitcast x target) (type : Ty) : f.castSource? (.local i.id type) = some x := by
  rw [castSource?, instruction?_of_mem numbered carried, Option.bind_some, op]

/-- A chain of bitcasts to the value behind it, by the numbers of the instructions on the way. -/
inductive Chain (f : Function) : Value → List LocalId → Value → Prop
  | done {v : Value} (last : f.castSource? v = none) : f.Chain v [] v
  | cast {id : LocalId} {type : Ty} {v w : Value} {ids : List LocalId} (step : f.castSource? (.local id type) = some v)
      (rest : f.Chain v ids w) : f.Chain (.local id type) (id :: ids) w

namespace Chain

theorem unique {other : List LocalId} {y : Value} (chain : f.Chain v ids x) (also : f.Chain v other y) :
    ids = other ∧ x = y := by
  induction chain generalizing other with
  | done last =>
    cases also with
    | done => exact ⟨rfl, rfl⟩
    | cast step => exact nomatch last.symm.trans step
  | cast step _ ih =>
    cases also with
    | done last => exact nomatch last.symm.trans step
    | cast again rest =>
      obtain rfl := Option.some.inj (step.symm.trans again)
      obtain ⟨rfl, rfl⟩ := ih rest
      exact ⟨rfl, rfl⟩

theorem passes (chain : f.Chain v ids x) {id : LocalId} (passed : id ∈ ids) :
    ∃ later type, later.length < ids.length ∧ f.Chain (.local id type) (id :: later) x := by
  induction chain with
  | done => cases passed
  | @cast here type v w ids step rest ih =>
    rcases List.mem_cons.mp passed with rfl | behind
    · exact ⟨ids, type, Nat.lt_succ_self _, .cast step rest⟩
    · obtain ⟨later, type, shorter, chain⟩ := ih behind
      exact ⟨later, type, Nat.lt_succ_of_lt shorter, chain⟩

theorem nodup (chain : f.Chain v ids x) : ids.Nodup := by
  induction chain with
  | done => exact List.nodup_nil
  | @cast id type v w ids step rest ih =>
    refine List.nodup_cons.mpr ⟨fun again => ?_, ih⟩
    obtain ⟨later, other, shorter, chain⟩ := rest.passes again
    cases chain with
    | cast step' rest' =>
      -- Where a cast leads to depends on its number only, so the chain would be as long as a part of it.
      obtain rfl : v = _ := Option.some.inj (step.symm.trans step')
      rw [(rest.unique rest').1] at shorter
      exact Nat.lt_irrefl _ shorter

theorem length_le (chain : f.Chain v ids x) : ids.length ≤ f.instructions.length := by
  have listed : ids ⊆ f.instructions.map (·.id) := by
    induction chain with
    | done => exact List.nil_subset _
    | cast step _ ih =>
      obtain ⟨_, _, form, i, carried, number, _⟩ := castSource?_eq_some step
      cases form
      exact List.cons_subset.mpr ⟨List.mem_map.mpr ⟨i, carried, number⟩, ih⟩
  simpa using (chain.nodup.subperm listed).length_le

end Chain

theorem followCasts_eq_some_iff {fuel : Nat} :
    f.followCasts fuel v = some x ↔ ∃ ids, f.Chain v ids x ∧ ids.length < fuel := by
  induction fuel generalizing v with
  | zero => simp [followCasts]
  | succ fuel ih =>
    rw [followCasts]
    cases step : f.castSource? v with
    | none =>
      constructor
      · intro last
        obtain rfl := Option.some.inj last
        exact ⟨[], .done step, Nat.succ_pos _⟩
      · rintro ⟨ids, chain, _⟩
        exact congrArg some ((Chain.done step).unique chain).2
    | some w =>
      obtain ⟨id, type, rfl, _⟩ := castSource?_eq_some step
      dsimp only
      rw [ih]
      constructor
      · rintro ⟨ids, chain, short⟩
        exact ⟨id :: ids, .cast step chain, Nat.succ_lt_succ short⟩
      · rintro ⟨ids, chain, short⟩
        cases chain with
        | done last => exact nomatch last.symm.trans step
        | cast again rest =>
          obtain rfl := Option.some.inj (step.symm.trans again)
          exact ⟨_, rest, Nat.lt_of_succ_lt_succ short⟩

/-- More fuel than there are instructions makes no difference. -/
theorem followCasts_of_lt {fuel more : Nat} (enough : f.instructions.length < fuel) (also : f.instructions.length < more) :
    f.followCasts fuel v = f.followCasts more v := by
  apply Option.ext
  intro x
  rw [followCasts_eq_some_iff, followCasts_eq_some_iff]
  exact exists_congr fun ids => and_congr_right fun chain =>
    iff_of_true (Nat.lt_of_le_of_lt chain.length_le enough) (Nat.lt_of_le_of_lt chain.length_le also)

theorem followCasts_congr (insts : g.instructions = f.instructions) (fuel : Nat) (v : Value) :
    g.followCasts fuel v = f.followCasts fuel v := by
  have step : ∀ v, g.castSource? v = f.castSource? v := fun v => by
    simp only [castSource?, instruction?, insts]
  induction fuel generalizing v with
  | zero => rfl
  | succ fuel ih =>
    rw [followCasts, followCasts, step]
    cases f.castSource? v with
    | none => rfl
    | some x => exact ih x

theorem calledId?_congr (insts : g.instructions = f.instructions) (site : CallSite) :
    g.calledId? site = f.calledId? site := by
  rw [calledId?, calledId?, stripCasts?, stripCasts?, insts, followCasts_congr insts]

def Holds (f : Function) (v : Value) : Prop := ∃ o ∈ f.operands, o.value = v

theorem Holds.castSource? (found : f.castSource? v = some x) : f.Holds x := by
  obtain ⟨_, _, _, i, carried, _, _, op⟩ := castSource?_eq_some found
  obtain ⟨b, member, inside⟩ := List.mem_flatMap.mp carried
  refine ⟨.code x, List.mem_flatMap.mpr ⟨b, member, List.mem_append_left _ (List.mem_flatMap.mpr ⟨i, inside, ?_⟩)⟩, rfl⟩
  rw [op]
  exact List.mem_singleton.mpr rfl

theorem Holds.followCasts {fuel : Nat} (held : f.Holds v) (found : f.followCasts fuel v = some x) : f.Holds x := by
  obtain ⟨ids, chain, -⟩ := followCasts_eq_some_iff.mp found
  clear found
  induction chain with
  | done => exact held
  | cast step _ ih => exact ih (.castSource? step)

theorem names_of_calledId? {s : CallSite} (held : f.Holds s.call.callee) {id : SymbolId}
    (called : f.calledId? s = some id) : f.Names id := by
  obtain ⟨y, stripped, symbol⟩ := Option.bind_eq_some_iff.mp called
  obtain ⟨x, found, rfl⟩ := Option.map_eq_some_iff.mp stripped
  obtain ⟨o, present, rfl⟩ := held.followCasts found
  refine .inl ⟨o, present, ?_⟩
  cases form : o.value with
  | const mention c =>
    rw [form] at symbol
    apply Constant.names_of_stripCasts
    dsimp only at symbol
    generalize c.stripCasts = d at symbol ⊢
    unfold Value.symbol? at symbol
    split at symbol
    · next same =>
      cases symbol
      cases same
      exact ⟨_, .whole _, beq_self_eq_true _⟩
    · cases symbol
  | _ =>
    rw [form] at symbol
    cases symbol

/-- Another function casts what the slots of this one hold in the same way, once locals are renamed. -/
structure Recasts (f : Function) (r : Value → Value) (g : Function) : Prop where
  renames : ∀ v, r v = v ∨ v.local?.isSome ∧ (r v).local?.isSome
  sources : ∀ v, f.Holds v → g.castSource? (r v) = (f.castSource? v).map r

namespace Recasts

variable {r : Value → Value}

theorem followCasts (recasts : f.Recasts r g) (held : f.Holds v) (fuel : Nat) :
    g.followCasts fuel (r v) = (f.followCasts fuel v).map r := by
  induction fuel generalizing v with
  | zero => rfl
  | succ fuel ih =>
    rw [Function.followCasts, Function.followCasts, recasts.sources v held]
    cases step : f.castSource? v with
    | none => rfl
    | some w => exact ih (.castSource? step)

theorem calledId? (recasts : f.Recasts r g) {s t : CallSite} (held : f.Holds s.call.callee)
    (callee : t.call.callee = r s.call.callee) : g.calledId? t = f.calledId? s := by
  have enough : ∀ a b : Nat, a < a + b + 2 ∧ b < a + b + 2 := fun a b => by omega
  obtain ⟨first, second⟩ := enough f.instructions.length g.instructions.length
  rw [Function.calledId?, Function.calledId?, stripCasts?, stripCasts?, callee,
    followCasts_of_lt (Nat.lt_add_of_pos_right (by decide)) second, recasts.followCasts held,
    followCasts_of_lt (f := f) (Nat.lt_add_of_pos_right (by decide)) first]
  cases f.followCasts (f.instructions.length + g.instructions.length + 2) s.call.callee with
  | none => rfl
  | some x =>
    rcases recasts.renames x with same | ⟨before, after⟩
    · rw [Option.map_some, same]
    · obtain ⟨id, type, rfl⟩ : ∃ id type, x = .local id type := by
        cases x <;> simp [Value.local?] at before ⊢
      obtain ⟨id', type', form⟩ : ∃ id' type', r (.local id type) = .local id' type' := by
        cases form : r (.local id type) <;> simp [Value.local?, form] at after ⊢
      rw [Option.map_some, form]
      rfl

end Recasts

end Function
end CallFusion.Ir
