import CallFusion.Ir.Layout
import Mathlib.Data.Nat.Prime.Basic

/-!
Sizes are whole numbers of alignments, also where the words wrap, as every alignment divides 16. So an array takes
its length times the size of an element.
-/

namespace CallFusion.Ir

/-- An alignment that divides 16, and a size that is a multiple of it. -/
def Extent.Whole : Extent → Prop
  | .sized size align => align.toNat ∣ 16 ∧ align.toNat ∣ size.toNat
  | _ => True

section

variable {n a : UInt64}

theorem word_dvd (whole : a.toNat ∣ 16) : a.toNat ∣ 2 ^ 64 := whole.trans (by decide)

theorem align_pos (whole : a.toNat ∣ 16) : 0 < a.toNat := Nat.pos_of_dvd_of_pos whole (by decide)

theorem dvd_alignTo (n : UInt64) (whole : a.toNat ∣ 16) : a.toNat ∣ (alignTo n a).toNat := by
  unfold alignTo
  split
  · next small =>
    have one : a.toNat = 1 := by
      have := align_pos whole
      have := UInt64.le_iff_toNat_le.mp small
      simp at this
      omega
    rw [one]
    exact Nat.one_dvd _
  · rw [UInt64.toNat_mul, UInt64.toNat_div]
    exact (Nat.dvd_mod_iff (word_dvd whole)).mpr (Nat.dvd_mul_left _ _)

theorem alignTo_of_dvd (whole : a.toNat ∣ 16) (multiple : a.toNat ∣ n.toNat) : alignTo n a = n := by
  unfold alignTo
  split
  · rfl
  · have positive := align_pos whole
    have below : n.toNat + a.toNat ≤ 2 ^ 64 := by
      have apart := (Nat.dvd_sub (word_dvd whole) multiple)
      have room := Nat.le_of_dvd (Nat.sub_pos_of_lt n.toNat_lt) apart
      have := n.toNat_lt
      omega
    have last : (n + a - 1).toNat = n.toNat + (a.toNat - 1) := by
      have one : (1 : UInt64).toNat = 1 := rfl
      rw [UInt64.toNat_sub, UInt64.toNat_add, one]
      omega
    obtain ⟨q, form⟩ := multiple
    have quotient : (n + a - 1).toNat / a.toNat = q := by
      rw [last, form, Nat.mul_add_div positive, Nat.div_eq_of_lt (by omega), Nat.add_zero]
    apply UInt64.toNat_inj.mp
    rw [UInt64.toNat_mul, UInt64.toNat_div, quotient, Nat.mul_comm, ← form, Nat.mod_eq_of_lt n.toNat_lt]

theorem powerAbove?_toNat {p : UInt64} (found : powerAbove? n = some p) : ∃ k, p.toNat = 2 ^ k := by
  obtain ⟨k, listed, tried⟩ := List.exists_of_findSome?_eq_some found
  have small := List.mem_range.mp listed
  refine ⟨k, ?_⟩
  dsimp only at tried
  split at tried
  · cases tried
  · have shift : k.toUInt64.toNat = k := Nat.mod_eq_of_lt (by omega)
    have one : (1 : UInt64).toNat = 1 := rfl
    rw [← Option.some.inj tried, UInt64.toNat_shiftLeft, shift, Nat.mod_eq_of_lt small, one, Nat.one_shiftLeft,
      Nat.mod_eq_of_lt (Nat.pow_lt_pow_right (by decide) small)]

theorem min_dvd {x y : UInt64} {j k : Nat} (first : x.toNat = 2 ^ j) (second : y.toNat = 2 ^ k) :
    (min x y).toNat ∣ x.toNat ∧ (min x y).toNat ∣ y.toNat := by
  have smaller : min x y = if x ≤ y then x else y := rfl
  rw [smaller, first, second]
  split
  · next below =>
    have order : 2 ^ j ≤ 2 ^ k := first ▸ second ▸ UInt64.le_iff_toNat_le.mp below
    exact ⟨dvd_of_eq first, first ▸ Nat.pow_dvd_pow 2 ((Nat.pow_le_pow_iff_right (by decide)).mp order)⟩
  · next above =>
    have order : 2 ^ k ≤ 2 ^ j := by
      have := mt UInt64.le_iff_toNat_le.mpr above
      omega
    exact ⟨second ▸ Nat.pow_dvd_pow 2 ((Nat.pow_le_pow_iff_right (by decide)).mp order), dvd_of_eq second⟩

theorem powerExtent_whole (n : UInt64) {limit : UInt64} (whole : limit.toNat ∣ 16) : (powerExtent n limit).Whole := by
  unfold powerExtent
  split
  · next p found =>
    obtain ⟨k, form⟩ := powerAbove?_toNat found
    obtain ⟨j, _, form'⟩ := (Nat.dvd_prime_pow Nat.prime_two (i := limit.toNat) (m := 4)).mp whole
    exact ⟨(min_dvd form form').2.trans whole, (min_dvd form form').1⟩
  · trivial

theorem dvd_max {b : UInt64} (whole : a.toNat ∣ 16) (whole' : b.toNat ∣ 16) : (max a b).toNat ∣ 16 := by
  have larger : max a b = if a ≤ b then b else a := rfl
  rw [larger]
  split
  · exact whole'
  · exact whole

end

mutual

theorem extent_whole (table : TypeTable) (t : Ty) : (extent table t).Whole := by
  rw [extent.eq_def]
  split
  case h_1 => exact powerExtent_whole _ (by decide)
  case h_2 kind => cases kind <;> exact ⟨by decide, by decide⟩
  case h_3 => exact ⟨by decide, by decide⟩
  case h_4 length elem =>
    have inner := extent_whole table elem
    split
    · next size align sized =>
      rw [sized] at inner
      refine ⟨inner.1, ?_⟩
      rw [UInt64.toNat_mul]
      exact (Nat.dvd_mod_iff (word_dvd inner.1)).mpr ((dvd_alignTo size inner.1).mul_right _)
    · exact inner
  case h_5 length elem =>
    have inner := extent_whole table elem
    split
    · exact powerExtent_whole _ (by decide)
    · exact inner
  case h_6 packed fields => exact fieldsExtent_whole table packed fields 0 (by decide)
  case h_7 body => exact extent_whole table body
  case h_8 name =>
    split
    · next body found => exact extent_whole (table.without name) body
    · trivial
    · trivial
  all_goals trivial
termination_by (table.length, sizeOf t)
decreasing_by
  all_goals first
    | exact Prod.Lex.left _ _ (TypeTable.length_without ‹_›)
    | (apply Prod.Lex.right; subst_vars; simp +arith)

theorem fieldsExtent_whole (table : TypeTable) (packed : Bool) (fields : List Ty) (offset : UInt64) {align : UInt64}
    (whole : align.toNat ∣ 16) : (fieldsExtent table packed fields offset align).Whole := by
  rw [fieldsExtent.eq_def]
  split
  case h_1 => exact ⟨whole, dvd_alignTo offset whole⟩
  case h_2 f fs =>
    have inner := extent_whole table f
    split
    · next size own sized =>
      rw [sized] at inner
      refine fieldsExtent_whole table packed fs _ (dvd_max whole ?_)
      split
      · decide
      · exact inner.1
    · exact inner
termination_by (table.length, sizeOf fields)
decreasing_by
  all_goals first
    | exact Prod.Lex.left _ _ (TypeTable.length_without ‹_›)
    | (apply Prod.Lex.right; subst_vars; simp +arith)

end

theorem extent_array {table : TypeTable} {elem : Ty} {size align : UInt64} (sized : extent table elem = .sized size align)
    (length : UInt64) : extent table (.array length elem) = .sized (size * length) align := by
  have whole := extent_whole table elem
  rw [sized] at whole
  rw [extent, sized]
  dsimp only
  rw [alignTo_of_dvd whole.1 whole.2]

end CallFusion.Ir
