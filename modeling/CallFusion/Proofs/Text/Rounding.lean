import CallFusion.Text.Binary
import Mathlib.Algebra.Order.Floor.Semifield
import Mathlib.Algebra.Order.Field.Power
import Mathlib.Data.Nat.Log
import Mathlib.Data.Rat.Floor
import Mathlib.Tactic.FieldSimp
import Mathlib.Tactic.Linarith
import Mathlib.Tactic.Ring

/-!
Rounding in floating point. What an operation gives is the number of 53 bits that is nearest to the exact result, and of
two that are equally near the one with an even mantissa; there is only one such number.
-/

namespace CallFusion.Text

/-- A number has been rounded: it is zero, or its leading 53 bits are those of the nearest such number. -/
def Rounds (x y : ℚ) : Prop :=
  x = 0 ∧ y = 0 ∨ ∃ (m : ℕ) (e : ℤ), (2 ^ 52 * 2 ^ e ≤ x ∧ x < 2 ^ 53 * 2 ^ e) ∧ y = m * 2 ^ e ∧
    |x - y| ≤ 2 ^ e / 2 ∧ (|x - y| = 2 ^ e / 2 → Even m)

theorem exponent_unique {x : ℚ} {e e' : ℤ} (first : 2 ^ 52 * 2 ^ e ≤ x ∧ x < 2 ^ 53 * 2 ^ e)
    (second : 2 ^ 52 * 2 ^ e' ≤ x ∧ x < 2 ^ 53 * 2 ^ e') : e = e' := by
  have apart : ∀ {a b : ℤ}, 2 ^ 52 * (2 : ℚ) ^ b ≤ x → x < 2 ^ 53 * (2 : ℚ) ^ a → ¬ a < b := by
    intro a b lower upper less
    have double : (2 : ℚ) * 2 ^ a ≤ 2 ^ b := by
      rw [← zpow_one_add₀ (by norm_num)]
      exact zpow_le_zpow_right₀ (by norm_num) (by omega)
    linarith
  exact le_antisymm (not_lt.mp (apart first.1 second.2)) (not_lt.mp (apart second.1 first.2))

theorem Rounds.unique {x y z : ℚ} (first : Rounds x y) (second : Rounds x z) : y = z := by
  have positive : ∀ e : ℤ, (0 : ℚ) < 2 ^ e := fun e => zpow_pos (by norm_num) e
  rcases first with ⟨zero, rfl⟩ | ⟨m, e, range, rfl, near, tie⟩
  · rcases second with ⟨_, rfl⟩ | ⟨_, e, range, _⟩
    · rfl
    · have := positive e
      linarith [range.1]
  · rcases second with ⟨zero, _⟩ | ⟨m', e', range', rfl, near', tie'⟩
    · have := positive e
      linarith [range.1]
    · obtain rfl := exponent_unique range range'
      have unit := positive e
      -- Two mantissas would be neighbours, with the number halfway between them, and both even.
      have apart : ∀ {k l : ℕ}, |x - k * 2 ^ e| ≤ (2 : ℚ) ^ e / 2 → |x - l * 2 ^ e| ≤ (2 : ℚ) ^ e / 2 →
          (|x - k * 2 ^ e| = (2 : ℚ) ^ e / 2 → Even k) → (|x - l * 2 ^ e| = (2 : ℚ) ^ e / 2 → Even l) → ¬ k < l := by
        intro k l near near' tie tie' less
        have below := (abs_le.mp near).2
        have above := (abs_le.mp near').1
        have step : ((k : ℚ) + 1) * 2 ^ e ≤ l * 2 ^ e :=
          mul_le_mul_of_nonneg_right (by exact_mod_cast less) unit.le
        have next : l = k + 1 := by
          by_contra other
          have two : ((k : ℚ) + 2) * 2 ^ e ≤ l * 2 ^ e :=
            mul_le_mul_of_nonneg_right (by exact_mod_cast (by omega : k + 2 ≤ l)) unit.le
          linarith
        have half : x - k * 2 ^ e = (2 : ℚ) ^ e / 2 := by linarith
        have half' : x - l * 2 ^ e = -((2 : ℚ) ^ e / 2) := by linarith
        have even := tie (by rw [half, abs_of_pos (by linarith)])
        have even' := tie' (by rw [half', abs_neg, abs_of_pos (by linarith)])
        rw [next] at even'
        exact absurd even (by simpa [Nat.even_add_one] using even')
      have same : m = m' := le_antisymm (not_lt.mp (apart near' near tie' tie)) (not_lt.mp (apart near near' tie tie'))
      rw [same]

/-! ### The nearest mantissa -/

/-- A quotient rounded to a whole number, to even from the half. -/
theorem nearest_quotient (n : ℕ) {d : ℕ} (positive : 0 < d) {m : ℕ}
    (rounded : m = if 2 * (n % d) > d || (2 * (n % d) == d && n / d % 2 == 1) then n / d + 1 else n / d) :
    |(n : ℚ) / d - m| ≤ 1 / 2 ∧ (|(n : ℚ) / d - m| = 1 / 2 → Even m) := by
  have unit : (0 : ℚ) < d := by exact_mod_cast positive
  have split : (n : ℚ) / d = (n / d : ℕ) + (n % d : ℕ) / d := by
    rw [div_eq_iff unit.ne', add_mul, div_mul_cancel₀ _ unit.ne']
    exact_mod_cast (Nat.div_add_mod' n d).symm
  have below : ((n % d : ℕ) : ℚ) / d < 1 := (div_lt_one unit).mpr (by exact_mod_cast Nat.mod_lt n positive)
  have least : (0 : ℚ) ≤ (n % d : ℕ) / d := by positivity
  have half : ((n % d : ℕ) : ℚ) / d ≤ 1 / 2 ↔ 2 * (n % d) ≤ d := by
    rw [div_le_div_iff₀ unit (by norm_num), one_mul, mul_comm]
    exact_mod_cast Iff.rfl
  have tie : ((n % d : ℕ) : ℚ) / d = 1 / 2 ↔ 2 * (n % d) = d := by
    rw [div_eq_div_iff unit.ne' (by norm_num), one_mul, mul_comm]
    exact_mod_cast Iff.rfl
  rw [split]
  generalize n / d = q at *
  generalize n % d = r at *
  by_cases up : 2 * r > d ∨ 2 * r = d ∧ q % 2 = 1
  · have next : m = q + 1 := by simpa [up] using rounded
    have far : (1 : ℚ) / 2 ≤ r / d := by
      rcases up with more | ⟨same, _⟩
      · exact (not_le.mp fun less => absurd (half.mp less) (by omega)).le
      · exact (tie.mpr same).ge
    have distance : |(q : ℚ) + r / d - m| = 1 - r / d := by
      rw [next, Nat.cast_succ, abs_of_nonpos (by linarith)]
      ring
    rw [distance]
    refine ⟨by linarith, fun same => ?_⟩
    have exactly := tie.mp (by linarith)
    rw [next, Nat.even_iff]
    omega
  · have stays : m = q := by simpa [up] using rounded
    have distance : |(q : ℚ) + r / d - m| = r / d := by
      rw [stays, add_sub_cancel_left, abs_of_nonneg least]
    rw [distance]
    refine ⟨half.mpr (by omega), fun same => ?_⟩
    have exactly := tie.mp same
    rw [stays, Nat.even_iff]
    omega

theorem shifted_bounds (p : ℕ) {n d : ℕ} (some : 0 < n) (positive : 0 < d) :
    let shift : ℤ := p + d.log2 - n.log2
    2 ^ p * (d * 2 ^ (-shift).toNat) < 2 * (n * 2 ^ shift.toNat) ∧
      n * 2 ^ shift.toNat < 2 * (2 ^ p * (d * 2 ^ (-shift).toNat)) := by
  intro shift
  have lengths : n.log2 + shift.toNat = p + d.log2 + (-shift).toNat := by omega
  have below : 2 ^ n.log2 ≤ n := Nat.log2_self_le some.ne'
  have above : n < 2 ^ (n.log2 + 1) := Nat.lt_log2_self
  have below' : 2 ^ d.log2 ≤ d := Nat.log2_self_le positive.ne'
  have above' : d < 2 ^ (d.log2 + 1) := Nat.lt_log2_self
  constructor
  · calc 2 ^ p * (d * 2 ^ (-shift).toNat) < 2 ^ p * (2 ^ (d.log2 + 1) * 2 ^ (-shift).toNat) := by gcongr
      _ = 2 * 2 ^ (p + d.log2 + (-shift).toNat) := by ring
      _ = 2 * (2 ^ n.log2 * 2 ^ shift.toNat) := by rw [← lengths, pow_add]
      _ ≤ 2 * (n * 2 ^ shift.toNat) := by gcongr
  · calc n * 2 ^ shift.toNat < 2 ^ (n.log2 + 1) * 2 ^ shift.toNat := by gcongr
      _ = 2 * 2 ^ (n.log2 + shift.toNat) := by ring
      _ = 2 * (2 ^ p * (2 ^ d.log2 * 2 ^ (-shift).toNat)) := by rw [lengths]; ring
      _ ≤ 2 * (2 ^ p * (d * 2 ^ (-shift).toNat)) := by gcongr

theorem two_zpow (e : ℤ) : (2 : ℚ) ^ e = (2 ^ e.toNat : ℕ) / (2 ^ (-e).toNat : ℕ) := by
  rw [Nat.cast_pow, Nat.cast_pow, Nat.cast_ofNat, ← zpow_natCast, ← zpow_natCast, ← zpow_sub₀ (by norm_num)]
  congr 1
  omega

/-- What is rounded is the ratio, shifted until its whole part has as many bits as are kept. -/
theorem roundRatio_shifted (p : ℕ) {n d : ℕ} (some : 0 < n) (positive : 0 < d) : ∃ n' d' : ℕ, 0 < d' ∧
    (n : ℚ) / d = n' / d' * 2 ^ (roundRatio p n d).2 ∧ 2 ^ p * d' ≤ 2 * n' ∧ n' < 2 ^ p * d' ∧ (roundRatio p n d).1 =
      if 2 * (n' % d') > d' || (2 * (n' % d') == d' && n' / d' % 2 == 1) then n' / d' + 1 else n' / d' := by
  obtain ⟨below, above⟩ := shifted_bounds p some positive
  rw [roundRatio, if_neg some.ne']
  dsimp only [Nat.pow_eq]
  generalize (p : ℤ) + d.log2 - n.log2 = shift at below above ⊢
  have shifted : (n : ℚ) / d = (n * 2 ^ shift.toNat : ℕ) / (d * 2 ^ (-shift).toNat : ℕ) * 2 ^ (-shift) := by
    have up := two_zpow (-shift)
    rw [neg_neg] at up
    rw [up]
    push_cast
    field_simp
  have filled : 0 < d * 2 ^ (-shift).toNat := by positivity
  generalize n * 2 ^ shift.toNat = n' at *
  generalize d * 2 ^ (-shift).toNat = d' at *
  by_cases longer : n' / d' ≥ 2 ^ p
  · have reached : 2 ^ p * d' ≤ n' := (Nat.le_div_iff_mul_le filled).mp longer
    refine ⟨n', d' * 2, by omega, ?_, by linarith, by linarith, by simp only [longer, if_true, pow_one]⟩
    rw [if_pos longer, shifted, Nat.cast_one, sub_eq_add_neg, zpow_one_add₀ (by norm_num)]
    push_cast
    field_simp
  · have fits : n' < 2 ^ p * d' := (Nat.div_lt_iff_lt_mul filled).mp (not_le.mp longer)
    refine ⟨n', d', filled, ?_, below.le, fits, by simp only [longer, if_false, pow_zero, mul_one]⟩
    rw [if_neg longer, shifted, Nat.cast_zero, zero_sub]

namespace Binary

def value (b : Binary) : ℚ := b.mantissa * 2 ^ b.exponent

theorem num_div_den (b : Binary) : (b.num : ℚ) / b.den = b.value := by
  rw [value, two_zpow, num, den, Nat.cast_mul, mul_div_assoc]
  rfl

theorem den_pos (b : Binary) : 0 < b.den := Nat.two_pow_pos _

theorem ofRatio_rounds (n : ℕ) {d : ℕ} (positive : 0 < d) : Rounds ((n : ℚ) / d) (ofRatio n d).value := by
  rcases Nat.eq_zero_or_pos n with rfl | some
  · exact .inl ⟨by simp, by simp [ofRatio, roundRatio, value]⟩
  · obtain ⟨n', d', filled, shifted, least, most, rounded⟩ := roundRatio_shifted precision some positive
    obtain ⟨near, tie⟩ := nearest_quotient n' filled rounded
    have unit : (0 : ℚ) < 2 ^ (roundRatio precision n d).2 := zpow_pos (by norm_num) _
    have whole : (0 : ℚ) < d' := by exact_mod_cast filled
    have error : |(n : ℚ) / d - (ofRatio n d).value| =
        |(n' : ℚ) / d' - (roundRatio precision n d).1| * 2 ^ (roundRatio precision n d).2 := by
      rw [shifted, value, ofRatio, ← sub_mul, abs_mul, abs_of_pos unit]
    refine .inr ⟨_, (roundRatio precision n d).2, ⟨?_, ?_⟩, rfl, ?_, fun same => tie ?_⟩
    · rw [shifted]
      refine mul_le_mul_of_nonneg_right ?_ unit.le
      rw [le_div_iff₀ whole]
      have bound : (2 : ℚ) ^ 53 * d' ≤ 2 * n' := by exact_mod_cast least
      linarith
    · rw [shifted]
      refine mul_lt_mul_of_pos_right ?_ unit
      rw [div_lt_iff₀ whole]
      exact_mod_cast most
    · rw [error]
      linarith [mul_le_mul_of_nonneg_right near unit.le]
    · rw [error] at same
      exact mul_right_cancel₀ unit.ne' (by linarith)

theorem ofNat_rounds (n : ℕ) : Rounds n (ofNat n).value := by
  simpa [ofNat] using ofRatio_rounds n Nat.one_pos

theorem times_rounds (a b : Binary) : Rounds (a.value * b.value) (a.times b).value := by
  have rounded := ofRatio_rounds (a.num * b.num) (Nat.mul_pos a.den_pos b.den_pos)
  rwa [Nat.cast_mul, Nat.cast_mul, mul_div_mul_comm, num_div_den, num_div_den] at rounded

theorem dividedBy_rounds (a : Binary) {b : Binary} (nonzero : b.value ≠ 0) :
    Rounds (a.value / b.value) (a.dividedBy b).value := by
  have positive : 0 < b.num := by
    refine Nat.pos_of_ne_zero fun none => nonzero ?_
    rw [← num_div_den, none, Nat.cast_zero, zero_div]
  have rounded := ofRatio_rounds (a.num * b.den) (Nat.mul_pos a.den_pos positive)
  rw [← num_div_den, ← num_div_den, div_div_div_eq]
  rwa [Nat.cast_mul, Nat.cast_mul] at rounded

theorem floor_eq (b : Binary) : b.floor = ⌊b.value⌋₊ := by
  rw [← num_div_den, Nat.floor_div_eq_div]
  rfl

end Binary

theorem Rounds.pos {x y : ℚ} (rounds : Rounds x y) (positive : 0 < x) : 0 < y := by
  rcases rounds with ⟨zero, _⟩ | ⟨m, e, ⟨least, _⟩, rfl, near, _⟩
  · exact absurd zero positive.ne'
  · have unit : (0 : ℚ) < 2 ^ e := zpow_pos (by norm_num) e
    linarith [(abs_le.mp near).2]

end CallFusion.Text
