import Mathlib.Data.Nat.Digits.Defs
import CallFusion.Text.Duration
import CallFusion.Text.Number
import CallFusion.Timestamp

/-!
Numbers in decimal digits. A number that was padded with zeros is read back as the number it was, and a fraction without
its closing zeros as the fraction with them. Of a text that is to be a word, nothing but digits for a number below the
limit of a word is read, as the number that they stand for.
-/
namespace CallFusion

theorem padded_toList (width n : Nat) :
    (padded width n).toList = List.replicate (width - (Nat.toDigits 10 n).length) '0' ++ Nat.toDigits 10 n := by
  simp [padded]

theorem padded_length {width n : Nat} (positive : 0 < width) (small : n < 10 ^ width) :
    (padded width n).toList.length = width := by
  have fits : (Nat.toDigits 10 n).length ≤ width := (Nat.length_toDigits_le_iff (by decide) positive).mpr small
  rw [padded_toList]
  simp only [List.length_append, List.length_replicate]
  omega

theorem padded_isDigit {width n : Nat} {c : Char} (member : c ∈ (padded width n).toList) : c.isDigit = true := by
  rw [padded_toList, List.mem_append] at member
  rcases member with zero | digit
  · rw [List.eq_of_mem_replicate zero]
    decide
  · exact Nat.isDigit_of_mem_toDigits (by decide) (by decide) digit

namespace Timestamp

theorem digitsValue_eq (cs : List Char) (k : Nat) :
    cs.foldl (fun k c => k * 10 + (c.toNat - 48)) k = Nat.ofDigitChars 10 cs k := by
  simp only [Nat.ofDigitChars_eq_foldl, Nat.mul_comm 10]
  rfl

theorem padded_value (width n : Nat) :
    (padded width n).toList.foldl (fun k c => k * 10 + (c.toNat - 48)) 0 = n := by
  rw [digitsValue_eq, padded_toList, Nat.ofDigitChars_append, Nat.ofDigitChars_replicate_zero, Nat.mul_zero]
  exact Nat.ofDigitChars_ten_toDigits

theorem digits?_padded {width n : Nat} (positive : 0 < width) (small : n < 10 ^ width) (rest : List Char) :
    digits? width ((padded width n).toList ++ rest) = some (n, rest) := by
  have length := padded_length positive small
  have digits : (padded width n).toList.all Char.isDigit = true := by
    rw [List.all_eq_true]
    exact fun c member => padded_isDigit member
  have front : ((padded width n).toList ++ rest).take width = (padded width n).toList := List.take_left' length
  have back : ((padded width n).toList ++ rest).drop width = rest := List.drop_left' length
  simp only [digits?, front, back, length, digits, beq_self_eq_true, Bool.and_self, if_true, padded_value]

end Timestamp
end CallFusion

namespace CallFusion.Text

/-- The number that decimal digits stand for. -/
def number (digits : List Char) : Nat := Nat.ofDigitChars 10 digits 0

/-- A text of decimal digits for a number that fits a word. -/
structure Numeral (value : String) (n : UInt64) : Prop where
  filled : value.toList ≠ []
  decimal : ∀ c ∈ value.toList, c.isDigit = true
  counts : number value.toList = n.toNat

def digitsFrom (n : Nat) (cs : List Char) : Nat := cs.foldl (fun n c => n * 10 + (c.toNat - 48)) n

theorem number_eq (digits : List Char) : number digits = digitsFrom 0 digits := (Timestamp.digitsValue_eq digits 0).symm

theorem le_digitsFrom (n : Nat) (cs : List Char) : n ≤ digitsFrom n cs := by
  induction cs generalizing n with
  | nil => exact Nat.le_refl n
  | cons c cs ih =>
    calc n ≤ n * 10 + (c.toNat - 48) := by omega
      _ ≤ digitsFrom (n * 10 + (c.toNat - 48)) cs := ih _

theorem wordFrom_eq_ok_iff {n : Nat} {cs : List Char} {m : UInt64} (small : n < wordLimit) :
    wordFrom n cs = .ok m ↔ (∀ c ∈ cs, c.isDigit = true) ∧ digitsFrom n cs = m.toNat := by
  induction cs generalizing n with
  | nil =>
    have word : n.toUInt64.toNat = n := Nat.mod_eq_of_lt small
    constructor
    · intro read
      cases read
      exact ⟨List.forall_mem_nil _, word.symm⟩
    · rintro ⟨_, same⟩
      exact congrArg Except.ok (UInt64.toNat_inj.mp (word.trans same))
  | cons c cs ih =>
    rw [wordFrom, List.forall_mem_cons]
    cases digit : c.isDigit with
    | false => simp
    | true =>
      rw [if_neg (by simp)]
      dsimp only
      split
      · next large =>
        -- The number only grows from here, and no word is as large as it is now.
        have grown := le_digitsFrom (n * 10 + (c.toNat - 48)) cs
        have word := m.toNat_lt
        simp only [reduceCtorEq, false_iff]
        rintro ⟨_, same⟩
        rw [show digitsFrom n (c :: cs) = digitsFrom (n * 10 + (c.toNat - 48)) cs from rfl] at same
        simp only [wordLimit] at large
        omega
      · next fits =>
        rw [ih (Nat.lt_of_not_le fits)]
        simp [digitsFrom]

theorem word?_eq_ok_iff {value : String} {n : UInt64} : word? value = .ok n ↔ Numeral value n := by
  unfold word?
  split
  · next none =>
    simp only [reduceCtorEq, false_iff]
    exact fun numeral => numeral.filled none
  · next some =>
    rw [wordFrom_eq_ok_iff (by decide), ← number_eq]
    exact ⟨fun read => ⟨some, read.1, read.2⟩, fun numeral => ⟨numeral.decimal, numeral.counts⟩⟩

end CallFusion.Text
