import CallFusion.Ir.Printer
import Mathlib.Tactic.SplitIfs

/-!
Texts without quotes. Numbers are written without any, in decimal as well as by their bits.
-/
namespace CallFusion.Text

def Unquoted (s : String) : Prop := '"' ∉ s.toList

instance (s : String) : Decidable (Unquoted s) := inferInstanceAs (Decidable ('"' ∉ s.toList))

variable {s t : String}

theorem unquoted_append : Unquoted (s ++ t) ↔ Unquoted s ∧ Unquoted t := by
  rw [Unquoted, String.toList_append, List.mem_append, not_or]
  rfl

theorem unquoted_ite {p : Prop} [Decidable p] (first : Unquoted s) (second : Unquoted t) : Unquoted (if p then s else t) := by
  split
  · exact first
  · exact second

theorem Unquoted.append (first : Unquoted s) (second : Unquoted t) : Unquoted (s ++ t) := unquoted_append.mpr ⟨first, second⟩

theorem unquoted_of_chars {cs : List Char} (apart : ∀ c ∈ cs, c ≠ '"') : Unquoted (String.ofList cs) := by
  rw [Unquoted, String.toList_ofList]
  exact fun listed => apart _ listed rfl

theorem unquoted_nat (n : Nat) : Unquoted (toString n) := by
  intro listed
  have digit : '"'.isDigit = true := by
    refine Nat.isDigit_of_mem_toDigits (b := 10) (n := n) (by decide) (by decide) ?_
    simpa using listed
  exact absurd digit (by decide)

theorem unquoted_int (v : Int) : Unquoted (toString v) := by
  cases v with
  | ofNat n => exact unquoted_nat n
  | negSucc n => exact Unquoted.append (by decide) (unquoted_nat (n + 1))

theorem unquoted_uint64 (n : UInt64) : Unquoted (toString n) := unquoted_nat n.toNat

theorem digit_ne (base : Nat) (large : 1 < base) {n : Nat} {c : Char} (listed : c ∈ Nat.toDigits base n) : c ≠ '"' := by
  induction n using Nat.strongRecOn with
  | ind n ih =>
    rw [Nat.toDigits_eq_if large] at listed
    split at listed
    · exact List.mem_singleton.mp listed ▸ Nat.digitChar_ne '"' (by decide)
    · next more =>
      rcases List.mem_append.mp listed with front | last
      · exact ih (n / base) (Nat.div_lt_self (by omega) large) front
      · exact List.mem_singleton.mp last ▸ Nat.digitChar_ne '"' (by decide)

theorem toUpper_ne {c : Char} (other : c ≠ '"') : c.toUpper ≠ '"' := by
  unfold Char.toUpper
  split
  · next lower =>
    intro same
    have code : c.val = '"'.val - ('A'.val - 'a'.val) := by rw [← congrArg Char.val same, UInt32.add_sub_cancel]
    exact absurd (code ▸ lower.1) (by decide)
  · exact other

end CallFusion.Text

namespace CallFusion.Ir

open CallFusion.Text

theorem unquoted_integerText (v : Int) : Unquoted (integerText v) := by
  unfold integerText
  split
  · refine Unquoted.append (by decide) (unquoted_of_chars fun c listed => ?_)
    obtain ⟨d, digit, rfl⟩ := List.mem_map.mp listed
    exact toUpper_ne (digit_ne 16 (by decide) digit)
  · exact unquoted_int v

namespace FloatLiteral

theorem unquoted_digitsText (ds : List Nat) : Unquoted (digitsText ds) := by
  refine unquoted_of_chars fun c listed => ?_
  obtain ⟨d, _, rfl⟩ := List.mem_map.mp listed
  intro same
  by_cases valid : (48 + d).isValidChar
  · rw [Char.ofNat, dif_pos valid] at same
    have code : 48 + d = 34 := congrArg Char.toNat same
    omega
  · rw [Char.ofNat, dif_neg valid] at same
    cases same

theorem unquoted_hexUpper (width n : Nat) : Unquoted (hexUpper width n) := by
  refine unquoted_of_chars fun c listed => ?_
  rcases List.mem_append.mp listed with zero | digit
  · rw [List.eq_of_mem_replicate zero]
    decide
  · obtain ⟨d, small, rfl⟩ := List.mem_map.mp digit
    exact toUpper_ne (digit_ne 16 (by decide) small)

theorem unquoted_render (negative : Bool) (ds : List Nat) (point : Int) : Unquoted (render negative ds point) := by
  have digits := unquoted_digitsText
  have sign : Unquoted (if negative then "-" else "") := unquoted_ite (by decide) (by decide)
  have zero : Unquoted "0" := by decide
  have dot : Unquoted "." := by decide
  have mag := unquoted_nat (point - 1).natAbs
  have exponent : Unquoted (if point - 1 < 0 then "-" else "+") := unquoted_ite (by decide) (by decide)
  refine unquoted_ite (sign.append (by decide)) (unquoted_ite ?_ (unquoted_ite ?_ ?_))
  · have frac := unquoted_ite (p := ds.length > 1) (dot.append (digits (ds.drop 1))) (t := ".0") (by decide)
    exact ((((sign.append (digits _)).append frac).append (by decide)).append exponent).append
      (unquoted_ite (zero.append mag) mag)
  · exact (sign.append (by decide)).append (digits _)
  · exact ((sign.append (digits _)).append dot).append (unquoted_ite zero (digits _))

theorem unquoted_pattern (kind : FloatKind) (v : FloatLiteral) : Unquoted (v.pattern kind) := by
  have hex := unquoted_hexUpper
  unfold pattern
  cases v <;> cases kind <;> simp +decide [unquoted_append, unquoted_ite, hex]

theorem unquoted_text (kind : FloatKind) (v : FloatLiteral) : Unquoted (v.text kind) := by
  unfold text
  split
  · split
    · exact unquoted_pattern kind _
    · split
      · exact unquoted_render _ _ _
      · split
        · exact unquoted_render _ _ _
        · exact unquoted_pattern kind _
  · exact unquoted_pattern kind v

end FloatLiteral
end CallFusion.Ir
