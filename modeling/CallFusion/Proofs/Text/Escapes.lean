import CallFusion.Proofs.Text.Utf8
import CallFusion.Text.Escape
import Mathlib.Data.List.Basic

/-!
Escaped bytes. They are read back as what they were, and they hold no quote. The digits of an escape are upper-case, so
escaped bytes end in a lower-case letter only where the bytes themselves do.
-/
namespace CallFusion.Text

variable {b n : UInt8} {bs : List UInt8}

theorem exists_digit (small : n < 16) : ∃ k : Fin 16, n = UInt8.ofNat k :=
  ⟨⟨n.toNat, small⟩, UInt8.ofNat_toNat.symm⟩

theorem hexValue?_hexDigit (small : n < 16) : hexValue? (hexDigit n) = some n := by
  obtain ⟨k, rfl⟩ := exists_digit small
  revert k
  decide

theorem hexDigit_ne (small : n < 16) : hexDigit n ≠ 34 ∧ hexDigit n ≠ 92 ∧ hexDigit n ≠ 99 := by
  obtain ⟨k, rfl⟩ := exists_digit small
  revert k
  decide

theorem high_lt (b : UInt8) : b / 16 < 16 := by
  rw [UInt8.lt_iff_toNat_lt, UInt8.toNat_div]
  have := b.toNat_lt
  change b.toNat / 16 < 16
  omega

theorem low_lt (b : UInt8) : b % 16 < 16 := by
  rw [UInt8.lt_iff_toNat_lt, UInt8.toNat_mod]
  exact Nat.mod_lt _ (by decide)

theorem nibbles (b : UInt8) : b / 16 * 16 + b % 16 = b := by
  rw [← UInt8.toNat_inj, UInt8.toNat_add, UInt8.toNat_mul, UInt8.toNat_div, UInt8.toNat_mod]
  have := b.toNat_lt
  change (b.toNat / 16 * 16 % 256 + b.toNat % 16) % 256 = b.toNat
  omega

def written (b : UInt8) : List UInt8 := if isPlain b then [b] else [92, hexDigit (b / 16), hexDigit (b % 16)]

theorem escape_cons (b : UInt8) (bs : List UInt8) : escape (b :: bs) = written b ++ escape bs := rfl

theorem written_notMem (b : UInt8) : 34 ∉ written b := by
  unfold written
  split
  · next plain =>
    rintro (_ | ⟨_, never⟩)
    · exact absurd plain (by decide)
    · cases never
  · simp only [List.mem_cons, List.not_mem_nil, or_false, not_or]
    exact ⟨by decide, (hexDigit_ne (high_lt b)).1.symm, (hexDigit_ne (low_lt b)).1.symm⟩

theorem escape_notMem (bs : List UInt8) : 34 ∉ escape bs := by
  induction bs with
  | nil => exact List.not_mem_nil
  | cons b bs ih =>
    rw [escape_cons, List.mem_append, not_or]
    exact ⟨written_notMem b, ih⟩

theorem escape_getLast? (ends : (escape bs).getLast? = some 99) : bs.getLast? = some 99 := by
  rcases List.eq_nil_or_concat' bs with rfl | ⟨front, b, rfl⟩
  · cases ends
  have last : escape (front ++ [b]) = escape front ++ written b := by
    simp [escape, escapeWith, written]
  rw [last, written] at ends
  split at ends
  · rw [List.getLast?_concat] at ends ⊢
    exact ends
  · exact absurd (Option.some.inj (by simpa using ends)) (hexDigit_ne (low_lt b)).2.2

theorem unescapeHex_cons (other : b ≠ 92) (rest : List UInt8) : unescapeHex (b :: rest) = b :: unescapeHex rest := by
  conv => lhs; unfold unescapeHex
  split <;> simp_all

theorem unescapeHex_escaped {h l x y : UInt8} (high : hexValue? h = some x) (low : hexValue? l = some y)
    (rest : List UInt8) : unescapeHex (92 :: h :: l :: rest) = (x * 16 + y) :: unescapeHex rest := by
  rw [unescapeHex]
  simp [high, low]

/-- A byte that is written is read back, whatever follows it. -/
theorem unescapeHex_written (b : UInt8) (rest : List UInt8) : unescapeHex (written b ++ rest) = b :: unescapeHex rest := by
  unfold written
  split
  · next plain =>
    have other : b ≠ 92 := by
      rintro rfl
      exact absurd plain (by decide)
    rw [List.singleton_append, unescapeHex_cons other]
  · rw [List.cons_append, List.cons_append, List.singleton_append,
      unescapeHex_escaped (hexValue?_hexDigit (high_lt b)) (hexValue?_hexDigit (low_lt b)), nibbles]

/-- What is escaped is read back ahead of whatever follows it. -/
theorem unescapeHex_append (bs rest : List UInt8) : unescapeHex (escape bs ++ rest) = bs ++ unescapeHex rest := by
  induction bs with
  | nil => rfl
  | cons b bs ih => rw [escape_cons, List.append_assoc, unescapeHex_written, ih, List.cons_append]

theorem unescapeHex_escape (bs : List UInt8) : unescapeHex (escape bs) = bs := by
  have alone := unescapeHex_append bs []
  rwa [List.append_nil, unescapeHex, List.append_nil] at alone

theorem bytes_append (s t : String) : bytes (s ++ t) = bytes s ++ bytes t := by
  rw [bytes, String.toList_append, List.flatMap_append]
  rfl

theorem bytes_quoteBytes (bs : List UInt8) : bytes (quoteBytes bs) = 34 :: (escape bs ++ [34]) := by
  rw [quoteBytes, bytes_append, bytes_append, bytes_ofBytes]
  rfl

theorem quote_of_mem_bytes {s : String} (listed : 34 ∈ bytes s) : '"' ∈ s.toList := by
  obtain ⟨c, present, byte⟩ := List.mem_flatMap.mp listed
  exact eq_of_mem_charBytes (d := '"') (by decide) byte ▸ present

end CallFusion.Text
