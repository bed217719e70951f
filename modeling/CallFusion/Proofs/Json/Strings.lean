import Mathlib.Tactic.IntervalCases
import Mathlib.Tactic.SplitIfs
import CallFusion.Json.Parser
import CallFusion.Proofs.Text.Utf8

/-!
Strings of JSON. Whatever was escaped on the way out is read back as the character it stood for.
-/
namespace CallFusion.Json

/-- Characters as they are stored, with those escaped that could be taken for markup. -/
def marked (cs : List Char) : List Char := cs.flatMap fun c => if isMarkup c then (hexEscape c).toList else [c]

theorem stored_toList (j : Json) : j.stored.toList = marked j.compact.toList := by
  simp [stored, marked]

@[simp] theorem marked_append (cs ds : List Char) : marked (cs ++ ds) = marked cs ++ marked ds := List.flatMap_append

theorem marked_cons (c : Char) (cs : List Char) : marked (c :: cs) = marked [c] ++ marked cs := marked_append [c] cs

theorem marked_eq {cs : List Char} (plain : ∀ c ∈ cs, isMarkup c = false) : marked cs = cs := by
  induction cs with
  | nil => rfl
  | cons c cs ih =>
    have head : marked [c] = [c] := by simp [marked, plain c List.mem_cons_self]
    rw [marked_cons, head, ih fun d member => plain d (List.mem_cons_of_mem _ member)]
    rfl

/-! ### Escapes -/

theorem hexDigit?_digitChar {d : Nat} (small : d < 16) : hexDigit? d.digitChar = some d := by
  interval_cases d <;> decide

theorem hexDigits_eq {n : Nat} (small : n < 0x10000) :
    List.replicate (4 - (Nat.toDigits 16 n).length) '0' ++ Nat.toDigits 16 n =
      [(n / 4096).digitChar, (n / 256 % 16).digitChar, (n / 16 % 16).digitChar, (n % 16).digitChar] := by
  have zero : Nat.digitChar 0 = '0' := rfl
  have split : ∀ m, Nat.toDigits 16 m = if m < 16 then [m.digitChar] else Nat.toDigits 16 (m / 16) ++ [(m % 16).digitChar] :=
    fun m => Nat.toDigits_eq_if (by decide)
  have second : n / 16 / 16 = n / 256 := Nat.div_div_eq_div_mul n 16 16
  have third : n / 256 / 16 = n / 4096 := Nat.div_div_eq_div_mul n 256 16
  rw [split n, split (n / 16), second, split (n / 256), third, split (n / 4096)]
  have top : n / 4096 < 16 := by omega
  by_cases one : n < 16
  · simp [one, Nat.mod_eq_of_lt one, zero, (by omega : n / 16 = 0), (by omega : n / 256 = 0), (by omega : n / 4096 = 0)]
  by_cases two : n / 16 < 16
  · simp [one, two, Nat.mod_eq_of_lt two, zero, (by omega : n / 256 = 0), (by omega : n / 4096 = 0)]
  by_cases three : n / 256 < 16
  · simp [one, two, three, Nat.mod_eq_of_lt three, zero, (by omega : n / 4096 = 0)]
  · simp [one, two, three, top]

theorem hexEscape_toList {c : Char} (small : c.toNat < 0x10000) :
    (hexEscape c).toList = ['\\', 'u', (c.toNat / 4096).digitChar, (c.toNat / 256 % 16).digitChar,
      (c.toNat / 16 % 16).digitChar, (c.toNat % 16).digitChar] := by
  have prefixed : "\\u".toList = ['\\', 'u'] := rfl
  rw [hexEscape, String.toList_append, prefixed, hexDigits_eq small, String.toList_ofList]
  rfl

theorem unicode?_hex {c : Char} (small : c.toNat < 0x10000) (rest : List Char) :
    unicode? ((c.toNat / 4096).digitChar :: (c.toNat / 256 % 16).digitChar :: (c.toNat / 16 % 16).digitChar ::
      (c.toNat % 16).digitChar :: rest) = some (c, rest) := by
  have value : ((c.toNat / 4096 * 16 + c.toNat / 256 % 16) * 16 + c.toNat / 16 % 16) * 16 + c.toNat % 16 = c.toNat := by
    omega
  have valid : c.toNat < 0xD800 ∨ 0xDFFF < c.toNat ∧ c.toNat < 0x110000 := c.valid
  have whole : ¬ (0xD800 ≤ c.toNat ∧ c.toNat < 0xDC00) ∧ ¬ (0xDC00 ≤ c.toNat ∧ c.toNat < 0xE000) := by omega
  simp [unicode?, hex4?, hexDigit?_digitChar (by omega : c.toNat / 4096 < 16),
    hexDigit?_digitChar (by omega : c.toNat / 256 % 16 < 16), hexDigit?_digitChar (by omega : c.toNat / 16 % 16 < 16),
    hexDigit?_digitChar (by omega : c.toNat % 16 < 16), value, whole]

/-! ### Pieces of a string -/

/-- A piece of a string is read as other characters, in no more steps than it has characters. -/
def Reads (piece out : List Char) : Prop :=
  ∀ fuel acc rest, piece.length ≤ fuel →
    ∃ left, fuel ≤ left + piece.length ∧ stringTail fuel acc (piece ++ rest) = stringTail left (out.reverse ++ acc) rest

theorem exists_step {c : Char} {cs : List Char} {fuel : Nat} (enough : (c :: cs).length ≤ fuel) :
    ∃ left, fuel = left + 1 ∧ cs.length ≤ left := by
  rw [List.length_cons] at enough
  exact ⟨fuel - 1, by omega, by omega⟩

theorem reads_nil : Reads [] [] := fun fuel _ _ _ => ⟨fuel, Nat.le_refl _, rfl⟩

theorem Reads.append {p q out more : List Char} (first : Reads p out) (second : Reads q more) :
    Reads (p ++ q) (out ++ more) := by
  intro fuel acc rest enough
  rw [List.length_append] at enough
  obtain ⟨left, bound, head⟩ := first fuel acc (q ++ rest) (by omega)
  obtain ⟨last, bound', tail⟩ := second left (out.reverse ++ acc) rest (by omega)
  refine ⟨last, ?_, ?_⟩
  · rw [List.length_append]
    omega
  · rw [List.append_assoc, head, tail, List.reverse_append, List.append_assoc]

theorem reads_plain {c : Char} (visible : 0x20 ≤ c.toNat) (quote : c ≠ '"') (backslash : c ≠ '\\') : Reads [c] [c] := by
  intro fuel acc rest enough
  obtain ⟨left, rfl, -⟩ := exists_step enough
  refine ⟨left, by simp, ?_⟩
  have control : ¬ c.toNat < 0x20 := by omega
  simp [stringTail, backslash, control]

theorem reads_all {cs : List Char} (plain : ∀ c ∈ cs, Reads [c] [c]) : Reads cs cs := by
  induction cs with
  | nil => exact reads_nil
  | cons c cs ih =>
    exact (plain c List.mem_cons_self).append (ih fun d member => plain d (List.mem_cons_of_mem _ member))

theorem reads_simple {e c : Char} (escape : simpleEscape? e = some c) : Reads ['\\', e] [c] := by
  intro fuel acc rest enough
  obtain ⟨left, rfl, -⟩ := exists_step enough
  refine ⟨left, by simp, ?_⟩
  have other : e ≠ 'u' := by
    rintro rfl
    contradiction
  simp [stringTail, escape]

theorem reads_hexEscape {c : Char} (small : c.toNat < 0x10000) : Reads (hexEscape c).toList (Text.carried c) := by
  intro fuel acc rest enough
  rw [hexEscape_toList small] at enough ⊢
  obtain ⟨left, rfl, -⟩ := exists_step enough
  refine ⟨left, by simp, ?_⟩
  simp [stringTail, unicode?_hex small]

theorem isMarkup_eq_false {c : Char} (high : 0x3F ≤ c.toNat) : isMarkup c = false := by
  have differs : ∀ d : Char, d.toNat < 0x3F → (c == d) = false := by
    intro d low
    simp only [beq_eq_false_iff_ne]
    rintro rfl
    omega
  simp [isMarkup, differs]

theorem isMarkup_digitChar {d : Nat} (small : d < 16) : isMarkup d.digitChar = false := by
  interval_cases d <;> decide

theorem marked_hexEscape {c : Char} (small : c.toNat < 0x10000) : marked (hexEscape c).toList = (hexEscape c).toList := by
  refine marked_eq fun d member => ?_
  rw [hexEscape_toList small] at member
  simp only [List.mem_cons, List.not_mem_nil, or_false] at member
  rcases member with rfl | rfl | rfl | rfl | rfl | rfl
  · decide
  · decide
  all_goals exact isMarkup_digitChar (by omega)

theorem reads_visible {c : Char} (visible : 0x20 ≤ c.toNat) (quote : c ≠ '"') (backslash : c ≠ '\\') :
    Reads (marked (Text.carried c)) (Text.carried c) := by
  by_cases stray : (Text.stray? c).isSome = true
  · have high : ∀ d ∈ Text.carried c, Text.strayBase ≤ d.toNat := by
      intro d member
      simp only [Text.carried, stray, if_true, List.mem_map] at member
      obtain ⟨b, -, rfl⟩ := member
      rw [Text.strayChar_toNat]
      omega
    have base : 0x10F700 = Text.strayBase := rfl
    rw [marked_eq fun d member => isMarkup_eq_false (by have := high d member; omega)]
    refine reads_all fun d member => reads_plain ?_ ?_ ?_
    · have := high d member
      omega
    · rintro rfl
      have := high _ member
      contradiction
    · rintro rfl
      have := high _ member
      contradiction
  · have itself : Text.carried c = [c] := by simp [Text.carried, stray]
    by_cases markup : isMarkup c = true
    · have small : c.toNat < 0x10000 := by
        by_contra large
        rw [isMarkup_eq_false (by omega)] at markup
        contradiction
      have escaped : marked [c] = (hexEscape c).toList := by simp [marked, markup]
      rw [itself, escaped, ← itself]
      exact reads_hexEscape small
    · have same : marked [c] = [c] := by simp [marked, markup]
      rw [itself, same]
      exact reads_plain visible quote backslash

theorem reads_escapeChar (c : Char) : Reads (marked (escapeChar c).toList) (Text.carried c) := by
  unfold escapeChar
  split
  · exact reads_simple (e := '"') rfl
  · exact reads_simple (e := '\\') rfl
  · exact reads_simple (e := 'n') rfl
  · exact reads_simple (e := 'r') rfl
  · exact reads_simple (e := 't') rfl
  next quote backslash _ _ _ =>
    split
    next control =>
      have small : c.toNat < 0x10000 := by
        simp only [Bool.or_eq_true, decide_eq_true_eq, beq_iff_eq] at control
        omega
      rw [marked_hexEscape small]
      exact reads_hexEscape small
    next visible =>
      simp only [Bool.or_eq_true, decide_eq_true_eq, beq_iff_eq] at visible
      rw [String.toList_ofList]
      exact reads_visible (by omega) quote backslash

/-! ### Whole strings -/

def body (s : String) : List Char := marked ((Text.glyphs s).flatMap fun g => (escapeGlyph g).toList)

theorem marked_quote (s : String) : marked (quote s).toList = '"' :: (body s ++ ['"']) := by
  have quotes : marked ['"'] = ['"'] := by decide
  have inner : (String.join ((Text.glyphs s).map escapeGlyph)).toList =
      (Text.glyphs s).flatMap fun g => (escapeGlyph g).toList := by
    rw [String.toList_join, List.flatMap_map]
  simp only [quote, String.toList_append, marked_append, inner]
  change marked ['"'] ++ body s ++ marked ['"'] = _
  rw [quotes]
  rfl

theorem reads_body {s : String} (valid : Text.Valid s) : Reads (body s) s.toList := by
  obtain ⟨cs, glyphs, same⟩ := valid.exists_chars
  rw [same, body, glyphs]
  clear same glyphs
  induction cs with
  | nil => exact reads_nil
  | cons c cs ih =>
    rw [List.map_cons, List.flatMap_cons, marked_append, List.flatMap_cons]
    exact (reads_escapeChar c).append ih

/-- A stored text is read back up to its closing quote. -/
theorem stringTail_body {s : String} (valid : Text.Valid s) {fuel : Nat} (enough : (body s).length < fuel) (rest : List Char) :
    stringTail fuel [] (body s ++ '"' :: rest) = some (s, rest) := by
  obtain ⟨left, bound, read⟩ := reads_body valid fuel [] ('"' :: rest) (Nat.le_of_lt enough)
  obtain ⟨last, rfl⟩ : ∃ last, left = last + 1 := ⟨left - 1, by omega⟩
  rw [read, List.append_nil, stringTail, List.reverse_reverse, String.ofList_toList]

end CallFusion.Json
