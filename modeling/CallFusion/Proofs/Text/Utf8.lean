import Mathlib.Tactic.SplitIfs
import CallFusion.Text.Utf8

/-!
Bytes and the characters that they are read as. A character that was read is written as the bytes it was read from, and a
stray byte as itself, so no byte of a text is lost. A text that is UTF-8 throughout is made of characters, with no stray
byte between them.
-/
namespace CallFusion.Text

theorem stray?_of_lt {c : Char} (small : c.toNat < strayBase) : stray? c = none := by
  simp only [stray?, Bool.and_eq_true, decide_eq_true_eq, ite_eq_right_iff]
  omega

theorem toNat_ofNat_of_valid {n : Nat} (valid : n < 0xd800 ∨ 0xdfff < n ∧ n < 0x110000) : (Char.ofNat n).toNat = n := by
  rw [Char.ofNat, dif_pos valid]
  rfl

theorem utf8EncodeChar_eq (c : Char) : String.utf8EncodeChar c =
    if c.toNat ≤ 0x7f then [c.toNat.toUInt8]
    else if c.toNat ≤ 0x7ff then [(c.toNat / 64 % 32 + 192).toUInt8, (c.toNat % 64 + 128).toUInt8]
    else if c.toNat ≤ 0xffff then
      [(c.toNat / 4096 % 16 + 224).toUInt8, (c.toNat / 64 % 64 + 128).toUInt8, (c.toNat % 64 + 128).toUInt8]
    else [(c.toNat / 262144 % 8 + 240).toUInt8, (c.toNat / 4096 % 64 + 128).toUInt8, (c.toNat / 64 % 64 + 128).toUInt8,
      (c.toNat % 64 + 128).toUInt8] := rfl

theorem toUInt8_eq {n : Nat} {b : UInt8} (same : n = b.toNat) : n.toUInt8 = b := by
  rw [same]
  exact UInt8.ofNat_toNat

theorem isTail_iff {b : UInt8} : isTail b = true ↔ 0x80 ≤ b.toNat ∧ b.toNat ≤ 0xBF := by
  rw [isTail, Bool.and_eq_true, decide_eq_true_eq, decide_eq_true_eq, UInt8.le_iff_toNat_le, UInt8.le_iff_toNat_le]
  rfl

theorem utf8EncodeChar_pair {a b : UInt8} {c : Char} (read : pair? a b = some c) : String.utf8EncodeChar c = [a, b] := by
  unfold pair? at read
  obtain ⟨inside, same⟩ := Option.ite_none_right_eq_some.mp read
  simp only [Bool.and_eq_true, decide_eq_true_eq, isTail_iff] at inside
  have low : 0xC2 ≤ a.toNat := UInt8.le_iff_toNat_le.mp inside.1.1
  have high : a.toNat ≤ 0xDF := UInt8.le_iff_toNat_le.mp inside.1.2
  have tail := inside.2
  obtain rfl := Option.some.inj same
  obtain ⟨n, number⟩ : ∃ n, n = (a.toNat - 0xC0) * 64 + (b.toNat - 0x80) := ⟨_, rfl⟩
  have valid : n < 0xd800 ∨ 0xdfff < n ∧ n < 0x110000 := by omega
  have value : (Char.ofNat ((a.toNat - 0xC0) * 64 + tailBits b)).toNat = n := by
    rw [← toNat_ofNat_of_valid valid, number]
    rfl
  rw [utf8EncodeChar_eq, value, if_neg (by omega), if_pos (by omega)]
  rw [toUInt8_eq (b := a) (by omega), toUInt8_eq (b := b) (by omega)]

theorem edge_le {a b edge x y : UInt8} (bound : (if a = edge then x else y) ≤ b) :
    (if a.toNat = edge.toNat then x.toNat else y.toNat) ≤ b.toNat := by
  simp only [UInt8.toNat_inj]
  split_ifs at bound ⊢ <;> exact UInt8.le_iff_toNat_le.mp bound

theorem le_edge {a b edge x y : UInt8} (bound : b ≤ if a = edge then x else y) :
    b.toNat ≤ if a.toNat = edge.toNat then x.toNat else y.toNat := by
  simp only [UInt8.toNat_inj]
  split_ifs at bound ⊢ <;> exact UInt8.le_iff_toNat_le.mp bound

theorem utf8EncodeChar_triple {a b c : UInt8} {d : Char} (read : triple? a b c = some d) :
    String.utf8EncodeChar d = [a, b, c] := by
  unfold triple? at read
  dsimp only at read
  obtain ⟨inside, same⟩ := Option.ite_none_right_eq_some.mp read
  simp only [Bool.and_eq_true, decide_eq_true_eq, isTail_iff] at inside
  obtain ⟨⟨⟨⟨first, last⟩, least⟩, most⟩, tail⟩ := inside
  have first : 0xE0 ≤ a.toNat := UInt8.le_iff_toNat_le.mp first
  have last : a.toNat ≤ 0xEF := UInt8.le_iff_toNat_le.mp last
  have least : (if a.toNat = 0xE0 then 0xA0 else 0x80) ≤ b.toNat := edge_le least
  have most : b.toNat ≤ if a.toNat = 0xED then 0x9F else 0xBF := le_edge most
  obtain rfl := Option.some.inj same
  obtain ⟨n, number⟩ : ∃ n, n = (a.toNat - 0xE0) * 4096 + (b.toNat - 0x80) * 64 + (c.toNat - 0x80) := ⟨_, rfl⟩
  -- the edges of the second byte keep out what fewer bytes could say, and the surrogates
  have range : 0x800 ≤ n ∧ (n < 0xd800 ∨ 0xdfff < n ∧ n < 0x110000) ∧ 0x80 ≤ b.toNat ∧ b.toNat ≤ 0xBF := by
    split_ifs at least most <;> omega
  have value : (Char.ofNat ((a.toNat - 0xE0) * 4096 + tailBits b * 64 + tailBits c)).toNat = n := by
    rw [← toNat_ofNat_of_valid range.2.1, number]
    rfl
  clear least most
  rw [utf8EncodeChar_eq, value, if_neg (by omega), if_neg (by omega), if_pos (by omega)]
  rw [toUInt8_eq (b := a) (by omega), toUInt8_eq (b := b) (by omega), toUInt8_eq (b := c) (by omega)]

theorem utf8EncodeChar_quad {a b c d : UInt8} {e : Char} (read : quad? a b c d = some e) :
    String.utf8EncodeChar e = [a, b, c, d] := by
  unfold quad? at read
  dsimp only at read
  obtain ⟨inside, same⟩ := Option.ite_none_right_eq_some.mp read
  simp only [Bool.and_eq_true, decide_eq_true_eq, isTail_iff] at inside
  obtain ⟨⟨⟨⟨⟨first, last⟩, least⟩, most⟩, tail⟩, tail'⟩ := inside
  have first : 0xF0 ≤ a.toNat := UInt8.le_iff_toNat_le.mp first
  have last : a.toNat ≤ 0xF4 := UInt8.le_iff_toNat_le.mp last
  have least : (if a.toNat = 0xF0 then 0x90 else 0x80) ≤ b.toNat := edge_le least
  have most : b.toNat ≤ if a.toNat = 0xF4 then 0x8F else 0xBF := le_edge most
  obtain rfl := Option.some.inj same
  obtain ⟨n, number⟩ :
      ∃ n, n = (a.toNat - 0xF0) * 262144 + (b.toNat - 0x80) * 4096 + (c.toNat - 0x80) * 64 + (d.toNat - 0x80) := ⟨_, rfl⟩
  have range : 0xffff < n ∧ n < 0x110000 ∧ 0x80 ≤ b.toNat ∧ b.toNat ≤ 0xBF := by
    split_ifs at least most <;> omega
  have valid : n < 0xd800 ∨ 0xdfff < n ∧ n < 0x110000 := by omega
  have value : (Char.ofNat ((a.toNat - 0xF0) * 262144 + tailBits b * 4096 + tailBits c * 64 + tailBits d)).toNat = n := by
    rw [← toNat_ofNat_of_valid valid, number]
    rfl
  clear least most
  rw [utf8EncodeChar_eq, value, if_neg (by omega), if_neg (by omega), if_neg (by omega)]
  rw [toUInt8_eq (b := a) (by omega), toUInt8_eq (b := b) (by omega), toUInt8_eq (b := c) (by omega),
    toUInt8_eq (b := d) (by omega)]

theorem orElse_eq_some {α : Type} {x y : Option α} {a : α} (read : (x <|> y) = some a) : x = some a ∨ y = some a := by
  cases x with
  | some b => exact .inl read
  | none => exact .inr read

theorem utf8EncodeChar_firstChar {a : UInt8} {rest : List UInt8} {c : Char} {n : Nat} (read : firstChar a rest = some (c, n)) :
    String.utf8EncodeChar c ++ rest.drop n = a :: rest := by
  have paired : ∀ {b : UInt8} {rest : List UInt8}, (pair? a b).map (·, 1) = some (c, n) →
      String.utf8EncodeChar c ++ (b :: rest).drop n = a :: b :: rest := by
    intro b rest here
    obtain ⟨d, found, same⟩ := Option.map_eq_some_iff.mp here
    cases same
    rw [utf8EncodeChar_pair found]
    rfl
  have tripled : ∀ {b d : UInt8} {rest : List UInt8}, (triple? a b d).map (·, 2) = some (c, n) →
      String.utf8EncodeChar c ++ (b :: d :: rest).drop n = a :: b :: d :: rest := by
    intro b d rest here
    obtain ⟨e, found, same⟩ := Option.map_eq_some_iff.mp here
    cases same
    rw [utf8EncodeChar_triple found]
    rfl
  unfold firstChar at read
  split at read
  next ascii =>
    have small : a.toNat < 0x80 := UInt8.lt_iff_toNat_lt.mp ascii
    have value : (Char.ofNat a.toNat).toNat = a.toNat := toNat_ofNat_of_valid (.inl (by omega))
    cases read
    rw [utf8EncodeChar_eq, value, if_pos (by omega), toUInt8_eq rfl]
    rfl
  next large =>
    rcases rest with _ | ⟨b, _ | ⟨d, _ | ⟨e, rest⟩⟩⟩
    · contradiction
    · exact paired read
    · rcases orElse_eq_some read with here | here
      · exact paired here
      · exact tripled here
    · rcases orElse_eq_some read with here | later
      · exact paired here
      rcases orElse_eq_some later with here | here
      · exact tripled here
      · obtain ⟨f, found, same⟩ := Option.map_eq_some_iff.mp here
        cases same
        rw [utf8EncodeChar_quad found]
        rfl

theorem strayChar_toNat (b : UInt8) : (strayChar b).toNat = strayBase + b.toNat := by
  have small := b.toNat_lt
  exact toNat_ofNat_of_valid (.inr ⟨by simp only [strayBase]; omega, by simp only [strayBase]; omega⟩)

theorem charBytes_strayChar {b : UInt8} (high : 0x80 ≤ b.toNat) : charBytes (strayChar b) = [b] := by
  have small := b.toNat_lt
  have inside : strayBase + 0x80 ≤ (strayChar b).toNat ∧ (strayChar b).toNat < strayBase + 0x100 := by
    rw [strayChar_toNat]
    omega
  have same : ((strayChar b).toNat - strayBase).toUInt8 = b := by
    rw [strayChar_toNat, Nat.add_sub_cancel_left]
    exact toUInt8_eq rfl
  simp [charBytes, stray?, inside, same]

theorem flatMap_strayChars {bs : List UInt8} (high : ∀ b ∈ bs, 0x80 ≤ b.toNat) : (bs.map strayChar).flatMap charBytes = bs := by
  induction bs with
  | nil => rfl
  | cons b bs ih =>
    rw [List.map_cons, List.flatMap_cons, charBytes_strayChar (high b List.mem_cons_self),
      ih fun c member => high c (List.mem_cons_of_mem _ member)]
    rfl

theorem flatMap_carried (c : Char) : (carried c).flatMap charBytes = String.utf8EncodeChar c := by
  by_cases stray : (stray? c).isSome = true
  · have far : 0xffff < c.toNat := by
      have inside : strayBase ≤ c.toNat := by
        refine Nat.le_of_not_lt fun before => ?_
        simp [stray?_of_lt before] at stray
      exact Nat.lt_of_lt_of_le (by decide) inside
    have high : ∀ b ∈ String.utf8EncodeChar c, 0x80 ≤ b.toNat := by
      intro b member
      rw [utf8EncodeChar_eq, if_neg (by omega), if_neg (by omega), if_neg (by omega)] at member
      simp only [List.mem_cons, List.not_mem_nil, or_false] at member
      rcases member with rfl | rfl | rfl | rfl <;> simp <;> omega
    rw [carried, if_pos stray, flatMap_strayChars high]
  · have plain : stray? c = none := by simpa using stray
    simp [carried, charBytes, plain]

/-- Every byte sequence has a text that gives it back. -/
theorem bytes_ofBytes (bs : List UInt8) : bytes (ofBytes bs) = bs := by
  rw [bytes, ofBytes, String.toList_ofList]
  induction bs using chars.induct with
  | case1 => simp [chars]
  | case2 a rest c n first ih =>
    rw [chars, first]
    simp only [List.flatMap_append, flatMap_carried, ih]
    exact utf8EncodeChar_firstChar first
  | case3 a rest none ih =>
    have high : 0x80 ≤ a.toNat := by
      refine Nat.le_of_not_lt fun low => ?_
      have ascii : a < 0x80 := UInt8.lt_iff_toNat_lt.mpr low
      simp [firstChar, ascii] at none
    rw [chars, none, List.flatMap_cons, charBytes_strayChar high, ih]
    rfl

/-! ### ASCII bytes -/

theorem charBytes_ascii {c : Char} (ascii : c.toNat < 0x80) : charBytes c = [c.toNat.toUInt8] := by
  have small : c.toNat < strayBase := Nat.lt_trans ascii (by decide)
  simp only [charBytes, stray?_of_lt small]
  rw [utf8EncodeChar_eq, if_pos (Nat.le_of_lt_succ ascii)]

theorem charBytes_high {b : UInt8} {c : Char} (high : 0x80 ≤ c.toNat) (listed : b ∈ charBytes c) : 0x80 ≤ b.toNat := by
  unfold charBytes at listed
  split at listed
  · next stray =>
    unfold stray? at stray
    split at stray
    · next inside =>
      rw [Bool.and_eq_true, decide_eq_true_eq, decide_eq_true_eq] at inside
      obtain rfl := Option.some.inj stray
      obtain rfl := List.mem_singleton.mp listed
      simp
      omega
    · cases stray
  · rw [utf8EncodeChar_eq, if_neg (by omega)] at listed
    split at listed
    · simp only [List.mem_cons, List.not_mem_nil, or_false] at listed
      rcases listed with rfl | rfl <;> simp <;> omega
    · split at listed <;> simp only [List.mem_cons, List.not_mem_nil, or_false] at listed
      · rcases listed with rfl | rfl | rfl <;> simp <;> omega
      · rcases listed with rfl | rfl | rfl | rfl <;> simp <;> omega

theorem eq_of_mem_charBytes {c d : Char} (ascii : d.toNat < 0x80) (listed : d.toNat.toUInt8 ∈ charBytes c) : c = d := by
  have low : c.toNat < 0x80 := Nat.lt_of_not_le fun high => by
    have far := charBytes_high high listed
    simp at far
    omega
  rw [charBytes_ascii low, List.mem_singleton] at listed
  have same := congrArg UInt8.toNat listed
  apply Char.toNat_inj.mp
  simp at same
  omega

theorem exists_mem_charBytes {bs : List UInt8} {c : Char} (listed : c ∈ chars bs) : ∃ b ∈ bs, b ∈ charBytes c := by
  have some : ∃ b, b ∈ charBytes c := by
    unfold charBytes
    split
    · exact ⟨_, List.mem_singleton_self _⟩
    · rw [utf8EncodeChar_eq]
      split_ifs <;> exact ⟨_, List.mem_cons_self⟩
  obtain ⟨b, byte⟩ := some
  have whole := bytes_ofBytes bs
  rw [bytes, ofBytes, String.toList_ofList] at whole
  exact ⟨b, whole ▸ List.mem_flatMap.mpr ⟨c, listed, byte⟩, byte⟩

theorem isTail_ascii {b : UInt8} (ascii : b < 0x80) : isTail b = false := by
  rw [isTail, Bool.and_eq_false_imp]
  intro tail
  exact absurd (UInt8.lt_of_le_of_lt (of_decide_eq_true tail) ascii) (by decide)

theorem pair?_ascii (a : UInt8) {b : UInt8} (ascii : b < 0x80) : pair? a b = none := by
  simp [pair?, isTail_ascii ascii]

theorem triple?_ascii (a : UInt8) {b c : UInt8} (ascii : b < 0x80 ∨ c < 0x80) : triple? a b c = none := by
  obtain second | third := ascii
  · have low : ¬ (if a = 0xE0 then 0xA0 else 0x80 : UInt8) ≤ b := by
      split <;> exact fun least => absurd (UInt8.lt_of_le_of_lt least second) (by decide)
    simp [triple?, low]
  · simp [triple?, isTail_ascii third]

theorem quad?_ascii (a : UInt8) {b c d : UInt8} (ascii : b < 0x80 ∨ c < 0x80 ∨ d < 0x80) : quad? a b c d = none := by
  obtain second | third | fourth := ascii
  · have low : ¬ (if a = 0xF0 then 0x90 else 0x80 : UInt8) ≤ b := by
      split <;> exact fun least => absurd (UInt8.lt_of_le_of_lt least second) (by decide)
    simp [quad?, low]
  · simp [quad?, isTail_ascii third]
  · simp [quad?, isTail_ascii fourth]

theorem firstChar_append (a : UInt8) (rest : List UInt8) {behind : List UInt8} (ascii : ∀ b ∈ behind, b < 0x80) :
    firstChar a (rest ++ behind) = firstChar a rest := by
  obtain _ | ⟨b, behind⟩ := behind
  · rw [List.append_nil]
  have first : b < 0x80 := ascii b List.mem_cons_self
  unfold firstChar
  congr 1
  obtain _ | ⟨x, _ | ⟨y, _ | ⟨z, rest⟩⟩⟩ := rest
  · obtain _ | ⟨c, _ | ⟨d, behind⟩⟩ := behind <;> simp [pair?_ascii, triple?_ascii, quad?_ascii, first]
  · obtain _ | ⟨c, behind⟩ := behind <;> simp [triple?_ascii, quad?_ascii, first]
  · simp [quad?_ascii, first]
  · rfl

theorem le_of_firstChar {a : UInt8} {rest : List UInt8} {c : Char} {n : Nat} (read : firstChar a rest = some (c, n)) :
    n ≤ rest.length := by
  unfold firstChar at read
  split at read
  · cases read
    exact Nat.zero_le _
  · split at read
    · simp only [List.length_cons]
      obtain here | later := orElse_eq_some read
      · simp at here; omega
      · obtain here | here := orElse_eq_some later <;> simp at here <;> omega
    · obtain here | here := orElse_eq_some read <;> simp at here ⊢ <;> omega
    · simp at read ⊢; omega
    · cases read

/-- ASCII bytes behind a text do not change how the text is read. -/
theorem chars_append (bs : List UInt8) {behind : List UInt8} (ascii : ∀ b ∈ behind, b < 0x80) :
    chars (bs ++ behind) = chars bs ++ chars behind := by
  induction bs using chars.induct with
  | case1 => simp [chars]
  | case2 a rest c n first ih =>
    rw [List.cons_append, chars, chars, firstChar_append a rest ascii, first]
    dsimp only
    rw [List.drop_append_of_le_length (le_of_firstChar first), ih, List.append_assoc]
  | case3 a rest none ih =>
    rw [List.cons_append, chars, chars, firstChar_append a rest ascii, none, ih, List.cons_append]

/-! ### Texts that are UTF-8 throughout -/

/-- A text whose bytes are UTF-8. -/
structure Valid (s : String) : Prop where
  utf8 : isUtf8 (bytes s) = true
  made : ofBytes (bytes s) = s

theorem exists_chars_of_isUtf8 {bs : List UInt8} (utf8 : isUtf8 bs = true) :
    ∃ cs : List Char, glyphsOf bs = cs.map .char ∧ chars bs = cs.flatMap carried := by
  induction bs using isUtf8.induct with
  | case1 => exact ⟨[], by simp [glyphsOf], by simp [chars]⟩
  | case2 a rest c n first ih =>
    rw [isUtf8, first] at utf8
    obtain ⟨cs, glyphs, same⟩ := ih utf8
    refine ⟨c :: cs, ?_, ?_⟩
    · rw [glyphsOf, first, List.map_cons, ← glyphs]
    · rw [chars, first, List.flatMap_cons, ← same]
  | case3 a rest none =>
    rw [isUtf8, none] at utf8
    contradiction

theorem Valid.exists_chars {s : String} (valid : Valid s) :
    ∃ cs : List Char, glyphs s = cs.map .char ∧ s.toList = cs.flatMap carried := by
  obtain ⟨cs, glyphs, same⟩ := exists_chars_of_isUtf8 valid.utf8
  refine ⟨cs, glyphs, ?_⟩
  rw [← same]
  calc s.toList = (ofBytes (bytes s)).toList := by rw [valid.made]
    _ = chars (bytes s) := String.toList_ofList

end CallFusion.Text
