/-!
Bytes and text. A text carries a byte that belongs to no character as a character of its own, from
a range of private use, and a character of that range as its four bytes. So every byte sequence has a
text, `bytes` gives it back, and `glyphs` tells characters from stray bytes. Whoever writes text for other
programs puts the replacement character for a stray byte.
-/
namespace CallFusion.Text

def replacement : Char := Char.ofNat 0xFFFD

def strayBase : Nat := 0x10F700

/-- The character that carries a byte which belongs to no character. -/
def strayChar (b : UInt8) : Char := Char.ofNat (strayBase + b.toNat)

def stray? (c : Char) : Option UInt8 :=
  if strayBase + 0x80 ≤ c.toNat && c.toNat < strayBase + 0x100 then some (c.toNat - strayBase).toUInt8 else none

def charBytes (c : Char) : List UInt8 :=
  match stray? c with
  | some b => [b]
  | none => String.utf8EncodeChar c

def carried (c : Char) : List Char :=
  if (stray? c).isSome then (String.utf8EncodeChar c).map strayChar else [c]

def carry (s : String) : String :=
  if s.any fun c => (stray? c).isSome then String.ofList (s.toList.flatMap carried) else s

def bytes (s : String) : List UInt8 := s.toList.flatMap charBytes

def isTail (b : UInt8) : Bool := 0x80 ≤ b && b ≤ 0xBF

def tailBits (b : UInt8) : Nat := b.toNat - 0x80

def pair? (a b : UInt8) : Option Char :=
  if 0xC2 ≤ a && a ≤ 0xDF && isTail b then
    some (Char.ofNat ((a.toNat - 0xC0) * 64 + tailBits b))
  else none

def triple? (a b c : UInt8) : Option Char :=
  let low : UInt8 := if a = 0xE0 then 0xA0 else 0x80
  let high : UInt8 := if a = 0xED then 0x9F else 0xBF
  if 0xE0 ≤ a && a ≤ 0xEF && low ≤ b && b ≤ high && isTail c then
    some (Char.ofNat ((a.toNat - 0xE0) * 4096 + tailBits b * 64 + tailBits c))
  else none

def quad? (a b c d : UInt8) : Option Char :=
  let low : UInt8 := if a = 0xF0 then 0x90 else 0x80
  let high : UInt8 := if a = 0xF4 then 0x8F else 0xBF
  if 0xF0 ≤ a && a ≤ 0xF4 && low ≤ b && b ≤ high && isTail c && isTail d then
    some (Char.ofNat ((a.toNat - 0xF0) * 262144 + tailBits b * 4096 + tailBits c * 64 + tailBits d))
  else none

/-- The first character of a byte sequence and how many bytes after the first it takes. -/
def firstChar (a : UInt8) (rest : List UInt8) : Option (Char × Nat) :=
  if a < 0x80 then some (Char.ofNat a.toNat, 0)
  else match rest with
    | b :: c :: d :: _ =>
      ((pair? a b).map (·, 1)) <|> ((triple? a b c).map (·, 2)) <|> ((quad? a b c d).map (·, 3))
    | [b, c] => ((pair? a b).map (·, 1)) <|> ((triple? a b c).map (·, 2))
    | [b] => (pair? a b).map (·, 1)
    | [] => none

def chars : List UInt8 → List Char
  | [] => []
  | a :: rest =>
    match firstChar a rest with
    | some (c, n) => carried c ++ chars (rest.drop n)
    | none => strayChar a :: chars rest
termination_by bs => bs.length
decreasing_by
  · simp only [List.length_cons, List.length_drop]; omega
  · simp

def ofBytes (bs : List UInt8) : String := String.ofList (chars bs)

/-- What a text holds: characters, and bytes that belong to none. -/
inductive Glyph where
  | char (c : Char)
  | stray (b : UInt8)
  deriving DecidableEq, Repr, Inhabited

def glyphsOf : List UInt8 → List Glyph
  | [] => []
  | a :: rest =>
    match firstChar a rest with
    | some (c, n) => .char c :: glyphsOf (rest.drop n)
    | none => .stray a :: glyphsOf rest
termination_by bs => bs.length
decreasing_by
  · simp only [List.length_cons, List.length_drop]; omega
  · simp

def glyphs (s : String) : List Glyph := glyphsOf (bytes s)

def Glyph.shown : Glyph → Char
  | char c => c
  | stray _ => replacement

def shown (s : String) : String := String.ofList ((glyphs s).map Glyph.shown)

def glyphCount (s : String) : Nat := (glyphs s).length

/-- A text as its bytes, each one a character below 256. -/
def octets (s : String) : List Char := (bytes s).map fun b => Char.ofNat b.toNat

def ofOctets (cs : List Char) : String := ofBytes (cs.map fun c => c.toNat.toUInt8)

def isUtf8 : List UInt8 → Bool
  | [] => true
  | a :: rest =>
    match firstChar a rest with
    | some (_, n) => isUtf8 (rest.drop n)
    | none => false
termination_by bs => bs.length
decreasing_by simp only [List.length_cons, List.length_drop]; omega

end CallFusion.Text
