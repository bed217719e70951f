import CallFusion.Text.Utf8

/-!
Backslash escapes of string literals: a byte outside the printable range, a quote or a backslash
is written as a backslash and two upper-case hexadecimal digits.
-/
namespace CallFusion.Text

def hexDigit (n : UInt8) : UInt8 := if n < 10 then 48 + n else 55 + n

def hexDigitLower (n : UInt8) : UInt8 := if n < 10 then 48 + n else 87 + n

def hexValue? (b : UInt8) : Option UInt8 :=
  if 48 ≤ b && b ≤ 57 then some (b - 48)
  else if 65 ≤ b && b ≤ 70 then some (b - 55)
  else if 97 ≤ b && b ≤ 102 then some (b - 87)
  else none

def hexChar? (c : Char) : Option Nat := if c.toNat < 128 then (hexValue? c.toNat.toUInt8).map (·.toNat) else none

/-- Bytes that stand for themselves in a literal: space to tilde without quote and backslash. -/
def isPlain (b : UInt8) : Bool := 32 ≤ b && b ≤ 126 && b != 34 && b != 92

def escapeWith (plain : UInt8 → Bool) (bs : List UInt8) : List UInt8 :=
  bs.flatMap fun b => if plain b then [b] else [92, hexDigit (b / 16), hexDigit (b % 16)]

def escape (bs : List UInt8) : List UInt8 := escapeWith isPlain bs

/-- Reads escapes back. Two backslashes stand for one, and a backslash that neither another one nor
two hexadecimal digits follow stands for itself. -/
def unescape : List UInt8 → List UInt8
  | [] => []
  | 92 :: 92 :: rest => 92 :: unescape rest
  | b :: h :: l :: rest =>
    if b = 92 then
      match hexValue? h, hexValue? l with
      | some x, some y => (x * 16 + y) :: unescape rest
      | _, _ => b :: unescape (h :: l :: rest)
    else b :: unescape (h :: l :: rest)
  | b :: rest => b :: unescape rest
termination_by bs => bs.length

/-- Reads hexadecimal escapes back. Any other backslash stands for itself, also one in front of another. -/
def unescapeHex : List UInt8 → List UInt8
  | [] => []
  | b :: h :: l :: rest =>
    if b = 92 then
      match hexValue? h, hexValue? l with
      | some x, some y => (x * 16 + y) :: unescapeHex rest
      | _, _ => b :: unescapeHex (h :: l :: rest)
    else b :: unescapeHex (h :: l :: rest)
  | b :: rest => b :: unescapeHex rest
termination_by bs => bs.length

def quoteBytes (bs : List UInt8) : String := "\"" ++ ofBytes (escape bs) ++ "\""

def quoteText (s : String) : String := quoteBytes (bytes s)

def hexLower (bs : List UInt8) : String :=
  ofBytes (bs.flatMap fun b => [hexDigitLower (b / 16), hexDigitLower (b % 16)])

end CallFusion.Text
