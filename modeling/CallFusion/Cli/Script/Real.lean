import CallFusion.Text.Binary
import CallFusion.Text.Escape

/-!
Numbers with a fraction, as scripts read and print them: the nearest number of binary floating point with
53 bits, and its exact decimals cut to a number of places, to nearest and ties to even.
-/
namespace CallFusion.Cli.Script

open Text

inductive Real where
  | finite (isNegative : Bool) (value : Binary)
  | infinite (isNegative : Bool)
  | nan (isNegative : Bool)
  deriving DecidableEq, Repr, Inhabited

namespace Real

def topExponent : Nat := 1024

def leastExponent : Int := -1074

/-- The nearest number to a ratio, and whether it lies outside the range of those with all bits. -/
def ofRatio (isNegative : Bool) (num den : Nat) : Real × Bool :=
  let b := Binary.ofRatio num den
  if b.mantissa == 0 then (.finite isNegative b, false)
  else if Nat.pow 2 topExponent * b.den ≤ b.num then (.infinite isNegative, true)
  else if b.num * Nat.pow 2 1022 < b.den then
    let scaled := num * Nat.pow 2 1074
    let q := scaled / den
    let r := scaled % den
    let up := den < 2 * r || (2 * r == den && q % 2 == 1)
    (.finite isNegative ⟨if up then q + 1 else q, leastExponent⟩, r != 0)
  else (.finite isNegative b, false)

/-- Digits in a base with a point among them: their number, how many are behind the point, and how many
characters they take. -/
def spanned (base : Nat) (cs : List Char) : Option (Nat × Nat × Nat) :=
  let digits (cs : List Char) := (cs.map hexChar?).takeWhile fun d => d.any (· < base)
  let whole := digits cs
  let behind := match cs.drop whole.length with
    | '.' :: rest => some (digits rest)
    | _ => none
  let fraction := behind.getD []
  if whole.isEmpty && fraction.isEmpty then none
  else
    let n := (whole ++ fraction).foldl (fun n d => n * base + d.getD 0) 0
    some (n, fraction.length, whole.length + (behind.map (·.length + 1)).getD 0)

def exponent (letters : List Char) : List Char → Int × Nat
  | c :: rest =>
    if !letters.contains c then (0, 0)
    else
      let (isNegative, signs, rest) := match rest with
        | '-' :: rest => (true, 1, rest)
        | '+' :: rest => (false, 1, rest)
        | rest => (false, 0, rest)
      let ds := rest.takeWhile Char.isDigit
      if ds.isEmpty then (0, 0)
      else
        let n : Nat := min 100000 (ds.foldl (fun n d => n * 10 + (d.toNat - 48)) 0)
        (if isNegative then -(n : Int) else n, 1 + signs + ds.length)
  | [] => (0, 0)

def read? (cs : List Char) : Option (Real × Bool × Nat) :=
  let blanks := (cs.takeWhile fun c => c == ' ' || ('\t' ≤ c && c ≤ '\r')).length
  let (isNegative, signs, rest) := match cs.drop blanks with
    | '-' :: rest => (true, 1, rest)
    | '+' :: rest => (false, 1, rest)
    | rest => (false, 0, rest)
  let front := blanks + signs
  let starts (word : String) : Bool := word.toList.isPrefixOf (rest.map Char.toLower)
  let hexadecimal : Option (Real × Bool × Nat) := if !starts "0x" then none else do
    let (n, places, length) ← spanned 16 (rest.drop 2)
    let (e, more) := exponent ['p', 'P'] (rest.drop (2 + length))
    let shift := e - 4 * places
    let (x, isOut) := ofRatio isNegative (n * Nat.pow 2 shift.toNat) (Nat.pow 2 (-shift).toNat)
    return (x, isOut, front + 2 + length + more)
  let decimal : Option (Real × Bool × Nat) := do
    let (n, places, length) ← spanned 10 rest
    let (e, more) := exponent ['e', 'E'] (rest.drop length)
    let shift := e - places
    let (x, isOut) := ofRatio isNegative (n * Nat.pow 10 shift.toNat) (Nat.pow 10 (-shift).toNat)
    return (x, isOut, front + length + more)
  if starts "infinity" then some (.infinite isNegative, false, front + 8)
  else if starts "inf" then some (.infinite isNegative, false, front + 3)
  else if starts "nan" then some (.nan isNegative, false, front + 3)
  else hexadecimal <|> decimal

def rounded (num den : Nat) : Nat :=
  let q := num / den
  let r := num % den
  if den < 2 * r || (2 * r == den && q % 2 == 1) then q + 1 else q

def pointed (isMarked : Bool) (places : Nat) (ds : List Char) : List Char :=
  let ds := List.replicate (places + 1 - ds.length) '0' ++ ds
  let whole := ds.take (ds.length - places)
  if places = 0 then (if isMarked then whole ++ ['.'] else whole) else whole ++ '.' :: ds.drop whole.length

def fixed (isMarked : Bool) (places : Nat) (b : Binary) : List Char :=
  pointed isMarked places (Nat.toDigits 10 (rounded (b.num * Nat.pow 10 places) b.den))

def scientificDigits (places : Nat) (b : Binary) : List Char × Int :=
  if b.mantissa == 0 then (List.replicate (places + 1) '0', 0)
  else
    let guess : Int :=
      if b.den ≤ b.num then ((Nat.toDigits 10 (b.num / b.den)).length : Int) - 1
      else -((Nat.toDigits 10 ((b.den + b.num - 1) / b.num)).length : Int)
    -- the guess may be one too small for numbers below one
    let tooSmall := guess < 0 && b.den ≤ b.num * Nat.pow 10 (-(guess + 1)).toNat
    let e := if tooSmall then guess + 1 else guess
    let shift := (places : Int) - e
    let ds := Nat.toDigits 10 (rounded (b.num * Nat.pow 10 shift.toNat) (b.den * Nat.pow 10 (-shift).toNat))
    if places + 1 < ds.length then (ds.take (places + 1), e + 1) else (ds, e)

def exponentText (letter : Char) (e : Int) : List Char :=
  let ds := Nat.toDigits 10 e.natAbs
  letter :: (if e < 0 then '-' else '+') :: (List.replicate (2 - ds.length) '0' ++ ds)

def scientific (isMarked : Bool) (places : Nat) (b : Binary) : List Char :=
  let (ds, e) := scientificDigits places b
  pointed isMarked places ds ++ exponentText 'e' e

def withoutZeros (cs : List Char) : List Char :=
  if !cs.contains '.' then cs
  else match (cs.reverse.dropWhile (· == '0')) with
    | '.' :: rest => rest.reverse
    | rest => rest.reverse

def general (isMarked : Bool) (precision : Nat) (b : Binary) : List Char :=
  let precision := max precision 1
  let (ds, e) := scientificDigits (precision - 1) b
  let isFixed := -4 ≤ e && e < precision
  let body := if isFixed then fixed isMarked ((precision : Int) - 1 - e).toNat b else pointed isMarked (precision - 1) ds
  let body := if isMarked then body else withoutZeros body
  if isFixed then body else body ++ exponentText 'e' e

def hexadecimal (isMarked : Bool) (precision : Option Nat) (b : Binary) : List Char :=
  let finish (whole fraction : List Char) (e : Int) : List Char :=
    ['0', 'x'] ++ whole ++ (if fraction.isEmpty && !isMarked then [] else '.' :: fraction)
      ++ ['p', if e < 0 then '-' else '+'] ++ Nat.toDigits 10 e.natAbs
  if b.mantissa == 0 then finish ['0'] (List.replicate (precision.getD 0) '0') 0
  else
    let top := Nat.log2 b.mantissa
    let e : Int := b.exponent + top
    -- thirteen digits hold all 52 bits behind the first
    let all := b.mantissa * Nat.pow 2 (52 - top)
    let places := precision.getD 13
    let n := if places < 13 then rounded all (Nat.pow 16 (13 - places)) else all * Nat.pow 16 (places - 13)
    let ds := Nat.toDigits 16 n
    let fraction := ds.drop (ds.length - places)
    let fraction := if precision.isSome then fraction else (fraction.reverse.dropWhile (· == '0')).reverse
    finish (ds.take (ds.length - places)) fraction e

def digits? (letter : Char) (isMarked : Bool) (precision : Option Nat) : Real → Option (List Char)
  | .finite _ b =>
    some (match letter with
      | 'f' => fixed isMarked (precision.getD 6) b
      | 'e' => scientific isMarked (precision.getD 6) b
      | 'g' => general isMarked (precision.getD 6) b
      | _ => hexadecimal isMarked precision b)
  | _ => none

def isNegative : Real → Bool
  | .finite n _ | .infinite n | .nan n => n

end Real
end CallFusion.Cli.Script
