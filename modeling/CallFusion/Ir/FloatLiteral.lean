import CallFusion.Ir.Type
import CallFusion.Text.Binary

/-!
Floating-point literals. A decimal literal is rounded to the precision of its type, ties to even, and a
pattern of bits is decoded at the precision of its layout. A value whose fewest decimal digits at the
precision of its type are exactly the value is written in decimal, at its own precision, and any other as
a pattern of bits; the wide types are always written as bits.
-/
namespace CallFusion.Ir

/-- A finite value is `mantissa * 2 ^ exponent`, the mantissa having at most `precision` bits. -/
inductive FloatLiteral where
  | finite (precision : Nat) (negative : Bool) (mantissa : Nat) (exponent : Int)
  | infinite (negative : Bool)
  | nan (negative : Bool)
  deriving DecidableEq, Repr, Inhabited

namespace FloatLiteral

def precisionOf : FloatKind → Nat
  | .half => 11
  | .float => 24
  | .double => 53
  | .x86fp80 => 64
  | .fp128 => 113
  | .ppcfp128 => 106

def normalize : Nat → Nat → Int → Nat × Int
  | 0, m, e => (m, e)
  | fuel + 1, m, e => if m ≠ 0 && m % 2 == 0 then normalize fuel (m / 2) (e + 1) else (m, e)

def ofRatio (p : Nat) (negative : Bool) (num den : Nat) : FloatLiteral :=
  let (m, e) := Text.roundRatio p num den
  let (m, e) := normalize (p + 1) m e
  finite p negative m (if m = 0 then 0 else e)

/-- The value at precision `p` of a binary pattern with a hidden leading bit: a sign, then `exponentBits`
bits of exponent, then `fractionBits` bits of fraction. -/
def ofPattern (p exponentBits fractionBits bits : Nat) : FloatLiteral :=
  let top := Nat.pow 2 exponentBits
  let exponent := bits / Nat.pow 2 fractionBits % top
  let fraction := bits % Nat.pow 2 fractionBits
  let negative := bits / Nat.pow 2 (fractionBits + exponentBits) % 2 == 1
  if exponent + 1 = top then (if fraction = 0 then infinite negative else nan negative)
  else
    let m := if exponent = 0 then fraction else fraction + Nat.pow 2 fractionBits
    let e : Int := (if exponent = 0 then 1 else exponent : Nat) - (top / 2 - 1 + fractionBits : Nat)
    ofRatio p negative (m * Nat.pow 2 e.toNat) (Nat.pow 2 (-e).toNat)

def ofExtendedPattern (bits : Nat) : FloatLiteral :=
  let m := bits % Nat.pow 2 64
  let exponent := bits / Nat.pow 2 64 % 0x8000
  let negative := bits / Nat.pow 2 79 % 2 == 1
  if exponent = 0x7FFF then (if m % Nat.pow 2 63 = 0 then infinite negative else nan negative)
  else
    let e : Int := (if exponent = 0 then 1 else exponent : Nat) - (16383 + 63 : Nat)
    ofRatio 64 negative (m * Nat.pow 2 e.toNat) (Nat.pow 2 (-e).toNat)

def ratio : FloatLiteral → Int × Nat
  | finite _ negative m e =>
    let n : Int := m * Nat.pow 2 e.toNat
    (if negative then -n else n, Nat.pow 2 (-e).toNat)
  | _ => (0, 1)

def ofPair (a b : FloatLiteral) : FloatLiteral :=
  match a with
  | finite _ negative _ _ =>
    let (p, q) := a.ratio
    let (r, s) := b.ratio
    let n := p * s + r * q
    ofRatio 106 (if n = 0 then negative else n < 0) n.natAbs (q * s)
  | a => a

def decimal (m : Nat) (e : Int) : List Nat × Int :=
  let n := m * Nat.pow 2 e.toNat * Nat.pow 5 (-e).toNat
  let digits := (Nat.toDigits 10 n).map fun c => c.toNat - 48
  (digits, (digits.length : Int) - (-e).toNat)

def alignTo (point : Int) (d : List Nat × Int) : List Nat :=
  List.replicate (point - d.2).toNat 0 ++ d.1

def increment (ds : List Nat) : List Nat × Bool :=
  let step := ds.foldr (fun d (acc : List Nat × Bool) =>
    if acc.2 then (if d = 9 then (0 :: acc.1, true) else ((d + 1) :: acc.1, false)) else (d :: acc.1, false)) ([], true)
  if step.2 then (1 :: step.1, true) else (step.1, false)

def nearest (ds : List Nat) (n : Nat) : List Nat × Bool :=
  let kept := ds.take n
  match ds.drop n with
  | [] => (kept, false)
  | d :: rest =>
    let tie := d == 5 && rest.all (· == 0)
    let odd := (kept.getLast?.getD 0) % 2 == 1
    if d > 5 || (d == 5 && (!tie || odd)) then increment kept else (kept, false)

/-- The shortest cut of `value` that stays between `lower` and `upper`, scanning digit `i` on. -/
def cut (value lower upper : List Nat) (inclusive : Bool) : Nat → Nat → List Nat × Bool
  | 0, _ => (value, false)
  | fuel + 1, i =>
    match value[i]? with
    | none => (value, false)
    | some m =>
      let l := (lower[i]?).getD 0
      let u := (upper[i]?).getD 0
      let down := l != m || (inclusive && i + 1 == lower.length)
      let up := m != u && (inclusive || m + 1 < u || i + 1 < upper.length)
      if down && up then nearest value (i + 1)
      else if down then (value.take (i + 1), false)
      else if up then increment (value.take (i + 1))
      else cut value lower upper inclusive fuel (i + 1)

def dropZeros (ds : List Nat) : List Nat := (ds.reverse.dropWhile (· == 0)).reverse

def shortest (p m : Nat) (e : Int) : List Nat × Int :=
  -- one bit more than the precision, so that the last bit is half a unit
  let pad := p + 1 - (Nat.log2 m + 1)
  let wide := m * Nat.pow 2 pad
  let e' := e - pad
  let value := decimal wide e'
  let lower := decimal (wide - 1) e'
  let upper := decimal (wide + 1) e'
  let point := max value.2 (max lower.2 upper.2)
  let inclusive := wide / 2 % 2 == 0
  let v := alignTo point value
  let (ds, carried) := cut v (alignTo point lower) (alignTo point upper) inclusive v.length 0
  let point := if carried then point + 1 else point
  let lead := (ds.takeWhile (· == 0)).length
  (dropZeros (ds.drop lead), point - lead)

def digitsText (ds : List Nat) : String := String.ofList (ds.map fun d => Char.ofNat (48 + d))

/-- Positional from `1e-4` up to six integer digits, with an exponent of two digits or more
elsewhere; a point always appears. -/
def render (negative : Bool) (ds : List Nat) (point : Int) : String :=
  let sign := if negative then "-" else ""
  if ds.isEmpty then sign ++ "0.0"
  else
    let exp := point - 1
    if exp < -4 || exp ≥ 6 then
      let frac := if ds.length > 1 then "." ++ digitsText (ds.drop 1) else ".0"
      let mag := toString exp.natAbs
      sign ++ digitsText (ds.take 1) ++ frac ++ "e" ++ (if exp < 0 then "-" else "+") ++
        (if mag.length < 2 then "0" ++ mag else mag)
    else if point ≤ 0 then
      sign ++ "0." ++ digitsText (List.replicate (-point).toNat 0 ++ ds)
    else
      let whole := ds.take point.toNat ++ List.replicate (point.toNat - ds.length) 0
      let frac := ds.drop point.toNat
      sign ++ digitsText whole ++ "." ++ (if frac.isEmpty then "0" else digitsText frac)

def denotes (ds : List Nat) (point : Int) (m : Nat) (e : Int) : Bool :=
  let n := ds.foldl (fun n d => n * 10 + d) 0
  let scale : Int := point - ds.length
  n * Nat.pow 10 scale.toNat * Nat.pow 2 (-e).toNat == m * Nat.pow 2 e.toNat * Nat.pow 10 (-scale).toNat

def doubleBits (negative : Bool) (m : Nat) (e : Int) : Nat :=
  let sign := if negative then Nat.pow 2 63 else 0
  if m = 0 then sign
  else
    let top : Int := Nat.log2 m + e
    -- the place of the last bit, which does not go below that of the least double
    let place : Int := max (top - 52) (-1074)
    let shift := place - e
    let q := m * Nat.pow 2 (-shift).toNat / Nat.pow 2 shift.toNat
    let r := m * Nat.pow 2 (-shift).toNat % Nat.pow 2 shift.toNat
    let unit := Nat.pow 2 shift.toNat
    let q := if 2 * r > unit || (2 * r == unit && q % 2 == 1) then q + 1 else q
    -- a carry out of the fraction steps the exponent, as it should
    let biased := (place + 1074).toNat * Nat.pow 2 52 + q
    sign + min biased (0x7FF * Nat.pow 2 52)

def floatBits (negative : Bool) (m : Nat) (e : Int) : Nat :=
  doubleBits negative m e / Nat.pow 2 29 * Nat.pow 2 29

def subnormal (p : Nat) (exp : Int) (m : Nat) : Nat :=
  let exp := if exp ≤ 1 - (p : Int) then (p : Int) - 1 else exp
  let shift : Int := exp + p - 2 - (Nat.log2 m : Int)
  m * Nat.pow 2 shift.toNat / Nat.pow 2 (-shift).toNat

/-- The bits of a half. The exponent is cut to its five bits without a check of its range. -/
def halfBits (negative : Bool) (m : Nat) (e : Int) : Nat :=
  let sign := if negative then 0x8000 else 0
  let exp : Int := Nat.log2 m + e + 15
  if m = 0 then sign
  else if exp ≤ 0 then sign + subnormal 11 exp m % 0x800
  else
    let shift : Int := 10 - (Nat.log2 m : Int)
    let fraction := m * Nat.pow 2 shift.toNat / Nat.pow 2 (-shift).toNat - 0x400
    sign + exp.toNat % 0x20 * 0x400 + fraction

def wideBits (width : Nat) (hidden negative : Bool) (m : Nat) (e : Int) : Nat :=
  let field := if hidden then width else width + 1
  let sign := if negative then Nat.pow 2 (field + 15) else 0
  let exp : Int := Nat.log2 m + e + 16383
  if m = 0 then sign
  else if exp ≤ 0 then
    let low := subnormal (width + 1) exp m
    sign + (if hidden then low % Nat.pow 2 field else min low (Nat.pow 2 field - 1))
  else
    let mantissa := m * Nat.pow 2 width / Nat.pow 2 (Nat.log2 m)
    sign + exp.toNat % 0x8000 * Nat.pow 2 field +
      (if hidden then mantissa - Nat.pow 2 width else mantissa)

def hexUpper (width n : Nat) : String :=
  let ds := (Nat.toDigits 16 n).map Char.toUpper
  String.ofList (List.replicate (width - ds.length) '0' ++ ds)

def pairBits (negative : Bool) (m : Nat) (e : Int) : Nat × Nat :=
  let a := doubleBits negative m e
  let (p, q) := (finite 106 negative m e).ratio
  let (r, s) := (ofPattern 53 11 52 a).ratio
  match ofRatio 53 (p * s < r * q) (p * s - r * q).natAbs (q * s) with
  | finite _ n m e => (a, if m = 0 then 0 else doubleBits n m e)
  | _ => (a, 0)

def pattern (kind : FloatKind) : FloatLiteral → String
  | finite _ negative m e =>
    match kind with
    | .half => "0xH" ++ hexUpper 4 (halfBits negative m e)
    | .float => "0x" ++ hexUpper 1 (floatBits negative m e)
    | .double => "0x" ++ hexUpper 1 (doubleBits negative m e)
    | .x86fp80 => "0xK" ++ hexUpper 20 (wideBits 63 false negative m e)
    | .fp128 => "0xL" ++ hexUpper 32 (wideBits 112 true negative m e)
    | .ppcfp128 => let (a, b) := pairBits negative m e; "0xM" ++ hexUpper 16 a ++ hexUpper 16 b
  | infinite negative =>
    match kind with
    | .half => if negative then "0xHFC00" else "0xH7C00"
    | .float | .double => if negative then "0xFFF0000000000000" else "0x7FF0000000000000"
    | .x86fp80 => if negative then "0xKFFFF8000000000000000" else "0xK7FFF8000000000000000"
    | .fp128 => "0xL" ++ (if negative then "FFFF" else "7FFF") ++ hexUpper 28 0
    | .ppcfp128 => "0xM" ++ (if negative then "FFF0" else "7FF0") ++ hexUpper 28 0
  | nan negative =>
    match kind with
    | .half => if negative then "0xHFE00" else "0xH7E00"
    | .float | .double => if negative then "0xFFF8000000000000" else "0x7FF8000000000000"
    | .x86fp80 => if negative then "0xKFFFFC000000000000000" else "0xK7FFFC000000000000000"
    | .fp128 => "0xL" ++ (if negative then "FFFF8" else "7FFF8") ++ hexUpper 27 0
    | .ppcfp128 => "0xM" ++ (if negative then "FFF8" else "7FF8") ++ hexUpper 28 0

def hasDecimals : FloatKind → Bool
  | .half | .float | .double => true
  | _ => false

/-- Whether the fewest digits of a value at precision `p` are the value itself. No such value is as far
from one as `2 ^ 1100`. -/
def shortEnough (p m : Nat) (e : Int) : Bool :=
  (Nat.log2 m + e).natAbs < 1100 &&
    match ofRatio p false (m * Nat.pow 2 e.toNat) (Nat.pow 2 (-e).toNat) with
    | finite _ _ m' e' => let (ds, point) := shortest p m' e'; denotes ds point m e
    | _ => false

def text (kind : FloatKind) (v : FloatLiteral) : String :=
  match v with
  | finite own negative m e =>
    if !hasDecimals kind then v.pattern kind
    else if m = 0 then render negative [] 0
    else if shortEnough (precisionOf kind) m e then
      let (ds, point) := shortest own m e
      render negative ds point
    else v.pattern kind
  | v => v.pattern kind

def word? (width : Nat) (ds : List Char) : Option Nat :=
  let n := ds.foldl (fun n c => n * 16 + ((CallFusion.Text.hexValue? c.toNat.toUInt8).getD 0).toNat) 0
  if ds.isEmpty || n ≥ Nat.pow 2 width then none else some n

def words? (front width : Nat) (ds : List Char) : Option (Nat × Nat) := do
  if ds.length < front then none
  return (← word? width (ds.take front), ← word? 64 (ds.drop front))

/-- Reads a pattern of bits. A letter in front gives the layout, and without one the layout is that of a
double; the value is one of the given type all the same. -/
def ofBits? (kind : FloatKind) (cs : List Char) : Option FloatLiteral :=
  match cs with
  | 'H' :: ds => (word? 16 ds).map (ofPattern 11 5 10)
  | 'R' :: ds => (word? 16 ds).map (ofPattern 8 8 7)
  | 'K' :: ds => (words? 4 16 ds).map fun (a, b) => ofExtendedPattern (a * Nat.pow 2 64 + b)
  | 'L' :: ds => (word? 128 ds).map (ofPattern 113 15 112)
  | 'M' :: ds => (words? 16 64 ds).map fun (a, b) => ofPair (ofPattern 53 11 52 a) (ofPattern 53 11 52 b)
  | ds => if hasDecimals kind then (word? 64 ds).map (ofPattern (precisionOf kind) 11 52) else none

/-- Powers of ten beyond this one are taken for infinite, or for nothing. -/
def scaleLimit : Int := 100000

def read? (kind : FloatKind) (s : String) : Option FloatLiteral :=
  if s.startsWith "0x" then ofBits? kind (s.toList.drop 2)
  else
    let negative := s.startsWith "-"
    let cs := if negative || s.startsWith "+" then s.toList.drop 1 else s.toList
    let whole := cs.takeWhile Char.isDigit
    let frac := ((cs.drop (whole.length + 1)).takeWhile Char.isDigit)
    let exponent : Int := match cs.drop (whole.length + 1 + frac.length) with
      | _ :: '-' :: ds => -(digitsValue (String.ofList ds) : Int)
      | _ :: '+' :: ds => digitsValue (String.ofList ds)
      | _ :: ds => digitsValue (String.ofList ds)
      | [] => 0
    let n := digitsValue (String.ofList (whole ++ frac))
    let scale := max (exponent - frac.length) (-scaleLimit - frac.length)
    if n ≠ 0 && scaleLimit < scale then some (infinite negative)
    else some (ofRatio (precisionOf kind) negative (n * Nat.pow 10 scale.toNat) (Nat.pow 10 (-scale).toNat))

end FloatLiteral
end CallFusion.Ir
