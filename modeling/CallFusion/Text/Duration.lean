import CallFusion.Text.Binary
import CallFusion.Text.Escape
import CallFusion.Text.Number

/-!
Spans of time in nanoseconds. A span is a sequence of decimal numbers with units, such as `1h2m3.5s`,
with an optional sign in front.
-/
namespace CallFusion.Text

inductive DurationFault where
  | invalid
  | missingUnit
  | unknownUnit (unit : String)
  deriving DecidableEq, Repr, Inhabited

def durationUnits : List (String × Nat) :=
  [("ns", 1), ("us", 1000), ("µs", 1000), ("μs", 1000), ("ms", 1000000), ("s", 1000000000), ("m", 60000000000),
    ("h", 3600000000000)]

def durationLimit : Nat := signedLimit

def digitRun (cs : List Char) : List Char × List Char := (cs.takeWhile Char.isDigit, cs.dropWhile Char.isDigit)

def digitsNumber (ds : List Char) : Nat := ds.foldl (fun n c => n * 10 + (c.toNat - 48)) 0

/-- Digits of a fraction as a number and how many of them count: further digits are dropped once
the number is too large. -/
def fractionDigits (n : Nat) (places : Nat) : List Char → Nat × Nat
  | [] => (n, places)
  | c :: cs =>
    let next := n * 10 + (c.toNat - 48)
    if (durationLimit - 1) / 10 < n || durationLimit < next then (n, places)
    else fractionDigits next (places + 1) cs

/-- A power of ten in floating point, multiplied up factor by factor. -/
def decimalScale : Nat → Binary
  | 0 => .ofNat 1
  | places + 1 => (decimalScale places).times (.ofNat 10)

/-- The part of a unit that a fraction makes up, rounded down in floating point. -/
def fractionOf (unit f places : Nat) : Nat :=
  if f = 0 then 0
  else ((Binary.ofNat f).times ((Binary.ofNat unit).dividedBy (decimalScale places))).floor

def isUnitEnd (c : Char) : Bool := c == '.' || c.isDigit

/-- What the digits around a point make in the unit that is named next, and what follows it. -/
def measured? (whole fraction rest : List Char) : Except DurationFault (Nat × List Char) :=
  if whole.isEmpty && fraction.isEmpty || durationLimit < digitsNumber whole then .error .invalid
  else
    let name := rest.takeWhile (!isUnitEnd ·)
    if name.isEmpty then .error .missingUnit
    else match durationUnits.find? (·.1 == String.ofList name) with
      | none => .error (.unknownUnit (String.ofList name))
      | some (_, unit) =>
        let (f, places) := fractionDigits 0 0 fraction
        let value := digitsNumber whole * unit + fractionOf unit f places
        if durationLimit / unit < digitsNumber whole || durationLimit < value then .error .invalid
        else .ok (value, rest.dropWhile (!isUnitEnd ·))

def durationPart? (cs : List Char) : Except DurationFault (Nat × List Char) :=
  let (whole, rest) := digitRun cs
  match rest with
  | '.' :: behind =>
    let (fraction, rest) := digitRun behind
    measured? whole fraction rest
  | rest => measured? whole [] rest

def durationParts : Nat → Nat → List Char → Except DurationFault Nat
  | _, sum, [] => .ok sum
  | 0, _, _ :: _ => .error .invalid
  | fuel + 1, sum, cs =>
    match durationPart? cs with
    | .error e => .error e
    | .ok (value, rest) =>
      -- twice the limit is a word too many, and comes out as nothing
      let total := (sum + value) % wordLimit
      if durationLimit < total then .error .invalid else durationParts fuel total rest

def unsigned? (negative : Bool) (cs : List Char) : Except DurationFault Int :=
  if cs == ['0'] then .ok 0
  else if cs.isEmpty then .error .invalid
  else match durationParts cs.length 0 cs with
    | .error e => .error e
    | .ok n =>
      if negative then .ok (-(n : Int))
      else if n < durationLimit then .ok n
      else .error .invalid

def duration? (s : String) : Except DurationFault Int :=
  match s.toList with
  | '-' :: cs => unsigned? true cs
  | '+' :: cs => unsigned? false cs
  | cs => unsigned? false cs

def quotedAscii (s : String) : String :=
  "\"" ++ String.join (s.toList.map fun c =>
    if c.toNat < 0x20 || 0x80 ≤ c.toNat then
      String.join ((bytes (String.singleton c)).map fun b => "\\x" ++ hexLower [b])
    else if c == '"' || c == '\\' then "\\" ++ String.singleton c
    else String.singleton c) ++ "\""

def DurationFault.message (f : DurationFault) (s : String) : String :=
  match f with
  | invalid => "time: invalid duration " ++ quotedAscii s
  | missingUnit => "time: missing unit in duration " ++ quotedAscii s
  | unknownUnit u => "time: unknown unit " ++ quotedAscii u ++ " in duration " ++ quotedAscii s

end CallFusion.Text
