import CallFusion.Text.Quoted

/-!
Points in time. A time is read with an offset and kept in UTC, to the nanosecond.
-/
namespace CallFusion

/-- Seconds since the start of 1970 in UTC, and nanoseconds on top. -/
structure Timestamp where
  seconds : Int
  nanos : Nat
  deriving DecidableEq, Repr, Inhabited

structure Date where
  year : Int
  month : Nat
  day : Nat
  deriving DecidableEq, Repr, Inhabited

namespace Date

def isLeap (year : Int) : Bool := year % 4 == 0 && (year % 100 != 0 || year % 400 == 0)

def monthLength (year : Int) (month : Nat) : Nat :=
  if month == 2 then (if isLeap year then 29 else 28)
  else if [4, 6, 9, 11].contains month then 30
  else 31

/-- Days since the start of 1970. Years are counted from March, so that a leap day comes last. -/
def days (d : Date) : Int :=
  let y := if d.month ≤ 2 then d.year - 1 else d.year
  let era := y.fdiv 400
  let yoe := y - era * 400
  let shifted : Int := (d.month + 9) % 12
  let doy := (153 * shifted + 2) / 5 + d.day - 1
  era * 146097 + (yoe * 365 + yoe / 4 - yoe / 100 + doy) - 719468

def ofDays (n : Int) : Date :=
  let z := n + 719468
  let era := z.fdiv 146097
  let doe := z - era * 146097
  let yoe := (doe - doe / 1460 + doe / 36524 - doe / 146096) / 365
  let doy := doe - (365 * yoe + yoe / 4 - yoe / 100)
  let shifted := (5 * doy + 2) / 153
  let day := doy - (153 * shifted + 2) / 5 + 1
  let month := if shifted < 10 then shifted + 3 else shifted - 9
  ⟨yoe + era * 400 + (if month ≤ 2 then 1 else 0), month.toNat, day.toNat⟩

end Date

def padded (width n : Nat) : String :=
  let ds := (toString n).toList
  String.ofList (List.replicate (width - ds.length) '0' ++ ds)

namespace Timestamp

def date (t : Timestamp) : Date := Date.ofDays (t.seconds.fdiv 86400)

def clock (t : Timestamp) : Nat := (t.seconds.fmod 86400).toNat

def dateText (t : Timestamp) : String :=
  let d := t.date
  (if d.year < 0 then "-" else "") ++ padded 4 d.year.natAbs ++ "-" ++ padded 2 d.month ++ "-" ++ padded 2 d.day

def clockText (t : Timestamp) : String :=
  let c := t.clock
  padded 2 (c / 3600) ++ ":" ++ padded 2 (c / 60 % 60) ++ ":" ++ padded 2 (c % 60)

def fractionText (t : Timestamp) : String :=
  if t.nanos == 0 then ""
  else "." ++ String.ofList (((padded 9 t.nanos).toList.reverse.dropWhile (· == '0')).reverse)

def text (t : Timestamp) : String := t.dateText ++ "T" ++ t.clockText ++ t.fractionText ++ "Z"

def display (t : Timestamp) : String := t.dateText ++ " " ++ t.clockText

def digits? (n : Nat) (cs : List Char) : Option (Nat × List Char) :=
  let ds := cs.take n
  if ds.length == n && ds.all Char.isDigit then
    some (ds.foldl (fun k c => k * 10 + (c.toNat - 48)) 0, cs.drop n)
  else none

def mark? (c : Char) : List Char → Option (List Char)
  | d :: cs => if c == d then some cs else none
  | [] => none

def shortNumber? (cs : List Char) : Option (Nat × List Char) := digits? 2 cs <|> digits? 1 cs

/-- Nanoseconds behind a point or a comma; digits after the ninth are dropped. -/
def fraction? : List Char → Option (Nat × List Char)
  | c :: cs =>
    if c == '.' || c == ',' then
      let ds := cs.takeWhile Char.isDigit
      if ds.isEmpty then none
      else
        let nine := (ds ++ List.replicate 9 '0').take 9
        some (nine.foldl (fun k c => k * 10 + (c.toNat - 48)) 0, cs.drop ds.length)
    else some (0, c :: cs)
  | [] => some (0, [])

/-- Seconds east of UTC; a whole day and a whole hour of minutes are still offsets. -/
def offset? : List Char → Option Int
  | ['Z'] => some 0
  | c :: cs => do
    let sign : Int ← if c == '+' then some 1 else if c == '-' then some (-1) else none
    let (h, cs) ← digits? 2 cs
    let cs ← mark? ':' cs
    let (m, cs) ← digits? 2 cs
    if h ≤ 24 && m ≤ 60 && cs.isEmpty then some (sign * (h * 3600 + m * 60)) else none
  | [] => none

/-- Reads a date, a time of day and an offset, as in `2026-01-02T03:04:05.6+01:00`. The hour may be a
single digit. -/
def parse? (s : String) : Option Timestamp := do
  let (year, cs) ← digits? 4 s.toList
  let (month, cs) ← digits? 2 (← mark? '-' cs)
  let (day, cs) ← digits? 2 (← mark? '-' cs)
  let (hour, cs) ← shortNumber? (← mark? 'T' cs)
  let (minute, cs) ← digits? 2 (← mark? ':' cs)
  let (second, cs) ← digits? 2 (← mark? ':' cs)
  let (nanos, cs) ← fraction? cs
  let offset ← offset? cs
  if 1 ≤ month && month ≤ 12 && 1 ≤ day && day ≤ Date.monthLength year month && hour < 24 && minute < 60 && second < 60 then
    some ⟨(Date.mk year month day).days * 86400 + hour * 3600 + minute * 60 + second - offset, nanos⟩
  else none

def form : String := "2006-01-02T15:04:05.999999999Z07:00"

def refusal (s : String) : String :=
  let cs := s.toList
  let message (rest part : String) : String :=
    "parsing time " ++ Text.quoted s ++ " as " ++ Text.quoted form ++ ": cannot parse " ++ Text.quoted rest ++ " as " ++
      Text.quoted part
  match digits? 4 cs with
  | none => message s "2006"
  | some (_, rest) => message (String.ofList rest) "-"

/-- The start of the year 1, which stands for a time that was not given. -/
def zero : Timestamp := ⟨-62135596800, 0⟩

end Timestamp
end CallFusion
