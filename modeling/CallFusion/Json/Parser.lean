import CallFusion.Json.Basic

/-!
Reading JSON text. A lone half of a surrogate pair reads as the replacement character; control
characters inside strings, leading zeros and text after the value are refused.
-/
namespace CallFusion.Json

def isBlank (c : Char) : Bool := c == ' ' || c == '\t' || c == '\n' || c == '\r'

def skip (cs : List Char) : List Char := cs.dropWhile isBlank

def hexDigit? (c : Char) : Option Nat :=
  if c.isDigit then some (c.toNat - 48)
  else if 'a' ≤ c ∧ c ≤ 'f' then some (c.toNat - 87)
  else if 'A' ≤ c ∧ c ≤ 'F' then some (c.toNat - 55)
  else none

def hex4? : List Char → Option (Nat × List Char)
  | a :: b :: c :: d :: rest => do
    let a ← hexDigit? a
    let b ← hexDigit? b
    let c ← hexDigit? c
    let d ← hexDigit? d
    return (((a * 16 + b) * 16 + c) * 16 + d, rest)
  | _ => none

/-- The character of a `\u` escape, whose second half may follow. -/
def unicode? (cs : List Char) : Option (Char × List Char) := do
  let (high, rest) ← hex4? cs
  let bad := Char.ofNat 0xFFFD
  if 0xD800 ≤ high ∧ high < 0xDC00 then
    match rest with
    | '\\' :: 'u' :: more =>
      let (low, after) ← hex4? more
      if 0xDC00 ≤ low ∧ low < 0xE000 then
        return (Char.ofNat (0x10000 + (high - 0xD800) * 1024 + (low - 0xDC00)), after)
      return (bad, rest)
    | _ => return (bad, rest)
  if 0xDC00 ≤ high ∧ high < 0xE000 then return (bad, rest)
  return (Char.ofNat high, rest)

def simpleEscape? : Char → Option Char
  | '"' => some '"'
  | '\\' => some '\\'
  | '/' => some '/'
  | 'b' => some '\x08'
  | 'f' => some '\x0c'
  | 'n' => some '\n'
  | 'r' => some '\r'
  | 't' => some '\t'
  | _ => none

def stringTail : Nat → List Char → List Char → Option (String × List Char)
  | 0, _, _ => none
  | fuel + 1, acc, cs =>
    match cs with
    | [] => none
    | '"' :: rest => some (String.ofList acc.reverse, rest)
    | '\\' :: 'u' :: rest =>
      match unicode? rest with
      | some (c, rest) => stringTail fuel ((Text.carried c).reverse ++ acc) rest
      | none => none
    | '\\' :: e :: rest =>
      match simpleEscape? e with
      | some c => stringTail fuel (c :: acc) rest
      | none => none
    | c :: rest => if c.toNat < 0x20 || c == '\\' then none else stringTail fuel (c :: acc) rest

def digitsOf (cs : List Char) : List Char × List Char := (cs.takeWhile Char.isDigit, cs.dropWhile Char.isDigit)

def number? (cs : List Char) : Option (String × List Char) := do
  let (sign, cs) := match cs with
    | '-' :: r => (['-'], r)
    | r => ([], r)
  let (whole, cs) ← match cs with
    | '0' :: r => some (['0'], r)
    | _ => let (d, r) := digitsOf cs; if d.isEmpty then none else some (d, r)
  let (frac, cs) ← match cs with
    | '.' :: r => let (d, r) := digitsOf r; if d.isEmpty then none else some ('.' :: d, r)
    | r => some ([], r)
  let (exp, cs) ← match cs with
    | e :: r =>
      if e == 'e' || e == 'E' then
        let (s, r) := match r with
          | '+' :: r => (['+'], r)
          | '-' :: r => (['-'], r)
          | r => ([], r)
        let (d, r) := digitsOf r
        if d.isEmpty then none else some (e :: s ++ d, r)
      else some ([], cs)
    | [] => some ([], [])
  return (String.ofList (sign ++ whole ++ frac ++ exp), cs)

def stripWord? (w : List Char) (cs : List Char) : Option (List Char) :=
  if w.isPrefixOf cs then some (cs.drop w.length) else none

mutual
def valueAt : Nat → List Char → Option (Json × List Char)
  | 0, _ => none
  | fuel + 1, cs =>
    match skip cs with
    | '\x7b' :: rest =>
      match skip rest with
      | '\x7d' :: after => some (.obj [], after)
      | rest => (membersAt fuel rest).map fun (ms, after) => (.obj ms, after)
    | '[' :: rest =>
      match skip rest with
      | ']' :: after => some (.arr [], after)
      | rest => (itemsAt fuel rest).map fun (js, after) => (.arr js, after)
    | '"' :: rest => (stringTail fuel [] rest).map fun (s, after) => (.str s, after)
    | 't' :: rest => (stripWord? "rue".toList rest).map (.bool true, ·)
    | 'f' :: rest => (stripWord? "alse".toList rest).map (.bool false, ·)
    | 'n' :: rest => (stripWord? "ull".toList rest).map (.null, ·)
    | rest => (number? rest).map fun (t, after) => (.num t, after)

def itemsAt : Nat → List Char → Option (List Json × List Char)
  | 0, _ => none
  | fuel + 1, cs =>
    match valueAt fuel cs with
    | none => none
    | some (j, rest) =>
      match skip rest with
      | ',' :: more => (itemsAt fuel more).map fun (js, after) => (j :: js, after)
      | ']' :: after => some ([j], after)
      | _ => none

def membersAt : Nat → List Char → Option (List (String × Json) × List Char)
  | 0, _ => none
  | fuel + 1, cs =>
    match skip cs with
    | '"' :: rest =>
      match stringTail fuel [] rest with
      | none => none
      | some (key, rest) =>
        match skip rest with
        | ':' :: rest =>
          match valueAt fuel rest with
          | none => none
          | some (j, rest) =>
            match skip rest with
            | ',' :: more => (membersAt fuel more).map fun (ms, after) => ((key, j) :: ms, after)
            | '\x7d' :: after => some ([(key, j)], after)
            | _ => none
        | _ => none
    | _ => none
end

def first? (s : String) : Option (Json × List Char) := let cs := s.toList; valueAt (cs.length + 2) cs

def parse? (s : String) : Option Json := do
  let (j, rest) ← first? s
  if (skip rest).isEmpty then some j else none

end CallFusion.Json
