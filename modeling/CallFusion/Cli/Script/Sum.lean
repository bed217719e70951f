import CallFusion.Text.Escape
import CallFusion.Text.Number

/-!
Arithmetic of shell scripts on whole numbers. Operators have the usual ranks, and variables can be set on
the way; the part of a choice that is not taken sets none.
-/
namespace CallFusion.Cli.Script.Sum

inductive Token where
  | number (n : Int)
  | name (text : String)
  | mark (text : String)
  | strange
  deriving DecidableEq, Repr, Inhabited

def ranks : List (List String) :=
  [["|"], ["^"], ["&"], ["==", "!="], ["<=", ">=", "<", ">"], ["<<", ">>"], ["+", "-"], ["*", "/", "%"]]

def assignments : List (String × String) :=
  ["<<", ">>", "+", "-", "*", "/", "%", "&", "^", "|"].map fun op => (op ++ "=", op)

def marks : List String :=
  ["<<=", ">>=", "||", "&&", "==", "!=", "<=", ">=", "<<", ">>", "+=", "-=", "*=", "/=", "%=", "&=", "^=", "|=", "|",
    "^", "&", "<", ">", "+", "-", "*", "/", "%", "(", ")", "!", "~", "?", ":", "="]

def isNameChar (c : Char) : Bool := c.isAlphanum || c == '_'

def digitsIn (base : Nat) (cs : List Char) : Nat × Nat :=
  let ds := (cs.map Text.hexChar?).takeWhile fun d => d.any (· < base)
  (ds.foldl (fun n d => n * base + d.getD 0) 0, ds.length)

/-- A number and its length: hexadecimal behind `0x`, octal behind `0`, decimal otherwise. One that is too
large counts as the largest. -/
def number (cs : List Char) : Nat × Nat :=
  let (n, k) := spelled cs
  (min n (Text.signedLimit - 1), k)
where
  spelled (cs : List Char) : Nat × Nat := match cs with
    | '0' :: 'x' :: ds | '0' :: 'X' :: ds =>
      let (n, k) := digitsIn 16 ds
      if k = 0 then (0, 1) else (n, k + 2)
    | '0' :: _ => digitsIn 8 cs
    | _ => digitsIn 10 cs

def ofText? (text : String) : Option Int :=
  let isBlank (c : Char) : Bool := c == ' ' || ('\t' ≤ c && c ≤ '\r')
  let cs := ((text.toList.dropWhile isBlank).reverse.dropWhile isBlank).reverse
  let (isNegative, ds) := match cs with
    | '-' :: ds => (true, ds)
    | '+' :: ds => (false, ds)
    | ds => (false, ds)
  let (n, k) := number ds
  if cs.isEmpty then some 0
  else if ds.isEmpty || k < ds.length then none
  else some (if isNegative then -(n : Int) else n)

def tokens : Nat → List Char → List Token
  | 0, _ => []
  | _, [] => []
  | fuel + 1, c :: rest =>
    if c == ' ' || c == '\t' || c == '\n' then tokens fuel rest
    else if c.isDigit then
      let (n, k) := number (c :: rest)
      .number n :: tokens fuel ((c :: rest).drop k)
    else if isNameChar c then
      let word := (c :: rest).takeWhile isNameChar
      .name (String.ofList word) :: tokens fuel ((c :: rest).drop word.length)
    else match marks.find? fun m => m.toList.isPrefixOf (c :: rest) with
      | some mark => .mark mark :: tokens fuel ((c :: rest).drop mark.length)
      | none => [.strange]

inductive Problem where
  | reading (text : String)
  | number (word : String)
  deriving DecidableEq, Repr, Inhabited

def ofBool (b : Bool) : Int := if b then 1 else 0

structure State where
  rest : List Token
  values : List (String × Int) := []
  deriving Repr, Inhabited

abbrev Read := StateT State (Except Problem)

def peek? : Read (Option Token) := return (← get).rest.head?

def advance : Read Unit := modify fun s => { s with rest := s.rest.tail }

def accept (mark : String) : Read Bool := do
  if (← peek?) == some (.mark mark) then
    advance
    return true
  else return false

/-- What an operator makes of two numbers; division goes toward zero, and not by zero. -/
def joined (operator : String) (a b : Int) : Read Int :=
  match operator with
  | "+" => return (Int64.ofInt (a + b)).toInt
  | "-" => return (Int64.ofInt (a - b)).toInt
  | "*" => return (Int64.ofInt (a * b)).toInt
  | "/" => if b = 0 then throw (.reading "division by zero") else return a.tdiv b
  | "%" => if b = 0 then throw (.reading "division by zero") else return a.tmod b
  | "<<" => return (Int64.ofInt (a * Nat.pow 2 (b % 64).toNat)).toInt
  | ">>" => return a.fdiv (Nat.pow 2 (b % 64).toNat)
  | "<" => return ofBool (a < b)
  | "<=" => return ofBool (a ≤ b)
  | ">" => return ofBool (b < a)
  | ">=" => return ofBool (b ≤ a)
  | "==" => return ofBool (a == b)
  | "!=" => return ofBool (a != b)
  | "&" => return (Int64.ofInt a &&& Int64.ofInt b).toInt
  | "^" => return (Int64.ofInt a ^^^ Int64.ofInt b).toInt
  | _ => return (Int64.ofInt a ||| Int64.ofInt b).toInt

def variableValue (value : String → Except Problem Int) (name : String) : Read Int := do
  match (← get).values.lookup name with
  | some n => return n
  | none => value name

mutual
def primary (value : String → Except Problem Int) (counts : Bool) (fuel : Nat) : Read Int :=
  match fuel with
  | 0 => throw (.reading "expecting primary")
  | fuel + 1 => do
    let token ← peek?
    advance
    match token with
    | some (.number n) => return n
    | some (.name x) => if counts then variableValue value x else return 0
    | some (.mark "-") => return (Int64.ofInt (-(← primary value counts fuel))).toInt
    | some (.mark "+") => primary value counts fuel
    | some (.mark "!") => return ofBool ((← primary value counts fuel) == 0)
    | some (.mark "~") => return -(← primary value counts fuel) - 1
    | some (.mark "(") =>
      let n ← expression value counts fuel
      if ← accept ")" then return n else throw (.reading "expecting ')'")
    | _ => throw (.reading "expecting primary")

def ranked (value : String → Except Problem Int) (counts : Bool) (fuel : Nat) (below : List (List String)) : Read Int :=
  match fuel, below with
  | 0, _ => throw (.reading "expecting primary")
  | fuel + 1, [] => primary value counts fuel
  | fuel + 1, operators :: below => do
    let n ← ranked value counts fuel below
    further value counts fuel operators below n

def further (value : String → Except Problem Int) (counts : Bool) (fuel : Nat) (operators : List String)
    (below : List (List String)) (n : Int) : Read Int :=
  match fuel with
  | 0 => throw (.reading "expecting primary")
  | fuel + 1 => do
    match ← peek? with
    | some (.mark m) =>
      if operators.contains m then
        advance
        let k ← ranked value counts fuel below
        further value counts fuel operators below (← if counts then joined m n k else pure 0)
      else return n
    | _ => return n

def conjunction (value : String → Except Problem Int) (counts : Bool) (fuel : Nat) : Read Int :=
  match fuel with
  | 0 => throw (.reading "expecting primary")
  | fuel + 1 => do
    let a ← ranked value counts fuel ranks
    if ← accept "&&" then
      let b ← conjunction value (counts && a != 0) fuel
      return ofBool (a != 0 && b != 0)
    else return a

def disjunction (value : String → Except Problem Int) (counts : Bool) (fuel : Nat) : Read Int :=
  match fuel with
  | 0 => throw (.reading "expecting primary")
  | fuel + 1 => do
    let a ← conjunction value counts fuel
    if ← accept "||" then
      let b ← disjunction value (counts && a == 0) fuel
      return ofBool (a != 0 || b != 0)
    else return a

def choice (value : String → Except Problem Int) (counts : Bool) (fuel : Nat) : Read Int :=
  match fuel with
  | 0 => throw (.reading "expecting primary")
  | fuel + 1 => do
    let a ← disjunction value counts fuel
    if ← accept "?" then
      let b ← expression value (counts && a != 0) fuel
      if !(← accept ":") then throw (.reading "expecting ':'")
      let c ← choice value (counts && a == 0) fuel
      return if a != 0 then b else c
    else return a

def expression (value : String → Except Problem Int) (counts : Bool) (fuel : Nat) : Read Int :=
  match fuel with
  | 0 => throw (.reading "expecting primary")
  | fuel + 1 => do
    match (← get).rest with
    | .name x :: .mark m :: _ =>
      let operator? := assignments.lookup m
      if m == "=" || operator?.isSome then
        advance
        advance
        let n ← expression value counts fuel
        if !counts then return n
        let n ← match operator? with
          | some operator => joined operator (← variableValue value x) n
          | none => pure n
        modify fun s => { s with values := (x, n) :: s.values }
        return n
      else choice value counts fuel
    | _ => choice value counts fuel
end

def evaluate (value : String → Except Problem Int) (text : String) : Except Problem (Int × List (String × Int)) := do
  let ts := tokens (text.length + 1) text.toList
  let (n, s) ← (expression value true (16 * (ts.length + 2))).run ⟨ts, []⟩
  if s.rest.isEmpty then return (n, s.values) else throw (.reading "expecting EOF")

end CallFusion.Cli.Script.Sum
