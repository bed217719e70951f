import CallFusion.Workspace

/-!
Conditions of shell scripts: tests of files, texts and numbers, joined by `!`, `-a`, `-o` and brackets.
-/
namespace CallFusion.Cli.Script

def numberText? (text : String) : Option Int :=
  let isBlank (c : Char) := c == ' ' || c == '\t' || c == '\n'
  let cs := (text.toList.dropWhile isBlank).reverse.dropWhile isBlank |>.reverse
  let (negative, ds) := match cs with
    | '-' :: ds => (true, ds)
    | '+' :: ds => (false, ds)
    | ds => (false, ds)
  if ds.isEmpty || !ds.all Char.isDigit then none
  else
    let n : Int := ds.foldl (fun n c => n * 10 + (c.toNat - 48)) 0
    some (if negative then -n else n)

namespace Condition

inductive Word where
  | test (text : String)
  | comparison (text : String)
  | not
  | and
  | or
  | opening
  | closing
  | operand
  | nothing
  deriving DecidableEq, Repr, Inhabited

def tests : List String :=
  ["-r", "-w", "-x", "-f", "-d", "-c", "-b", "-p", "-u", "-g", "-k", "-s", "-t", "-z", "-n", "-h", "-O", "-G", "-L", "-S",
    "-e"]

def comparisons : List String := ["=", "!=", "<", ">", "-eq", "-ne", "-ge", "-gt", "-le", "-lt", "-nt", "-ot", "-ef"]

def wordOf (text : String) : Word :=
  if tests.contains text then .test text
  else if comparisons.contains text then .comparison text
  else match text with
    | "!" => .not
    | "-a" => .and
    | "-o" => .or
    | "(" => .opening
    | ")" => .closing
    | _ => .operand

def isComparison (text : String) : Bool := comparisons.contains text

/-- Whether a test at the start of words is only a text: nothing stands behind it, or a comparison with
something behind that. -/
def isOperand : List String → Bool
  | [_] => true
  | [_, _] => false
  | _ :: second :: _ => isComparison second
  | [] => true

def first : List String → Word
  | [] => .nothing
  | text :: rest =>
    match wordOf text with
    | .test t => if isOperand (text :: rest) then .operand else .test t
    | .opening => if rest.isEmpty then .operand else .opening
    | w => w

abbrev Read := StateT (List String) (Except String)

def fileTest (w : Workspace) (test path : String) : Bool :=
  let entry := (w.status path).toOption
  let isDirectory := entry.any fun e => e matches .directory
  let isDevice := entry.any fun e => e matches .device _
  match test with
  | "-e" | "-r" | "-w" | "-O" | "-G" => entry.isSome
  | "-f" => entry.isSome && !isDirectory && !isDevice
  | "-d" => isDirectory
  | "-c" => isDevice
  | "-x" => w.isExecutable path || isDirectory
  | "-s" => entry.any fun e => match e with
    | .file content _ => !content.isEmpty
    | .device _ => false
    | _ => true
  | _ => false

def number (text : String) : Read Int :=
  match numberText? text with
  | some n => return n
  | none => throw ("Illegal number: " ++ text)

def isSame (w : Workspace) (a b : String) : Bool :=
  match w.resolve a false, w.resolve b false with
  | .ok p, .ok q => p == q
  | _, _ => false

def compare (w : Workspace) (word a b : String) : Read Bool := do
  match word with
  | "=" => return a == b
  | "!=" => return a != b
  | "<" => return a < b
  | ">" => return b < a
  | "-nt" | "-ot" => return false
  | "-ef" => return isSame w a b
  | _ =>
    let m ← number a
    let n ← number b
    match word with
    | "-eq" => return m == n
    | "-ne" => return m != n
    | "-ge" => return n ≤ m
    | "-gt" => return n < m
    | "-le" => return m ≤ n
    | _ => return m < n

mutual
def primary (w : Workspace) (fuel : Nat) (word : Word) : Read Bool :=
  match fuel with
  | 0 => return false
  | fuel + 1 => do
    match word with
    | .nothing => return false
    | .opening =>
      modify List.tail
      match first (← get) with
      | .closing => return false
      | inner =>
        let holds ← disjunction w fuel inner
        modify List.tail
        if first (← get) != .closing then throw "closing paren expected"
        return holds
    | .test test =>
      modify List.tail
      match (← get).head? with
      | none => throw (test ++ ": argument expected")
      | some text =>
        match test with
        | "-z" => return text.isEmpty
        | "-n" => return !text.isEmpty
        | "-t" =>
          discard (number text)
          return false
        | _ => return fileTest w test text
    | _ =>
      match ← get with
      | a :: comparison :: rest =>
        match first (comparison :: rest), rest with
        | .comparison _, [] => throw (comparison ++ ": argument expected")
        | .comparison _, b :: _ =>
          modify (·.drop 2)
          compare w comparison a b
        | _, _ => return !a.isEmpty
      | [a] => return !a.isEmpty
      | [] => return false

def negation (w : Workspace) (fuel : Nat) (word : Word) : Read Bool :=
  match fuel with
  | 0 => return false
  | fuel + 1 => do
    if word != .not then primary w fuel word
    else
      let next := first (← get).tail
      if next != .nothing then modify List.tail
      return !(← negation w fuel next)

def conjunction (w : Workspace) (fuel : Nat) (word : Word) : Read Bool :=
  match fuel with
  | 0 => return false
  | fuel + 1 => do
    let holds ← negation w fuel word
    if first (← get).tail == .and then
      modify (·.drop 2)
      return (← conjunction w fuel (first (← get))) && holds
    else return holds

def disjunction (w : Workspace) (fuel : Nat) (word : Word) : Read Bool :=
  match fuel with
  | 0 => return false
  | fuel + 1 => do
    let holds ← conjunction w fuel word
    if first (← get).tail == .or then
      modify (·.drop 2)
      return (← disjunction w fuel (first (← get))) || holds
    else return holds
end

/-- The words that count, and what the first of them is taken for: with three words a comparison between
two texts, and with three or four a pair of brackets or a `!`. -/
def opening (words : List String) : List String × Word :=
  if words.length == 3 && (words.drop 1).head?.any isComparison then (words, .operand)
  else if words.length == 3 || words.length == 4 then
    if words.head? == some "(" && words.getLast? == some ")" then
      let inner := (words.drop 1).dropLast
      (inner, first inner)
    else if words.head? == some "!" then (words, .not)
    else (words, first words)
  else (words, first words)

def holds (w : Workspace) (words : List String) : Except String Bool := do
  if words.isEmpty then return false
  let (words, word) := opening words
  let (result, left) ← (disjunction w (4 * words.length + 8) word).run words
  match left with
  | text :: _ :: _ => throw (text ++ ": unexpected operator")
  | _ => return result

end Condition
end CallFusion.Cli.Script
