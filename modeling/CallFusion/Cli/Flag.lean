import CallFusion.Fault
import CallFusion.Suggestion
import CallFusion.Text.Number
import CallFusion.Text.Quoted
import CallFusion.Text.Trim
import CallFusion.Text.Utf8

/-!
Flags of a command line. A flag is given as `--name value`, `--name=value` or by its letter; a
switch needs no value. Arguments may stand between flags, and `--` ends them.
-/
namespace CallFusion.Cli

open Text

inductive FlagKind where
  | switch
  | text
  | integer
  | texts
  deriving DecidableEq, Repr, Inhabited

structure Flag where
  name : String
  short : Option Char := none
  kind : FlagKind
  default : String := ""
  usage : String
  offers : Option Suggestions := none
  deriving Repr, Inhabited

def Flag.alone? (f : Flag) : Option String := if f.kind = .switch then some "true" else none

def findLong (flags : List Flag) (name : String) : Option Flag := flags.find? (·.name == name)

def findShort (flags : List Flag) (c : Char) : Option Flag := flags.find? (·.short == some c)

structure Given where
  values : List (String × String) := []
  args : List String := []
  deriving Repr, Inhabited

def switchValue? (s : String) : Option Bool :=
  if ["1", "t", "T", "TRUE", "true", "True"].contains s then some true
  else if ["0", "f", "F", "FALSE", "false", "False"].contains s then some false
  else none

def digitValue? (c : Char) : Option Nat :=
  if c.isDigit then some (c.toNat - 48)
  else if 'a' ≤ c && c ≤ 'f' then some (c.toNat - 87)
  else if 'A' ≤ c && c ≤ 'F' then some (c.toNat - 55)
  else none

inductive IntegerFault where
  | badSyntax
  | outOfRange
  deriving DecidableEq, Repr, Inhabited

/-- Digits in a base, read from the left; underscores between them mean nothing. -/
def naturalFrom (base n : Nat) : List Char → Except IntegerFault Nat
  | [] => .ok n
  | '_' :: cs => naturalFrom base n cs
  | c :: cs =>
    match (digitValue? c).filter (· < base) with
    | none => .error .badSyntax
    | some d => if wordLimit ≤ n * base + d then .error .outOfRange else naturalFrom base (n * base + d) cs

/-- Whether each underscore stands between digits or behind the mark of a base. -/
def separated (digit : Bool) : List Char → Bool
  | [] => true
  | '_' :: c :: cs => digit && c != '_' && separated true (c :: cs)
  | ['_'] => false
  | _ :: cs => separated true cs

def unsigned (cs : List Char) : Except IntegerFault Nat :=
  let read (base : Nat) (marked : Bool) (ds : List Char) : Except IntegerFault Nat := do
    if ds.isEmpty then throw .badSyntax
    let n ← naturalFrom base 0 ds
    if separated marked ds then return n else throw .badSyntax
  match cs with
  | '0' :: m :: ds =>
    if m == 'x' || m == 'X' then read 16 true ds
    else if m == 'b' || m == 'B' then read 2 true ds
    else if m == 'o' || m == 'O' then read 8 true ds
    else read 8 true (m :: ds)
  | cs => read 10 false cs

def signed (s : String) : Except IntegerFault Int := do
  let (negative, cs) := match s.toList with
    | '-' :: cs => (true, cs)
    | '+' :: cs => (false, cs)
    | cs => (false, cs)
  let n ← unsigned cs
  if negative then
    if n ≤ signedLimit then return -(n : Int) else throw .outOfRange
  else if n < signedLimit then return n
  else throw .outOfRange

def Flag.complaint? (f : Flag) (value : String) : Option String :=
  match f.kind with
  | .switch =>
    if (switchValue? value).isSome then none else some ("strconv.ParseBool: parsing " ++ quoted value ++ ": invalid syntax")
  | .integer => match signed value with
    | .ok _ => none
    | .error .badSyntax => some ("strconv.ParseInt: parsing " ++ quoted value ++ ": invalid syntax")
    | .error .outOfRange => some ("strconv.ParseInt: parsing " ++ quoted value ++ ": value out of range")
  | .text | .texts => none

def Flag.title (f : Flag) : String :=
  match f.short with
  | some c => "-" ++ String.singleton c ++ ", --" ++ f.name
  | none => "--" ++ f.name

def Given.set (g : Given) (f : Flag) (value : String) : Except Fault Given :=
  match f.complaint? value with
  | none => .ok { g with values := g.values ++ [(f.name, value)] }
  | some complaint =>
    .error (.plain ("invalid argument " ++ quoted value ++ " for " ++ quoted f.title ++ " flag: " ++ complaint))

def Given.arg (g : Given) (s : String) : Given := { g with args := g.args ++ [s] }

def quotedLetter (c : Char) : String :=
  if c == '\'' then "'\\''" else if c == '"' then "'\"'" else "'" ++ quotedChar c ++ "'"

def firstOctet (c : Char) : Char := (octets (String.singleton c)).headD c

def splitValue (cs : List Char) : String × Option String :=
  let name := cs.takeWhile (· != '=')
  match cs.drop name.length with
  | _ :: value => (String.ofList name, some (String.ofList value))
  | [] => (String.ofList name, none)

/-- The start of letters that are meant for a test run and are passed over. -/
def testMark : List Char := ['t', 'e', 's', 't', '.']

/-- Reads the letters behind a dash. Tells whether the argument that follows was used as a value. -/
def readShort (flags : List Flag) (next : Option String) (g : Given) : List Char → Except Fault (Given × Bool)
  | [] => .ok (g, false)
  | c :: cs =>
    if testMark.isPrefixOf (c :: cs) then .ok (g, false)
    else match findShort flags c with
    | none => .error (.plain ("unknown shorthand flag: " ++ quotedLetter (firstOctet c) ++ " in -" ++ String.ofList (c :: cs)))
    | some f =>
      match cs, f.alone? with
      | '=' :: d :: value, _ => (g.set f (String.ofList (d :: value))).map (·, false)
      | _, some value =>
        match g.set f value with
        | .ok g => readShort flags next g cs
        | .error e => .error e
      | d :: value, none => (g.set f (String.ofList (d :: value))).map (·, false)
      | [], none => match next with
        | some value => (g.set f value).map (·, true)
        | none => .error (.plain ("flag needs an argument: " ++ quotedLetter c ++ " in -" ++ String.singleton c))

def readLong (flags : List Flag) (next : Option String) (g : Given) (cs : List Char) : Except Fault (Given × Bool) :=
  match cs with
  | '-' :: _ | '=' :: _ => .error (.plain ("bad flag syntax: --" ++ String.ofList cs))
  | cs =>
    let (name, value) := splitValue cs
    match findLong flags name with
    | none => .error (.plain ("unknown flag: --" ++ name))
    | some f =>
      match value <|> f.alone?, next with
      | some value, _ => (g.set f value).map (·, false)
      | none, some value => (g.set f value).map (·, true)
      | none, none => .error (.plain ("flag needs an argument: --" ++ name))

def readArgs (flags : List Flag) (g : Given) : List String → Except Fault Given
  | [] => .ok g
  | [s] =>
    match s.toList with
    | ['-', '-'] => .ok g
    | '-' :: '-' :: cs => (readLong flags none g cs).map (·.1)
    | '-' :: c :: cs => (readShort flags none g (c :: cs)).map (·.1)
    | _ => .ok (g.arg s)
  | s :: t :: rest =>
    match s.toList with
    | ['-', '-'] => .ok { g with args := g.args ++ t :: rest }
    | '-' :: '-' :: cs =>
      match readLong flags (some t) g cs with
      | .error e => .error e
      | .ok (g, true) => readArgs flags g rest
      | .ok (g, false) => readArgs flags g (t :: rest)
    | '-' :: c :: cs =>
      match readShort flags (some t) g (c :: cs) with
      | .error e => .error e
      | .ok (g, true) => readArgs flags g rest
      | .ok (g, false) => readArgs flags g (t :: rest)
    | _ => readArgs flags (g.arg s) (t :: rest)
termination_by args => args.length
decreasing_by all_goals simp only [List.length_cons]; omega

namespace Given

def value? (g : Given) (name : String) : Option String := (g.values.reverse.find? (·.1 == name)).map (·.2)

def isSet (g : Given) (name : String) : Bool := g.values.any (·.1 == name)

def text (g : Given) (name : String) : String := (g.value? name).getD ""

def switch (g : Given) (name : String) : Bool := ((g.value? name).bind switchValue?).getD false

def integer (g : Given) (name : String) (default : Int) : Int :=
  match (g.value? name).map signed with
  | some (.ok n) => n
  | _ => default

def texts (g : Given) (name : String) : List String := (g.values.filter (·.1 == name)).map (·.2)

end Given
end CallFusion.Cli
