import CallFusion.Cli.Flag

/-!
Commands of a program: what they are called, which flags and arguments they take, and how a command
line is split into a command and what it is given.
-/
namespace CallFusion.Cli

open Text

inductive ArgRule where
  | any
  | none
  | exactly (n : Nat)
  | atLeast (n : Nat)
  | atMost (n : Nat)
  | oneOf (valid : List String)
  deriving Repr, Inhabited

structure Command where
  name : String
  form : String
  short : String
  long : String
  samples : String := ""
  flags : List Flag := []
  rule : ArgRule := .any
  mentionsFlags : Bool := true
  exclusive : List String := []
  offers : Option (List String → Suggestions) := none
  deriving Inhabited

structure Program where
  name : String
  long : String
  flags : List Flag
  commands : List Command
  deriving Inhabited

def helpFlag (owner : String) : Flag :=
  { name := "help", short := some 'h', kind := .switch, default := "false", usage := "help for " ++ owner }

namespace ArgRule

def complaint? (rule : ArgRule) (path : String) (args : List String) : Option String :=
  let received := toString args.length
  match rule with
  | any => Option.none
  | none => args.head?.map fun a => "unknown command " ++ quoted a ++ " for " ++ quoted path
  | exactly n =>
    if args.length == n then Option.none
    else some ("accepts " ++ toString n ++ " arg(s), received " ++ received)
  | atLeast n =>
    if n ≤ args.length then Option.none
    else some ("requires at least " ++ toString n ++ " arg(s), only received " ++ received)
  | atMost n =>
    if args.length ≤ n then Option.none
    else some ("accepts at most " ++ toString n ++ " arg(s), received " ++ received)
  | oneOf valid =>
    match args with
    | [a] =>
      if valid.contains a then Option.none
      else some ("invalid argument " ++ quoted a ++ " for " ++ quoted path)
    | _ => some ("accepts 1 arg(s), received " ++ received)

end ArgRule

def exclusiveComplaint? (names : List String) (g : Given) : Option String :=
  let given := names.filter g.isSet
  if given.length ≤ 1 then none
  else some ("if any flags in the group [" ++ " ".intercalate names ++ "] are set none of the others can be; [" ++
    " ".intercalate (given.mergeSort fun a b => a ≤ b) ++ "] were all set")

def takesNext (flags : List Flag) (s : String) : Bool :=
  if s.contains '=' then false
  else match s.toList with
    | '-' :: '-' :: name => !((findLong flags (String.ofList name)).bind Flag.alone?).isSome
    | ['-', c] => c.toNat < 0x80 && !((findShort flags c).bind Flag.alone?).isSome
    | _ => false

/-- The words of a command line that are neither flags nor their values. A flag that takes the last
argument ends the search. -/
def plainWords (flags : List Flag) : List String → List String
  | [] => []
  | [s] => if s.isEmpty || s.startsWith "-" then [] else [s]
  | s :: t :: rest =>
    if s == "--" then []
    else if takesNext flags s then (if rest.isEmpty then [] else plainWords flags rest)
    else if s.isEmpty || s.startsWith "-" then plainWords flags (t :: rest)
    else s :: plainWords flags (t :: rest)
termination_by args => args.length

def withoutWord (flags : List Flag) (word : String) : List String → List String
  | [] => []
  | [s] => if s == word && !s.startsWith "-" then [] else [s]
  | s :: t :: rest =>
    if s == "--" then s :: t :: rest
    else if takesNext flags s then s :: t :: withoutWord flags word rest
    else if s == word && !s.startsWith "-" then t :: rest
    else s :: withoutWord flags word (t :: rest)
termination_by args => args.length

/-- The next row of the table of distances between beginnings of two words. -/
def distanceRow (c : Char) (row : List Nat) (left : Nat) : List Char → List Nat
  | [] => []
  | d :: ds =>
    match row with
    | diagonal :: above :: more =>
      let best := if c == d then diagonal else 1 + min (min above left) diagonal
      best :: distanceRow c (above :: more) best ds
    | _ => []

def distance (a b : String) : Nat :=
  let target := octets (lower b)
  let last := (octets (lower a)).foldl (fun row c =>
    let first := row.headD 0 + 1
    first :: distanceRow c row first target) (List.range (target.length + 1))
  last.getLastD 0

namespace Program

def similar (p : Program) (typed : String) : List String :=
  (p.commands.map (·.name)).filter fun name =>
    name != "help" && (distance typed name ≤ 2 || (lower name).startsWith (lower typed))

def unknownCommand (p : Program) (typed : String) : Fault :=
  let hint := match p.similar typed with
    | [] => ""
    | names => "\n\nDid you mean this?\n" ++ String.join (names.map fun n => "\t" ++ n ++ "\n")
  .plain ("unknown command " ++ quoted typed ++ " for " ++ quoted p.name ++ hint)

/-- The command a command line names, none where it names none, and what the command is given. -/
def find (p : Program) (args : List String) : Except Fault (Option Command × List String) :=
  match plainWords p.flags args with
  | [] => .ok (none, args)
  | word :: _ =>
    match p.commands.find? (·.name == word) with
    | some c => .ok (some c, withoutWord p.flags word args)
    | none => .error (p.unknownCommand word)

def pathOf (p : Program) (c : Command) : String := p.name ++ " " ++ c.name

def flagsOf (p : Program) (c : Command) : List Flag := c.flags ++ [helpFlag c.name] ++ p.flags

end Program
end CallFusion.Cli
