import CallFusion.Cli.Script.Command
import CallFusion.Cli.Script.Condition
import CallFusion.Cli.Script.Paths
import CallFusion.Cli.Script.Switch

/-!
A running script: its variables, streams and switches, and how words become fields. Text is kept as bytes,
each one a character below 256.
-/
namespace CallFusion.Cli.Script

inductive Leaving where
  | loops (levels : Nat) (goesOn : Bool)
  | function
  | script
  deriving DecidableEq, Repr, Inhabited

inductive Stream where
  | output (n : Nat)
  | file (path : String)
  | input (n : Nat)
  | directory
  | closed
  deriving DecidableEq, Repr, Inhabited

structure OptionPlace where
  next : Nat := 1
  offset : Option Nat := none
  deriving DecidableEq, Repr, Inhabited

/-- What the variables that belong to a function were before, and the switches if those belong to it. -/
structure Locals where
  bindings : List (String × Option String) := []
  switches : Option (List Switch) := none
  deriving Inhabited

/-- A running script. What was written carries the number of its stream, the newest first. -/
structure Shell where
  path : String
  line : Nat := 0
  lineRead : Nat := 1
  about : String := ""
  args : List String := []
  bindings : List (String × String) := []
  exported : List String := []
  fixed : List String := []
  functions : List (String × Command) := []
  aliases : List (String × String) := []
  options : OptionPlace := {}
  switches : List Switch := []
  mask : Nat := 18
  locals : Option Locals := none
  streams : List (Nat × Stream) := [(0, .input 0), (1, .output 1), (2, .output 2)]
  inputs : List (Nat × List Char) := []
  inputCount : Nat := 1
  workspace : Workspace
  caught : Nat := 0
  written : List (Nat × String) := []
  lostOutput : Bool := false
  status : Nat := 0
  leaving : Option Leaving := none
  signal : Option Nat := none
  loopDepth : Nat := 0
  fileDepth : Nat := 0
  depth : Nat := 0
  traps : List (Nat × String) := []
  outerTraps : List (Nat × String) := []
  pending : List Nat := []
  jobs : List Nat := []

abbrev Run := StateM Shell

namespace Shell

def isOn (s : Shell) (w : Switch) : Bool := s.switches.contains w

def processNumber : Nat := 7

def standardBindings : List (String × String) :=
  [("IFS", " \t\n"), ("OPTIND", "1"), ("PPID", "1"), ("PS1", "# "), ("PS2", "> "), ("PS4", "+ ")]

def initial (path : String) (args : List String) (input : String) (w : Workspace) : Shell where
  path := path
  args := args
  bindings := ("PWD", "/" ++ "/".intercalate w.directory) :: standardBindings
  exported := ["PWD"]
  inputs := [(0, input.toList)]
  workspace := w

def stream (s : Shell) (n : Nat) : Stream := (s.streams.lookup n).getD .closed

def input? (s : Shell) : Option (List Char) :=
  match s.stream 0 with
  | .input n => some ((s.inputs.lookup n).getD [])
  | _ => none

def separators (s : Shell) : List Char := ((s.bindings.lookup "IFS").getD " \t\n").toList

def joint (s : Shell) : String := String.ofList (s.separators.take 1)

def value? (s : Shell) (name : String) : Option String :=
  match name with
  | "@" | "*" => if s.args.isEmpty then none else some (s.joint.intercalate s.args)
  | "#" => some (toString s.args.length)
  | "?" => some (toString s.status)
  | "0" => some s.path
  | "$" => some (toString processNumber)
  | "-" => some (Switch.letters s.switches)
  | "!" => if s.jobs.isEmpty then none else some (toString (processNumber + s.jobs.length))
  | _ =>
    match name.toNat? with
    | some n => s.args[n - 1]?
    | none => s.bindings.lookup name <|> s.workspace.environment.get? name

def searchPath (s : Shell) : List String := ((s.value? "PATH").getD "").splitOn ":"

def programPath? (s : Shell) (name : String) : Option String :=
  if name.contains '/' then some name
  else
    let places := s.searchPath.map fun d => if d.isEmpty then name else d ++ "/" ++ name
    places.find? s.workspace.isExecutable

def program? (s : Shell) (name : String) : Option String := (s.programPath? name).filter s.workspace.isExecutable

def environment (s : Shell) : Environment :=
  let isPassed (name : String) : Bool := s.exported.contains name || (s.workspace.environment.get? name).isSome
  s.bindings.reverse.foldl (fun e (name, value) => if isPassed name then e.set name value else e) s.workspace.environment

def allBindings (s : Shell) : List (String × String) :=
  let names := (s.bindings.map (·.1) ++ s.workspace.environment.entries.map (·.1)).eraseDups
  let all := names.filterMap fun name => (s.bindings.lookup name <|> s.workspace.environment.get? name).map (name, ·)
  all.mergeSort fun a b => a.1 ≤ b.1

end Shell

def setStatus (n : Nat) : Run Unit := modify fun s => { s with status := n }

def appendTo (w : Workspace) (path text : String) : Option Workspace :=
  (w.write path ((w.read path).toOption.getD "" ++ text)).toOption

def emit (stream : Nat) (text : String) : Run Unit := modify fun s =>
  if text.isEmpty then s
  else
    let lost := { s with lostOutput := s.lostOutput || stream == 1 }
    match s.stream stream with
    | .output n => { s with written := (n, text) :: s.written }
    | .file path => ((appendTo s.workspace path text).map fun w => { s with workspace := w }).getD lost
    | _ => lost

def complain (text : String) : Run Unit := do
  let s ← get
  let about := if s.about.isEmpty then "" else s.about ++ ": "
  emit 2 (s.path ++ ": " ++ toString s.line ++ ": " ++ about ++ text ++ "\n")

def giveUp (text : String) : Run Unit := do
  complain text
  modify fun s => { s with leaving := some .script, status := 2 }

def setVariable (name : String) (value : Option String) : Run Unit := modify fun s =>
  let others := s.bindings.filter (·.1 != name)
  { s with
    bindings := (value.map (name, ·)).toList ++ others
    exported := if s.isOn .allexport && value.isSome then name :: s.exported else s.exported }

/-- Gives a variable a value, unless it is fixed. The one that counts options moves the search for them. -/
def assign (name value : String) : Run Unit := do
  if (← get).fixed.contains name then giveUp (name ++ ": is read only")
  else if name == "OPTIND" then
    match numberText? value with
    | some (.ofNat n) =>
      modify ({ · with options := ⟨max n 1, none⟩ })
      setVariable name (some value)
    | _ => giveUp ("Illegal number: " ++ value)
  else setVariable name (some value)

def setArgs (args : List String) : Run Unit := modify fun s => { s with args := args, options := {} }

def textOn (stream : Nat) (written : List (Nat × String)) : String :=
  String.join ((written.reverse.filter (·.1 == stream)).map (·.2))

/-- What a word is made of once its variables are known: characters, quoted or not and splitting or not,
quotes with nothing in them, and ends of fields. -/
inductive Item where
  | char (c : Char) (isQuoted splits : Bool)
  | nothing
  | boundary
  deriving DecidableEq, Repr, Inhabited

namespace Item

def ofValue (isQuoted : Bool) (value : String) : List Item :=
  (if isQuoted then [.nothing] else []) ++ value.toList.map fun c => .char c isQuoted (!isQuoted)

def ofValues (isQuoted : Bool) (values : List String) : List Item :=
  ((values.map (ofValue isQuoted)).intersperse [.boundary]).flatten

def splitting (items : List Item) : List Item :=
  items.map fun i => match i with
    | .char c isQuoted _ => .char c isQuoted (!isQuoted)
    | i => i

def joined (joint : String) (items : List Item) : Pattern :=
  items.flatMap fun i => match i with
    | .char c isQuoted _ => [(c, isQuoted)]
    | .boundary => joint.toList.map (·, true)
    | .nothing => []

def text (joint : String) (items : List Item) : String := (joined joint items).text

end Item

def isBlankSeparator (separators : List Char) (c : Char) : Bool :=
  (c == ' ' || c == '\t' || c == '\n') && separators.contains c

/-- The fields of items. Blank separators join, each other separator ends a field together with the blank
ones around it; `wasBlank` tells that blanks have ended the field before. -/
def fields (separators : List Char) (field : Option Pattern) (wasBlank : Bool) : List Item → List Pattern
  | [] => field.toList
  | .nothing :: rest => fields separators (some (field.getD [])) false rest
  | .boundary :: rest => field.toList ++ fields separators none false rest
  | .char c isQuoted splits :: rest =>
    if splits && separators.contains c then
      if isBlankSeparator separators c then field.toList ++ fields separators none (wasBlank || field.isSome) rest
      else if wasBlank then fields separators none false rest
      else field.getD [] :: fields separators none false rest
    else fields separators (some (field.getD [] ++ [(c, isQuoted)])) false rest

def openInput (text : List Char) : Run Stream := modifyGet fun s =>
  (.input s.inputCount, { s with inputs := (s.inputCount, text) :: s.inputs, inputCount := s.inputCount + 1 })

def setInput (rest : List Char) : Run Unit := modify fun s =>
  match s.stream 0 with
  | .input n => { s with inputs := (n, rest) :: s.inputs.filter (·.1 != n) }
  | _ => s

def setStream (n : Nat) (stream : Stream) : Run Unit := modify fun s =>
  { s with streams := (n, stream) :: s.streams.filter (·.1 != n) }

def keepingStreams {α : Type} (act : Run α) : Run α := do
  let held := (← get).streams
  let a ← act
  modify fun s => { s with streams := held }
  return a

def capturing (act : Run Unit) : Run String := do
  let held ← get
  let own := 10 + held.caught
  modify fun s => { s with caught := held.caught + 1 }
  keepingStreams do
    setStream 1 (.output own)
    act
  let text := textOn own (← get).written
  modify fun s => { s with caught := held.caught, written := s.written.filter (·.1 != own) }
  return text

/-- Runs something apart: of what it does to the shell only files, what was read and written, signals to the
outermost shell and the status stay. -/
def apart (act : Run Unit) : Run Unit := do
  let held ← get
  modify fun s => { s with
    traps := s.traps.filter (·.2.isEmpty), jobs := [], loopDepth := 0, depth := s.depth + 1
    outerTraps := if s.depth = 0 then s.traps else s.outerTraps }
  act
  modify fun s => { held with
    workspace := { s.workspace with directory := held.workspace.directory, environment := held.workspace.environment }
    inputs := s.inputs
    inputCount := s.inputCount
    written := s.written
    status := s.status
    signal := s.signal
    pending := s.pending
    leaving := if s.signal.isSome then s.leaving else held.leaving }

def creationProblem (w : Workspace) (path : String) : String :=
  match w.resolve path true with
  | .error .missing | .error .notDirectory => "Directory nonexistent"
  | _ => "Is a directory"

def giveUpReading (line : Nat) (text : String) : Run Unit := do
  modify fun s => { s with line := line }
  giveUp ("Syntax error: " ++ text)

def streamNamed? (word : String) : Option Nat :=
  match word.toList with
  | [c] => if c.isDigit then some (c.toNat - 48) else none
  | _ => none

def connect (n : Nat) (use : StreamUse) (target : String) : Run Bool := do
  let s ← get
  let failing (text : String) : Run Bool := do
    complain text
    return false
  match use with
  | .join =>
    if target == "-" then
      setStream n .closed
      return true
    match streamNamed? target with
    | none =>
      giveUpReading s.lineRead "Bad fd number"
      return false
    | some m =>
      if s.stream m == .closed then failing (target ++ ": Bad file descriptor")
      else
        setStream n (s.stream m)
        return true
  | .document =>
    setStream n (← openInput target.toList)
    return true
  | .read =>
    match s.workspace.status target with
    | .error _ => failing ("cannot open " ++ target ++ ": No such file")
    | .ok .directory =>
      setStream n .directory
      return true
    | .ok _ =>
      setStream n (← openInput ((s.workspace.read target).toOption.getD "").toList)
      return true
  | .append | .write | .replace =>
    let isThere := (s.workspace.status target).toOption.any fun e => e matches .file _ _
    if use == .write && s.isOn .noclobber && isThere then failing ("cannot create " ++ target ++ ": File exists")
    else
      let before := if use == .append then (s.workspace.read target).toOption.getD "" else ""
      match s.workspace.write target before, s.workspace.resolve target true with
      | .ok w, .ok parts =>
        set { s with workspace := w }
        setStream n (.file ("/" ++ "/".intercalate parts))
        return true
      | _, _ => failing ("cannot create " ++ target ++ ": " ++ creationProblem s.workspace target)

end CallFusion.Cli.Script
