import CallFusion.Cli.Command

/-!
Completion of command lines: what a shell may offer in the place of the word that is being typed, from the
commands, flags and arguments that a program knows.
-/
namespace CallFusion.Cli

open Text

/-- What the word being typed belongs to: the flag whose value it is, if it is one, the words before it
that count, and the part of it that is the value; or that the flag is not known. -/
structure Typed where
  flag : Option Flag := none
  before : List String
  word : String
  unknown : Bool := false
  deriving Repr, Inhabited

def flagNamed? (flags : List Flag) (name : String) : Option Flag :=
  match name.toList with
  | [c] => findShort flags c
  | _ => findLong flags name

def flagNameIn (word : String) : String :=
  if word.startsWith "--" then (word.drop 2).toString else (word.takeEnd 1).toString

def isFlagWord (word : String) : Bool :=
  match word.toList with
  | '-' :: '-' :: _ :: _ => true
  | '-' :: c :: _ => c != '-'
  | _ => false

def typedWord (flags : List Flag) (before : List String) (word : String) : Typed :=
  let plain : Typed := { before := before, word := word }
  if word.startsWith "-" then
    match splitValue word.toList with
    | (_, none) => plain
    | (name, some value) =>
      match flagNamed? flags (flagNameIn name) with
      | some f => { flag := some f, before := before, word := value }
      | none => { plain with unknown := true }
  else match before.getLast? with
    | none => plain
    | some last =>
      if !isFlagWord last || last.contains '=' then plain
      else match flagNamed? flags (flagNameIn last) with
        | none => { plain with unknown := true }
        | some f => if f.alone?.isSome then plain else { flag := some f, before := before.dropLast, word := word }

def Flag.spellings (f : Flag) (word : String) : List String :=
  let forms := ("--" ++ f.name) :: (f.short.map fun c => "-" ++ String.singleton c).toList
  (forms.filter (·.startsWith word)).map (Suggestions.noted · f.usage)

/-- Whether a flag may still be given: once, unless it takes several values, and not beside one that
excludes it. -/
def Flag.isOpen (f : Flag) (exclusive : List String) (g : Given) : Bool :=
  let rivals := exclusive.filter (· != f.name)
  (!g.isSet f.name || f.kind == .texts) && !(exclusive.contains f.name && rivals.any g.isSet)

namespace Program

def completionWord : String := "__complete"
def bareCompletionWord : String := "__completeNoDesc"

def completionRequest? (p : Program) (args : List String) : Option (String × List String) :=
  match plainWords p.flags args with
  | word :: _ =>
    if word == completionWord || word == bareCompletionWord then some (word, withoutWord p.flags word args) else none
  | [] => none

def commandsFor (p : Program) (word : String) : List String :=
  let commands := p.commands.mergeSort fun a b => a.name ≤ b.name
  (commands.filter (·.name.startsWith word)).map fun c => Suggestions.noted c.name c.short

def flagsFor (p : Program) (c : Option Command) (g : Given) (word : String) : List String :=
  let sorted (flags : List Flag) := flags.mergeSort fun a b => a.name ≤ b.name
  let flags := match c with
    | none => sorted (helpFlag p.name :: p.flags)
    | some c => sorted p.flags ++ sorted (helpFlag c.name :: c.flags)
  let exclusive := (c.map (·.exclusive)).getD []
  (flags.filter (·.isOpen exclusive g)).flatMap (·.spellings word)

/-- Arguments of a command that a word may become. The command that explains others takes their names. -/
def argsFor (p : Program) (c : Command) (args : List String) (word : String) : Suggestions :=
  match c.rule, c.offers with
  | .oneOf valid, _ => if args.isEmpty then ⟨valid.filter (·.startsWith word), .noFiles⟩ else .files
  | _, some offers => offers args
  | _, none =>
    if c.name != "help" then .files
    else match p.find args with
      | .ok (none, _) => ⟨p.commandsFor word, .noFiles⟩
      | _ => .nothing

def offersFor (p : Program) (c : Option Command) (t : Typed) (g : Given) (flagsEnded : Bool) : Suggestions :=
  let isFlagName := t.flag.isNone && t.word.startsWith "-" && !t.word.contains '='
  if isFlagName && !flagsEnded then ⟨p.flagsFor c g t.word, .noFiles⟩
  else match t.flag, flagsEnded, c with
    | some f, false, _ => f.offers.getD .files
    | none, _, none => if g.args.isEmpty then ⟨p.commandsFor t.word, .noFiles⟩ else .files
    | some _, _, none => .files
    | _, _, some c => p.argsFor c g.args t.word

/-- Completes a word behind others. Words that cannot be read leave the names of files. -/
def complete (p : Program) (before : List String) (word : String) : Suggestions :=
  match p.find before with
  | .error _ => .files
  | .ok (c, rest) =>
    let flags := match c with
      | none => helpFlag p.name :: p.flags
      | some c => p.flagsOf c
    let t := typedWord flags rest word
    match readArgs flags {} t.before with
    | .error _ => .files
    | .ok g =>
      let marked := (readArgs flags {} (t.before ++ ["--"])).toOption
      let flagsEnded := marked.any fun m => g.args.length < m.args.length
      if t.unknown then
        if flagsEnded then p.offersFor c t g true else .files
      else if g.isSet "help" then .nothing
      else p.offersFor c t g flagsEnded

end Program
end CallFusion.Cli
