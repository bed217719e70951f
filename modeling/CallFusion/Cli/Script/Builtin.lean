import CallFusion.Cli.Script.Format
import CallFusion.Cli.Script.Mode
import CallFusion.Cli.Script.Shell

/-! The commands that a shell has built in, and the signals that some of them name. -/
namespace CallFusion.Cli.Script

open Text

namespace Signal

def names : List String :=
  ["HUP", "INT", "QUIT", "ILL", "TRAP", "ABRT", "BUS", "FPE", "KILL", "USR1", "SEGV", "USR2", "PIPE", "ALRM", "TERM",
    "16", "CHLD", "CONT", "STOP", "TSTP", "TTIN", "TTOU", "URG", "XCPU", "XFSZ", "VTALRM", "PROF", "WINCH", "IO", "PWR",
    "SYS", "32", "33", "RTMIN"]
    ++ (List.range 15).map (fun n => "RTMIN+" ++ toString (n + 1))
    ++ (List.range 14).map (fun n => "RTMAX-" ++ toString (14 - n))
    ++ ["RTMAX"]

def endName : String := "EXIT"

def name? (n : Nat) : Option String := (endName :: names)[n]?

def ofDigits? (word : String) : Option Nat :=
  if !word.isEmpty && word.toList.all Char.isDigit then word.toNat?.filter (· ≤ names.length) else none

def ofWord? (least : Nat) (word : String) : Option Nat :=
  let word' := word.map Char.toUpper
  ofDigits? word <|> ((endName :: names).findIdx? (· == word')).filter (least ≤ ·)

def harmless : List Nat := [17, 18, 23, 28]

def terminate : Nat := 15

end Signal

def statusOf (b : Bool) : Nat := if b then 0 else 1

def refuse (text : String) : Run Nat := do
  complain text
  return 2

def abandon (text : String) : Run Nat := do
  giveUp text
  return 2

/-- The letters behind dashes at the start of words, and the other words; or a letter that is not allowed. -/
def flagLetters (allowed : List Char) : List String → Except Char (List Char × List String)
  | [] => .ok ([], [])
  | word :: words =>
    match word.toList with
    | ['-', '-'] => .ok ([], words)
    | '-' :: c :: cs =>
      match (c :: cs).find? fun d => !allowed.contains d with
      | some d => .error d
      | none => (flagLetters allowed words).map fun (letters, rest) => (c :: cs ++ letters, rest)
    | _ => .ok ([], word :: words)

def withFlags (allowed : String) (words : List String) (refusing : String → Run Nat)
    (act : List Char → List String → Run Nat) : Run Nat :=
  match flagLetters allowed.toList words with
  | .ok (letters, rest) => act letters rest
  | .error c => refusing ("Illegal option -" ++ String.singleton c)

/-- A line of input without its end, what follows it, and whether the end was there. Unless it is taken
as it is, a backslash takes the meaning of the next character away and joins lines. A character tells
whether it was protected. -/
def inputLine (isRaw : Bool) : List Char → List (Char × Bool) × List Char × Bool
  | [] => ([], [], false)
  | '\n' :: cs => ([], cs, true)
  | '\\' :: c :: cs =>
    if isRaw then
      if c == '\n' then ([('\\', false)], cs, true)
      else let (line, rest, ended) := inputLine isRaw cs; (('\\', false) :: (c, false) :: line, rest, ended)
    else
      let (line, rest, ended) := inputLine isRaw cs
      (if c == '\n' then line else (c, true) :: line, rest, ended)
  | c :: cs => let (line, rest, ended) := inputLine isRaw cs; (if c == '\x00' then line else (c, false) :: line, rest, ended)

/-- Spreads a line over variables; the last one takes all that is left. A single separator at the end of
what it takes does not count if nothing else would be left. -/
def spread (separators : List Char) : List String → List (Char × Bool) → List (String × String)
  | [], _ => []
  | names, cs =>
    let isBlank (c : Char × Bool) : Bool := !c.2 && isBlankSeparator separators c.1
    let isSeparator (c : Char × Bool) : Bool := !c.2 && separators.contains c.1
    let plain (cs : List (Char × Bool)) : String := String.ofList (cs.map (·.1))
    let trimEnd (cs : List (Char × Bool)) : List (Char × Bool) := (cs.reverse.dropWhile isBlank).reverse
    let cs := cs.dropWhile isBlank
    match names with
    | [] => []
    | [name] =>
      let kept := trimEnd cs
      let field := kept.takeWhile fun c => !isSeparator c
      -- one field with a separator behind it and nothing more
      let behind := (kept.drop field.length).dropWhile isBlank
      let isWhole := behind.length == 1 && behind.all isSeparator
      [(name, plain (if isWhole then trimEnd field else kept))]
    | name :: names =>
      let value := cs.takeWhile fun c => !isSeparator c
      let rest := (cs.drop value.length).dropWhile isBlank
      let rest := if rest.head?.any isSeparator then rest.tail else rest
      (name, plain value) :: spread separators names rest

def splitAssignment (word : String) : String × Option String :=
  let name := word.toList.takeWhile (· != '=')
  (String.ofList name, if name.length < word.length then some (word.drop (name.length + 1)).toString else none)

def singleQuoted (s : String) : String := go (s.length + 1) s.toList
where
  go : Nat → List Char → String
    | 0, _ => ""
    | fuel + 1, cs =>
      let plain := cs.takeWhile (· != '\'')
      let rest := cs.drop plain.length
      let quotes := rest.takeWhile (· == '\'')
      let more := rest.drop quotes.length
      "\'" ++ String.ofList plain ++ "\'" ++ (if quotes.isEmpty then "" else "\"" ++ String.ofList quotes ++ "\"")
        ++ (if more.isEmpty then "" else go fuel more)

def settingLine (name value : String) : String := name ++ "=" ++ singleQuoted value

def listVariables (front : String) (shown : Shell → String → Bool) : Run Unit := do
  let s ← get
  let named := (s.allBindings.map (·.1) ++ s.exported ++ s.fixed).eraseDups.mergeSort fun a b => a ≤ b
  (named.filter (shown s)).forM fun name =>
    match s.value? name with
    | some value => emit 1 (front ++ settingLine name value ++ "\n")
    | none => emit 1 (front ++ name ++ "\n")

def declare (words : List String) (mark : String → Shell → Shell) : Run Unit :=
  words.forM fun word => do
    let (name, value?) := splitAssignment word
    if (← get).leaving == some .script then return
    if !isName name then giveUp (name ++ ": bad variable name")
    else
      match value? with
      | some value => assign name value
      | none => pure ()
      modify (mark name)

def markVariables (front : String) (words : List String) (isMarked : Shell → String → Bool)
    (mark : String → Shell → Shell) : Run Nat :=
  withFlags "p" words abandon fun letters rest => do
    if rest.isEmpty || !letters.isEmpty then
      listVariables (front ++ " ") isMarked
      return 0
    declare rest mark
    let s ← get
    return if s.leaving == some .script then s.status else 0

def declareLocals (words : List String) : Run Unit := do
  match (← get).locals with
  | none => giveUp "not in a function"
  | some _ => words.forM fun word => do
    if word == "-" then
      modify fun s => { s with locals := s.locals.map fun l => { l with switches := l.switches <|> some s.switches } }
    else
      let (name, value?) := splitAssignment word
      modify fun s => { s with
        locals := s.locals.map fun l => { l with bindings := (name, s.bindings.lookup name) :: l.bindings } }
      match value? with
      | some value => assign name value
      | none => return

structure SwitchWords where
  on : List Switch
  hasCommand : Bool := false
  printed : String := ""
  words : List String
  isEnded : Bool := false

def turnLetters (isStart isOn : Bool) : List Char → SwitchWords → Except String SwitchWords
  | [], r => .ok r
  | c :: cs, r =>
    if isStart && c == 'c' then turnLetters isStart isOn cs { r with hasCommand := true }
    else if isStart && c == 'l' then turnLetters isStart isOn cs r
    else if c == 'o' then
      match r.words with
      | [] => turnLetters isStart isOn cs { r with printed := r.printed ++ Switch.table r.on (!isOn) }
      | name :: words =>
        match Switch.ofName? name with
        | some w => turnLetters isStart isOn cs { r with on := Switch.turn r.on w isOn, words := words }
        | none => .error ("Illegal option -o " ++ name)
    else match Switch.ofLetter? c with
      | some w => turnLetters isStart isOn cs { r with on := Switch.turn r.on w isOn }
      | none => .error ("Illegal option -" ++ String.singleton c)

def turnSwitches (isStart : Bool) (on : List Switch) : Nat → List String → Except String SwitchWords
  | 0, words => .ok ⟨on, false, "", words, false⟩
  | _, [] => .ok ⟨on, false, "", [], false⟩
  | fuel + 1, word :: words =>
    match word.toList with
    | ['-'] =>
      let quiet := if isStart then on else Switch.turn (Switch.turn on .xtrace false) .verbose false
      .ok ⟨quiet, false, "", words, false⟩
    | ['-', '-'] => .ok ⟨on, false, "", words, true⟩
    | c :: letters =>
      if c == '-' || c == '+' then do
        let r ← turnLetters isStart (c == '-') letters ⟨on, false, "", words, false⟩
        let more ← turnSwitches isStart r.on fuel r.words
        return { more with hasCommand := r.hasCommand || more.hasCommand, printed := r.printed ++ more.printed }
      else .ok ⟨on, false, "", word :: words, false⟩
    | [] => .ok ⟨on, false, "", word :: words, false⟩

def setSwitches (words : List String) : Run Nat := do
  if words.isEmpty then
    listVariables "" fun s name => (s.value? name).isSome
    return 0
  match turnSwitches false (← get).switches (words.length + 1) words with
  | .error text => abandon text
  | .ok r =>
    modify fun s => { s with switches := r.on }
    emit 1 r.printed
    if r.isEnded || !r.words.isEmpty then setArgs r.words
    return 0

def numbered (words : List String) (otherwise : Nat) (act : Nat → Run Nat) : Run Nat := do
  match words with
  | [] => act otherwise
  | word :: _ =>
    match numberText? word with
    | some (.ofNat n) => act n
    | _ => abandon ("Illegal number: " ++ word)

def shift (n : Nat) : Run Nat := do
  let args := (← get).args
  if n ≤ args.length then
    setArgs (args.drop n)
    return 0
  abandon "can't shift that many"

def leaveLoops (words : List String) (goesOn : Bool) : Run Nat :=
  numbered words 1 fun n => do
    if n = 0 then return ← abandon ("Illegal number: " ++ words.headD "")
    modify fun s => if s.loopDepth = 0 then s else { s with leaving := some (.loops (min n s.loopDepth) goesOn) }
    return 0

def evaluate (words : List String) : Run Nat := do
  match Condition.holds (← get).workspace words with
  | .ok b => return statusOf b
  | .error text => refuse text

/-- Sends a signal to the script. It waits until its action can run, does nothing, or ends the script. -/
def receive (n : Nat) : Run Unit := modify fun s =>
  let traps := if s.depth = 0 then s.traps else s.outerTraps
  match traps.lookup n with
  | some action => if action.isEmpty || s.pending.contains n then s else { s with pending := s.pending ++ [n] }
  | none =>
    if n = 0 || Signal.harmless.contains n then s else { s with leaving := some .script, signal := some n }

def killUsage : String := "Usage: kill [-s sigspec | -signum | -sigspec] [pid | job]... or\nkill -l [exitstatus]"

def showSignals (words : List String) : Run Nat := do
  match words with
  | [] =>
    emit 1 ("0\n" ++ String.join (Signal.names.map (· ++ "\n")))
    return 0
  | word :: _ =>
    match numberText? word with
    | some (.ofNat n) =>
      let n := if 128 < n then n - 128 else n
      match if n = 0 then none else Signal.name? n with
      | some name =>
        emit 1 (name ++ "\n")
        return 0
      | none => refuse ("invalid signal number or exit status: " ++ word)
    | _ => refuse ("Illegal number: " ++ word)

def sendSignal (signal : Nat) : List String → Run Nat
  | [] => return 0
  | target :: rest => do
    if target.startsWith "%" then return ← refuse ("No such job: " ++ target)
    match numberText? target with
    | some n =>
      let status ← if n == (Shell.processNumber : Int) then do
          receive signal
          pure 0
        else do
          complain "No such process\n"
          pure 1
      return max status (← sendSignal signal rest)
    | none => refuse ("Illegal number: " ++ target)

def kill (words : List String) : Run Nat := do
  let send (signal : Nat) (targets : List String) : Run Nat :=
    if targets.isEmpty then refuse killUsage else sendSignal signal targets
  match words with
  | [] => refuse killUsage
  | word :: rest =>
    if !word.startsWith "-" then return ← sendSignal Signal.terminate words
    match Signal.ofWord? 1 (word.drop 1).toString, word.toList, rest with
    | some signal, _, _ => send signal rest
    | none, ['-', 'l'], _ => showSignals rest
    | none, ['-', '-'], _ => send Signal.terminate rest
    | none, ['-', 's'], [] => refuse "No arg for -s option"
    | none, ['-', 's'], name :: targets =>
      match Signal.ofWord? 1 name with
      | some signal => send signal targets
      | none => refuse ("invalid signal number or name: " ++ name)
    | none, '-' :: 's' :: name, _ =>
      match Signal.ofWord? 1 (String.ofList name) with
      | some signal => send signal rest
      | none => refuse ("invalid signal number or name: " ++ String.ofList name)
    | none, _ :: c :: _, _ => refuse ("Illegal option -" ++ String.singleton c)
    | none, _, _ => refuse killUsage

def setTraps (action : Option String) : List String → Run Nat
  | [] => return 0
  | word :: rest => do
    match Signal.ofWord? 0 word with
    | none =>
      emit 2 ("trap: " ++ word ++ ": bad trap\n")
      return 1
    | some n =>
      modify fun s => { s with traps := (action.map (n, ·)).toList ++ s.traps.filter (·.1 != n) }
      setTraps action rest

def trap (words : List String) : Run Nat :=
  withFlags "" (if words.head? == some "-" then "--" :: words else words) abandon fun _ rest => do
    match rest with
    | [] =>
      let s ← get
      (s.traps.mergeSort fun a b => a.1 ≤ b.1).forM fun (n, action) =>
        emit 1 ("trap -- " ++ singleQuoted action ++ " " ++ (Signal.name? n).getD "" ++ "\n")
      return 0
    | [word] => setTraps none [word]
    | action :: conditions =>
      if (Signal.ofDigits? action).isSome then setTraps none rest
      else setTraps (if action == "-" then none else some action) conditions

def moveTo (words : List String) : Run Nat :=
  withFlags "LP" (if words.head? == some "-" then "--" :: words else words) refuse fun _ rest => do
    let s ← get
    let here := "/" ++ "/".intercalate s.workspace.directory
    let isBack := rest.head? == some "-"
    let target := if isBack then (s.value? "OLDPWD").getD "" else rest.headD ((s.value? "HOME").getD "")
    let isPlain := target.startsWith "/" || target == "." || target == ".." || target.startsWith "./" || target.startsWith "../"
    let isDirectory (path : String) : Bool := (s.workspace.status path).toOption.any fun e => e matches .directory
    let path := if target.isEmpty then "." else target
    let places := if isPlain then [] else (((s.value? "CDPATH").getD "").splitOn ":").filter fun d =>
      !d.isEmpty && isDirectory (d ++ "/" ++ path)
    let found := match places with
      | d :: _ => d ++ "/" ++ path
      | [] => path
    match isDirectory found, s.workspace.resolve found false with
    | true, .ok parts =>
      let there := "/" ++ "/".intercalate parts
      set { s with workspace := { s.workspace with directory := parts }, exported := "OLDPWD" :: s.exported }
      setVariable "OLDPWD" (some here)
      setVariable "PWD" (some there)
      if isBack || !places.isEmpty then emit 1 (there ++ "\n")
      return 0
    | _, _ => refuse ("can't cd to " ++ target)

def echo (words : List String) : Run Nat := do
  let (noEnd, words) := match words with
    | "-n" :: words => (true, words)
    | words => (false, words)
  let line := " ".intercalate words
  let (text, ended) := unescaped (line.length + 1) line.toList
  emit 1 (String.ofList text ++ (if noEnd || ended then "" else "\n"))
  return 0

def printf (words : List String) : Run Nat :=
  withFlags "" words refuse fun _ words => do
    match words with
    | format :: words =>
      let p := formatted format.toList (words.length + 1) words
      emit 1 (String.ofList p.text)
      p.complaints.forM complain
      match p.problem with
      | some text => refuse text
      | none => return statusOf p.complaints.isEmpty
    | [] => refuse "usage: printf format [arg ...]"

def readLine (words : List String) : Run Nat := do
  let (prompted, words) := match words with
    | "-p" :: _ :: words => (true, words)
    | words => (false, words)
  withFlags (if prompted then "r" else "pr") words refuse fun letters names => do
    if letters.contains 'p' then return ← refuse "No arg for -p option"
    if names.isEmpty then return ← refuse "arg count"
    match names.find? fun name => !isName name with
    | some name => refuse (name ++ ": bad variable name")
    | none =>
      let s ← get
      match s.input? with
      | none =>
        names.forM fun name => assign name ""
        return 1
      | some text =>
        let (line, rest, ended) := inputLine (letters.contains 'r') text
        setInput rest
        (spread s.separators names line).forM fun (name, value) => assign name value
        return statusOf ended

def aliasPlace (name : String) : Nat :=
  let bytes := name.toList.map Char.toNat
  (bytes.headD 0 * 16 + bytes.foldl (· + ·) 0) % 39

def setAliases (words : List String) : Run Nat := do
  if words.isEmpty then
    let s ← get
    let listed := (List.range 39).flatMap fun k => s.aliases.filter (aliasPlace ·.1 == k)
    listed.forM fun (name, text) => emit 1 (settingLine name text ++ "\n")
    return 0
  words.foldlM (fun status word => do
    let name := String.ofList (word.toList.take 1 ++ (word.toList.drop 1).takeWhile (· != '='))
    let aliases := (← get).aliases
    if name.length < word.length then
      let text := (word.drop (name.length + 1)).toString
      let known := aliases.any (·.1 == name)
      modify fun s => { s with
        aliases := if known then aliases.map fun a => if a.1 == name then (name, text) else a
          else aliases ++ [(name, text)] }
      return status
    else match aliases.lookup name with
      | some text =>
        emit 1 (settingLine name text ++ "\n")
        return status
      | none =>
        emit 2 ("alias: " ++ name ++ " not found\n")
        return 1) 0

def dropAliases (words : List String) : Run Nat :=
  withFlags "a" words refuse fun letters words => do
    if !letters.isEmpty then
      modify fun s => { s with aliases := [] }
      return 0
    words.foldlM (fun status word => do
      let aliases := (← get).aliases
      if aliases.any (·.1 == word) then
        modify fun s => { s with aliases := aliases.filter (·.1 != word) }
        return status
      emit 2 ("unalias: " ++ word ++ " not found\n")
      return 1) 0

def optionTakesValue? (letter : Char) : List Char → Option Bool
  | [] => none
  | [c] => if c == letter then some false else none
  | c :: ':' :: cs => if c == letter then some true else optionTakesValue? letter cs
  | c :: d :: cs => if c == letter then some false else optionTakesValue? letter (d :: cs)

inductive OptionFound where
  | nothing
  | option (letter : Char) (value : String)
  | unknown (letter : Char)
  | valueless (letter : Char)
  deriving DecidableEq, Repr, Inhabited

/-- Looks for the next option among arguments; tells what is found and where to go on. -/
def OptionPlace.find (p : OptionPlace) (allowed : List Char) (args : List String) : OptionFound × OptionPlace :=
  let argument (n : Nat) : Option (List Char) := if n = 0 then none else (args[n - 1]?).map String.toList
  let begun := match p.offset with
    | some k => ((argument (p.next - 1)).getD []).drop k
    | none => []
  match begun, argument p.next with
  | [], none => (.nothing, ⟨p.next, none⟩)
  | [], some ['-', '-'] => (.nothing, ⟨p.next + 1, none⟩)
  | [], some ('-' :: c :: cs) => letter c cs 2 (p.next + 1) argument
  | [], some _ => (.nothing, ⟨p.next, none⟩)
  | c :: cs, _ => letter c cs (p.offset.getD 0 + 1) p.next argument
where
  letter (c : Char) (cs : List Char) (offset next : Nat) (argument : Nat → Option (List Char)) :
      OptionFound × OptionPlace :=
    match optionTakesValue? c allowed with
    | none => (.unknown c, ⟨next, some offset⟩)
    | some false => (.option c "", ⟨next, some offset⟩)
    | some true =>
      if !cs.isEmpty then (.option c (String.ofList cs), ⟨next, none⟩)
      else match argument next with
        | some value => (.option c (String.ofList value), ⟨next + 1, none⟩)
        | none => (.valueless c, ⟨next, none⟩)

def readOption (words : List String) : Run Nat := do
  match words with
  | allowed :: name :: more =>
    let s ← get
    let args := if more.isEmpty then s.args else more
    let place := if args.length + 1 < s.options.next then {} else s.options
    let (found, place) := place.find allowed.toList args
    let isSilent := allowed.startsWith ":"
    let text ← match found with
      | .nothing => pure "?"
      | .option c value => do
        assign "OPTARG" value
        pure (String.singleton c)
      | .unknown c | .valueless c => do
        let isUnknown := found == .unknown c
        if isSilent then
          assign "OPTARG" (String.singleton c)
          pure (if isUnknown then "?" else ":")
        else
          let letter := String.singleton c
          emit 2 (if isUnknown then "Illegal option -" ++ letter ++ "\n" else "No arg for -" ++ letter ++ " option\n")
          setVariable "OPTARG" none
          pure "?"
    setVariable "OPTIND" (some (toString place.next))
    assign name text
    modify fun s => { s with options := place }
    return statusOf (found != .nothing)
  | _ => refuse "Usage: getopts optstring var [arg...]"

def setMask (words : List String) : Run Nat :=
  withFlags "S" words refuse fun letters rest => do
    let mask := (← get).mask
    match rest with
    | [] =>
      emit 1 ((if letters.isEmpty then Mode.digits mask else Mode.letters mask) ++ "\n")
      return 0
    | word :: _ =>
      let isDigits := word.toList.head?.any Char.isDigit
      match if isDigits then Mode.ofDigits? word else Mode.ofLetters? mask word with
      | some mask =>
        modify fun s => { s with mask := mask }
        return 0
      | none => refuse ((if isDigits then "Illegal number: " else "Illegal mode: ") ++ word)

def unsetNames (words : List String) : Run Nat :=
  withFlags "vf" words abandon fun letters rest => do
    rest.forM fun name => do
      let s ← get
      if s.leaving == some .script then return
      if letters.getLast? == some 'f' then
        set { s with functions := s.functions.filter (·.1 != name) }
      else if !isName name then giveUp (name ++ ": bad variable name")
      else if s.fixed.contains name then giveUp (name ++ ": is read only")
      else if name == "OPTIND" then giveUp "Illegal number: "
      else
        setVariable name none
        modify fun s => { s with
          exported := s.exported.filter (· != name)
          workspace := { s.workspace with environment := s.workspace.environment.unset name } }
    let s ← get
    return if s.leaving == some .script then s.status else 0

def waitFor : List String → Run Nat
  | [] => return 0
  | words => do
    let s ← get
    words.foldlM (fun _ word => do
      if word.startsWith "%" then return ← refuse ("No such job: " ++ word)
      match numberText? word with
      | some (.ofNat n) =>
        let first := Shell.processNumber + 1
        return if n < first then 127 else (s.jobs.reverse[n - first]?).getD 127
      | _ => refuse ("Illegal number: " ++ word)) 0

def findPrograms (isBuiltin : String → Bool) (words : List String) : Run Nat :=
  withFlags "rv" words refuse fun _ rest =>
    rest.foldlM (fun status name => do
      let s ← get
      if isBuiltin name || (s.functions.lookup name).isSome || (s.program? name).isSome then return status
      complain (name ++ ": not found")
      return 1) 0

def builtin? (name : String) (words : List String) : Option (Run Nat) :=
  let silent (act : Run Unit) : Option (Run Nat) := some do
    act
    let s ← get
    return if s.leaving == some .script then s.status else 0
  match name with
  | "echo" => some (echo words)
  | "printf" => some (printf words)
  | "read" => some (readLine words)
  | "exit" => some do numbered words (← get).status fun n => do
    modify fun s => { s with leaving := some .script }
    return n % 256
  | "return" => some do numbered words (← get).status fun n => do
    modify fun s => { s with leaving := some (if s.locals.isSome || 0 < s.fileDepth then .function else .script) }
    return n % 256
  | "break" => some (leaveLoops words false)
  | "continue" => some (leaveLoops words true)
  | "[" => if words.getLast? == some "]" then some (evaluate words.dropLast) else some (refuse "missing ]")
  | "test" => some (evaluate words)
  | "false" => some (return 1)
  | "alias" => some (setAliases words)
  | "unalias" => some (dropAliases words)
  | "getopts" => some (readOption words)
  | "wait" => some (waitFor words)
  | "fg" | "bg" => some (refuse "No current job")
  | "times" => some do
    emit 1 "0m0.00s 0m0.00s\n0m0.00s 0m0.00s\n"
    return 0
  | "true" | ":" => some (return 0)
  | "ulimit" => some (withFlags "HSatfdscmlpnvwr" words refuse fun _ _ => return 0)
  | "jobs" => some (withFlags "lp" words refuse fun _ _ => return 0)
  | "trap" => some (trap words)
  | "kill" => some (kill words)
  | "umask" => some (setMask words)
  | "shift" => some (numbered words 1 shift)
  | "export" => some (markVariables "export" words
      (fun s name => s.exported.contains name || (s.workspace.environment.get? name).isSome)
      (fun name s => { s with exported := name :: s.exported }))
  | "readonly" => some (markVariables "readonly" words (fun s name => s.fixed.contains name)
      (fun name s => { s with fixed := name :: s.fixed }))
  | "local" => silent (declareLocals words)
  | "unset" => some (unsetNames words)
  | "set" => some (setSwitches words)
  | "pwd" => some (withFlags "LP" words refuse fun _ _ => do
    emit 1 ("/" ++ "/".intercalate (← get).workspace.directory ++ "\n")
    return 0)
  | "cd" | "chdir" => some (moveTo words)
  | _ => none

def isBuiltin (name : String) : Bool :=
  specialCommands.contains name || ["command", "type", "hash"].contains name || (builtin? name []).isSome

def assigningCommands : List String := ["alias", "export", "local", "readonly"]

def described? (s : Shell) (word : String) (inWords : Bool) : Option String :=
  let either (text : String) : String := if inWords then word ++ text else word
  if keywords.contains word then some (either " is a shell keyword")
  else match s.aliases.lookup word with
    | some text => some (if inWords then word ++ " is an alias for " ++ text else "alias " ++ settingLine word text)
    | none =>
      if (s.functions.lookup word).isSome then some (either " is a shell function")
      else if specialCommands.contains word then some (either " is a special shell builtin")
      else if isBuiltin word then some (either " is a shell builtin")
      else (s.program? word).map fun path => if inWords then word ++ " is " ++ path else path

def describe (inWords : Bool) (word : String) : Run Nat := do
  match described? (← get) word inWords with
  | some text =>
    emit 1 (text ++ "\n")
    return 0
  | none =>
    if inWords then emit 1 (word ++ ": not found\n")
    return 127

end CallFusion.Cli.Script
