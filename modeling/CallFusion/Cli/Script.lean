import CallFusion.Cli.Script.Builtin
import CallFusion.Cli.Script.Sum
import CallFusion.Cli.Script.Utility

/-!
Running small shell scripts. A tool that is such a script can be run without leaving the workspace. The
commands are those that the shell has built in, functions of the script, and other scripts on the search
path.
-/
namespace CallFusion.Cli.Script

open Text

structure Loaded where
  source : String
  interpreter : String
  options : List String
  deriving Repr, Inhabited

def interpreter? (source : String) : Option (String × List String) :=
  match source.toList with
  | '#' :: '!' :: rest =>
    let line := (rest.takeWhile (· != '\n')).dropWhile isBlank
    let path := line.takeWhile fun c => !isBlank c
    let option := trimWith isBlank (String.ofList (line.drop path.length))
    if path.isEmpty then none else some (String.ofList path, if option.isEmpty then [] else [option])
  | _ => none

def shells : List String := ["/bin/sh", "/bin/bash", "/bin/dash", "/usr/bin/sh", "/usr/bin/bash", "/usr/bin/dash"]

def finder : String := "/usr/bin/env"

def load (w : Workspace) (path : String) : Except LaunchFault Loaded :=
  match w.status path with
  | .error f => .error (.failed path f.text)
  | .ok (.file source true) =>
    match interpreter? source with
    | none => .error (.failed path "exec format error")
    | some (interpreter, options) =>
      let isThere := match w.status interpreter with
        | .ok (.program _) => true
        | _ => shells.contains interpreter || interpreter == finder
      if isThere then .ok ⟨source, interpreter, options⟩ else .error (.failed path PathFault.missing.text)
  | .ok _ => .error (.failed path "permission denied")

/-- What a shell is started with: a text to run, the name and the arguments that it has then, the switches
that are on, and the input that is left. -/
structure ShellCall where
  source : String
  title : String
  args : List String
  switches : List Switch
  input : String

def shellCall (w : Workspace) (path : String) (args : List String) (input : String) : Except String ShellCall := do
  let failing (text : String) : String := path ++ ": 0: " ++ text ++ "\n"
  let r ← (turnSwitches true [] (args.length + 1) args).mapError failing
  if r.hasCommand then
    match r.words with
    | [] => .error (failing "-c requires an argument")
    | commands :: rest => return ⟨commands, rest.headD path, rest.drop 1, r.on, input⟩
  else match r.words, r.on.contains .stdin with
    | [], _ => return ⟨input, path, [], Switch.turn r.on .stdin true, ""⟩
    | words, true => return ⟨input, path, words, r.on, ""⟩
    | file :: rest, false =>
      match w.read file with
      | .ok source => return ⟨source, file, rest, r.on, input⟩
      | .error _ => .error (failing ("cannot open " ++ file ++ ": No such file"))

def isMissing (emptyCounts : Bool) (value : Option String) : Bool :=
  match value with
  | none => true
  | some v => emptyCounts && v.isEmpty

/-- Takes one loop off what is being left; tells whether the loop goes on. -/
def endTurn : Run Bool := do
  let s ← get
  match s.leaving with
  | none => return true
  | some (.loops levels goesOn) =>
    if levels ≤ 1 then
      set { s with leaving := none }
      return goesOn
    set { s with leaving := some (.loops (levels - 1) goesOn) }
    return false
  | some _ => return false

def noteFailure (isTested : Bool) : Run Unit := modify fun s =>
  if s.isOn .errexit && !isTested && s.status != 0 && s.leaving.isNone then { s with leaving := some .script } else s

def trace (words : List String) : Run Unit := do
  let s ← get
  if s.isOn .xtrace && !words.isEmpty then emit 2 ((s.value? "PS4").getD "" ++ " ".intercalate words ++ "\n")

def looping (act : Run Unit) : Run Unit := do
  modify fun s => { s with loopDepth := s.loopDepth + 1 }
  act
  modify fun s => { s with loopDepth := s.loopDepth - 1 }

def concerning (name : String) (act : Run Unit) : Run Unit := do
  let held := (← get).about
  modify fun s => { s with about := name }
  act
  modify fun s => { s with about := held }

def runBuiltin (name : String) (act : Run Nat) : Run Unit :=
  concerning name do
    modify fun s => { s with lostOutput := false }
    let status ← act
    if (← get).lostOutput then
      complain (name ++ ": I/O error")
      setStatus (max status 1)
    else setStatus status

def isAssignment (word : List Piece) : Bool :=
  let name := word.takeWhile fun p => match p with
    | .plain c isQuoted => !isQuoted && isNameChar c
    | _ => false
  let startsName := match name with
    | .plain c _ :: _ => isNameStart c
    | _ => false
  startsName && match word.drop name.length with
    | .plain c isQuoted :: _ => c == '=' && !isQuoted
    | _ => false

def assignmentPieces (word : List Piece) : List Piece :=
  let isEqual : Piece → Bool
    | .plain c isQuoted => c == '=' && !isQuoted
    | _ => false
  let name := word.takeWhile fun p => !isEqual p
  name ++ (word.drop name.length).take 1 ++ withHomes true (word.drop (name.length + 1))

def arithmeticValue (s : Shell) (name : String) : Except Sum.Problem Int :=
  match Sum.ofText? ((s.value? name).getD "") with
  | some n => .ok n
  | none => .error (.number ((s.value? name).getD ""))

def inFile (act : Run Unit) : Run Unit := do
  modify fun s => { s with fileDepth := s.fileDepth + 1 }
  act
  modify fun s => { s with fileDepth := s.fileDepth - 1, leaving := s.leaving.filter (· != .function) }

mutual
def items (fuel : Nat) : List Piece → Run (List Item)
  | [] => return []
  | p :: ps =>
    match fuel with
    | 0 => return []
    | fuel + 1 => do
      let first ← item fuel p
      return first ++ (← items fuel ps)

def item (fuel : Nat) (p : Piece) : Run (List Item) :=
  match fuel with
  | 0 => return []
  | fuel + 1 =>
    match p with
    | .plain c isQuoted => return [.char c isQuoted false]
    | .nothing => return [.nothing]
    | .home => return Item.ofValue true (((← get).value? "HOME").getD "~")
    | .variable "@" .keep isQuoted => return Item.ofValues isQuoted (← get).args
    | .variable "*" .keep false => return Item.ofValues false (← get).args
    | .variable name change isQuoted => changed fuel name change isQuoted
    | .output commands isQuoted => do
      let text ← capturing (subshell fuel (runAll fuel false commands))
      return Item.ofValue isQuoted (trimEndWith (· == '\n') (String.ofList (text.toList.filter (· != '\x00'))))
    | .sum expression isQuoted => do
      let text := Item.text (← get).joint (← items fuel expression)
      match Sum.evaluate (arithmeticValue (← get)) text with
      | .ok (n, values) =>
        values.reverse.forM fun (name, k) => assign name (toString k)
        return Item.ofValue isQuoted (toString n)
      | .error (.reading problem) =>
        giveUp ("arithmetic expression: " ++ problem ++ ": \"" ++ text ++ "\"")
        return []
      | .error (.number word) =>
        giveUp ("Illegal number: " ++ word)
        return []

def changed (fuel : Nat) (name : String) (change : Change) (isQuoted : Bool) : Run (List Item) :=
  match fuel with
  | 0 => return []
  | fuel + 1 => do
    let s ← get
    let value := s.value? name
    let plain := Item.ofValue isQuoted (value.getD "")
    let isRefused := s.isOn .nounset && value.isNone && name != "@" && name != "*"
    match change with
    | .unknown =>
      giveUp "Bad substitution"
      return []
    | .orElse fallback emptyCounts word =>
      match fallback, isMissing emptyCounts value with
      | .use, true | .replace, false => return Item.splitting (← items fuel word)
      | .replace, true => return if isQuoted then [.nothing] else []
      | .assign, true =>
        let text := Item.text s.joint (← items fuel word)
        assign name text
        return Item.ofValue isQuoted text
      | .complain, true =>
        let text := Item.text s.joint (← items fuel word)
        let standard := if emptyCounts then "parameter not set or null" else "parameter not set"
        giveUp (name ++ ": " ++ if text.isEmpty then standard else text)
        return []
      | _, false => return plain
    | .keep | .length | .strip _ _ _ =>
      if isRefused then
        giveUp (name ++ ": parameter not set")
        return []
      match change with
      | .length => return Item.ofValue isQuoted (toString (value.getD "").length)
      | .strip fromEnd longest pattern =>
        let p := Item.joined s.joint (← items fuel pattern)
        let cs := (value.getD "").toList
        return Item.ofValue isQuoted (String.ofList (if fromEnd then p.stripEnd longest cs else p.stripStart longest cs))
      | _ => return plain

def fieldsOf (fuel : Nat) : List (List Piece) → Run (List String)
  | [] => return []
  | word :: rest =>
    match fuel with
    | 0 => return []
    | fuel + 1 => do
      let found ← items fuel word
      let s ← get
      let own := fields s.separators none false found
      let own := if s.isOn .noglob then own.map Pattern.text else own.flatMap (Pattern.paths s.workspace)
      return own ++ (← fieldsOf fuel rest)

def commandFields (fuel : Nat) : List (List Piece) → Run (List String)
  | [] => return []
  | word :: rest =>
    match fuel with
    | 0 => return []
    | fuel + 1 => do
      match ← fieldsOf fuel [word] with
      | [] => commandFields fuel rest
      | [name] =>
        if (← get).leaving.isSome then return []
        if name == "command" then return name :: (← commandFields fuel rest)
        if assigningCommands.contains name && ((← get).functions.lookup name).isNone then
          return name :: (← argumentFields fuel rest)
        return name :: (← fieldsOf fuel rest)
      | names => return names ++ (← fieldsOf fuel rest)

def argumentFields (fuel : Nat) : List (List Piece) → Run (List String)
  | [] => return []
  | word :: rest =>
    match fuel with
    | 0 => return []
    | fuel + 1 => do
      let own ← if isAssignment word then do
          let found ← items fuel (assignmentPieces word)
          pure [Item.text (← get).joint found]
        else fieldsOf fuel [word]
      return own ++ (← argumentFields fuel rest)

def connectAll (fuel : Nat) : List Redirection → Run Bool
  | [] => return true
  | .mk stream use target :: rest =>
    match fuel with
    | 0 => return false
    | fuel + 1 => do
      let found ← items fuel target
      let text := Item.text (← get).joint found
      if (← get).leaving.isSome then return false
      if ← connect stream use text then connectAll fuel rest
      else
        setStatus 2
        return false

def redirected (fuel : Nat) (rs : List Redirection) (act : Run Unit) : Run Bool :=
  match fuel, rs with
  | 0, _ => return true
  | _, [] => do
    act
    return true
  | fuel + 1, rs => keepingStreams do
    let connected ← connectAll fuel rs
    if connected then act
    return connected

def assignAll (fuel : Nat) : List (String × List Piece) → Run Unit
  | [] => return
  | (name, word) :: rest =>
    match fuel with
    | 0 => return
    | fuel + 1 => do
      let found ← items fuel word
      if (← get).leaving.isSome then return
      assign name (Item.text (← get).joint found)
      assignAll fuel rest

def program (fuel : Nat) (name : String) (args : List String) : Run Unit :=
  match fuel with
  | 0 => return
  | fuel + 1 => do
    let s ← get
    let failing (text : String) (status : Nat) : Run Unit := do
      complain (name ++ ": " ++ text)
      setStatus status
    if name.isEmpty then failing "Permission denied" 127
    else match s.programPath? name with
    | none => failing "not found" 127
    | some path =>
      match s.workspace.status path, load s.workspace path with
      | .error _, _ => failing "not found" 127
      | .ok .directory, _ => failing "Permission denied" 126
      | .ok (.program known), _ => standing fuel known path args
      | .ok (.file source true), .error (.failed _ "exec format error") =>
        inner fuel ⟨source, path, args, [], ""⟩
      | .ok _, .error (.failed _ cause) =>
        if cause == "permission denied" then failing "Permission denied" 126 else failing "not found" 127
      | .ok _, .error _ => failing "not found" 127
      | .ok _, .ok l =>
        match s.workspace.status l.interpreter with
        | .ok (.program known) =>
          if known == "sh" then inner fuel ⟨l.source, path, args, [], ""⟩
          else standing fuel known l.interpreter (l.options ++ path :: args)
        | _ => inner fuel ⟨l.source, path, args, [], ""⟩

def standing (fuel : Nat) (known path : String) (args : List String) : Run Unit :=
  match fuel with
  | 0 => return
  | fuel + 1 => do
    let s ← get
    if known != "sh" then
      let e := runUtility s.workspace known path args (s.stream 0 == .directory) (String.ofList (s.input?.getD []))
      if known == "cat" && (args.isEmpty || args.contains "-") then setInput []
      emit 1 e.output
      emit 2 e.errors
      setStatus (if e.ending == .exited 0 then 0 else 1)
    else match shellCall s.workspace path args (String.ofList (s.input?.getD [])) with
      | .ok call =>
        setInput call.input.toList
        inner fuel call
      | .error text =>
        emit 2 text
        setStatus 2

def inner (fuel : Nat) (call : ShellCall) : Run Unit :=
  match fuel with
  | 0 => return
  | fuel + 1 => apart do
    modify fun s =>
      let w := { s.workspace with environment := s.environment }
      { Shell.initial call.title call.args "" w with
        inputs := s.inputs, inputCount := s.inputCount, streams := s.streams, caught := s.caught, written := s.written
        switches := call.switches, mask := s.mask, depth := s.depth, outerTraps := s.outerTraps, pending := s.pending }
    toEnd fuel { rest := call.source.toList }

def subshell (fuel : Nat) (act : Run Unit) : Run Unit :=
  match fuel with
  | 0 => return
  | fuel + 1 => apart do
    act
    finish fuel

def finish (fuel : Nat) : Run Unit :=
  match fuel with
  | 0 => return
  | fuel + 1 => do
    let s ← get
    match s.traps.lookup 0 with
    | none => return
    | some action =>
      if action.isEmpty || s.signal.isSome then return
      set { s with
        leaving := none, traps := s.traps.filter (·.1 != 0), switches := Switch.turn s.switches .errexit false }
      whole fuel false { rest := action.toList }
      modify fun t => if t.leaving == some .script then t else { t with status := s.status }

def runPending (fuel : Nat) : Run Unit :=
  match fuel with
  | 0 => return
  | fuel + 1 => do
    let s ← get
    if 0 < s.depth || s.leaving.isSome then return
    match s.pending with
    | [] => return
    | n :: rest =>
      set { s with pending := rest }
      whole fuel false { rest := ((s.traps.lookup n).getD "").toList }
      modify fun t => if t.leaving.isSome then t else { t with status := s.status }
      runPending fuel

def runFile (fuel : Nat) (name : String) : Run Unit :=
  match fuel with
  | 0 => return
  | fuel + 1 => do
    let s ← get
    if name.contains '/' then
      let isDirectory := (s.workspace.status name).toOption.any fun e => e matches .directory
      match if isDirectory then .ok "" else s.workspace.read name with
      | .ok source => concerning name (inFile (script fuel { rest := source.toList }))
      | .error _ => concerning "." (giveUp ("cannot open " ++ name ++ ": No such file"))
    else
      match (s.programPath? name).bind fun path => (s.workspace.read path).toOption with
      | some source => concerning name (inFile (script fuel { rest := source.toList }))
      | none => concerning "." (giveUp (name ++ ": not found"))

def invoke (fuel : Nat) (isTested : Bool) (name : String) (args : List String) : Run Unit :=
  match fuel with
  | 0 => return
  | fuel + 1 => do
    let s ← get
    match s.functions.lookup name, builtin? name args with
    | some body, _ =>
      set { s with args := args, options := {}, locals := some {}, loopDepth := 0 }
      run fuel isTested body
      let own := ((← get).locals).getD {}
      own.bindings.forM fun (x, value) => setVariable x value
      modify fun t => { t with
        switches := own.switches.getD t.switches
        args := s.args, options := s.options, locals := s.locals, loopDepth := s.loopDepth, leaving := t.leaving.filter (· != .function) }
    | none, some act => runBuiltin name act
    | none, none =>
      match name, args with
      | "eval", _ => concerning "eval" (whole fuel isTested { rest := (" ".intercalate args).toList })
      | ".", file :: _ => runFile fuel file
      | ".", [] => setStatus 0
      | "type", words =>
        let statuses ← words.mapM (describe true)
        setStatus (statuses.foldl max 0)
      | "hash", words => runBuiltin name (findPrograms isBuiltin words)
      | "command", words =>
        match flagLetters ['p', 'v', 'V'] words with
        | .error c => concerning name do setStatus (← refuse ("Illegal option -" ++ String.singleton c))
        | .ok (_, []) => setStatus 0
        | .ok (letters, word :: rest) =>
          if letters.contains 'v' || letters.contains 'V' then
            setStatus (← describe (letters.contains 'V') word)
          else match builtin? word rest with
            | some act => runBuiltin word act
            | none =>
              if letters.contains 'p' then
                let held := (← get).bindings
                setVariable "PATH" (some "/usr/bin:/bin")
                program fuel word rest
                modify fun t => { t with bindings := held }
              else if word == "command" || word == "eval" || word == "." || word == "exec" || word == "type"
                || word == "hash" then
                let functions := (← get).functions
                modify fun t => { t with functions := [] }
                invoke fuel isTested word rest
                modify fun t => { t with functions := functions }
              else program fuel word rest
      | "exec", word :: rest =>
        concerning "exec" (program fuel word rest)
        modify fun t => { t with leaving := some .script, traps := [] }
      | "exec", [] => setStatus 0
      | _, _ => program fuel name args

/-- Runs a command, unless the script is only to be read. A failure in a test does not end the script. -/
def run (fuel : Nat) (isTested : Bool) (command : Command) : Run Unit :=
  match fuel with
  | 0 => return
  | fuel + 1 => do
    if (← get).isOn .noexec then return
    match command with
    | .simple line assignments words redirections =>
      modify fun s => { s with line := line }
      let found ← commandFields fuel words
      if (← get).leaving.isSome then return
      match found with
      | [] =>
        setStatus 0
        assignAll fuel assignments
        let s ← get
        trace (assignments.map fun (x, _) => x ++ "=" ++ (s.value? x).getD "")
        if (← get).leaving.isNone then discard (redirected fuel redirections (return))
      | ["exec"] =>
        if !(← connectAll fuel redirections) then modify fun s => { s with leaving := some .script }
      | name :: args =>
        let held ← get
        let isSpecial := specialCommands.contains name && (held.functions.lookup name).isNone
        let connected ← redirected fuel redirections do
          assignAll fuel assignments
          if (← get).leaving.isSome then return
          modify fun s => { s with exported := assignments.map (·.1) ++ s.exported }
          let s ← get
          trace (assignments.map (fun (x, _) => x ++ "=" ++ (s.value? x).getD "") ++ found)
          invoke fuel isTested name args
        if isSpecial then
          if !connected then modify fun s => { s with leaving := some .script }
        else
          assignments.forM fun (x, _) => setVariable x (held.bindings.lookup x)
          if !assignments.isEmpty then modify fun s => { s with exported := held.exported }
      noteFailure isTested
      runPending fuel
    | .negated c =>
      run fuel true c
      modify fun s => { s with status := statusOf (s.status != 0) }
    | .piped commands =>
      pipe fuel commands
      noteFailure isTested
    | .linked commands => chain fuel isTested commands
    | .background c =>
      keepingStreams do
        setStream 0 (← openInput [])
        subshell fuel (run fuel false c)
      modify fun s => { s with jobs := s.status :: s.jobs, status := 0 }
      runPending fuel
    | .group body isApart =>
      if isApart then
        subshell fuel (runAll fuel isTested body)
        noteFailure isTested
        runPending fuel
      else runAll fuel isTested body
    | .branch tests otherwise => choose fuel isTested tests otherwise
    | .loop isUntil test body =>
      setStatus 0
      looping (turns fuel isTested isUntil test body)
    | .each name words body =>
      let values ← match words with
        | some words => fieldsOf fuel words
        | none => pure (← get).args
      if (← get).leaving.isSome then return
      setStatus 0
      looping (each fuel isTested name values body)
    | .select word found =>
      let subject ← items fuel word
      if (← get).leaving.isSome then return
      setStatus 0
      select fuel isTested (Item.text (← get).joint subject).toList found
    | .define name body =>
      modify fun s => { s with functions := (name, body) :: s.functions }
      setStatus 0
    | .redirected line c rs =>
      modify fun s => { s with line := line }
      discard (redirected fuel rs (run fuel isTested c))

def runAll (fuel : Nat) (isTested : Bool) : List Command → Run Unit
  | [] => return
  | c :: cs =>
    match fuel with
    | 0 => return
    | fuel + 1 => do
      run fuel isTested c
      if (← get).leaving.isNone then runAll fuel isTested cs

def pipe (fuel : Nat) : List Command → Run Unit
  | [] => return
  | [c] =>
    match fuel with
    | 0 => return
    | fuel + 1 => subshell fuel (run fuel false c)
  | c :: cs =>
    match fuel with
    | 0 => return
    | fuel + 1 => do
      let text ← capturing (subshell fuel (run fuel false c))
      keepingStreams do
        setStream 0 (← openInput text.toList)
        pipe fuel cs

def chain (fuel : Nat) (isTested : Bool) : List (Link × Command) → Run Unit
  | [] => return
  | (link, c) :: rest =>
    match fuel with
    | 0 => return
    | fuel + 1 => do
      let s ← get
      let runs := match link with
        | .always => true
        | .ifSucceeded => s.status == 0
        | .ifFailed => s.status != 0
      if runs then run fuel (isTested || !rest.isEmpty) c
      if (← get).leaving.isNone then chain fuel isTested rest

def choose (fuel : Nat) (isTested : Bool) (tests : List (List Command × List Command)) (otherwise : List Command) :
    Run Unit :=
  match fuel, tests with
  | 0, _ => return
  | fuel + 1, [] => do
    setStatus 0
    runAll fuel isTested otherwise
  | fuel + 1, (test, body) :: tests => do
    runAll fuel true test
    if (← get).leaving.isSome then return
    if (← get).status == 0 then runAll fuel isTested body else choose fuel isTested tests otherwise

def turns (fuel : Nat) (isTested isUntil : Bool) (test body : List Command) : Run Unit :=
  match fuel with
  | 0 => return
  | fuel + 1 => do
    let held := (← get).status
    runAll fuel true test
    if (← get).leaving.isSome then
      if ← endTurn then turns fuel isTested isUntil test body
    else if ((← get).status == 0) == isUntil then setStatus held
    else
      runAll fuel isTested body
      if ← endTurn then turns fuel isTested isUntil test body

def each (fuel : Nat) (isTested : Bool) (name : String) (values : List String) (body : List Command) : Run Unit :=
  match fuel, values with
  | 0, _ => return
  | _, [] => return
  | fuel + 1, value :: values => do
    assign name value
    runAll fuel isTested body
    if ← endTurn then each fuel isTested name values body

def select (fuel : Nat) (isTested : Bool) (text : List Char) : List (List (List Piece) × List Command) → Run Unit
  | [] => return
  | (patterns, body) :: rest =>
    match fuel with
    | 0 => return
    | fuel + 1 => do
      if ← fitsAny fuel text patterns then runAll fuel isTested body else select fuel isTested text rest

def fitsAny (fuel : Nat) (text : List Char) : List (List Piece) → Run Bool
  | [] => return false
  | p :: ps =>
    match fuel with
    | 0 => return false
    | fuel + 1 => do
      let found ← items fuel p
      if (Item.joined (← get).joint found).fits text then return true
      fitsAny fuel text ps

/-- Runs a whole text, line by line, up to a mistake in it. -/
def whole (fuel : Nat) (isTested : Bool) (source : Source) : Run Unit :=
  match fuel with
  | 0 => return
  | fuel + 1 => do
    match { source with aliases := (← get).aliases }.next with
    | .ok none => return
    | .error mistake =>
      modify fun s => { s with line := mistake.line }
      giveUp mistake.text
    | .ok (some (commands, rest)) =>
      modify fun s => { s with lineRead := rest.line }
      runAll fuel isTested commands
      if (← get).leaving.isNone then whole fuel isTested rest

def script (fuel : Nat) (source : Source) : Run Unit :=
  match fuel with
  | 0 => return
  | fuel + 1 => do
    let s ← get
    match { source with aliases := s.aliases }.next with
    | .ok none => return
    | .error mistake =>
      modify fun s => { s with line := mistake.line }
      giveUp mistake.text
    | .ok (some (commands, rest)) =>
      modify fun s => { s with lineRead := rest.line }
      if s.isOn .verbose then
        emit 2 (String.ofList (source.rest.take (source.rest.length - rest.rest.length)))
      runAll fuel false commands
      if (← get).leaving.isNone then script fuel rest

def toEnd (fuel : Nat) (source : Source) : Run Unit :=
  match fuel with
  | 0 => return
  | fuel + 1 => do
    script fuel source
    finish fuel
end

def stepLimit : Nat := 20000

def start (call : ShellCall) : StateM Workspace ProgramEnd := fun w =>
  let shell := { Shell.initial call.title call.args call.input w with switches := call.switches }
  let (_, s) := (toEnd stepLimit { rest := call.source.toList }).run shell
  ({ output := textOn 1 s.written
     errors := textOn 2 s.written
     ending := match s.signal with
       | some n => .killed n
       | none => .exited s.status },
    { s.workspace with directory := w.directory, environment := w.environment })

def executeStanding (name path : String) (args : List String) (input : String) : StateM Workspace ProgramEnd := do
  let w ← get
  if name != "sh" then return runUtility w name path args false input
  match shellCall w path args input with
  | .ok call => start call
  | .error text => return { errors := text, ending := .exited 2 }

def executeBytes (path : String) (args : List String) (input : String) :
    StateM Workspace (Except LaunchFault ProgramEnd) := do
  let w ← get
  match w.status path, load w path with
  | .ok (.program name), _ => return .ok (← executeStanding name path args input)
  | _, .error f => return .error f
  | _, .ok l =>
    if l.interpreter == finder then
      let errors := finder ++ ": '" ++ l.options.headD "" ++ "': No such file or directory\n"
      return .ok { errors := errors, ending := .exited 127 }
    if shells.contains l.interpreter then
      return .ok (← executeStanding "sh" l.interpreter (l.options ++ path :: args) input)
    match w.status l.interpreter with
    | .ok (.program name) => return .ok (← executeStanding name l.interpreter (l.options ++ path :: args) input)
    | _ => return .ok {}

def retold (f : String → String) (w : Workspace) : Workspace :=
  { w with
    directory := w.directory.map f
    entries := w.entries.map fun (parts, e) => (parts.map f, match e with
      | .file content executable => .file (f content) executable
      | e => e)
    environment := ⟨w.environment.entries.map fun (name, value) => (f name, f value)⟩ }

/-- Runs the program at a path. Programs work on bytes. -/
def execute (path : String) (args : List String) (input : String) :
    StateM Workspace (Except LaunchFault ProgramEnd) := fun w =>
  let toBytes (s : String) : String := String.ofList (octets s)
  let ofBytes (s : String) : String := ofOctets s.toList
  let (result, w') := executeBytes (toBytes path) (args.map toBytes) (toBytes input) (retold toBytes w)
  let result := match result with
    | .ok e => .ok { e with output := ofBytes e.output, errors := ofBytes e.errors }
    | .error (.notFound name) => .error (.notFound (ofBytes name))
    | .error (.nearby name) => .error (.nearby (ofBytes name))
    | .error (.failed path cause) => .error (.failed (ofBytes path) cause)
  (result, retold ofBytes w')

end CallFusion.Cli.Script
