import CallFusion.Bridge.Address
import CallFusion.Checkup
import CallFusion.Cli.Catalogue
import CallFusion.Cli.Completion
import CallFusion.Cli.Session
import CallFusion.Cli.Usage
import CallFusion.Diagnostic.Printer
import CallFusion.Inspection
import CallFusion.Ir.Parser
import CallFusion.Ir.Producer
import CallFusion.Merge.Pass
import CallFusion.Scaffold

/-! What the commands do. -/
namespace CallFusion.Cli

open Ir Text

def standardStream : String := "-"

def raise {α : Type} : Except Fault α → Act α
  | .ok a => return a
  | .error f => throw f

def chosenProfile (s : Settings) (g : Given) : Act KnownProfile :=
  let name := g.text "profile"
  raise (Profile.lookup (if name.isEmpty then s.profile else name))

def readModule (path : String) : Act (Module × Diagnostics) := do
  let w := (← get).workspace
  let content := if path == standardStream then .ok w.input else w.read path
  match content with
  | .error f => throw (.parseModule path (some f))
  | .ok source =>
    match Module.parse source with
    | .ok m => return (m, (Release.note? source).toList)
    | .error _ => throw (.parseModule path (some .malformed))

def printDiagnostics (g : Given) (ds : Diagnostics) : Act Unit := do
  let color := !g.switch "no-color" && Diagnostic.wantsColor (← get).workspace.environment false
  warn (ds.printed color)

def writeModule (path : String) (m : Module) : Act Unit := do
  match m.format with
  | .error f => throw f
  | .ok (_, text) =>
    if path == standardStream then say text
    else change fun w => (w.write path text).mapError fun f => .writeModule path (some f)

def chosenMode (g : Given) : Act Mode :=
  match Mode.all.filter (g.switch ·.text) with
  | [m] => return m
  | ms => throw (.configuration ("exactly one mode is required, got " ++ toString ms.length) none)

def transform (h : Host) (s : Settings) (g : Given) (input : String) : Act Unit := do
  let mode ← chosenMode g
  let profile ← chosenProfile s g
  let (m, notes) ← readModule input
  let stored ← openStore s
  let options : Options :=
    { mode := mode, caller := g.text "caller", callee := g.text "callee", profile := some profile, payload := s.payload }
  let (m, outcome) ← remembering fun memory => CallFusion.run (bridge h s stored) memory options m
  let ds := notes ++ outcome.diagnostics
  printDiagnostics g ds
  let output := (g.value? "output").getD standardStream
  writeModule output m
  warn (outcome.summary ++ "\n")
  if stored && s.history then
    let record : RunRecord :=
      { createdAt := h.now, mode := mode.text, profile := options.effectiveProfile.name, input := input, output := output
        caller := options.caller, callee := options.callee, changed := outcome.changed
        diagnostics := some (ds.map Diagnostic.text)
        stats := some (outcome.stats.entries.map fun (k, n) => (k, (n : Int))) }
    change fun w => .ok (w.modifyStore s.cachePath fun store => (store.record h.now record).2)
  if g.switch "strict" && ds.blocking then
    throw (.plain (mode.text ++ " reported " ++ toString ds.length ++ " diagnostics"))

def inspect (h : Host) (s : Settings) (g : Given) (input : String) : Act Unit := do
  let profile ← chosenProfile s g
  let (m, notes) ← readModule input
  let stored ← openStore s
  let (text, found) ← remembering fun memory =>
    let (text, l) := (Inspection.text (bridge h s stored) m profile).run (Locator.new (g.texts "suffix") memory)
    ((text, l.diagnostics), l.bridge)
  say text
  printDiagnostics g (notes ++ found)

def history (s : Settings) (g : Given) : Act Unit := do
  if !(← openStore s) then
    throw (.store ("history is unavailable: cannot open " ++ s.cachePath) none)
  let runs ← raise (((← get).workspace.storeAt s.cachePath).list (g.integer "limit" 20))
  if runs.isEmpty then say "No runs recorded.\n" else say (RunRecord.table runs)

/-- Prints the logical name of each symbol; one that has none is printed as it is. -/
def demangle (h : Host) (s : Settings) (g : Given) : Act Unit := do
  let stored ← openStore s
  let names ← remembering (g.args.mapM fun symbol => do
    let reply ← bridge h s stored symbol
    return if reply.fault.isSome || reply.name.isEmpty then symbol else reply.name)
  let shown := if g.switch "keep-hash" then names else names.map Symbol.stripHash
  say (String.join (shown.map (· ++ "\n")))

def healthUrl (url : String) : String :=
  let url := if url.endsWith "/" then (url.dropEnd 1).toString else url
  let url := if url.endsWith "/rpc" then (url.dropEnd 4).toString else url
  url ++ "/health"

def statusText : Nat → String
  | 204 => "204 No Content"
  | 301 => "301 Moved Permanently"
  | 302 => "302 Found"
  | 400 => "400 Bad Request"
  | 401 => "401 Unauthorized"
  | 403 => "403 Forbidden"
  | 404 => "404 Not Found"
  | 405 => "405 Method Not Allowed"
  | 500 => "500 Internal Server Error"
  | 502 => "502 Bad Gateway"
  | 503 => "503 Service Unavailable"
  | n => toString n

def healthProblem? (h : Host) (address : String) : Act (Option String) := do
  match Url.read (healthUrl address) with
  | .error f => return some f.message
  | .ok url =>
    let exchange ← match url.problem? with
      | some f => pure (.failed f)
      | none => onWorkspace (h.fetch (healthUrl address))
    match exchange with
    | .failed cause => return some ("Get " ++ quoted url.shown ++ ": " ++ cause.message)
    | .answered 200 _ => return none
    | .answered status _ => return some ("health check returned " ++ statusText status)

def checkDemangler (h : Host) (s : Settings) : Act Dependency := do
  let d : Dependency := { name := "Demangler (" ++ s.demangler.text ++ ")" }
  match s.demangler with
  | .command =>
    match (← get).workspace.program? s.command with
    | some path => return { d with installed := true, path := path }
    | none => return { d with hint := "install " ++ s.command ++ " or set demangler = \"local\"" }
  | .remote =>
    let problem ← healthProblem? h s.url
    match problem with
    | none => return { d with installed := true, path := s.url }
    | some p => return { d with hint := "start `rpcmerge serve-demangler` or fix demangler_url (" ++ p ++ ")" }
  | _ => return { d with installed := true, version := "built in" }

/-- Checks that the store opens. An empty path names no file of its own and always opens. -/
def checkCache (s : Settings) : Act Dependency := do
  let d : Dependency := { name := "Cache", optional := !s.history, path := s.cachePath }
  if s.cachePath.isEmpty then return { d with installed := true }
  match (← get).workspace.openStore s.cachePath with
  | .ok (_, w) =>
    modify fun t => { t with workspace := w }
    return { d with installed := true }
  | .error f => return { d with hint := "cannot open " ++ s.cachePath ++ ": " ++ f.message }

def checkTool (h : Host) (name : String) : Act Dependency := do
  let d : Dependency := { name := name, optional := true, hint := "install LLVM to produce and verify textual IR" }
  match (← get).workspace.program? name with
  | none => return d
  | some path =>
    let version := match ← onWorkspace (launch h name ["--version"] "") with
      | .ok e => if e.ending == .exited 0 then Dependency.toolVersion e.output else ""
      | .error _ => ""
    return { d with installed := true, path := path, version := version }

def doctor (h : Host) (s : Settings) (g : Given) : Act Unit := do
  say "rpcmerge Environment Diagnostics\n================================\n\n"
  let ds := [Dependency.ofSettings s, ← checkDemangler h s, ← checkCache s, ← checkTool h "opt", ← checkTool h "llvm-as",
    ← checkTool h "clang"]
  say (Dependency.table (g.switch "verbose") ds)
  say (if ds.all Dependency.passes then "[OK] rpcmerge is ready\n"
    else "Some checks failed. Follow the hints above to fix.\n")

/-- Writes the settings file of a project. A file with other content stays unless forced. -/
def writeSettings (path : String) (o : ScaffoldOptions) : Act Unit := do
  let write := change fun w => (w.write path o.settingsText).mapError (.during ("failed to write " ++ path))
  match (← get).workspace.read path with
  | .ok content =>
    if content == o.settingsText then return
    if !o.force then throw (.plain (Settings.fileName ++ " already exists (use --force to overwrite)"))
    write
  | .error f => if f.isFileMissing then write else throw (.during ("failed to read " ++ path) f)

def writeIgnored (path : String) : Act Unit := do
  match (← get).workspace.read path with
  | .ok content =>
    match ScaffoldOptions.withIgnoreBlock? content with
    | some content => change fun w => (w.write path content).mapError (.during "failed to update .gitignore")
    | none => return
  | .error f =>
    if f.isFileMissing then change (·.write path ScaffoldOptions.ignoreBlock)
    else throw (.during "failed to read .gitignore" f)

def initialise (g : Given) : Act Unit := do
  let target := (g.args.head?).getD "."
  let o : ScaffoldOptions := { force := g.switch "force", profile := g.text "profile", demangler := g.text "demangler" }
  let root := if target.isEmpty then "." else target
  raise o.validate
  change fun w => (w.makeDirectories (Path.join root ".rpcmerge")).mapError (.during "failed to create target directory")
  writeSettings (Path.join root Settings.fileName) o
  writeIgnored (Path.join root ".gitignore")
  say ("Initialized rpcmerge configuration in " ++ target ++ "\n")

def startService (h : Host) (s : Settings) (g : Given) : Act Unit := do
  let _ ← openStore s
  let address := (g.value? "addr").getD ":8090"
  say ("Starting demangling bridge on " ++ address ++ "\n")
  if g.text "auth-token" != "" then say "Authentication: enabled\n"
  match Address.problem? address with
  | some f => throw (.during "bridge server failed" (.plain ("listen tcp: " ++ f.message address)))
  | none =>
    if let some f ← onWorkspace (h.serve address) then throw (.during "bridge server failed" f)

def rawQuoted (s : String) : String :=
  let plain : Glyph → Bool
    | .char c => c == '\t' || (0x20 ≤ c.toNat && c.toNat != 0x60 && c.toNat != 0x7F && c.toNat != 0xFEFF)
    | .stray _ => false
  if (glyphs s).all plain then "\x60" ++ s ++ "\x60" else quoted s

def explain (g : Given) : Act Unit :=
  match program.find g.args with
  | .ok (some c, _) => say (program.commandHelp c)
  | .ok (none, _) => say program.help
  | .error _ =>
    say ("Unknown help topic [" ++ " ".intercalate (g.args.map rawQuoted) ++ "]\n" ++ program.usage program.flags)

def perform (h : Host) (s : Settings) (g : Given) : Verb → Act Unit
  | .run => transform h s g (g.args.headD "")
  | .inspect => inspect h s g (g.args.headD "")
  | .history => history s g
  | .demangle => demangle h s g
  | .doctor => doctor h s g
  | .init => initialise g
  | .serve => startService h s g
  | .version => say ("rpcmerge version " ++ h.version ++ "\n")
  | .help => explain g
  | .completion => throw (.plain "completion scripts are not available")

def complete (h : Host) (withNotes : Bool) (args : List String) : Act Unit := do
  match args.getLast? with
  | none => throw (.plain "requires at least 1 arg(s), only received 0")
  | some word =>
    let _ ← loadSettings h
    let c := program.complete args.dropLast word
    say (c.text withNotes)
    warn ("Completion ended with directive: " ++ c.policy.name ++ "\n")

def follow (h : Host) (args : List String) : Act Unit := do
  if let some (request, rest) := program.completionRequest? args then
    complete h (request == Program.completionWord) rest
    return
  match ← raise (program.find args) with
  | (none, args) =>
    let _ ← raise (readArgs (helpFlag program.name :: program.flags) {} args)
    say program.help
  | (some c, args) =>
    let g ← raise (readArgs (program.flagsOf c) {} args)
    if g.switch "help" then
      say (program.commandHelp c)
      return
    if let some complaint := c.rule.complaint? (program.pathOf c) g.args then throw (.plain complaint)
    let s ← loadSettings h
    if let some complaint := exclusiveComplaint? c.exclusive g then throw (.plain complaint)
    match Verb.all.find? (·.command.name == c.name) with
    | some verb => perform h s g verb
    | none => return

structure Transcript where
  out : String
  err : String
  fault : Option Fault

/-- Follows a command line and releases what it acquired. -/
def execute (h : Host) (args : List String) : StateM Workspace Transcript := do
  let ((out, err), ending) ← supervise false (fun hooks w =>
    let (result, s) := (follow h args).run { workspace := w, hooks := hooks }
    let fault := match result with
      | .ok () => none
      | .error f => some f
    (((s.out, s.err), fault, s.hooks), s.workspace)) {}
  return ⟨out, err, ending.fault⟩

end CallFusion.Cli
