import CallFusion.Bridge.Cached
import CallFusion.Bridge.Filter
import CallFusion.Bridge.Remote
import CallFusion.Settings
import CallFusion.Shutdown
import CallFusion.Workspace

/-!
What a command works with: the workspace, what was printed, and the outside world as far as programs
and networks are concerned.
-/
namespace CallFusion.Cli

open Text

/-- The outside world. -/
structure Host where
  version : String
  /-- The home directory that the default settings are made for. -/
  home : String
  now : Timestamp
  execute : String → List String → String → StateM Workspace (Except LaunchFault ProgramEnd)
  post : String → Question → StateM Workspace Exchange
  fetch : String → StateM Workspace Exchange
  serve : String → StateM Workspace (Option Fault)

structure Session where
  workspace : Workspace
  out : String := ""
  err : String := ""
  hooks : Coordinator Workspace := {}

/-- Something a command does; it may fail, and what it did before stays done. -/
abbrev Act := ExceptT Fault (StateM Session)

def say (text : String) : Act Unit := modify fun s => { s with out := s.out ++ text }

def warn (text : String) : Act Unit := modify fun s => { s with err := s.err ++ text }

def onWorkspace {α : Type} (act : StateM Workspace α) : Act α := do
  let s ← get
  let (a, w) := act.run s.workspace
  set { s with workspace := w }
  return a

def change (step : Workspace → Except Fault Workspace) : Act Unit := do
  let s ← get
  match step s.workspace with
  | .ok w => set { s with workspace := w }
  | .error f => throw f

/-- The settings file that counts: the first that can be read. -/
def settingsFile (w : Workspace) : Option (String × String) :=
  [Settings.fileName, Path.join (w.environment.get "HOME") Settings.fileName].findSome? fun path =>
    (w.read path).toOption.map (path, ·)

def settingsIn (home : String) (w : Workspace) : Except Fault Settings :=
  Settings.load (.standard home) (settingsFile w) w.environment

def loadSettings (h : Host) : Act Settings := do
  match settingsIn h.home (← get).workspace with
  | .ok s => return s
  | .error f => throw f

def closingHook (path : String) : Hook Workspace :=
  ⟨"store-close", do
    modify (·.modifyStore path (·.cleanup Store.keptRuns))
    return none⟩

def openStore (s : Settings) : Act Bool := do
  if s.cachePath.isEmpty then return false
  match (← get).workspace.openStore s.cachePath with
  | .ok (_, w) =>
    modify fun t => { t with workspace := w, hooks := t.hooks.register (closingHook s.cachePath) }
    return true
  | .error _ => return false

def storeShelf (path : String) : Shelf Workspace where
  lookup symbol := return .ok (((← get).storeAt path).lookup symbol)
  save symbol name := do
    modify (·.modifyStore path (·.save symbol name))
    return none

def launch (h : Host) (name : String) (args : List String) (input : String) :
    StateM Workspace (Except LaunchFault ProgramEnd) := do
  match (← get).programPath name with
  | .error f => return .error f
  | .ok path => h.execute path args input

def runFilter (h : Host) (name : String) (args : List String) (input : String) : StateM Workspace (Except Fault String) := do
  match ← launch h name args input with
  | .error f => return .error (.during name f.fault)
  | .ok e =>
    if e.ending == .exited 0 then return .ok e.output
    let errors := trim e.errors
    return .error (.during name (.plain (e.ending.text ++ if errors.isEmpty then "" else ": " ++ errors)))

def ask (h : Host) (address : String) (q : Question) : StateM Workspace Exchange :=
  match (Url.read address).toOption.bind Url.problem? with
  | some f => return .failed f
  | none => h.post address q

def backend (h : Host) (s : Settings) : Bridge Workspace :=
  match s.demangler, words s.command with
  | .command, path :: args =>
    Filter.bridge { path := path, retries := s.retries, run := runFilter h path args, cancelled := fun _ => false }
  | .remote, _ => Remote.bridge { url := s.url, retries := s.retries, post := ask h s.url, cancelled := fun _ => false }
  | _, _ => Bridge.inProcess

/-- The bridge of a command: it remembers names, in the store as well if there is one. -/
def bridge (h : Host) (s : Settings) (stored : Bool) : Bridge (Memory Workspace) :=
  CachedBridge.bridge ⟨backend h s, if stored then some (storeShelf s.cachePath) else none⟩

def remembering {α : Type} (act : StateM (Memory Workspace) α) : Act α := do
  let s ← get
  let (a, m) := act.run ⟨[], s.workspace⟩
  set { s with workspace := m.inner }
  return a

end CallFusion.Cli
