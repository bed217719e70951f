import CallFusion.Cli.Action
import CallFusion.Cli.Script
import CallFusion.Json.Parser
import CallFusion.Report
import Std.Time.DateTime.Timestamp

/-!
The program. It reads ahead the files that a command line may need, follows the command line on
them, and writes back what has changed. Tools that are shell scripts are run, and no network is
reached.
-/
namespace CallFusion.Cli

open Text

def entryAt (path : String) : IO (Option Entry) := do
  try
    let content ← IO.FS.readBinFile path
    return some (.file (ofBytes content.data.toList) true)
  catch
    | .noFileOrDirectory .. => return none
    | _ => return some .directory

def readAhead (w : Workspace) (path : String) : IO Workspace :=
  (Path.ancestors path).foldlM (fun w above => do
    match ← entryAt above with
    | some e => return w.put (w.locate above) e
    | none => return w) w

def pathsBehind (word : String) : List String :=
  let value := (splitChar '=' word).getLastD ""
  if value.isEmpty || value.startsWith "-" then []
  else [value, value ++ "/" ++ Settings.fileName, value ++ "/.gitignore", value ++ "/.rpcmerge"]

def unpacked (w : Workspace) (path : String) : Workspace :=
  match (w.read path).toOption.bind Json.parse? |>.bind Store.ofArchive? with
  | some s => w.put (w.locate path) (.database s)
  | none => w

def written (s : String) : ByteArray := ⟨(bytes s).toArray⟩

def writeBack (path : List String) (e : Entry) : IO Unit := do
  let path := "/" ++ "/".intercalate path
  match e with
  | .directory => IO.FS.createDirAll path
  | .file content _ => IO.FS.writeBinFile path (written content)
  | .database s => IO.FS.writeBinFile path (written s.archive)
  | .device _ | .program _ => return

def isNew (before : Workspace) (path : List String) (e : Entry) : Bool :=
  match before.entry? path, e with
  | some .directory, .directory => false
  | some (.file old _), .file new _ => old != new
  | some (.database old), .database new => old != new
  | _, _ => true

def variableNames : List String := ["HOME", "PATH", "NO_COLOR", "FORCE_COLOR", "TERM"] ++ Settings.variableKeys.map (·.2)

def readEnvironment : IO Environment := do
  let entries ← variableNames.filterMapM fun name => do
    return (← IO.getEnv name).map fun value => (name, carry value)
  return ⟨entries⟩

def noNetwork : Exchange := .failed (.plain "no network is available")

def host (home : String) (seconds : Int) : Host where
  version := "dev"
  home := home
  now := ⟨seconds, 0⟩
  execute := Script.execute
  post _ _ := return noNetwork
  fetch _ := return noNetwork
  serve _ := return some (.plain "no network is available")

def interruptStatus : UInt32 := 130

end CallFusion.Cli

open CallFusion CallFusion.Cli in
def main (words : List String) : IO UInt32 := do
  let args := words.map Text.carry
  let environment ← readEnvironment
  let home := environment.get "HOME"
  let directory := Path.parts (toString (← IO.currentDir))
  let input ← if args.contains standardStream then (← IO.getStdin).readBinToEnd else pure .empty
  let start : Workspace := { directory := directory, environment := environment, input := Text.ofBytes input.data.toList }
  let toolPaths := (Text.splitChar ':' (environment.get "PATH")).flatMap fun d =>
    ["opt", "llvm-as", "clang"].map (d ++ "/" ++ ·)
  let known := [Settings.fileName, Path.join home Settings.fileName, ".gitignore", "."] ++ toolPaths
  let w ← (known ++ args.flatMap pathsBehind).foldlM readAhead start
  let h := host home (← Std.Time.Timestamp.now).toSecondsSinceUnixEpoch.val
  let cache := match settingsIn home w with
    | .ok s => s.cachePath
    | .error _ => ""
  let w := unpacked (← readAhead w cache) cache
  let (t, after) := (execute h args).run w
  (← IO.getStdout).write (written t.out)
  (← IO.getStderr).write (written t.err)
  for (path, e) in after.entries.reverse do
    if isNew w path e then writeBack path e
  match t.fault with
  | none => return 0
  | some .interrupted => return interruptStatus
  | some f =>
    (← IO.getStderr).write (written ("Error: " ++ f.message ++ "\n"))
    return 1
