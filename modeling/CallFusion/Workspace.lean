import CallFusion.Environment
import CallFusion.Store
import CallFusion.Store.Address
import CallFusion.Text.Quoted

/-!
The files a command works on: a tree of directories, text files and stores, together with the
current directory, the environment and the standard input. A program that is started on them does not start, or prints
something and ends.
-/
namespace CallFusion

inductive Entry where
  | directory
  | file (content : String) (executable : Bool)
  | database (store : Store)
  /-- Reads as nothing, and takes whatever is written or, if it is full, none of it. -/
  | device (isFull : Bool)
  | program (name : String)
  deriving Repr, Inhabited

inductive PathFault where
  | missing
  | notDirectory
  | isDirectory
  | nameTooLong
  | invalid
  | noSpace
  deriving DecidableEq, Repr, Inhabited

def PathFault.text : PathFault → String
  | missing => "no such file or directory"
  | notDirectory => "not a directory"
  | isDirectory => "is a directory"
  | nameTooLong => "file name too long"
  | invalid => "invalid argument"
  | noSpace => "no space left on device"

def PathFault.fault (f : PathFault) (verb path : String) : Fault :=
  let text := verb ++ " " ++ path ++ ": " ++ f.text
  match f with
  | missing => .fileMissing text
  | _ => .plain text

/-- Entries are kept under the parts of their absolute paths; a later entry hides an earlier one. -/
structure Workspace where
  directory : List String
  entries : List (List String × Entry) := []
  environment : Environment := ⟨[]⟩
  input : String := ""
  passing : Store := .empty
  deriving Repr, Inhabited

inductive LaunchFault where
  | notFound (name : String)
  /-- The search path leads to it through the current directory, and nothing is run from there. -/
  | nearby (name : String)
  | failed (path cause : String)
  deriving DecidableEq, Repr, Inhabited

def LaunchFault.fault : LaunchFault → Fault
  | notFound name => .plain ("exec: " ++ Text.quoted name ++ ": executable file not found in $PATH")
  | nearby name =>
    .plain ("exec: " ++ Text.quoted name ++ ": cannot run executable found relative to current directory")
  | failed path cause => .plain ("fork/exec " ++ path ++ ": " ++ cause)

inductive ProgramEnding where
  | exited (status : Nat)
  | killed (signal : Nat)
  deriving DecidableEq, Repr, Inhabited

namespace ProgramEnding

def signalNames : List (Nat × String) :=
  [(1, "hangup"), (2, "interrupt"), (3, "quit"), (4, "illegal instruction"), (5, "trace/breakpoint trap"),
    (6, "aborted"), (7, "bus error"), (8, "floating point exception"), (9, "killed"), (10, "user defined signal 1"),
    (11, "segmentation fault"), (12, "user defined signal 2"), (13, "broken pipe"), (14, "alarm clock"),
    (15, "terminated")]

def text : ProgramEnding → String
  | exited status => "exit status " ++ toString status
  | killed signal => "signal: " ++ (signalNames.lookup signal).getD ("signal " ++ toString signal)

end ProgramEnding

structure ProgramEnd where
  output : String := ""
  errors : String := ""
  ending : ProgramEnding := .exited 0
  deriving Repr, Inhabited

namespace Workspace

def locate (w : Workspace) (path : String) : List String :=
  if Path.isAbsolute path then Path.parts path
  else Path.parts ("/" ++ "/".intercalate w.directory ++ "/" ++ path)

def standingPrograms : List String := ["cat", "echo", "false", "sh", "true"]

def standing : List (List String × Entry) :=
  [([], .directory), (["dev"], .directory), (["dev", "null"], .device false), (["dev", "full"], .device true),
    (["bin"], .directory), (["usr"], .directory), (["usr", "bin"], .directory)]
    ++ [["bin"], ["usr", "bin"]].flatMap fun d => standingPrograms.map fun name => (d ++ [name], .program name)

def entry? (w : Workspace) (parts : List String) : Option Entry :=
  ((w.entries ++ standing).find? (·.1 == parts)).map (·.2)

def names (w : Workspace) (directory : List String) : List String :=
  let own := (w.entries ++ standing).filterMap fun (parts, _) =>
    if parts.length == directory.length + 1 && parts.dropLast == directory then parts.getLast? else none
  "." :: ".." :: own.eraseDups

def put (w : Workspace) (parts : List String) (e : Entry) : Workspace :=
  { w with entries := (parts, e) :: w.entries.filter (·.1 != parts) }

def withFile (w : Workspace) (parts : List String) (content : String) (executable : Bool) : Workspace :=
  let w := (List.range parts.length).foldl (fun w n =>
    if (w.entry? (parts.take n)).isSome then w else w.put (parts.take n) .directory) w
  w.put parts (.file content executable)

def nameLimit : Nat := 255
def pathLimit : Nat := 4095

/-- Follows the parts of a path from an entry. Everything on the way has to be there and be a directory,
also where `..` leads back out of it. Where the path is for writing, its last part may be missing but
not be spelled as a directory. -/
def walk (w : Workspace) (forWriting : Bool) (here : List String) : List String → Except PathFault (List String)
  | [] => .ok here
  | part :: rest =>
    if !(w.entry? here matches some .directory) then .error .notDirectory
    else if part.isEmpty || part == "." then w.walk forWriting here rest
    else if part == ".." then w.walk forWriting here.dropLast rest
    else if forWriting && !rest.isEmpty && rest.all (·.isEmpty) then .error .isDirectory
    else if nameLimit < (Text.bytes part).length then .error .nameTooLong
    else if (w.entry? (here ++ [part])).isSome || (forWriting && rest.isEmpty) then
      w.walk forWriting (here ++ [part]) rest
    else .error .missing

def resolve (w : Workspace) (path : String) (forWriting : Bool) : Except PathFault (List String) :=
  if path.isEmpty then .error .missing
  else if path.contains '\x00' then .error .invalid
  else if pathLimit < (Text.bytes path).length then .error .nameTooLong
  else w.walk forWriting (if Path.isAbsolute path then [] else w.directory) (Text.splitChar '/' path)

def status (w : Workspace) (path : String) : Except PathFault Entry := do
  match w.entry? (← w.resolve path false) with
  | some e => .ok e
  | none => .error .missing

def read (w : Workspace) (path : String) : Except Fault String :=
  match w.status path with
  | .error f => .error (f.fault "open" path)
  | .ok .directory => .error (PathFault.isDirectory.fault "read" path)
  | .ok (.file content _) => .ok content
  | .ok (.database _) | .ok (.device _) | .ok (.program _) => .ok ""

def write (w : Workspace) (path content : String) : Except Fault Workspace :=
  match w.resolve path true with
  | .error f => .error (f.fault "open" path)
  | .ok parts =>
    match w.entry? parts with
    | some .directory => .error (PathFault.isDirectory.fault "open" path)
    | some (.device isFull) =>
      if isFull && !content.isEmpty then .error (PathFault.noSpace.fault "write" path) else .ok w
    | some (.file _ executable) => .ok (w.put parts (.file content executable))
    | _ => .ok (w.put parts (.file content false))

def makeDirectories (w : Workspace) (path : String) : Except Fault Workspace :=
  (Path.ancestors path).foldlM (fun w above =>
    match w.resolve above true with
    | .error f => .error (f.fault "mkdir" above)
    | .ok parts =>
      match w.entry? parts with
      | none => .ok (w.put parts .directory)
      | some .directory => .ok w
      | some _ => .error (PathFault.notDirectory.fault "mkdir" above)) w

def unreadable (cause : String) : Fault :=
  .store "failed to initialize schema" (some (.during "failed to create schema" (.plain cause)))

def hasRoomAt (w : Workspace) (parts : List String) (access : StoreAccess) : Bool :=
  parts.all (fun part => (Text.bytes part).length ≤ nameLimit) &&
    match w.entry? parts with
    | some .directory => false
    | some _ => true
    | none => access == .create

/-- The store in a file. A missing or empty file becomes an empty store, if it may be written. -/
def storeIn (w : Workspace) (parts : List String) (access : StoreAccess) : Except String (Store × Workspace) :=
  match w.entry? parts with
  | some (.database s) => .ok (s, w)
  | some (.file content _) =>
    if !content.isEmpty then .error "file is not a database (26)"
    else if access == .readOnly then .error StoreAddress.notWritable
    else .ok (.empty, w.put parts (.database .empty))
  | _ => .ok (.empty, w.put parts (.database .empty))

/-- The store that an address names, in a workspace that has its directory: the file is opened, then its
options are looked at, and then what it holds. -/
def storeNamed (w : Workspace) (address : String) : Except String (Store × Workspace) := do
  let a ← StoreAddress.read address
  if let .file path := a.place then
    if !w.hasRoomAt (w.locate path) a.access then .error "unable to open database file: out of memory (14)"
  match a.refusal, a.place with
  | some refusal, _ => .error refusal
  | none, .memory => return (.empty, { w with passing := .empty })
  | none, .file path => w.storeIn (w.locate path) a.access

def openStore (w : Workspace) (address : String) : Except Fault (Store × Workspace) :=
  match w.makeDirectories (Path.parent address) with
  | .error cause => .error (.store "failed to create store directory" (some cause))
  | .ok w => (w.storeNamed address).mapError unreadable

def storeAt (w : Workspace) (address : String) : Store :=
  match (StoreAddress.read address).toOption with
  | some { place := .file path, .. } =>
    match w.entry? (w.locate path) with
    | some (.database s) => s
    | _ => .empty
  | _ => w.passing

def modifyStore (w : Workspace) (address : String) (change : Store → Store) : Workspace :=
  match (StoreAddress.read address).toOption with
  | some { place := .file _, access := .readOnly, .. } => w
  | some { place := .file path, .. } => w.put (w.locate path) (.database (change (w.storeAt address)))
  | _ => { w with passing := change w.passing }

def isExecutable (w : Workspace) (path : String) : Bool :=
  match w.status path with
  | .ok (.file _ executable) => executable
  | .ok (.program _) => true
  | _ => false

/-- The directories in which programs are looked for; an empty one is the current directory. -/
def searchPath (w : Workspace) : List String :=
  match w.environment.get "PATH" with
  | "" => []
  | path => (Text.splitChar ':' path).map fun d => if d.isEmpty then "." else d

/-- The program that a name without slashes stands for: the first on the search path, which has to
have an absolute path. -/
def searched (w : Workspace) (name : String) : Except LaunchFault String :=
  match (w.searchPath.map (Path.join · name)).find? w.isExecutable with
  | none => .error (.notFound name)
  | some path => if Path.isAbsolute path then .ok path else .error (.nearby name)

def programPath (w : Workspace) (name : String) : Except LaunchFault String :=
  if name.contains '/' then .ok name else w.searched name

def program? (w : Workspace) (name : String) : Option String :=
  (w.programPath name).toOption.filter w.isExecutable

end Workspace
end CallFusion
