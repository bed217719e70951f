import CallFusion.Environment
import CallFusion.Fault
import CallFusion.Merge.Profile
import CallFusion.Text.Duration
import CallFusion.Text.Number

/-!
Settings of the tool: defaults, then the first settings file that can be read, then environment
variables. Each source may set any of the keys; what comes out is checked once at the end.
-/
namespace CallFusion

open CallFusion.Text

inductive DemanglerKind where
  | inProcess
  | command
  | remote
  | unknown (name : String)
  deriving DecidableEq, Repr, Inhabited

def DemanglerKind.text : DemanglerKind → String
  | inProcess => "local"
  | command => "command"
  | remote => "remote"
  | unknown name => name

def DemanglerKind.ofName (s : String) : DemanglerKind :=
  ([inProcess, command, remote].find? (·.text == s)).getD (.unknown s)

@[ext]
structure Settings where
  profile : String := "go"
  logLevel : String := "info"
  demangler : DemanglerKind := .inProcess
  command : String := "rustfilt"
  url : String := "http://localhost:8090/rpc"
  retries : UInt64 := 5
  /-- Nanoseconds between attempts. -/
  backoff : Int := 500000000
  cachePath : String
  history : Bool := true
  telemetry : Bool := false
  telemetryUrl : String := "localhost:4318"
  payload : Payload := .standard
  deriving DecidableEq, Repr, Inhabited

namespace Settings

def standard (home : String) : Settings := { cachePath := Path.join home ".rpcmerge/cache.db" }

def fileName : String := ".rpcmerge.toml"

def isOn (s : String) : Bool := ["1", "true", "yes", "on"].contains (lower s)

inductive ValueFault where
  | number (fault : NumberFault)
  | duration (fault : DurationFault)

def ValueFault.message (f : ValueFault) (value : String) : String :=
  match f with
  | number fault => fault.message value
  | duration fault => fault.message value

def wordValue (value : String) : Except ValueFault UInt64 := (word? value).mapError .number

/-- Sets one key; keys that mean nothing are ignored. -/
def assign (s : Settings) (key value : String) : Except ValueFault Settings :=
  match key with
  | "profile" => .ok { s with profile := value }
  | "log_level" => .ok { s with logLevel := value }
  | "demangler" => .ok { s with demangler := .ofName value }
  | "demangler_command" => .ok { s with command := value }
  | "demangler_url" => .ok { s with url := value }
  | "demangler_retries" => (wordValue value).map ({ s with retries := · })
  | "demangler_backoff" => ((duration? value).mapError .duration).map ({ s with backoff := · })
  | "cache_path" => .ok { s with cachePath := value }
  | "history_enabled" => .ok { s with history := isOn value }
  | "telemetry_enabled" => .ok { s with telemetry := isOn value }
  | "telemetry_url" => .ok { s with telemetryUrl := value }
  | "payload_size" => (wordValue value).map fun n => { s with payload := { s.payload with size := n } }
  | "payload_align" => (wordValue value).map fun n => { s with payload := { s.payload with align := n } }
  | _ => .ok s

def set (s : Settings) (key value : String) : Except Fault Settings :=
  (s.assign key value).mapError fun f =>
    .plain ("invalid " ++ key ++ " " ++ quoted value ++ ": " ++ f.message value)

/-- A line's key and value; none for blank lines, comments and lines without an equals sign. -/
def keyValue? (line : String) : Option (String × String) :=
  let line := trim line
  if line.isEmpty || line.startsWith "#" then none
  else
    let cs := line.toList
    let key := cs.takeWhile (· != '=')
    match cs.drop key.length with
    | _ :: value =>
      some (trim (String.ofList key),
        trimWith (fun c => c == '"' || c == '\'') (trim (String.ofList value)))
    | [] => none

def setLines (s : Settings) (n : Nat) : List String → Except Fault Settings
  | [] => .ok s
  | line :: rest =>
    match keyValue? line with
    | none => setLines s (n + 1) rest
    | some (key, value) =>
      match s.set key value with
      | .ok s => setLines s (n + 1) rest
      | .error e => .error (.during ("line " ++ toString n) e)

def setFile (s : Settings) (path content : String) : Except Fault Settings :=
  (s.setLines 1 (splitChar '\n' content)).mapError fun e => .configuration path (some e)

/-- Keys that environment variables may set, in the order in which they are applied. -/
def variableKeys : List (String × String) :=
  ["profile", "log_level", "demangler", "demangler_command", "demangler_url", "demangler_retries",
    "demangler_backoff", "cache_path", "history_enabled", "telemetry_enabled", "telemetry_url", "payload_size",
    "payload_align"].map fun key => (key, "RPCMERGE_" ++ key.map Char.toUpper)

def setVariables (s : Settings) (env : Environment) : Except Fault Settings :=
  variableKeys.foldlM (fun s (key, name) =>
    let value := env.get name
    if value.isEmpty then .ok s else (s.set key value).mapError fun e => .configuration name (some e)) s

def isPowerOfTwo (n : UInt64) : Bool := n != 0 && n &&& (n - 1) == 0

def problem? (s : Settings) : Option String :=
  if !(["go", "rust"] : List String).contains s.profile then some ("unknown profile " ++ quoted s.profile ++ " (want go or rust)")
  else match s.demangler with
    | .unknown name => some ("unknown demangler " ++ quoted name)
    | kind =>
      if kind == .command && s.command.isEmpty then some "demangler_command cannot be empty"
      else if kind == .remote && s.url.isEmpty then some "demangler_url cannot be empty"
      else if s.payload.size == 0 then some "payload_size must be positive"
      else if !isPowerOfTwo s.payload.align then
        some ("payload_align " ++ toString s.payload.align.toNat ++ " is not a power of two")
      else none

def validate (s : Settings) : Except Fault Settings :=
  match s.problem? with
  | some what => .error (.configuration what none)
  | none => .ok s

/-- The settings from all sources: the defaults, a file with its path if one could be read, and the
environment. -/
def load (defaults : Settings) (file : Option (String × String)) (env : Environment) : Except Fault Settings := do
  let s ← match file with
    | some (path, content) => defaults.setFile path content
    | none => .ok defaults
  (← s.setVariables env).validate

def text (s : Settings) : String :=
  "Config\x7bProfile: " ++ s.profile ++ ", Demangler: " ++ s.demangler.text ++ ", LogLevel: " ++ s.logLevel ++
    ", CachePath: " ++ s.cachePath ++ "\x7d"

end Settings
end CallFusion
