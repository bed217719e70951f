import CallFusion.Diagnostic
import CallFusion.Json.Basic
import CallFusion.Text.Quoted
import CallFusion.Text.Trim

/-!
Structured log records. A logger carries attributes and groups; inside a run every record ends
with the run's mode and profile. Records are written as `key=value` pairs or as JSON objects.
-/
namespace CallFusion.Log

open CallFusion.Text

inductive Level where
  | debug
  | info
  | warn
  | error
  deriving DecidableEq, Repr, Inhabited

namespace Level

def text : Level → String
  | debug => "DEBUG"
  | info => "INFO"
  | warn => "WARN"
  | error => "ERROR"

def rank : Level → Nat
  | debug => 0
  | info => 1
  | warn => 2
  | error => 3

def parse (s : String) : Level :=
  match upper (trim s) with
  | "DEBUG" => debug
  | "WARN" | "WARNING" => warn
  | "ERROR" => error
  | _ => info

def ofKind : Diagnostic.Kind → Level
  | .note => info
  | .dependencyUnavailable | .structural => warn
  | _ => error

end Level

inductive Format where
  | text
  | json
  deriving DecidableEq, Repr, Inhabited

structure Attr where
  key : String
  value : String
  deriving DecidableEq, Repr, Inhabited

/-- What a logger was given: attributes, and groups that hold everything after them. -/
inductive Entry where
  | attr (a : Attr)
  | group (name : String)
  deriving DecidableEq, Repr, Inhabited

/-- Attributes from alternating keys and values; a value without a key is marked as such. -/
def attrsOf : List String → List Attr
  | key :: value :: rest => ⟨key, value⟩ :: attrsOf rest
  | [value] => [⟨"!BADKEY", value⟩]
  | [] => []

structure Run where
  mode : String
  profile : String
  deriving DecidableEq, Repr, Inhabited

def Run.attrs (r : Run) : List Attr := [⟨"mode", r.mode⟩, ⟨"profile", r.profile⟩]

structure Logger where
  format : Format
  level : Level
  entries : List Entry := []
  run : Option Run := none
  deriving Repr, Inhabited

def needsQuotes (s : String) : Bool :=
  s.isEmpty || s.any fun c =>
    c == ' ' || c == '=' || c == '"' || c.toNat < 0x20 ||
      (0x80 ≤ c.toNat && (isSpace c || !isPrintable c || c == replacement))

def word (s : String) : String := if needsQuotes s then quoted s else s

def groupedKey (groups key : String) : String :=
  if groups.isEmpty then word key
  else if needsQuotes groups || needsQuotes key then quoted (groups ++ key)
  else groups ++ key

def textEntries (groups : String) : List Entry → String
  | [] => ""
  | .attr a :: rest => " " ++ groupedKey groups a.key ++ "=" ++ word a.value ++ textEntries groups rest
  | .group name :: rest => textEntries (groups ++ name ++ ".") rest

/-- Members of a JSON record: a group holds the members behind it, and an empty group is left out. -/
def jsonEntries : List Entry → List (String × Json)
  | [] => []
  | .attr a :: rest => (a.key, .str a.value) :: jsonEntries rest
  | .group name :: rest =>
    match jsonEntries rest with
    | [] => []
    | members => [(name, .obj members)]

/-- Records bear no time of their own; outside groups the key for it is left out. -/
def untimed : List Entry → List Entry
  | .attr a :: rest => if a.key == "time" then untimed rest else .attr a :: untimed rest
  | rest => rest

namespace Logger

def recordEntries (l : Logger) (attrs : List Attr) : List Entry :=
  untimed (l.entries ++ attrs.map .attr ++
    match l.run with
    | none => []
    | some r => .group "run" :: r.attrs.map .attr)

def record (l : Logger) (level : Level) (message : String) (attrs : List Attr) : String :=
  if level.rank < l.level.rank then ""
  else match l.format with
    | .text => "level=" ++ level.text ++ " msg=" ++ word message ++ textEntries "" (l.recordEntries attrs) ++ "\n"
    | .json =>
      (Json.obj (("level", .str level.text) :: ("msg", .str message) :: jsonEntries (l.recordEntries attrs))).compact ++
        "\n"

def withAttrs (l : Logger) (attrs : List Attr) : Logger := { l with entries := l.entries ++ attrs.map .attr }

def withGroup (l : Logger) (name : String) : Logger :=
  if name.isEmpty then l else { l with entries := l.entries ++ [.group name] }

def withRun (l : Logger) (r : Run) : Logger := { l with run := some r }

def diagnostics (l : Logger) (ds : Diagnostics) (attrs : List String) : String :=
  String.join (ds.map fun d => l.record (Level.ofKind d.kind) d.message (attrsOf ("kind" :: d.kind.text :: attrs)))

end Logger
end CallFusion.Log
