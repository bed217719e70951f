import CallFusion.Log
import CallFusion.Merge.Profile

/-!
What a shell may offer when an argument is completed.
-/
namespace CallFusion

inductive FilePolicy where
  | anyFiles
  | noFiles
  | endings
  deriving DecidableEq, Repr, Inhabited

def FilePolicy.code : FilePolicy → Nat
  | anyFiles => 0
  | noFiles => 4
  | endings => 8

def FilePolicy.name : FilePolicy → String
  | anyFiles => "ShellCompDirectiveDefault"
  | noFiles => "ShellCompDirectiveNoFileComp"
  | endings => "ShellCompDirectiveFilterFileExt"

structure Suggestions where
  values : List String
  policy : FilePolicy
  deriving DecidableEq, Repr, Inhabited

namespace Suggestions

def profiles : Suggestions :=
  ⟨["go\tGo RPC runtime with cgo wrappers", "rust\tOpenFaaSRPC crate"], .noFiles⟩

def logLevels : Suggestions := ⟨["debug", "info", "warn", "error"], .noFiles⟩

/-- Module files for the first argument and nothing for further ones. -/
def moduleFiles (args : List String) : Suggestions :=
  if args.isEmpty then ⟨["ll"], .endings⟩ else ⟨[], .noFiles⟩

def nothing : Suggestions := ⟨[], .noFiles⟩

def files : Suggestions := ⟨[], .anyFiles⟩

def noted (value note : String) : String := value ++ "\t" ++ note

def line (withNotes : Bool) (value : String) : String :=
  let shown := if withNotes then value else (Text.splitChar '\t' value).headD ""
  Text.trim ((Text.splitChar '\n' shown).headD "") ++ "\n"

def text (s : Suggestions) (withNotes : Bool) : String :=
  String.join (s.values.map (line withNotes)) ++ ":" ++ toString s.policy.code ++ "\n"

end Suggestions
end CallFusion
