/-!
Diagnostics: what a run has to say about a module. Only notes leave the run free to go on.
-/
namespace CallFusion

inductive Diagnostic.Kind where
  | notFound
  | malformedPrecondition
  | dependencyUnavailable
  | structural
  | note
  | other (code : Int)
  deriving DecidableEq, Repr, Inhabited

structure Diagnostic where
  kind : Diagnostic.Kind
  message : String
  deriving DecidableEq, Repr, Inhabited

namespace Diagnostic

def Kind.ofCode (n : Int) : Kind :=
  if n = 0 then notFound
  else if n = 1 then malformedPrecondition
  else if n = 2 then dependencyUnavailable
  else if n = 3 then structural
  else if n = 4 then note
  else other n

def Kind.text : Kind → String
  | notFound => "not-found"
  | malformedPrecondition => "malformed-precondition"
  | dependencyUnavailable => "dependency-unavailable"
  | structural => "structural"
  | note => "note"
  | other n => "kind(" ++ toString n ++ ")"

def Kind.named : List Kind := [notFound, malformedPrecondition, dependencyUnavailable, structural, note]

def notFound (message : String) : Diagnostic := ⟨.notFound, message⟩

def precondition (message : String) : Diagnostic := ⟨.malformedPrecondition, message⟩

def unavailable (message : String) : Diagnostic := ⟨.dependencyUnavailable, message⟩

def structural (message : String) : Diagnostic := ⟨.structural, message⟩

def note (message : String) : Diagnostic := ⟨.note, message⟩

def text (d : Diagnostic) : String := d.kind.text ++ ": " ++ d.message

end Diagnostic

abbrev Diagnostics := List Diagnostic

namespace Diagnostics

def has (ds : Diagnostics) (kind : Diagnostic.Kind) : Bool := List.any ds fun d => d.kind == kind

/-- Whether some entry is more severe than a note. -/
def blocking (ds : Diagnostics) : Bool := List.any ds fun d => d.kind != .note

def messages (ds : Diagnostics) : List String := List.map (·.message) ds

def text (ds : Diagnostics) : String := "; ".intercalate (List.map Diagnostic.text ds)

end Diagnostics
end CallFusion
