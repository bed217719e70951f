import CallFusion.Diagnostic
import CallFusion.Environment

/-!
Diagnostics for people: one line each, with a label that is coloured by kind on a terminal.
-/
namespace CallFusion.Diagnostic

/-- Display codes of a label: those that switch its look on and those that switch it off again. -/
structure Style where
  on : String
  off : String
  deriving DecidableEq, Repr

def escapeCode (codes : String) : String := "\x1b[" ++ codes ++ "m"

def Style.wrap (s : Style) (text : String) : String := escapeCode s.on ++ text ++ escapeCode s.off

def Kind.style? : Kind → Option Style
  | notFound => some ⟨"31;1", "0;22"⟩
  | malformedPrecondition => some ⟨"31", "0"⟩
  | dependencyUnavailable => some ⟨"35", "0"⟩
  | structural => some ⟨"33", "0"⟩
  | note => some ⟨"36", "0"⟩
  | other _ => none

/-- Whether labels are coloured. Asking for colours wins over refusing them, and without either
only a capable terminal gets them. -/
def wantsColor (env : Environment) (terminal : Bool) : Bool :=
  if env.get "FORCE_COLOR" != "" then true
  else if (env.get? "NO_COLOR").isSome || env.get "TERM" == "dumb" then false
  else terminal

def line (color : Bool) (d : Diagnostic) : String :=
  let label := "[" ++ d.kind.text ++ "]"
  let label := match color, d.kind.style? with
    | true, some style => style.wrap label
    | _, _ => label
  label ++ " " ++ d.message ++ "\n"

end CallFusion.Diagnostic

def CallFusion.Diagnostics.printed (color : Bool) (ds : CallFusion.Diagnostics) : String :=
  String.join (ds.map (CallFusion.Diagnostic.line color))
