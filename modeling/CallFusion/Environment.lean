import CallFusion.Text.Trim

/-! What a program finds around it: environment variables, and paths, worked out without looking at files. -/
namespace CallFusion

/-- Variables and their values; a later entry hides an earlier one of the same name. -/
structure Environment where
  entries : List (String × String)
  deriving Repr, Inhabited

namespace Environment

def get? (e : Environment) (name : String) : Option String := (e.entries.reverse.find? (·.1 == name)).map (·.2)

def get (e : Environment) (name : String) : String := (e.get? name).getD ""

def set (e : Environment) (name value : String) : Environment := ⟨e.entries ++ [(name, value)]⟩

def unset (e : Environment) (name : String) : Environment := ⟨e.entries.filter (·.1 != name)⟩

end Environment

namespace Path

open Text

def isAbsolute (path : String) : Bool := path.startsWith "/"

/-- The parts of a path, innermost first, with `.` and `..` worked out. A `..` at the front of a
relative path stays. -/
def partsRev (absolute : Bool) (parts : List String) : List String :=
  parts.foldl (fun acc part =>
    if part.isEmpty || part == "." then acc
    else if part == ".." then
      match acc with
      | top :: rest => if top == ".." then part :: acc else rest
      | [] => if absolute then [] else [part]
    else part :: acc) []

def parts (path : String) : List String := (partsRev (isAbsolute path) (splitChar '/' path)).reverse

def clean (path : String) : String :=
  let spelled := "/".intercalate (parts path)
  if isAbsolute path then "/" ++ spelled else if spelled.isEmpty then "." else spelled

/-- Two paths in a row; an empty one is left out. -/
def join (a b : String) : String :=
  if a.isEmpty then (if b.isEmpty then "" else clean b) else if b.isEmpty then clean a else clean (a ++ "/" ++ b)

def parent (path : String) : String :=
  clean (String.ofList (path.toList.reverse.dropWhile (· != '/')).reverse)

def ancestors (path : String) : List String :=
  let parts := splitChar '/' path
  ((List.range parts.length).map fun n => "/".intercalate (parts.take (n + 1))).filter (· != "")

end Path

end CallFusion
