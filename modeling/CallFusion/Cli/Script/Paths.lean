import CallFusion.Cli.Script.Pattern
import CallFusion.Workspace

/-!
Patterns for paths. A part of a path that can stand for several names is compared with the names in the
directory that the parts before it lead to.
-/
namespace CallFusion.Cli.Script.Pattern

def isWild (p : Pattern) : Bool := p.any fun (c, isQuoted) => !isQuoted && (c == '*' || c == '?' || c == '[')

def text (p : Pattern) : String := String.ofList (p.map (·.1))

def parts : Pattern → List Pattern
  | [] => [[]]
  | c :: p =>
    match c.1 == '/', parts p with
    | true, found => [] :: found
    | false, part :: found => (c :: part) :: found
    | false, [] => [[c]]

/-- The names in the directory at a path that fit a pattern. A name with a point in front has to be asked
for with one. -/
def namesIn (w : Workspace) (path : String) (p : Pattern) : List String :=
  let asksForPoint := p.head?.any (·.1 == '.')
  match w.resolve (if path.isEmpty then "." else path) false with
  | .ok directory =>
    if w.entry? directory matches some .directory then
      (w.names directory).filter fun name => (asksForPoint || !name.startsWith ".") && p.fits name.toList
    else []
  | .error _ => []

def pathsFrom (w : Workspace) (front : String) : List Pattern → List String
  | [] => []
  | [last] =>
    if last.isWild then (namesIn w front last).map (front ++ ·)
    else if (w.status (front ++ last.text)).toOption.isSome then [front ++ last.text]
    else []
  | part :: rest =>
    if part.isWild then (namesIn w front part).flatMap fun name => pathsFrom w (front ++ name ++ "/") rest
    else pathsFrom w (front ++ part.text ++ "/") rest

/-- The paths that a pattern stands for, in order; without any it stands for itself. -/
def paths (w : Workspace) (p : Pattern) : List String :=
  if !p.isWild then [p.text]
  else match pathsFrom w "" p.parts with
    | [] => [p.text]
    | found => found.mergeSort fun a b => a ≤ b

end CallFusion.Cli.Script.Pattern
