import CallFusion.Json.Parser
import CallFusion.Text.Number
import CallFusion.Text.Trim

/-!
Reading objects as records. Keys are compared without regard to case, a null leaves a field as it
was, and of several members of a field the last one counts.
-/
namespace CallFusion.Json

def folded (key : String) : String :=
  key.map fun c => if c.toNat == 0x17F then 's' else if c.toNat == 0x130 then c else Text.lowerChar c

def members (key : String) (fields : List (String × Json)) : List Json :=
  (fields.filter fun f => folded f.1 == key).map (·.2)

/-- The text in a field over the one it had before, and whether the field holds nothing else. What is no
text leaves the field as it was. -/
def textOver (before : String) (key : String) (fields : List (String × Json)) : String × Bool :=
  (members key fields).foldl (fun (text, fits) j => match j with
    | .str s => (s, fits)
    | .null => (text, fits)
    | _ => (text, false)) (before, true)

def textField? (key : String) (fields : List (String × Json)) : Option String :=
  match textOver "" key fields with
  | (text, true) => some text
  | (_, false) => none

def isWhole (digits : String) : Bool :=
  match digits.toInt? with
  | some n => Text.isSignedWord n
  | none => false

def isIntegerField (key : String) (fields : List (String × Json)) : Bool :=
  (members key fields).all fun
    | .num t => isWhole t
    | .null => true
    | _ => false

def memberTexts : Nat → List Char → List (String × String)
  | 0, _ => []
  | fuel + 1, cs =>
    match skip cs with
    | '"' :: rest =>
      match stringTail (rest.length + 1) [] rest with
      | none => []
      | some (key, rest) =>
        let value := skip ((skip rest).drop 1)
        match valueAt (value.length + 2) value with
        | none => []
        | some (_, after) =>
          (key, String.ofList (value.take (value.length - after.length))) :: memberTexts fuel ((skip after).drop 1)
    | _ => []

def writtenField? (key document : String) : Option String :=
  match skip document.toList with
  | '\x7b' :: rest =>
    match ((memberTexts (rest.length + 1) rest).filter fun f => folded f.1 == key).getLast? with
    | some (_, "null") => none
    | some (_, text) => some text
    | none => none
  | _ => none

end CallFusion.Json
