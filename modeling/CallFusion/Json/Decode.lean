import CallFusion.Json.Basic
import CallFusion.Text.Number

/-!
Reading values of a known shape. A missing or null value stands for the empty one of its shape, and
a value of another shape is refused.
-/
namespace CallFusion.Json

def field (j : Json) (key : String) : Json := (j.get? key).getD .null

def text? : Json → Option String
  | .null => some ""
  | .str s => some s
  | _ => none

def flag? : Json → Option Bool
  | .null => some false
  | .bool b => some b
  | _ => none

def integer? : Json → Option Int
  | .null => some 0
  | .num t => t.toInt?.bind fun n => if Text.isSignedWord n then some n else none
  | _ => none

def word? : Json → Option UInt64
  | .null => some 0
  | .num t => t.toNat?.bind fun n => if n < Text.wordLimit then some n.toUInt64 else none
  | _ => none

def list? {α : Type} (item : Json → Option α) : Json → Option (List α)
  | .null => some []
  | .arr items => items.mapM item
  | _ => none

def table? {α : Type} (item : Json → Option α) : Json → Option (List (String × α))
  | .null => some []
  | .obj members => members.mapM fun (key, j) => (item j).map (key, ·)
  | _ => none

def optional? {α : Type} (item : Json → Option α) : Json → Option (Option α)
  | .null => some none
  | j => (item j).map some

end CallFusion.Json
