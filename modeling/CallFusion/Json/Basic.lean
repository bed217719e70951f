import CallFusion.Text.Utf8

/-!
JSON values. Numbers keep their text and objects the order of their members, repeated keys included.
-/
namespace CallFusion

inductive Json where
  | null
  | bool (b : Bool)
  | num (text : String)
  | str (s : String)
  | arr (items : List Json)
  | obj (members : List (String × Json))
  deriving Repr, Inhabited

namespace Json

def ofNat (n : Nat) : Json := num (toString n)

def ofInt (n : Int) : Json := num (toString n)

def ofTexts (ss : List String) : Json := arr (ss.map str)

def ofOption {α : Type} (encode : α → Json) : Option α → Json
  | some a => encode a
  | none => null

def get? (key : String) : Json → Option Json
  | obj members => (members.reverse.find? (·.1 == key)).map (·.2)
  | _ => none

def members? : Json → Option (List (String × Json))
  | obj members => some members
  | _ => none

def hexEscape (c : Char) : String :=
  let ds := Nat.toDigits 16 c.toNat
  "\\u" ++ String.ofList (List.replicate (4 - ds.length) '0' ++ ds)

def escapeChar (c : Char) : String :=
  match c with
  | '"' => "\\\""
  | '\\' => "\\\\"
  | '\n' => "\\n"
  | '\r' => "\\r"
  | '\t' => "\\t"
  | c =>
    if c.toNat < 0x20 || c.toNat == 0x2028 || c.toNat == 0x2029 then hexEscape c
    else String.ofList (Text.carried c)

/-- A stray byte is no character, so the replacement character stands for it. -/
def escapeGlyph : Text.Glyph → String
  | .char c => escapeChar c
  | .stray _ => String.singleton Text.replacement

def quote (s : String) : String := "\"" ++ String.join ((Text.glyphs s).map escapeGlyph) ++ "\""

mutual
def compact : Json → String
  | null => "null"
  | bool b => if b then "true" else "false"
  | num t => t
  | str s => quote s
  | arr items => "[" ++ ",".intercalate (compacts items) ++ "]"
  | obj members => "\x7b" ++ ",".intercalate (compactMembers members) ++ "\x7d"

def compacts : List Json → List String
  | [] => []
  | j :: js => compact j :: compacts js

def compactMembers : List (String × Json) → List String
  | [] => []
  | (k, j) :: js => (quote k ++ ":" ++ compact j) :: compactMembers js
end

def isMarkup (c : Char) : Bool := c == '<' || c == '>' || c == '&'

/-- The value as it is written for storing: no character of it is taken for markup. Such characters stand in strings
only, where they can be escaped. -/
def stored (j : Json) : String :=
  String.ofList (j.compact.toList.flatMap fun c => if isMarkup c then (hexEscape c).toList else [c])

end Json
end CallFusion
