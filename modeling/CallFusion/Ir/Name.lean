import CallFusion.Text.Escape
import CallFusion.Text.Number

/-!
Names in textual IR. A name made of other characters than letters, digits and `$ - . _` is quoted,
and so is a name that would read as a number.
-/
namespace CallFusion.Ir

open CallFusion.Text

def isNameByte (b : UInt8) : Bool :=
  (97 ≤ b && b ≤ 122) || (65 ≤ b && b ≤ 90) || (48 ≤ b && b ≤ 57) ||
    b == 36 || b == 45 || b == 46 || b == 95

def isNameChar (c : Char) : Bool := c.isAlphanum || c == '$' || c == '-' || c == '.' || c == '_'

def isDigits (s : String) : Bool := !s.isEmpty && s.all Char.isDigit

def digitsValue (s : String) : Nat := s.foldl (fun n c => n * 10 + (c.toNat - 48)) 0

def isNumeric (s : String) : Bool := isDigits s && digitsValue s < wordLimit

def encodeName (s : String) : String :=
  let bs := bytes s
  if bs.all isNameByte then s
  else quoteBytes bs

/-- A name after its sigil; numeric names are quoted so that they are not taken for numbers. -/
def sigilName (sigil name : String) : String :=
  if isNumeric name then sigil ++ "\"" ++ name ++ "\"" else sigil ++ encodeName name

inductive Ident where
  | named (name : String)
  | number (n : Nat)
  deriving DecidableEq, Repr, Inhabited

namespace Ident

def isUnnamed : Ident → Bool
  | named _ => false
  | number _ => true

def text : Ident → String
  | named s => sigilName "%" s
  | number n => "%" ++ toString n

def label : Ident → String
  | named s => if isNumeric s then "\"" ++ s ++ "\":" else encodeName s ++ ":"
  | number n => toString n ++ ":"

def spelled? (s : String) : Option Int :=
  let digits := if s.startsWith "-" || s.startsWith "+" then (s.drop 1).toString else s
  let n : Int := if s.startsWith "-" then -(digitsValue digits : Int) else digitsValue digits
  if isDigits digits && isSignedWord n then some n else none

/-- A name that reads as a number keeps its quotes wherever names are reported. -/
def reported (s : String) : String :=
  match spelled? s with
  | some n => "\"" ++ toString n ++ "\""
  | none => s

def shown : Ident → String
  | named s => reported s
  | number n => toString n

def ofName (s : String) : Ident := if s.isEmpty then number 0 else named s

/-- The identifier that a bare run of name characters spells. Digits that outgrow a signed word are a
name, and so is a number with a sign. -/
def ofRun (s : String) : Ident :=
  match spelled? s with
  | some n => if isDigits s then number n.toNat else named s
  | none => named s

def symbolText : Ident → String
  | named s => sigilName "@" s
  | number n => "@" ++ toString n

end Ident
end CallFusion.Ir
