import CallFusion.Diagnostic
import CallFusion.Ir.Name

/-!
The compiler release a module names as its producer. The first phrase of the form `clang version 14.0.6`
in the text counts, wherever it stands.
-/
namespace CallFusion.Ir

structure Release where
  text : String
  numbers : List Nat
  deriving DecidableEq, Repr, Inhabited

namespace Release

def dottedAt : Nat → List Char → List (List Char)
  | 0, _ => []
  | fuel + 1, cs =>
    let digits := cs.takeWhile Char.isDigit
    if digits.isEmpty then []
    else match cs.drop digits.length with
      | '.' :: rest => digits :: dottedAt fuel rest
      | _ => [digits]

def introductions : List String := ["clang version ", "LLVM version ", "llvm version "]

def findDotted : List Char → Option (List (List Char))
  | [] => none
  | c :: cs =>
    let here := introductions.findSome? fun w =>
      if w.toList.isPrefixOf (c :: cs) then
        let rest := (c :: cs).drop w.length
        match dottedAt (rest.length + 1) rest with
        | [] => none
        | ds => some ds
      else none
    here <|> findDotted cs

/-- The producer's release; numbers past 63 bits are not taken for a release. -/
def find? (src : String) : Option Release := do
  let parts ← findDotted src.toList
  let texts := parts.map String.ofList
  let numbers := texts.map digitsValue
  if numbers.all (· < Text.signedLimit) then
    return ⟨".".intercalate texts, numbers ++ List.replicate (3 - numbers.length) 0⟩
  else none

def normalized (r : Release) : String := ".".intercalate (r.numbers.map toString)

/-- Producers from this release on no longer emit typed pointers. -/
def untypedPointers : Nat := 15

def note? (src : String) : Option Diagnostic :=
  (find? src).bind fun r =>
    if (r.numbers.head?.getD 0) < untypedPointers then none
    else some (.note ("module produced by LLVM " ++ r.text ++
      "; opaque pointers are not supported and inserted memcpy calls use typed i8* operands"))

end Release
end CallFusion.Ir
