import CallFusion.Text.Quoted

/-!
Bounds of the numbers that are kept in 64 bits, unsigned numbers in decimal, and why a text is none. Natural order of
names: where both names have digits, the whole numbers there are compared; other characters compare by code point,
and a name comes before its extensions.
-/
namespace CallFusion.Text

def wordLimit : Nat := 0x10000000000000000

def signedLimit : Nat := 0x8000000000000000

def isSignedWord (n : Int) : Bool := -(signedLimit : Int) ≤ n && n < (signedLimit : Int)

inductive NumberFault where
  | syntaxError
  | outOfRange
  deriving DecidableEq, Repr, Inhabited

/-- Digits read from the left; a number that outgrows 64 bits is refused before what follows is
looked at. -/
def wordFrom (n : Nat) : List Char → Except NumberFault UInt64
  | [] => .ok n.toUInt64
  | c :: cs =>
    if !c.isDigit then .error .syntaxError
    else
      let next := n * 10 + (c.toNat - 48)
      if wordLimit ≤ next then .error .outOfRange else wordFrom next cs

def word? (s : String) : Except NumberFault UInt64 :=
  match s.toList with
  | [] => .error .syntaxError
  | cs => wordFrom 0 cs

def NumberFault.message (f : NumberFault) (s : String) : String :=
  "strconv.ParseUint: parsing " ++ quoted s ++ ": " ++
    match f with
    | syntaxError => "invalid syntax"
    | outOfRange => "value out of range"

/-! ### Natural order -/

def runRank (ds : List Char) : Nat × Nat :=
  (ds.foldl (fun n c => n * 10 + (c.toNat - 48)) 0, (ds.takeWhile (· == '0')).length)

/-- Whether one character list comes no later than another. Of two equal numbers the one with fewer
leading zeros comes first. `fuel` is at least the length of the first list. -/
def naturalLeAt : Nat → List Char → List Char → Bool
  | _, [], _ => true
  | _, _ :: _, [] => false
  | 0, _, _ => true
  | fuel + 1, a :: as, b :: bs =>
    if a.isDigit && b.isDigit then
      let m := runRank ((a :: as).takeWhile Char.isDigit)
      let n := runRank ((b :: bs).takeWhile Char.isDigit)
      if m.1 ≠ n.1 then m.1 < n.1
      else if m.2 ≠ n.2 then m.2 < n.2
      else naturalLeAt fuel (as.dropWhile Char.isDigit) (bs.dropWhile Char.isDigit)
    else if a = b then naturalLeAt fuel as bs
    else a < b

def naturalLe (a b : String) : Bool := let cs := a.toList; naturalLeAt cs.length cs b.toList

end CallFusion.Text
