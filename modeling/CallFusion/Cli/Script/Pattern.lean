/-! Patterns of shell scripts: stars, question marks and sets of characters. -/
namespace CallFusion.Cli.Script

/-- The characters of a pattern; a quoted one stands for itself. -/
abbrev Pattern := List (Char × Bool)

namespace Pattern

def kinds : List (String × (Char → Bool)) :=
  [("alpha", Char.isAlpha), ("digit", Char.isDigit), ("alnum", Char.isAlphanum), ("upper", Char.isUpper),
    ("lower", Char.isLower), ("space", fun c => c == ' ' || ('\t' ≤ c && c ≤ '\r')), ("blank", fun c => c == ' ' || c == '\t'),
    ("punct", fun c => '!' ≤ c && c ≤ '~' && !c.isAlphanum), ("print", fun c => ' ' ≤ c && c ≤ '~'),
    ("graph", fun c => '!' ≤ c && c ≤ '~'), ("cntrl", fun c => c < ' ' || c == '\x7f'),
    ("xdigit", fun c => c.isDigit || ('a' ≤ c && c ≤ 'f') || ('A' ≤ c && c ≤ 'F'))]

def kind? : List Char → Option ((Char → Bool) × List Char)
  | '[' :: ':' :: rest =>
    let name := rest.takeWhile (· != ':')
    match rest.drop name.length, kinds.lookup (String.ofList name) with
    | ':' :: ']' :: rest, some test => some (test, rest)
    | _, _ => none
  | _ => none

def isMember (c : Char) : Nat → List Char → Bool
  | 0, _ => false
  | _, [] => false
  | fuel + 1, d :: rest =>
    match kind? (d :: rest), rest with
    | some (test, rest), _ => test c || isMember c fuel rest
    | none, '-' :: high :: rest => (d ≤ c && c ≤ high) || isMember c fuel rest
    | none, _ => c == d || isMember c fuel rest

/-- How many characters of a set come before the bracket that closes it; names of kinds hold brackets of
their own. -/
def setLength : Nat → List Char → Option Nat
  | 0, _ => none
  | _, [] => none
  | fuel + 1, c :: rest =>
    match kind? (c :: rest) with
    | some (_, left) => (setLength fuel left).map (· + (rest.length + 1 - left.length))
    | none => if c == ']' then some 0 else (setLength fuel rest).map (· + 1)

def set? (p : Pattern) : Option (List Char × Bool × Pattern) :=
  let (turned, p) := match p with
    | ('!', false) :: p | ('^', false) :: p => (true, p)
    | p => (false, p)
  let cs := p.map fun (c, isQuoted) => if isQuoted && c == ']' then '\x00' else c
  let isFirst := cs.head? == some ']'
  match setLength (cs.length + 1) (if isFirst then cs.tail else cs) with
  | some n =>
    let n := if isFirst then n + 1 else n
    some ((p.take n).map (·.1), turned, p.drop (n + 1))
  | none => none

def fitsIn : Nat → Pattern → List Char → Bool
  | 0, _, _ => false
  | _ + 1, [], cs => cs.isEmpty
  | fuel + 1, ('*', false) :: p, cs => fitsIn fuel p cs || (!cs.isEmpty && fitsIn fuel (('*', false) :: p) cs.tail)
  | _ + 1, _ :: _, [] => false
  | fuel + 1, ('?', false) :: p, _ :: cs => fitsIn fuel p cs
  | fuel + 1, ('[', false) :: p, c :: cs =>
    match set? p with
    | some (members, turned, rest) => (isMember c (members.length + 1) members != turned) && fitsIn fuel rest cs
    | none => c == '[' && fitsIn fuel p cs
  | fuel + 1, (d, _) :: p, c :: cs => c == d && fitsIn fuel p cs

def fits (p : Pattern) (cs : List Char) : Bool := fitsIn (p.length + cs.length + 1) p cs

def stripStart (p : Pattern) (longest : Bool) (cs : List Char) : List Char :=
  let lengths := List.range (cs.length + 1)
  match (if longest then lengths.reverse else lengths).find? fun n => p.fits (cs.take n) with
  | some n => cs.drop n
  | none => cs

def stripEnd (p : Pattern) (longest : Bool) (cs : List Char) : List Char :=
  let lengths := List.range (cs.length + 1)
  match (if longest then lengths else lengths.reverse).find? fun n => p.fits (cs.drop n) with
  | some n => cs.take n
  | none => cs

end Pattern
end CallFusion.Cli.Script
