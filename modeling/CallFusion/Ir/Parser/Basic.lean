import CallFusion.Ir.Module
import CallFusion.Ir.Token

/-!
Reading tokens. A reading runs against a scope that says what names stand for; the first reading
of a module uses a scope that accepts every name, and the second one the names found by it.
-/
namespace CallFusion.Ir

inductive SyntaxError where
  | unexpected (found : Option Token)
  | undefinedName (name : String)
  | duplicateName (name : String)
  | misnumbered (ident : Ident)
  | invalid (what : String)
  deriving Repr, Inhabited

structure Scope where
  type? : String → Option Ty
  symbol? : Ident → Option (SymbolId × Ty)
  isFunction : SymbolId → Bool
  isVariable : SymbolId → Bool
  value? : Ident → Option Value
  blockOf? : SymbolId → Ident → Option LocalId
  node? : Nat → Option Meta
  isComdat : String → Bool
  table : TypeTable
  /-- Whether names are taken on trust, so that types cannot be compared. -/
  trusting : Bool

/-- Tokens still to be read, and the numbers of the next mention and the next local. -/
structure Cursor where
  tokens : List Token
  mention : Nat
  nextLocal : LocalId

abbrev Read := ReaderT Scope (StateT Cursor (Except SyntaxError))

namespace Read

def peek : Read (Option Token) := return (← get).tokens.head?

def peek2 : Read (Option Token) := return (← get).tokens[1]?

def advance : Read Unit := modify fun c => { c with tokens := c.tokens.drop 1 }

def fail {α : Type} (e : SyntaxError) : Read α := throw e

def unexpected {α : Type} : Read α := do throw (.unexpected (← peek))

def accept (t : Token) : Read Bool := do
  if (← peek) == some t then advance; return true else return false

def acceptMark (c : Char) : Read Bool := accept (.mark c)

def acceptWord (w : String) : Read Bool := accept (.word w)

def expectMark (c : Char) : Read Unit := do
  unless ← acceptMark c do unexpected

def expectWord (w : String) : Read Unit := do
  unless ← acceptWord w do unexpected

def acceptClause (w : String) : Read Bool := do
  if (← peek) == some (.mark ',') && (← peek2) == some (.word w) then
    advance; advance; return true
  else return false

def acceptAny (vocabulary : List String) : Read (Option String) := do
  match ← peek with
  | some (.word w) => if vocabulary.contains w then advance; return some w else return none
  | _ => return none

def acceptOpt (vocabulary : List String) : Read String := return (← acceptAny vocabulary).getD ""

def acceptInOrder (vocabulary : List String) : Read (List String) := do
  let taken ← vocabulary.mapM fun w => do
    if ← acceptWord w then return [w] else return []
  return taken.flatten

def acceptMany (vocabulary : List String) : Nat → Read (List String)
  | 0 => return []
  | n + 1 => do
    match ← acceptAny vocabulary with
    | some w => return w :: (← acceptMany vocabulary n)
    | none => return []

def hexDigitsValue (s : String) : Nat :=
  s.foldl (fun n c => n * 16 + ((Text.hexValue? c.toUInt8).map (·.toNat)).getD 0) 0

def natural : Read Nat := do
  match ← peek with
  | some (.number s) =>
    if isDigits s then advance; return digitsValue s
    else if s.startsWith "u0x" || s.startsWith "s0x" then advance; return hexDigitsValue (s.drop 3).toString
    else unexpected
  | _ => unexpected

def word64 : Read UInt64 := do
  let n ← natural
  if n < Text.wordLimit then return n.toUInt64 else fail (.invalid "length")

def parenthesizedNatural : Read Nat := do
  expectMark '('
  let n ← natural
  expectMark ')'
  return n

def stringLiteral : Read (List UInt8) := do
  match ← peek with
  | some (.string bs) => advance; return bs
  | _ => unexpected

def localName : Read Ident := do
  match ← peek with
  | some (.localName i) => advance; return i
  | _ => unexpected

def globalName : Read Ident := do
  match ← peek with
  | some (.globalName i) => advance; return i
  | _ => unexpected

def ensure {α : Type} (fits : Bool) (what : String) (a : α) : Read α := if fits then return a else fail (.invalid what)

/-- Whether two types agree, as far as that is known already. -/
def agree (a b : Ty) : Read Bool := return (← read).trusting || a.same b

def items {α : Type} (p : Read α) : Nat → Read (List α)
  | 0 => unexpected
  | n + 1 => do
    let x ← p
    if ← acceptMark ',' then return x :: (← items p n) else return [x]

def many {α : Type} (p : Read (Option α)) : Nat → Read (List α)
  | 0 => return []
  | n + 1 => do
    match ← p with
    | some x => return x :: (← many p n)
    | none => return []

def itemsUntil {α : Type} (close : Char) (p : Read α) (fuel : Nat) : Read (List α) := do
  if ← acceptMark close then return []
  let xs ← items p fuel
  expectMark close
  return xs

/-- How many tokens are left, which bounds every loop over them. -/
def remaining : Read Nat := return (← get).tokens.length + 1

def freshLocal : Read LocalId := do
  let c ← get
  set { c with nextLocal := c.nextLocal + 1 }
  return c.nextLocal

def freshMention : Read Nat := do
  let c ← get
  set { c with mention := c.mention + 1 }
  return c.mention

end Read
end CallFusion.Ir
