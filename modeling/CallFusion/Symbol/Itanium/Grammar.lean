import CallFusion.Symbol.Itanium.Scan

/-!
What the parts of the grammar share. Names, types, expressions and encodings hold one another; each
part takes a reader for the others, and `Symbol.Itanium` closes the circle.
-/
namespace CallFusion.Symbol.Itanium

/-- The parts of the grammar that hold one another. Arguments come as a list component. -/
inductive Rule where
  | encoding (isLocal : Bool)
  | name
  | type (isCast : Bool)
  | expression
  | templateArgs
  | templateArg (before : List Node)

abbrev Reader := Rule → Read Node

/-- A name whose function takes its object as a parameter is marked; this is the name itself. -/
def Node.unmarked : Node → Node
  | ⟨.explicitObject, [n]⟩ => n
  | n => n

def Node.isMarked (n : Node) : Bool := n.form == .explicitObject

namespace Reader

def plainName (read : Reader) : Read Node := return (← read .name).unmarked

def type (read : Reader) : Read Node := read (.type false)

def expression (read : Reader) : Read Node := read .expression

def args? (read : Reader) : Read (Option (List Node)) := do
  if (← peek?) == some 'I' then return some (← read .templateArgs).parts else return none

def withArgs (read : Reader) (n : Node) : Read Node := do
  match ← read.args? with
  | some args => return ⟨.template, n :: args⟩
  | none => return n

/-- A constraint behind a `Q`; parameters in it are written as they are. -/
def constraint (read : Reader) : Read Node := do
  expect "Q"
  let held := (← get).inConstraint
  modify ({ · with inConstraint := true })
  let n ← read.expression
  modify ({ · with inConstraint := held })
  return n

def constraint? (read : Reader) : Read (Option Node) := do
  if (← peek?) == some 'Q' then return some (← read.constraint) else return none

def expressions (read : Reader) (stop : String) : Read Node := do
  let found ← repeated fun (_ : List Node) => do
    if ← accept stop then return none else return some (← read.expression)
  return .list found

def argsToEnd (read : Reader) : Read (List Node) :=
  repeated fun _ => do if ← accept "E" then return none else return some (← read (.templateArg []))

/-- The types of parameters, up to an `E`, a dot, a constraint or a reference qualifier; a single
`void` stands for none. The first may be the object itself. -/
def parameters (read : Reader) (isExplicit : Bool) : Read (List Node) := do
  let found ← repeated fun (before : List Node) => do
    let ends ← do match (← get).rest with
      | [] | 'E' :: _ | '.' :: _ | 'R' :: 'E' :: _ | 'O' :: 'E' :: _ | 'Q' :: _ => pure true
      | _ => pure false
    if ends then return none
    let t ← read.type
    return some (if before.isEmpty && isExplicit then ⟨.explicitObject, [t]⟩ else t)
  match found with
  | [] => fail
  | [⟨.builtin "void", _⟩] => return []
  | ts => return ts

def qualifiers (read : Reader) : Read (List Node) := do
  let found ← repeated fun (_ : List Node) => do
    if ← accept "r" then return some (Node.leaf (.qualifier "restrict"))
    else if ← accept "V" then return some (.leaf (.qualifier "volatile"))
    else if ← accept "K" then return some (.leaf (.qualifier "const"))
    else if ← accept "Dx" then return some (.leaf (.qualifier "transaction_safe"))
    else if ← accept "Do" then return some (.leaf (.qualifier "noexcept"))
    else if ← accept "DO" then
      let e ← read.expression
      expect "E"
      return some ⟨.qualifier "noexcept", [e]⟩
    else if ← accept "Dw" then
      let ts ← read.parameters false
      expect "E"
      return some ⟨.qualifier "throw", ts⟩
    else return none
  return found.reverse

def refQualifier : Read String := do
  if ← accept "R" then return "&" else if ← accept "O" then return "&&" else return ""

def operator (read : Reader) ( inExpression : Bool) : Read (Node × Nat) := do
  let a ← next
  let b ← next
  if a == 'v' && b.isDigit then return (.leaf (.operator (← identifier)), digitValue b)
  let code := String.ofList [a, b]
  if code == "cv" then
    let t ← if inExpression then read (.type false) else within none (read (.type true))
    return (⟨.cast, [t]⟩, 1)
  match operators.find? (·.1 == code) with
  | some (_, text, count) => return (.leaf (.operator text), count)
  | none => fail

def templateHead? (read : Reader) : Nat → Read (Option (Node × Node))
  | 0 => fail
  | fuel + 1 => do
    if ← accept "Ty" then
      let n ← headName "$T" Scan.typeHeads fun s k => { s with typeHeads := k }
      return some (⟨.typeHead, [n]⟩, n)
    else if ← accept "Tk" then
      let c ← read.plainName
      let n ← headName "$T" Scan.typeHeads fun s k => { s with typeHeads := k }
      return some (⟨.constrainedHead, [c, n]⟩, n)
    else if ← accept "Tn" then
      let n ← headName "$N" Scan.valueHeads fun s k => { s with valueHeads := k }
      return some (⟨.valueHead, [← read.type, n]⟩, n)
    else if ← accept "Tt" then
      let n ← headName "$TT" Scan.templateHeads fun s k => { s with templateHeads := k }
      let held := (← get).templates
      let heads ← repeated fun (before : List (Node × Node × Option Node)) => do
        if ← accept "E" then return none
        let some (head, value) ← templateHead? read fuel | fail
        modify ({ · with templates := some (before.map (·.2.1) ++ [value]) :: held })
        let constraint ← read.constraint?
        if constraint.isSome && (← peek?) != some 'E' then fail
        return some (head, value, constraint)
      modify ({ · with templates := held })
      let constraints := heads.filterMap (·.2.2)
      return some (⟨.templateHead, n :: .list constraints :: heads.map (·.1)⟩, n)
    else if ← accept "Tp" then
      let some (head, value) ← templateHead? read fuel | fail
      return some (⟨.packHead, [head]⟩, value)
    else return none
where
  headName (text : String) (count : Scan → Nat) (update : Scan → Nat → Scan) : Read Node := do
    let s ← get
    let k := count s
    set (update s (k + 1))
    return .leaf (.headName (if k = 0 then text else text ++ toString (k - 1)))

def head? (read : Reader) : Read (Option (Node × Node)) := do
  read.templateHead? ((← get).rest.length + 1)

end Reader

end CallFusion.Symbol.Itanium
