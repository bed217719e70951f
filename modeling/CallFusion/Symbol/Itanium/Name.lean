import CallFusion.Symbol.Itanium.Grammar

/-!
Names of C++ symbols: plain, nested in scopes, local to a function, and of lambdas.
-/
namespace CallFusion.Symbol.Itanium.Reader

def closure (read : Reader) : Read Node := do
  let outer := (← get).templates
  let (heads, headConstraint, types) ← atLambdaLevel (outer.length + 1) do
    let heads ← repeated fun (before : List (Node × Node)) => do
      match ← read.head? with
      | some (head, value) =>
        modify ({ · with templates := some (before.map (·.2) ++ [value]) :: outer })
        return some (head, value)
      | none => return none
    let headConstraint ← read.constraint?
    let types ← read.parameters false
    modify ({ · with templates := outer })
    return (heads, headConstraint, types)
  let callConstraint ← read.constraint?
  expect "E"
  let index ← compactNumber
  return ⟨.closure index, [.list (heads.map (·.1)), .list headConstraint.toList, .list types,
    .list callConstraint.toList]⟩

def unnamedType : Read Node := do
  let n := Node.leaf (.unnamed (← compactNumber))
  remember n
  return n

def unqualified (read : Reader) (module : Option Node) : Read (Node × Bool) := do
  let module ← moduleName module
  let isFriend ← accept "F"
  let some c ← peek? | fail
  let (n, isCast) ←
    if c.isDigit then pure (← sourceName, false)
    else if c.isLower then do
      let (op, _) ← read.operator false
      if op.form == .operator "operator\"\" " then pure (⟨.unary false false, [op, ← sourceName]⟩, false)
      else pure (op, op.form == .cast)
    else if ← accept "DC" then do
      let first ← sourceName
      let others ← repeated fun (_ : List Node) => do if ← accept "E" then return none else return some (← sourceName)
      pure (⟨.bindings, first :: others⟩, false)
    else if ← accept "L" then do
      let n ← sourceName
      discriminator
      pure (n, false)
    else if ← accept "Ub" then do
      discard compactNumber
      pure (.name "'block-literal'", false)
    else if ← accept "Ul" then pure (← read.closure, false)
    else if ← accept "Ut" then pure (← unnamedType, false)
    else fail
  let n := match module with
    | some m => ⟨.ofModule, [n, m]⟩
    | none => n
  let n ← tags n
  return (if isFriend then ⟨.friend, [n]⟩ else n, isCast)

def castOf : Node → Node
  | ⟨.tagged, n :: _⟩ => n
  | n => n

/-- Where a nested name stands: what was read of it, the last part, a conversion whose arguments may
follow, and a module whose name was read. -/
structure Nesting where
  whole : Option Node := none
  last : Option Node := none
  cast : Option Node := none
  module : Option Node := none

def nestedPart (read : Reader) (here : Nesting) : Read (Option Nesting) := do
  let some c ← peek? | fail
  if c.isDigit || c.isLower || c == 'U' || c == 'L' || c == 'F' || c == 'W' || (← ahead "DC") then
    let (n, isCast) ← read.unqualified here.module
    joined { here with module := none, cast := if isCast then some (castOf n) else here.cast } n
  else if ← accept "C" then
    let inherits ← accept "I"
    let some owner := here.last | fail
    discard next
    let base ← if inherits then pure [← read.type] else pure []
    joined here (← tags ⟨.structor false, owner.lastName :: base⟩)
  else if (← ahead "DT") || (← ahead "Dt") then joined here (← read.type)
  else if ← accept "D" then
    let some owner := here.last | fail
    discard next
    joined here (← tags ⟨.structor true, [owner.lastName]⟩)
  else if c == 'S' then
    let n ← substitution true
    match n.form with
    | .module _ => return some { here with module := some n }
    | _ => return some { here with whole := some (here.whole.elim n fun w => ⟨.qualified false, [w, n]⟩), last := some n }
  else if c == 'I' || c == 'J' then
    let some whole := here.whole | fail
    -- some producers leave the opening of the arguments out where they start with a pack
    let args ← if c == 'I' then pure (← read .templateArgs).parts else read.argsToEnd
    let whole ← match here.cast with
      | some cast =>
        let whole ← settle (some args) cast whole
        settleArgs args
        pure whole
      | none => pure whole
    joined { here with whole := none, cast := none } ⟨.template, whole :: args⟩
  else if c == 'T' then joined here (← templateParam)
  else if c == 'M' then
    if here.whole.isNone then fail
    discard next
    return some here
  else if c == 'E' then return none
  else fail
where
  /-- Joins a part to the whole, which may be referred to unless it ends here. -/
  joined (here : Nesting) (n : Node) : Read (Option Nesting) := do
    let whole := here.whole.elim n fun w => ⟨.qualified false, [w, n]⟩
    if (← peek?) != some 'E' then remember whole
    return some { here with whole := some whole, last := some n }

def nestedParts (read : Reader) : Read Node := do
  let steps ← repeated fun (before : List Nesting) => read.nestedPart (before.getLast?.getD {})
  let some here := steps.getLast? | fail
  let some whole := here.whole | fail
  match here.cast with
  | some cast =>
    let args := match cast with
      | ⟨.cast, [⟨.template, _ :: args⟩]⟩ => some args
      | _ => none
    settle args cast whole
  | none => return whole

def nestedName (read : Reader) : Read Node := do
  let isExplicit ← accept "H"
  let qs ← if isExplicit then pure [] else read.qualifiers
  let ref ← if isExplicit then pure "" else refQualifier
  let n ← read.nestedParts
  let n : Node := if qs.isEmpty && ref.isEmpty then n else ⟨.method ref none, n :: qs⟩
  expect "E"
  return if isExplicit then ⟨.explicitObject, [n]⟩ else n

def localName (read : Reader) : Read Node := do
  let function ← read (.encoding true)
  expect "E"
  if ← accept "s" then
    discriminator
    return ⟨.qualified true, [function, .name "string literal"]⟩
  let default ← if ← accept "d" then pure (some (← compactNumber)) else pure none
  let found ← read .name
  discriminator
  let inner := match default with
    | some k => ⟨.defaultArg k, [found.unmarked]⟩
    | none => found.unmarked
  let n : Node := ⟨.qualified true, [function, inner]⟩
  return if found.isMarked then ⟨.explicitObject, [n]⟩ else n

def unscopedArgs (read : Reader) (n : Node) (isCast isKnown : Bool) : Read Node := do
  if (← peek?) == some 'I' then
    if !isKnown then remember n
    let args := (← read .templateArgs).parts
    if isCast then
      let n ← settle (some args) n n
      settleArgs args
      return ⟨.template, n :: args⟩
    else return ⟨.template, n :: args⟩
  else if isCast then settle none n n
  else return n

def name (read : Reader) : Read Node := do
  let some c ← peek? | fail
  if ← accept "N" then read.nestedName
  else if ← accept "Z" then read.localName
  else if c == 'U' then
    let (n, isCast) ← read.unqualified none
    if isCast then settle none n n else return n
  else if ← accept "St" then
    let (n, isCast) ← read.unqualified none
    read.unscopedArgs ⟨.qualified false, [.name "std", n]⟩ isCast false
  else if c == 'S' then
    let n ← substitution false
    match n.form with
    | .module _ =>
      let (n, isCast) ← read.unqualified (some n)
      read.unscopedArgs n isCast false
    | _ => read.unscopedArgs n false true
  else
    let (n, isCast) ← read.unqualified none
    read.unscopedArgs n isCast false

end CallFusion.Symbol.Itanium.Reader
