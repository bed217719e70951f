import CallFusion.Symbol.Itanium.Expression
import CallFusion.Symbol.Itanium.Type
import CallFusion.Text.Utf8

/-!
Whole declarations of C++ symbols: a name and, for a function, its type; and the data and thunks that
an implementation adds. `rule` closes the circle of the grammar.
-/
namespace CallFusion.Symbol.Itanium

namespace Reader

def templateArgsRule (read : Reader) : Read Node := do
  discard next
  let args ← repeated fun (before : List Node) => do
    if ← accept "E" then return none
    let a ← read (.templateArg before)
    if (← read.constraint?).isSome && (← peek?) != some 'E' then fail
    return some a
  return .list args

def templateArgRule (read : Reader) (before : List Node) : Read Node := do
  let some c ← peek? | fail
  if ← accept "X" then
    let e ← read.expression
    expect "E"
    return e
  else if c == 'L' then read.literal
  else if c == 'I' || c == 'J' then
    let id := (← get).rest.length
    return ⟨.pack id, (← read .templateArgs).parts⟩
  else
    let declares := (← get).rest[1]?.any fun d => ['y', 'n', 't', 'p', 'k'].contains d
    if c == 'T' && declares then
      let some (head, _) ← within (some before) read.head? | fail
      return ⟨.declaredArg, [head, ← read (.templateArg [])]⟩
    else read.type

def callOffset (kind : Option Char) : Read Unit := do
  let kind ← match kind with
    | some k => pure k
    | none => next
  if kind == 'h' then
    discard number
    expect "_"
  else if kind == 'v' then
    discard number
    expect "_"
    discard number
    expect "_"
  else fail

/-- The name of a resource, with its escapes undone. Each byte of it stands for the character of its
number. -/
def resourceName : List Char → Option (List Char)
  | [] => some []
  | '$' :: 'S' :: cs => ('/' :: ·) <$> resourceName cs
  | '$' :: '_' :: cs => ('.' :: ·) <$> resourceName cs
  | '$' :: '$' :: cs => ('$' :: ·) <$> resourceName cs
  | '$' :: _ => none
  | c :: cs => (Text.octets (String.singleton c) ++ ·) <$> resourceName cs

/-- A resource behind its code; its length counts the underscore. -/
def resource : Read Node := do
  let n ← natural
  expect "_"
  let s ← get
  if n ≤ 1 || s.rest.length < n - 1 then fail
  set { s with rest := s.rest.drop (n - 1) }
  match resourceName (s.rest.take (n - 1)) with
  | some text => return ⟨.special "java resource ", [.name (String.ofList text)]⟩
  | none => fail

def specialName (read : Reader) : Read Node := do
  let s ← get
  match specials.find? fun p => p.1.toList.isPrefixOf s.rest with
  | some (code, text, subject) =>
    expect code
    let n ← match subject with
      | .type => read.type
      | .name => read.plainName
      | .encoding => read (.encoding false)
      | .argument => read (.templateArg [])
      | .thunk kinds => do
        kinds.forM callOffset
        read (.encoding false)
    return ⟨.special text, [n]⟩
  | none =>
    if ← accept "TC" then
      let derived ← read.type
      discard nonNegative
      expect "_"
      return ⟨.construction, [← read.type, derived]⟩
    else if ← accept "GR" then
      let n ← read.plainName
      discard (sequenceNumber true)
      return ⟨.special "reference temporary for ", [n]⟩
    else if ← accept "GT" then
      let kind ← next
      let n ← read (.encoding false)
      return ⟨.special (if kind == 'n' then "non-transaction clone for " else "transaction clone for "), [n]⟩
    else if ← accept "Gr" then resource
    else if ← accept "GI" then
      let some m ← moduleName none | fail
      return ⟨.special "initializer for module ", [m]⟩
    else fail

/-- A function keeps its result to itself where only its name matters. -/
def withoutResult : Node → Node
  | ⟨.function r _, ts⟩ => ⟨.function r true, ts⟩
  | n => n

/-- A function's name and type. Qualifiers of the name belong to the type. -/
def declare (type : Node) : Node → Node
  | ⟨.method ref _, n :: qs⟩ => ⟨.typed, [n, ⟨.method ref none, type :: qs⟩]⟩
  | ⟨.qualified true, [scope, ⟨.method ref _, n :: qs⟩]⟩ =>
    ⟨.typed, [⟨.qualified true, [scope, n]⟩, ⟨.method ref none, type :: qs⟩]⟩
  | ⟨.qualified true, [scope, ⟨.defaultArg k, [⟨.method ref _, n :: qs⟩]⟩]⟩ =>
    ⟨.typed, [⟨.qualified true, [scope, ⟨.defaultArg k, [n]⟩]⟩, ⟨.method ref none, type :: qs⟩]⟩
  | n => ⟨.typed, [n, type]⟩

def signature (read : Reader) (n : Node) (isExplicit : Bool) : Read (List Node × Node × Option Node) := do
  let conditions ← if ← accept "Ua9enable_if" then pure (← read.args?).toList.flatten else pure []
  let type ← read.bareFunction n.hasResult isExplicit
  return (conditions, type, ← read.constraint?)

def encodingRule (read : Reader) (isLocal : Bool) : Read Node := do
  if (← ahead "T") || (← ahead "G") then read.specialName
  else
    let found ← read .name
    let n := (found.unmarked.settled (← get).shared).simplify
    match (← get).rest with
    | [] | 'E' :: _ => return n
    | _ =>
      let (conditions, type, required) ← match n.templateArgs? with
        | some args => atLambdaLevel 0 (within (some args) (read.signature n found.isMarked))
        | none => read.signature n found.isMarked
      let type := (type.settled (← get).shared).simplify
      let whole := declare (if isLocal then withoutResult type else type) n
      let whole : Node := if conditions.isEmpty then whole else ⟨.enableIf, whole :: conditions⟩
      return match required with
        | some r => ⟨.constrained, [whole, r]⟩
        | none => whole

def turn (read : Reader) : Reader
  | .encoding isLocal => read.encodingRule isLocal
  | .name => read.name
  | .type isCast => read.typeRule isCast
  | .expression => read.expressionRule
  | .templateArgs => read.templateArgsRule
  | .templateArg before => read.templateArgRule before

end Reader

def rule : Nat → Reader
  | 0, _ => fail
  | depth + 1, r => (rule depth).turn r

end CallFusion.Symbol.Itanium
