import CallFusion.Symbol.Itanium.Name

/-!
Expressions and literals of C++ symbols.
-/
namespace CallFusion.Symbol.Itanium.Reader

def literal (read : Reader) : Read Node := do
  expect "L"
  if (← ahead "_") || (← ahead "Z") then
    discard (accept "_")
    expect "Z"
    let n ← read (.encoding false)
    expect "E"
    return n
  let t ← read.type
  let negative ← accept "n"
  if ← ahead "E" then
    match t with
    | ⟨.closure _, _⟩ =>
      expect "E"
      return ⟨.lambdaExpr, [t]⟩
    | _ =>
      if t.isArray then
        expect "E"
        return ⟨.stringLiteral, [t]⟩
      else if t.form != .builtin "decltype(nullptr)" then fail
  let text := String.ofList (← takeWhile (· != 'E'))
  expect "E"
  return ⟨.literal text negative, [t]⟩

def baseUnresolved (read : Reader) : Read Node := do
  let n ← if ← accept "on" then pure (← read.operator true).1
    else if ← accept "dn" then do
      let n ← if ← nextIsDigit then sourceName else read.type
      pure ⟨.structor true, [n]⟩
    else if ← nextIsDigit then sourceName
    else pure (← read.operator true).1
  read.withArgs n

/-- The scopes of a name that is looked up later, up to an `E`. Some producers leave the `E` and the
last name out; then the scopes are the name. -/
def unresolvedScope (read : Reader) (first : Option Node) : Read (Node × Bool) := do
  go ((← get).rest.length + 1) first
where
  go : Nat → Option Node → Read (Node × Bool)
    | 0, _ => fail
    | fuel + 1, scope => do
      if ← accept "E" then
        match scope with
        | some s => return (s, true)
        | none => fail
      match scope, (← get).rest with
      | some ⟨.qualified l, [outer, last]⟩, c :: _ =>
        if !c.isDigit then
          match outer with
          | ⟨.template, base :: _⟩ => remember base
          | _ => pure ()
          remember outer
          return (⟨.qualified l, [outer, last]⟩, false)
      | _, _ => pure ()
      let n ← sourceName
      let n ← if (← peek?) == some 'I' then do
          remember n
          read.withArgs n
        else pure n
      go fuel (some (scope.elim n fun s => ⟨.qualified false, [s, n]⟩))

def unresolved (read : Reader) : Nat → Read Node
  | 0 => fail
  | fuel + 1 => do
    if ← accept "gs" then return ⟨.unary false false, [.leaf (.operator "::"), ← read.unresolved fuel]⟩
    else if ← accept "sr" then
      let some c ← peek? | fail
      if c == 'T' || c == 'D' || c == 'S' then
        let t ← read.type
        let n : Node := ⟨.qualified false, [t, ← read.baseUnresolved]⟩
        match ← read.args? with
        | some args =>
          let whole : Node := ⟨.template, n :: args⟩
          remember whole
          return whole
        | none => return n
      else
        let first ← if ← accept "N" then pure (some (← read.type)) else pure none
        let (scope, continues) ← read.unresolvedScope first
        if continues then return ⟨.qualified false, [scope, ← read.baseUnresolved]⟩ else return scope
    else read.baseUnresolved

def unresolvedName (read : Reader) : Read Node := do read.unresolved ((← get).rest.length + 1)

/-- A parameter of the function, behind its code; its qualifiers are not kept. -/
def functionParam (read : Reader) : Read Node := do
  discard read.qualifiers
  return .leaf (.functionParam ((← compactNumber) + 1))

def offset : Read Int := do if ← nextIsNumber then number else return 0

def subobject (read : Reader) : Read Node := do
  let t ← read.type
  let e ← read.expression
  let here ← offset
  discard <| repeated fun (_ : List Int) => do if ← accept "_" then return some (← offset) else return none
  discard (accept "p")
  expect "E"
  return ⟨.subobject here, [t, e]⟩

def requirement (read : Reader) : Read Node := do
  if ← accept "X" then
    let e ← read.expression
    let isNoexcept ← accept "N"
    let t ← if ← accept "R" then pure [← read.plainName] else pure []
    return ⟨.exprRequirement isNoexcept, e :: t⟩
  else if ← accept "T" then return ⟨.typeRequirement, [← read.type]⟩
  else if ← accept "Q" then return ⟨.nestedRequirement, [← read.expression]⟩
  else fail

def requiresExpr (read : Reader) (hasParams : Bool) : Read Node := do
  let params ← if hasParams then repeated fun (_ : List Node) => do
      if ← accept "_" then return none else return some (← read.type)
    else pure []
  let requirements ← repeated fun (_ : List Node) => do
    if ← accept "E" then return none else return some (← read.requirement)
  return ⟨.requires, [.list params, .list requirements]⟩

def vendorCall (read : Reader) : Read Node := do
  let n ← sourceName
  let call (args : List Node) : Node := ⟨.binary, [.leaf (.operator "()"), n, .list args]⟩
  if n.form == .name "__uuidof" then
    if (← get).rest.length < 2 then fail
    if ← accept "t" then return call [← read.type]
    else if ← accept "z" then return call [← read.expression]
    else return call (← read.argsToEnd)
  else return call (← read.argsToEnd)

def allocation (read : Reader) (op : Node) : Read Node := do
  let place ← read.expressions "_"
  let t ← read.type
  let init ← if ← accept "E" then pure []
    else if ← accept "pi" then pure [← read.expressions "E"]
    else if ← ahead "il" then pure [← read.expression]
    else fail
  return ⟨.allocation, [op, place, t, .list init]⟩

def oneOperand (read : Reader) (code : String) (op : Node) : Read Node := do
  let isSuffix ← if code == "pp" || code == "mm" then pure !(← accept "_") else pure false
  let operand ← if op.form == .cast && (← accept "_") then read.expressions "E" else read.expression
  return ⟨.unary isSuffix false, [op, operand]⟩

def twoOperands (read : Reader) (code : String) (op : Node) : Read Node := do
  if code.startsWith "f" then
    let (inner, _) ← read.operator true
    return ⟨.fold (code == "fl"), [inner, ← read.expression]⟩
  else if ["sc", "dc", "cc", "rc"].contains code then
    let t ← read.type
    return ⟨.binary, [op, t, ← read.expression]⟩
  else
    let left ← if code == "di" then pure (← read.unqualified none).1 else read.expression
    if code == "cl" || code == "cp" then return ⟨.binary, [op, left, ← read.expressions "E"]⟩
    else if code == "dt" || code == "pt" then
      let right ← if ← ahead "L" then read.literal else do read.withArgs (← read.unresolvedName)
      return ⟨.binary, [op, left, right]⟩
    else return ⟨.binary, [op, left, ← read.expression]⟩

def threeOperands (read : Reader) (code : String) (op : Node) : Read Node := do
  if code == "nw" || code == "na" then read.allocation op
  else if code.startsWith "f" then
    let (inner, _) ← read.operator true
    let first ← read.expression
    return ⟨.fold (code == "fL"), [inner, first, ← read.expression]⟩
  else
    let first ← read.expression
    let second ← read.expression
    return ⟨.trinary, [op, first, second, ← read.expression]⟩

def operation (read : Reader) : Read Node := do
  let code := String.ofList ((← get).rest.take 2)
  let (op, count) ← read.operator true
  match count with
  | 0 => return ⟨.nullary, [op]⟩
  | 1 => read.oneOperand code op
  | 2 => read.twoOperands code op
  | 3 => read.threeOperands code op
  | _ => fail

def expressionRule (read : Reader) : Read Node := do
  match (← get).rest with
  | 'L' :: _ => read.literal
  | 'T' :: _ => templateParam
  | 's' :: 'o' :: _ => do expect "so"; read.subobject
  | 's' :: 'r' :: _ => read.unresolvedName
  | 's' :: 'p' :: _ =>
    expect "sp"
    let e ← read.expression
    return ⟨.expansion, e :: e.pack?.toList⟩
  | 's' :: 'Z' :: _ =>
    expect "sZ"
    let e ← read.expression
    let some pack := e.pack? | fail
    return .leaf (.sizeofPack pack.parts.length)
  | 's' :: 'P' :: _ => do expect "sP"; return ⟨.sizeofArgs, ← read.argsToEnd⟩
  | 'f' :: 'p' :: _ =>
    expect "fp"
    if ← accept "T" then return .leaf (.functionParam 0) else read.functionParam
  | 'f' :: 'L' :: d :: _ =>
    if d.isDigit then
      expect "fL"
      discard natural
      expect "p"
      read.functionParam
    else read.operation
  | 'm' :: 'c' :: _ =>
    expect "mc"
    let t ← read.type
    let e ← read.expression
    discard offset
    expect "E"
    return ⟨.memberCast, [t, e]⟩
  | 'i' :: 'l' :: _ => do expect "il"; return ⟨.braces, [← read.expressions "E"]⟩
  | 't' :: 'l' :: _ =>
    expect "tl"
    let t ← read.type
    return ⟨.braces, [← read.expressions "E", t]⟩
  | 's' :: 't' :: _ =>
    let (op, _) ← read.operator true
    return ⟨.unary false true, [op, ← read.type]⟩
  | 'u' :: _ => do expect "u"; read.vendorCall
  | 'r' :: 'q' :: _ => do expect "rq"; read.requiresExpr false
  | 'r' :: 'Q' :: _ => do expect "rQ"; read.requiresExpr true
  | 'o' :: 'n' :: _ =>
    expect "on"
    read.withArgs (← read.unqualified none).1
  | c :: _ => if c.isDigit then do read.withArgs (← read.unqualified none).1 else read.operation
  | [] => fail

end CallFusion.Symbol.Itanium.Reader
