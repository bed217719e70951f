import CallFusion.Symbol.Itanium.Name

/-!
Types of C++ symbols.
-/
namespace CallFusion.Symbol.Itanium.Reader

def bareFunction (read : Reader) (hasResult isExplicit : Bool) : Read Node := do
  let hasResult := (← accept "J") || hasResult
  let result ← if hasResult then pure [← read.type] else pure []
  return ⟨.function hasResult false, result ++ (← read.parameters isExplicit)⟩

def functionType (read : Reader) : Read Node := do
  discard (accept "Y")
  let f ← read.bareFunction true false
  let ref ← refQualifier
  expect "E"
  let cell ← place
  return if ref.isEmpty then f else ⟨.method ref cell, [f]⟩

def arrayDimension (read : Reader) : Read Node := do
  let digits ← takeWhile Char.isDigit
  let dimension ← if digits.isEmpty && (← peek?) != some '_' then read.expression else pure (.name (String.ofList digits))
  expect "_"
  return dimension

def bitCount (read : Reader) : Read Node := do
  let bits ← if ← nextIsDigit then pure (.name (toString (← natural))) else read.expression
  expect "_"
  return bits

def vectorDimension (read : Reader) : Read Node := do
  let dimension ← if ← accept "_" then read.expression else pure (.name (toString (← number)))
  expect "_"
  return dimension

def numericType (read : Reader) (isCast : Bool) : Read Node := do
  let accumulates ← nextIsDigit
  let bits ← if accumulates then natural else pure 0
  if ← accept "_" then
    if bits = 0 then fail else return .leaf (.binaryFloat bits)
  let base ← read (.type isCast)
  if ← nextIsDigit then discard natural
  let saturates := (← peek?) == some 's'
  if (← peek?).isSome then discard next
  return ⟨.fixed accumulates saturates, [base]⟩

/-- Arguments behind a parameter in the type of a conversion: they belong to the parameter only if
others follow, which then belong to the conversion. -/
def castArgs (read : Reader) (n : Node) (remembers : Bool) : Read (Node × Bool) := fun s =>
  let resumed : Option ((Node × Bool) × Scan) := some ((n, false), s)
  match (read .templateArgs).run s with
  | none => resumed
  | some (args, t) =>
    if t.rest.head? == some 'I' then
      some ((⟨.template, n :: args.parts⟩, true), if remembers then { t with seen := t.seen.push n } else t)
    else resumed

def extendedType (read : Reader) (isCast : Bool) : Read (Node × Bool) := do
  let c ← next
  match extendedBuiltins.find? (·.1 == c) with
  | some (_, n) => return (n, false)
  | none =>
    match c with
    | 'T' | 't' =>
      let e ← read.expression
      expect "E"
      return (⟨.decltype, [e]⟩, true)
    | 'p' =>
      let t ← read (.type isCast)
      return (⟨.expansion, t :: t.pack?.toList⟩, true)
    | 'F' => return (← read.numericType isCast, false)
    | 'v' =>
      let dimension ← read.vectorDimension
      return (⟨.vector, [dimension, ← read (.type isCast)]⟩, true)
    | 'B' => return (⟨.bitInt true, [← read.bitCount]⟩, false)
    | 'U' => return (⟨.bitInt false, [← read.bitCount]⟩, false)
    | 'k' => return (⟨.placeholder "auto", [← read.plainName]⟩, false)
    | 'K' => return (⟨.placeholder "decltype(auto)", [← read.plainName]⟩, false)
    | _ => fail

def repeatedType (read : Reader) (isCast : Bool) : Read (Node × Bool) := do
  let n ← substitution false
  let n ← match n.form with
    | .module _ => do
      let (member, _) ← read.unqualified (some n)
      remember member
      pure member
    | _ => pure n
  if (← peek?) != some 'I' then return (n, false)
  match n.form with
  | .param _ => if isCast then read.castArgs n false else return (← read.withArgs n, true)
  | _ => return (← read.withArgs n, true)

def bareType (read : Reader) (isCast : Bool) : Read (Node × Bool) := do
  let c ← next
  let back : Read Unit := modify fun s => { s with rest := c :: s.rest }
  let wrap (form : Form) : Read (Node × Bool) := return (⟨form, [← read (.type isCast)]⟩, true)
  let refer (isRvalue : Bool) : Read (Node × Bool) := do
    let id ← place
    let t ← read (.type isCast)
    return (⟨if t.isReference then .doubled isRvalue id else referenceForm isRvalue, [t]⟩, true)
  match c with
  | 'u' =>
    let text ← identifier
    if ← accept "I" then
      let base ← read.type
      expect "E"
      return (⟨.transformed text, [base]⟩, true)
    else return (.name text, true)
  | 'F' => return (← read.functionType, true)
  | 'A' =>
    let dimension ← read.arrayDimension
    return (collapse ⟨.array, [dimension, ← read (.type isCast)]⟩, true)
  | 'M' =>
    let owner ← read.type
    return (⟨.member, [owner, ← read (.type isCast)]⟩, true)
  | 'T' =>
    let kinds : List (Char × String) := [('s', "struct"), ('u', "union"), ('e', "enum")]
    match (← peek?).bind fun d => kinds.find? (·.1 == d) with
    | some (_, kind) =>
      discard next
      return (⟨.elaborated kind, [← read.plainName]⟩, true)
    | none =>
      back
      let n ← templateParam
      if (← peek?) != some 'I' then return (n, true)
      else if isCast then return ((← read.castArgs n true).1, true)
      else
        remember n
        return (← read.withArgs n, true)
  | 'S' =>
    let coded := (← peek?).any fun d => d.isDigit || d == '_' || d.isUpper
    let plain := match (← get).rest with
      | d :: rest => d != 't' && (rest.head? != some 'I') && (rest.head? != some 'B')
      | [] => false
    back
    if coded then read.repeatedType isCast else return (← read.plainName, !plain)
  | 'P' => wrap .pointer
  | 'R' => refer false
  | 'O' => refer true
  | 'C' => wrap (.suffixed " _Complex")
  | 'G' => wrap (.suffixed " _Imaginary")
  | 'U' =>
    if ← accept "l" then return (← read.closure, false)
    else if ← accept "t" then return (← unnamedType, false)
    else
      let n ← read.withArgs (← sourceName)
      return (⟨.vendor, [← read (.type isCast), n]⟩, true)
  | 'D' => read.extendedType isCast
  | _ =>
    back
    if c.isDigit || c == 'N' || c == 'W' || c == 'Z' then return (← read.plainName, true) else fail

/-- Qualifiers of a function type belong to its object, and a type that has some takes more for all
that refers to it. -/
def qualify (qs : List Node) : Node → Read Node
  | ⟨.function r l, ts⟩ => return ⟨.method "" (← place), ⟨.function r l, ts⟩ :: qs⟩
  | ⟨.method ref cell, base :: old⟩ => do
    let merged := mergeQualifiers qs (← sharedQualifiers cell old)
    share cell merged
    return ⟨.method ref cell, base :: merged⟩
  | ⟨.qualifiedType, base :: old⟩ => return ⟨.qualifiedType, base :: mergeQualifiers qs old⟩
  | n => return ⟨.qualifiedType, n :: qs⟩

def typeRule (read : Reader) (isCast : Bool) : Read Node := do
  let qs ← read.qualifiers
  let some c ← peek? | fail
  match builtins.find? (·.1 == c) with
  | some (_, text) =>
    discard next
    if qs.isEmpty then return .builtin text
    let n : Node := ⟨.qualifiedType, .builtin text :: qs⟩
    remember n
    return n
  | none =>
    let (n, isNew) ← read.bareType isCast
    if isNew && (qs.isEmpty || c != 'F') then remember n
    if qs.isEmpty then return n
    let n ← qualify qs n
    remember n
    return n

end CallFusion.Symbol.Itanium.Reader
