import CallFusion.Symbol.Itanium.Simplify
import CallFusion.Symbol.Itanium.Vocabulary

/-!
Reading symbols one character after the other: the state of a reader, numbers and identifiers.
Characters are octets, so lengths count bytes.
-/
namespace CallFusion.Symbol.Itanium

/-- What is left to read, the components that may be referred to, the qualifiers that function types
share, and where the reader is: the templates around it from the inside out, how many of them a lambda
was met in (counted from one), and how many parameters of each kind lambdas have declared. -/
structure Scan where
  rest : List Char
  seen : Array Node := #[]
  shared : List (Nat × List Node) := []
  templates : List (Option (List Node)) := []
  lambdaLevel : Nat := 0
  inConstraint : Bool := false
  typeHeads : Nat := 0
  valueHeads : Nat := 0
  templateHeads : Nat := 0

abbrev Read := StateT Scan Option

def fail {α : Type} : Read α := fun _ => none

def peek? : Read (Option Char) := return (← get).rest.head?

def ahead (text : String) : Read Bool := return text.toList.isPrefixOf (← get).rest

def next : Read Char := do
  match (← get).rest with
  | [] => fail
  | c :: cs =>
    modify fun s => { s with rest := cs }
    return c

def accept (text : String) : Read Bool := do
  let s ← get
  let cs := text.toList
  if cs.isPrefixOf s.rest then
    set { s with rest := s.rest.drop cs.length }
    return true
  else return false

def expect (text : String) : Read Unit := do if !(← accept text) then fail

def takeWhile (test : Char → Bool) : Read (List Char) := do
  let s ← get
  set { s with rest := s.rest.dropWhile test }
  return s.rest.takeWhile test

def remember (n : Node) : Read Unit := modify fun s => { s with seen := s.seen.push n }

def repeated {α : Type} (turn : List α → Read (Option α)) : Read (List α) := do
  go ((← get).rest.length + 1) []
where
  go : Nat → List α → Read (List α)
    | 0, _ => fail
    | fuel + 1, acc => do
      match ← turn acc with
      | some a => go fuel (acc ++ [a])
      | none => return acc

def within {α : Type} (template : Option (List Node)) (reader : Read α) : Read α := do
  modify fun s => { s with templates := template :: s.templates }
  let a ← reader
  modify fun s => { s with templates := s.templates.tail }
  return a

def atLambdaLevel {α : Type} (level : Nat) (reader : Read α) : Read α := do
  let held := (← get).lambdaLevel
  modify ({ · with lambdaLevel := level })
  let a ← reader
  modify ({ · with lambdaLevel := held })
  return a

def numberBound : Nat := 214748354

def digitValue (c : Char) : Nat := c.toNat - 48

def natural : Read Nat := do
  match ← takeWhile Char.isDigit with
  | [] => fail
  | digits =>
    digits.foldlM (fun n c => if numberBound ≤ n then fail else return n * 10 + digitValue c) 0

def number : Read Int := do
  if ← accept "n" then return - Int.ofNat (← natural) else return Int.ofNat (← natural)

def nonNegative : Read Nat := do
  match ← number with
  | .ofNat n => return n
  | .negSucc _ => fail

def nextIsNumber : Read Bool := return (← peek?).any fun c => c == 'n' || c.isDigit

/-- A number closed by an underscore; the underscore alone comes first. -/
def compactNumber : Read Nat := do
  if ← accept "_" then return 0
  let n ← natural
  expect "_"
  return n + 1

def sequenceDigit? (c : Char) : Option Nat :=
  if c.isDigit then some (digitValue c) else if c.isUpper then some (c.toNat - 55) else none

def sequenceBound : Nat := 59652287

/-- A position in base 36 closed by an underscore; the underscore alone comes first. At the end of a
symbol some positions need no underscore. -/
def sequenceNumber (endsOpen : Bool) : Read Nat := do
  if ← accept "_" then return 0
  let digits ← takeWhile fun c => (sequenceDigit? c).isSome
  let n ← digits.foldlM (fun n c => if sequenceBound ≤ n then fail else return n * 36 + (sequenceDigit? c).getD 0) 0
  if (← get).rest.isEmpty && endsOpen then return n + 1
  if sequenceBound ≤ n then fail
  expect "_"
  return n + 1

def anonymous : String := "(anonymous namespace)"

def isAnonymous (id : List Char) : Bool :=
  "_GLOBAL_".toList.isPrefixOf id && 10 < id.length && (id[8]?).any (fun c => c == '.' || c == '_' || c == '$') &&
    id[9]? == some 'N'

def identifier : Read String := do
  let n ← natural
  let s ← get
  if n = 0 || s.rest.length < n then fail
  let id := s.rest.take n
  set { s with rest := s.rest.drop n }
  return if isAnonymous id then anonymous else String.ofList id

def sourceName : Read Node := return .name (← identifier)

def nextIsDigit : Read Bool := return (← peek?).any Char.isDigit

def tags (n : Node) : Read Node := do
  let found ← repeated fun _ => do if ← accept "B" then return some (← sourceName) else return none
  return found.foldl (fun n tag => ⟨.tagged, [n, tag]⟩) n

/-- A number that tells equal names of one scope apart. At the end of a symbol it may stand without
its underscore. -/
def discriminator : Read Unit := do
  if ← accept "_" then
    let long ← accept "_"
    let n ← nonNegative
    if long && 10 ≤ n then expect "_"
  else if (← get).rest.all Char.isDigit then modify ({ · with rest := [] })

/-- Where the reader is, counted from the end: what is read at different places differs. -/
def place : Read Nat := return (← get).rest.length

def sharedQualifiers (cell : Option Nat) (own : List Node) : Read (List Node) := do
  let s ← get
  return (cell.bind fun id => s.shared.lookup id).getD own

def share (cell : Option Nat) (qs : List Node) : Read Unit :=
  cell.forM fun id => modify fun s => { s with shared := (id, qs) :: s.shared }

def moduleName (parent : Option Node) : Read (Option Node) := do
  let parts ← repeated fun (found : List Node) => do
    if ← accept "W" then
      let isPartition ← accept "P"
      let own ← sourceName
      let whole : Node := ⟨.module isPartition, own :: (found.getLast? <|> parent).toList⟩
      remember whole
      return some whole
    else return none
  return parts.getLast? <|> parent

/-- A component seen before, or an abbreviation. `inScope` is set where a constructor may follow. -/
def substitution ( inScope : Bool) : Read Node := do
  expect "S"
  let some c ← peek? | fail
  if c == '_' || c.isDigit || c.isUpper then
    let i ← sequenceNumber false
    let s ← get
    let some n := s.seen[i]? | fail
    let enclosing : Enclosing := match s.templates, n with
      | t :: _, _ => some t
      | [], ⟨.template, _ :: args⟩ => some (some args)
      | [], _ => none
    match n.retarget? ⟨enclosing, s.lambdaLevel != 0, s.inConstraint⟩ with
    | some n => return n
    | none => fail
  else
    discard next
    let expanded := inScope && (← peek?).any fun d => d == 'C' || d == 'D'
    let some (_, n) := (if expanded then expandedAbbreviations else abbreviations).find? (·.1 == c) | fail
    if (← peek?) == some 'B' then
      let tagged ← tags n
      remember tagged
      return tagged
    else return n

def templateParam : Read Node := do
  let before := (← get).rest
  expect "T"
  let level ← if ← accept "L" then compactNumber else pure 0
  let index ← compactNumber
  let s ← get
  if s.inConstraint then return .name (String.ofList (before.take (before.length - s.rest.length - 1)))
  let ofLambda := s.lambdaLevel != 0 && level + 1 == s.lambdaLevel
  let own : Read Node := if ofLambda then return .leaf (.autoParam index) else fail
  match s.templates.reverse[level]? with
  | none => own
  | some none => return ⟨.param index, []⟩
  | some (some args) =>
    match args[index]? with
    | some arg => return ⟨.param index, [arg]⟩
    | none => own

/-- Settles the parameters of a conversion's type once the arguments behind it are known, or once it
is known that none follow. -/
def settle (args : Option (List Node)) (cast whole : Node) : Read Node := do
  let params := cast.openParams
  match args with
  | none => if params.any (!·.2) then fail else return whole
  | some args =>
    if params.any fun p => p.2 || args.length ≤ p.1 then fail
    modify fun s => { s with seen := s.seen.map (Node.fill args) }
    return whole.fill args

def settleArgs (args : List Node) : Read Unit :=
  if (openParamsAll args).any (!·.2) then fail else return

end CallFusion.Symbol.Itanium
