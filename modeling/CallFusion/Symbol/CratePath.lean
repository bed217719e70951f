import CallFusion.Symbol.Punycode
import CallFusion.Text.Utf8

/-!
Mangled crate paths: `_R` and a path grammar with generic arguments, impl blocks, closures and back
references to earlier positions of the symbol.
-/
namespace CallFusion.Symbol.CratePath

/-- What is left to read, where it starts, the whole symbol behind its opening, the text written so
far in reverse, whether writing is off, and how many lifetimes are bound. -/
structure Scan where
  rest : List Char
  pos : Nat
  whole : List Char
  out : List Char := []
  silent : Bool := false
  lifetimes : Int64 := 0

abbrev Read := StateT Scan Option

def fail {α : Type} : Read α := fun _ => none

def peek? : Read (Option Char) := return (← get).rest.head?

def next : Read Char := do
  match (← get).rest with
  | [] => fail
  | c :: cs =>
    modify fun s => { s with rest := cs, pos := s.pos + 1 }
    return c

def accept (c : Char) : Read Bool := do
  if (← peek?) == some c then discard next; return true
  else return false

def expect (c : Char) : Read Unit := do if !(← accept c) then fail

def write (text : String) : Read Unit :=
  modify fun s => if s.silent then s else { s with out := text.toList.reverse ++ s.out }

def silently {α : Type} (r : Read α) : Read α := do
  let held := (← get).silent
  modify ({ · with silent := true })
  let a ← r
  modify ({ · with silent := held })
  return a

def takeWhile (test : Char → Bool) : Read (List Char) := do
  let s ← get
  let taken := s.rest.takeWhile test
  set { s with rest := s.rest.dropWhile test, pos := s.pos + taken.length }
  return taken

def base62Digit? (c : Char) : Option Nat :=
  if c.isDigit then some (c.toNat - 48)
  else if c.isLower then some (c.toNat - 97 + 10)
  else if c.isUpper then some (c.toNat - 65 + 36)
  else none

/-- A number in base 62 closed by an underscore; the underscore alone is zero, and digits count
from one. Numbers are signed machine words, so long ones wrap around. -/
def base62 : Read Int64 := do
  if ← accept '_' then return 0
  let digits ← takeWhile (fun c => (base62Digit? c).isSome)
  expect '_'
  return digits.foldl (fun n c => n * 62 + .ofNat ((base62Digit? c).getD 0)) 0 + 1

/-- A tenth of the largest length; a length that comes within a digit of it takes no further digit. -/
def lengthBound : Nat := 214748364

/-- The length of an identifier. Where no digit stands the length is zero, but something has to stand
there. -/
def decimal : Read Nat := do
  if (← peek?).isNone then fail
  let digits ← takeWhile Char.isDigit
  digits.foldlM (fun n c =>
    let digit := c.toNat - 48
    if lengthBound ≤ n + digit then fail else return n * 10 + digit) 0

def disambiguator : Read Int64 := do
  if ← accept 's' then return (← base62) + 1 else return 0

def isWordChar (c : Char) : Bool := c.isAlphanum || c == '_'

def spelledIdentifier : Read (String × Bool) := do
  let puny ← accept 'u'
  let length ← decimal
  discard (accept '_')
  let s ← get
  if s.rest.length < length then fail
  let id := s.rest.take length
  set { s with rest := s.rest.drop length, pos := s.pos + length }
  if !id.all isWordChar then fail
  let text := String.ofList id
  if puny then
    match Punycode.decode? text with
    | some t => return (t, true)
    | none => fail
  return (text, false)

def plainIdentifier : Read String := return (← spelledIdentifier).1

def identifier : Read (Int64 × String) := do
  let d ← disambiguator
  return (d, ← plainIdentifier)

def basicTypes : List (Char × String) :=
  [('a', "i8"), ('b', "bool"), ('c', "char"), ('d', "f64"), ('e', "str"), ('f', "f32"), ('h', "u8"),
    ('i', "isize"), ('j', "usize"), ('l', "i32"), ('m', "u32"), ('n', "i128"), ('o', "u128"), ('p', "_"),
    ('s', "i16"), ('t', "u16"), ('u', "()"), ('v', "..."), ('x', "i64"), ('y', "u64"), ('z', "!")]

/-- The lifetime bound `index` binders ago; zero is erased. -/
def writeLifetime (index : Int64) : Read Unit := do
  if index = 0 then write "'_"
  else
    let depth := (← get).lifetimes - index
    if depth < 0 then fail
    if depth < 26 then write ("'" ++ String.singleton (Char.ofNat (97 + depth.toNatClampNeg)))
    else write ("'z" ++ toString (depth - 25).toInt)

/-- Binds the lifetimes of a `for`. Each of them is named further on, so there are fewer of them than
characters left. -/
def binder : Read Unit := do
  if ← accept 'G' then
    let count := (← base62) + 1
    let s ← get
    if .ofNat s.rest.length - s.lifetimes ≤ count then fail
    write "for<"
    for i in List.range count.toNatClampNeg do
      if i > 0 then write ", "
      modify fun s => { s with lifetimes := s.lifetimes + 1 }
      writeLifetime 1
    write "> "

def isHexDigit (c : Char) : Bool := c.isDigit || ('a' ≤ c && c ≤ 'f')

def hexValue (c : Char) : Nat := if c.isDigit then c.toNat - 48 else c.toNat - 87

def wordSize : Nat := Nat.pow 2 64

/-- The value of digits. A zero where the value is still zero must be the only digit left. -/
def digitsValue? : Nat → List Char → Option Nat
  | value, [] => some value
  | value, c :: cs =>
    if value = 0 && c == '0' && !cs.isEmpty then none
    else digitsValue? ((value * 16 + hexValue c) % wordSize) cs

def constantDigits : Read (List Char × Nat) := do
  let digits ← takeWhile isHexDigit
  let isOpen := (← peek?).isNone
  if !isOpen then expect '_'
  match digits, digitsValue? 0 digits with
  | [], _ => fail
  | _, none => fail
  | ds, some value => if isOpen && value = 0 then fail else return (ds, value)

abbrev Separated := Bool

def integerText (digits : List Char) (value : Nat) : String :=
  if digits.length ≤ 16 then toString value else "0x" ++ String.ofList digits

/-- A character between quotes: plain if it is printable and in the basic range, and otherwise by its
number. -/
def characterText (digits : List Char) (value : Nat) : String :=
  let inner :=
    if value = 9 then "\\t"
    else if value = 10 then "\\n"
    else if value = 13 then "\\r"
    else if value = 39 then "\\'"
    else if value = 92 then "\\\\"
    else if 32 ≤ value && value ≤ 126 then String.singleton (Char.ofNat value)
    else "\\u\x7b" ++ String.ofList digits ++ "\x7d"
  "'" ++ inner ++ "'"

/-- Reads at an earlier position of the symbol; nothing is read there while writing is off. -/
def backref {α : Type} [Inhabited α] (fuel : Nat) (reader : Nat → Read α) : Read α := do
  let start := (← get).pos
  expect 'B'
  let index ← base62
  let s ← get
  if s.silent then return default
  if index < 0 || .ofNat start ≤ index then fail
  let index := index.toNatClampNeg
  match fuel with
  | 0 => fail
  | fuel + 1 =>
    set { s with rest := (s.whole.drop index).take (start - index), pos := index }
    let a ← reader fuel
    modify fun t => { t with rest := s.rest, pos := s.pos }
    return a

mutual
def path (fuel : Nat) (separated : Separated) : Read Unit :=
  match fuel with
  | 0 => fail
  | fuel + 1 => do
    match ← peek? with
    | some 'C' =>
      discard next
      write (← identifier).2
    | some 'M' =>
      discard next
      implPath fuel
      write "<"
      typeName fuel
      write ">"
    | some 'X' =>
      discard next
      implPath fuel
      write "<"
      typeName fuel
      write " as "
      path fuel false
      write ">"
    | some 'Y' =>
      discard next
      write "<"
      typeName fuel
      write " as "
      path fuel false
      write ">"
    | some 'N' =>
      discard next
      let space ← next
      if !space.isAlpha then fail
      path fuel separated
      let (d, id) ← identifier
      if space.isUpper then
        let what := if space == 'C' then "closure" else if space == 'S' then "shim" else String.singleton space
        let tail := if id.isEmpty then "" else ":" ++ id
        write ("::\x7b" ++ what ++ tail ++ "#" ++ toString d.toInt ++ "\x7d")
      else write ("::" ++ id)
    | some 'I' =>
      discard next
      path fuel separated
      if separated then write "::"
      write "<"
      genericArgs fuel true
      write ">"
    | some 'B' => backref fuel (fun n => if n < fuel + 1 then path (min n fuel) separated else fail)
    | _ => fail
termination_by (fuel, 1)

def implPath (fuel : Nat) : Read Unit := silently do
  discard disambiguator
  path fuel false
termination_by (fuel, 2)

def genericArgs (fuel : Nat) (first : Bool) : Read Unit :=
  match fuel with
  | 0 => fail
  | fuel + 1 => do
    if ← accept 'E' then return
    if !first then write ", "
    if ← accept 'L' then writeLifetime (← base62)
    else if ← accept 'K' then constant fuel
    else typeName fuel
    genericArgs fuel false
termination_by (fuel, 0)

def tupleItems (fuel : Nat) (count : Nat) : Read Nat :=
  match fuel with
  | 0 => fail
  | fuel + 1 => do
    if ← accept 'E' then return count
    if count > 0 then write ", "
    typeName fuel
    tupleItems fuel (count + 1)
termination_by (fuel, 0)

def typeName (fuel : Nat) : Read Unit :=
  match fuel with
  | 0 => fail
  | fuel + 1 => do
    let some c ← peek? | fail
    match basicTypes.find? (·.1 == c) with
    | some (_, name) =>
      discard next
      write name
    | none =>
      match c with
      | 'A' =>
        discard next
        write "["
        typeName fuel
        write "; "
        constant fuel
        write "]"
      | 'S' =>
        discard next
        write "["
        typeName fuel
        write "]"
      | 'T' =>
        discard next
        write "("
        let n ← tupleItems fuel 0
        if n = 1 then write ","
        write ")"
      | 'R' =>
        discard next
        write "&"
        reference fuel false
      | 'Q' =>
        discard next
        write "&"
        reference fuel true
      | 'P' =>
        discard next
        write "*const "
        typeName fuel
      | 'O' =>
        discard next
        write "*mut "
        typeName fuel
      | 'F' =>
        discard next
        let bound := (← get).lifetimes
        binder
        functionType fuel
        modify ({ · with lifetimes := bound })
      | 'D' =>
        discard next
        write "dyn "
        let bound := (← get).lifetimes
        binder
        dynTraits fuel true
        modify ({ · with lifetimes := bound })
        expect 'L'
        let index ← base62
        if index > 0 then
          if (← get).out.head? != some ' ' then write " "
          write "+ "
          writeLifetime index
      | 'B' => backref fuel (fun n => if n < fuel + 1 then typeName (min n fuel) else fail)
      | _ => path fuel false
termination_by (fuel, 3)

def reference (fuel : Nat) (unique : Bool) : Read Unit := do
  if ← accept 'L' then
    let index ← base62
    if index > 0 then
      writeLifetime index
      write " "
  if unique then write "mut "
  typeName fuel
termination_by (fuel, 4)

def functionType (fuel : Nat) : Read Unit :=
  match fuel with
  | 0 => fail
  | fuel + 1 => do
    if ← accept 'U' then write "unsafe "
    if ← accept 'K' then
      let abi ← if ← accept 'C' then pure "C" else do
        let (id, puny) ← spelledIdentifier
        if puny then fail
        pure (id.map fun c => if c == '_' then '-' else c)
      write ("extern \"" ++ abi ++ "\" ")
    write "fn("
    discard (tupleItems fuel 0)
    write ")"
    if !(← accept 'u') then
      write " -> "
      typeName fuel
termination_by (fuel, 0)

def dynTraits (fuel : Nat) (first : Bool) : Read Unit :=
  match fuel with
  | 0 => fail
  | fuel + 1 => do
    if ← accept 'E' then return
    if !first then write " + "
    let isOpen ← openPath fuel
    assocTypes fuel isOpen
    dynTraits fuel false
termination_by (fuel, 0)

/-- A path whose generic arguments may be continued: says whether their bracket is still open. -/
def openPath (fuel : Nat) : Read Bool :=
  match fuel with
  | 0 => fail
  | fuel + 1 => do
    if (← peek?) == some 'I' then
      discard next
      path fuel false
      write "<"
      genericArgs fuel true
      return true
    else if (← peek?) == some 'B' then
      backref fuel (fun n => if n < fuel + 1 then openPath (min n fuel) else fail)
    else
      path fuel false
      return false
termination_by (fuel, 0)

def assocTypes (fuel : Nat) (isOpen : Bool) : Read Unit :=
  match fuel with
  | 0 => fail
  | fuel + 1 => do
    if ← accept 'p' then
      write (if isOpen then ", " else "<")
      write (← plainIdentifier)
      write " = "
      typeName fuel
      assocTypes fuel true
    else if isOpen then write ">"
termination_by (fuel, 0)

def constant (fuel : Nat) : Read Unit :=
  match fuel with
  | 0 => fail
  | fuel + 1 => do
    if (← peek?) == some 'B' then backref fuel (fun n => if n < fuel + 1 then constant (min n fuel) else fail)
    else
      let c ← next
      if c == 'p' then write "_"
      else if c == 'b' then
        match (← constantDigits).1 with
        | ['0'] => write "false"
        | ['1'] => write "true"
        | _ => fail
      else if c == 'c' then
        let (digits, value) ← constantDigits
        if 6 < digits.length then fail
        write (characterText digits value)
      else if "aisxln".toList.contains c then
        if ← accept 'n' then write "-"
        let (digits, value) ← constantDigits
        write (integerText digits value)
      else if "hjtymo".toList.contains c then
        let (digits, value) ← constantDigits
        write (integerText digits value)
      else fail
termination_by (fuel, 1)
end

def demangle? (symbol : String) : Option String := do
  let cs := symbol.toList.takeWhile (· != '.')
  let body := cs.drop 2
  if cs.take 2 != ['_', 'R'] then none
  match body with
  | [] => none
  | c :: _ => if c.isDigit then none else some ()
  let fuel := Nat.pow (body.length + 8) 2
  let (_, s) ← (path fuel true).run { rest := body, pos := 0, whole := body }
  if s.rest.isEmpty then return String.ofList s.out.reverse
  let (_, t) ← (path fuel false).run { s with silent := true }
  if t.rest.isEmpty then return String.ofList s.out.reverse else none

end CallFusion.Symbol.CratePath
