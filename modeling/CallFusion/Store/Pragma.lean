import CallFusion.Store.Pragma.Token
import CallFusion.Text.Utf8

/-!
Statements that set something about a store: a name, perhaps with a schema in front, and perhaps a value
behind an equals sign or in brackets. Little of what can be set matters here, but a statement that does not
read is refused.
-/
namespace CallFusion.Pragma

structure Setting where
  schema : Option (List Char) := none
  name : List Char
  value : Option (List Char) := none
  deriving DecidableEq, Repr, Inhabited

def refuse : List Token → String
  | [] => "incomplete input"
  | .broken text :: _ => "unrecognized token: \"" ++ Text.ofOctets text ++ "\""
  | t :: _ => "near \"" ++ Text.ofOctets t.text ++ "\": syntax error"

def readName : List Token → Except String (List Char × List Token)
  | .name text :: rest => .ok (text, rest)
  | rest => .error (refuse rest)

def valueWords : List String := ["on", "delete", "default"]

def readValue : List Token → Except String (List Char × List Token)
  | .name text :: rest | .number text :: rest => .ok (text, rest)
  | .mark ['+'] :: .number text :: rest => .ok (text, rest)
  | .mark ['-'] :: .number text :: rest => .ok ('-' :: text, rest)
  | .mark ['+'] :: rest | .mark ['-'] :: rest => .error (refuse rest)
  | .word text :: rest =>
    if valueWords.contains (String.ofList (text.map Char.toLower)) then .ok (text, rest)
    else .error (refuse (.word text :: rest))
  | rest => .error (refuse rest)

def readAssignment : List Token → Except String (Option (List Char) × List Token)
  | .mark ['='] :: rest | .mark ['=', '='] :: rest => do
    let (value, rest) ← readValue rest
    return (some value, rest)
  | .mark ['('] :: rest => do
    match ← readValue rest with
    | (value, .mark [')'] :: rest) => return (some value, rest)
    | (_, rest) => .error (refuse rest)
  | rest => .ok (none, rest)

def readSetting (ts : List Token) : Except String (Setting × List Token) := do
  let (first, rest) ← readName ts
  let (schema, name, rest) ← match rest with
    | .mark ['.'] :: rest => do
      let (name, rest) ← readName rest
      pure (some first, name, rest)
    | rest => pure (none, first, rest)
  let (value, rest) ← readAssignment rest
  match rest with
  | [] => return (⟨schema, name, value⟩, [])
  | .mark [';'] :: rest => return (⟨schema, name, value⟩, rest)
  | rest => .error (refuse rest)

def unquoted (text : List Char) : List Char :=
  match text with
  | c :: cs =>
    match closing? c with
    | some close => if close == ']' then cs.dropLast else halved close cs.dropLast
    | none => text
  | [] => []
where
  halved (close : Char) : List Char → List Char
    | c :: d :: cs => if c == close && d == close then c :: halved close cs else c :: halved close (d :: cs)
    | cs => cs

def plain (text : List Char) : String := String.ofList ((unquoted text).map Char.toLower)

def encodings : List String := ["utf8", "utf-8", "utf-16le", "utf-16be", "utf16le", "utf16be", "utf-16", "utf16"]

def Setting.complaint? (s : Setting) : Option String :=
  match s.schema, s.value with
  | some schema, _ =>
    if (["main", "temp"] : List String).contains (plain schema) then none
    else some ("unknown database " ++ Text.ofOctets schema)
  | none, some value =>
    if plain s.name == "encoding" && !encodings.contains (plain value) then
      some ("unsupported encoding: " ++ Text.ofOctets (unquoted value))
    else none
  | none, none => none

/-- Whether a value says yes: a word for it, or a number whose last byte is not zero. -/
def isYes (value : List Char) : Bool :=
  let text := plain value
  let digits := text.toList.takeWhile Char.isDigit
  if digits.isEmpty then (["on", "yes", "true"] : List String).contains text
  else digits.foldl (fun n c => n * 10 + (c.toNat - 48)) 0 % 256 != 0

def otherStatements : List String :=
  ["alter", "analyze", "attach", "begin", "commit", "create", "delete", "detach", "drop", "end", "explain", "insert",
    "reindex", "release", "replace", "rollback", "savepoint", "select", "update", "vacuum", "values", "with"]

def readSettings : Nat → List Token → Except String (List Setting)
  | 0, _ => .ok []
  | fuel + 1, ts => do
    let (s, rest) ← readSetting ts
    if let some complaint := s.complaint? then throw complaint
    match rest.dropWhile (· == .mark [';']) with
    | [] => return [s]
    | t :: rest =>
      let word := String.ofList (t.text.map Char.toLower)
      if word == "pragma" then return s :: (← readSettings fuel rest)
      else if otherStatements.contains word then return [s]
      else .error (refuse (t :: rest))

/-- The statements behind the word that opens the first; a zero ends them. -/
def settings (statements : String) : Except String (List Setting) :=
  let ts := tokens ((Text.octets statements).takeWhile (· != '\x00'))
  readSettings (ts.length + 1) ts

def allowWrites (ss : List Setting) : Bool :=
  ss.foldl (fun allowed s => match plain s.name, s.value with
    | "query_only", some value => !isYes value
    | _, _ => allowed) true

end CallFusion.Pragma
