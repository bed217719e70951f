/-!
Tokens of statements to a store, over bytes given as characters below 256. Blanks and comments divide
tokens and are dropped.
-/
namespace CallFusion.Pragma

inductive Token where
  | name (text : List Char)
  | word (text : List Char)
  | number (text : List Char)
  | mark (text : List Char)
  | broken (text : List Char)
  deriving DecidableEq, Repr, Inhabited

def Token.text : Token → List Char
  | name text | word text | number text | mark text | broken text => text

def isBlank (c : Char) : Bool := c == ' ' || ('\t' ≤ c && c ≤ '\r')

/-- A character that a blank run may start with: a vertical tab may only stand inside one. -/
def startsBlank (c : Char) : Bool := isBlank c && c != '\x0b'

def isNameStart (c : Char) : Bool := c.isAlpha || c == '_' || 0x80 ≤ c.toNat

def isNameChar (c : Char) : Bool := isNameStart c || c.isDigit || c == '$'

def isHexDigit (c : Char) : Bool := c.isDigit || ('a' ≤ c && c ≤ 'f') || ('A' ≤ c && c ≤ 'F')

def reservedWords : List String :=
  ["add", "all", "alter", "and", "as", "autoincrement", "between", "case", "check", "collate", "commit",
    "constraint", "create", "default", "deferrable", "delete", "distinct", "drop", "else", "escape", "except",
    "exists", "foreign", "from", "group", "having", "in", "index", "insert", "intersect", "into", "is", "isnull",
    "join", "limit", "not", "nothing", "notnull", "null", "on", "or", "order", "primary", "references",
    "returning", "select", "set", "table", "then", "to", "transaction", "union", "unique", "update", "using",
    "values", "when", "where"]

def nameToken (text : List Char) : Token :=
  if reservedWords.contains (String.ofList (text.map Char.toLower)) then .word text else .name text

def closing? (c : Char) : Option Char := [('\'', '\''), ('"', '"'), ('\x60', '\x60'), ('[', ']')].lookup c

def quotedRest (close : Char) : List Char → Option (List Char)
  | [] => none
  | [c] => if c == close then some [c] else none
  | c :: d :: cs =>
    if c == close then
      if d == close && close != ']' then (quotedRest close cs).map fun rest => c :: d :: rest else some [c]
    else (quotedRest close (d :: cs)).map (c :: ·)

def digitRun (isDigit : Char → Bool) (cs : List Char) : List Char := cs.takeWhile fun c => isDigit c || c == '_'

def exponentRun (cs : List Char) : List Char :=
  match cs with
  | e :: c :: rest =>
    let isSigned := (c == '+' || c == '-') && rest.head?.any Char.isDigit
    if (e == 'e' || e == 'E') && (c.isDigit || isSigned) then e :: c :: digitRun Char.isDigit rest else []
  | _ => []

def numberRun (cs : List Char) : List Char :=
  let hex := match cs with
    | '0' :: x :: d :: _ => (x == 'x' || x == 'X') && isHexDigit d
    | _ => false
  if hex then cs.take 2 ++ digitRun isHexDigit (cs.drop 2)
  else
    let whole := digitRun Char.isDigit cs
    let rest := cs.drop whole.length
    let fraction := match rest with
      | '.' :: r => '.' :: digitRun Char.isDigit r
      | _ => []
    whole ++ fraction ++ exponentRun (rest.drop fraction.length)

/-- A number, which may not run on into a name and is of no use with underscores. -/
def numberToken (cs : List Char) : Token :=
  let run := numberRun cs
  let more := (cs.drop run.length).takeWhile isNameChar
  if !more.isEmpty then .broken (run ++ more)
  else if run.contains '_' then .mark run
  else .number run

/-- The rest of a parameter and whether it is complete: a name, in which double colons may stand, and perhaps
something in brackets. -/
def parameterRest (named : Bool) : List Char → List Char × Bool
  | ':' :: ':' :: cs => let (rest, fits) := parameterRest named cs; (':' :: ':' :: rest, fits)
  | c :: cs =>
    if isNameChar c then let (rest, fits) := parameterRest true cs; (c :: rest, fits)
    else if c == '(' && named then
      let inner := cs.takeWhile fun d => d != ')' && !isBlank d
      match cs.drop inner.length with
      | ')' :: _ => (c :: inner ++ [')'], true)
      | _ => (c :: inner, false)
    else ([], named)
  | [] => ([], named)

def blobToken (x : Char) (cs : List Char) : Token :=
  let digits := cs.takeWhile isHexDigit
  match cs.drop digits.length with
  | '\'' :: _ =>
    if digits.length % 2 = 0 then .mark (x :: '\'' :: digits ++ ['\'']) else .broken (x :: '\'' :: digits ++ ['\''])
  | rest =>
    let more := rest.takeWhile (· != '\'')
    .broken (x :: '\'' :: digits ++ more ++ (rest.drop more.length).take 1)

def longMarks : List (List Char) := ["->>", "->", "==", "<=", "<>", "<<", ">=", ">>", "!=", "||"].map String.toList

def shortMarks : List Char := "()=.+-;,*/%&|~<>".toList

def markToken (cs : List Char) : Token :=
  match longMarks.find? (·.isPrefixOf cs) with
  | some m => .mark m
  | none =>
    match cs with
    | c :: _ => if shortMarks.contains c then .mark [c] else .broken [c]
    | [] => .broken []

def token (c : Char) (cs : List Char) : Token :=
  if (c == 'x' || c == 'X') && cs.head? == some '\'' then blobToken c (cs.drop 1)
  else if isNameStart c then nameToken (c :: cs.takeWhile isNameChar)
  else if c.isDigit || (c == '.' && cs.head?.any Char.isDigit) then numberToken (c :: cs)
  else match closing? c with
    | some close =>
      match quotedRest close cs with
      | some rest => .name (c :: rest)
      | none => .broken (c :: cs)
    | none =>
      if c == '?' then .mark (c :: cs.takeWhile Char.isDigit)
      else if c == '$' || c == '@' || c == ':' || c == '#' then
        let (rest, fits) := parameterRest false cs
        if fits then .mark (c :: rest) else .broken (c :: rest)
      else markToken (c :: cs)

def afterComment : List Char → List Char
  | '*' :: '/' :: cs => cs
  | _ :: cs => afterComment cs
  | [] => []

def skip : Nat → List Char → List Char
  | 0, cs => cs
  | fuel + 1, cs =>
    match cs with
    | '-' :: '-' :: rest => skip fuel (rest.dropWhile (· != '\n'))
    | '/' :: '*' :: c :: rest => skip fuel (afterComment (c :: rest))
    | '\xef' :: '\xbb' :: '\xbf' :: rest => skip fuel rest
    | c :: rest => if startsBlank c then skip fuel (rest.dropWhile isBlank) else c :: rest
    | [] => []

def tokensAt : Nat → List Char → List Token
  | 0, _ => []
  | fuel + 1, cs =>
    match skip (cs.length + 1) cs with
    | [] => []
    | c :: rest =>
      let t := token c rest
      t :: tokensAt fuel ((c :: rest).drop t.text.length)

def tokens (cs : List Char) : List Token := tokensAt (cs.length + 1) (cs.dropWhile isBlank)

end CallFusion.Pragma
