import CallFusion.Text.Trim

/-!
The language of small shell scripts: words with quotes and variables, and commands that are plain, piped,
linked, grouped, branching or repeated. `Source.next` reads a script line by line, so that what stands
before a mistake can still be run.
-/
namespace CallFusion.Cli.Script

inductive Link where
  | always
  | ifSucceeded
  | ifFailed
  deriving DecidableEq, Repr, Inhabited

/-- What a value falls back on: what stands for a missing one, what becomes of it then, what stands for
one that is there, or a complaint. -/
inductive Fallback where
  | use
  | assign
  | replace
  | complain
  deriving DecidableEq, Repr, Inhabited

/-- How a stream is connected to a file, to another stream, or to a text in the script. A file that is there
may be protected from being written, but not from being replaced. -/
inductive StreamUse where
  | write
  | replace
  | append
  | read
  | join
  | document
  deriving DecidableEq, Repr, Inhabited

mutual
inductive Piece where
  | plain (c : Char) (isQuoted : Bool)
  | nothing
  | home
  | variable (name : String) (change : Change) (isQuoted : Bool)
  | output (commands : List Command) (isQuoted : Bool)
  | sum (expression : List Piece) (isQuoted : Bool)

inductive Change where
  | keep
  | length
  | orElse (fallback : Fallback) (emptyCounts : Bool) (word : List Piece)
  | strip (fromEnd longest : Bool) (pattern : List Piece)
  | unknown

inductive Redirection where
  | mk (stream : Nat) (use : StreamUse) (target : List Piece)

inductive Command where
  | simple (line : Nat) (assignments : List (String × List Piece)) (words : List (List Piece))
    (redirections : List Redirection)
  | negated (command : Command)
  | piped (commands : List Command)
  | linked (commands : List (Link × Command))
  | background (command : Command)
  | group (body : List Command) (isApart : Bool)
  | branch (tests : List (List Command × List Command)) (otherwise : List Command)
  | loop (isUntil : Bool) (test body : List Command)
  | each (name : String) (words : Option (List (List Piece))) (body : List Command)
  | select (word : List Piece) (arms : List (List (List Piece) × List Command))
  | define (name : String) (body : Command)
  | redirected (line : Nat) (command : Command) (redirections : List Redirection)
end

instance : Inhabited Piece := ⟨.nothing⟩
instance : Inhabited Command := ⟨.group [] false⟩

/-- A text that was put in the place of a word: the word, and how much of the script is left behind the
text, unless what is read lies within the text altogether. -/
structure Insertion where
  name : String
  left : Option Nat
  endsBlank : Bool

/-- What is left of a script, the line it starts on, how many lines were taken out of it behind the current
line, the texts that stand for words, and those that were put into it. -/
structure Source where
  rest : List Char
  line : Nat := 1
  hidden : Nat := 0
  aliases : List (String × String) := []
  inserted : List Insertion := []

def Source.within (s : Source) (text : List Char) : Source :=
  { s with rest := text, inserted := s.inserted.map ({ · with left := none }) }

structure Mistake where
  line : Nat
  text : String
  deriving DecidableEq, Repr, Inhabited

abbrev Parse := StateT Source (Except Mistake)

namespace Parse

def fail {α : Type} (text : String) : Parse α := do throw ⟨(← get).line, "Syntax error: " ++ text⟩

def peek? : Parse (Option Char) := return (← get).rest.head?

def ahead (text : String) : Parse Bool := return text.toList.isPrefixOf (← get).rest

def skip (n : Nat) : Parse Unit := modify fun s =>
  let lines := (s.rest.take n).count '\n'
  if lines = 0 then { s with rest := s.rest.drop n }
  else { s with rest := s.rest.drop n, line := s.line + lines + s.hidden, hidden := 0 }

def accept (text : String) : Parse Bool := do
  if ← ahead text then
    skip text.length
    return true
  else return false

def takeWhile (test : Char → Bool) : Parse (List Char) := do
  let found := (← get).rest.takeWhile test
  skip found.length
  return found

end Parse

open Parse

def isBlank (c : Char) : Bool := c == ' ' || c == '\t'

def endsWord (c : Char) : Bool := isBlank c || c == '\n' || ";&|<>()".toList.contains c

def isNameChar (c : Char) : Bool := c.isAlphanum || c == '_'

def isNameStart (c : Char) : Bool := c.isAlpha || c == '_'

def isName (text : String) : Bool := (text.toList.head?.any isNameStart) && text.toList.all isNameChar

def isSpecialName (c : Char) : Bool := "?#@*$!-".toList.contains c

def keywords : List String :=
  ["!", "case", "do", "done", "elif", "else", "esac", "fi", "for", "if", "in", "then", "until", "while", "\x7b", "\x7d"]

def closers : List String := ["then", "else", "elif", "fi", "do", "done", "esac", "\x7d"]

def marks : List String := ["&&", "||", ";;", "&", "|", ";", "(", ")"]

def specialCommands : List String :=
  [".", ":", "break", "continue", "eval", "exec", "exit", "export", "local", "readonly", "return", "set", "shift",
    "times", "trap", "unset"]

def skipBlanks : Parse Unit := do
  go (← get).rest.length
where
  go : Nat → Parse Unit
    | 0 => return
    | fuel + 1 => do
      discard (takeWhile isBlank)
      if ← accept "\\\n" then go fuel
      else if ← ahead "#" then discard (takeWhile (· != '\n'))

def skipLines : Parse Unit := do
  go (← get).rest.length
where
  go : Nat → Parse Unit
    | 0 => return
    | fuel + 1 => do
      skipBlanks
      if ← accept "\n" then go fuel

def nextWord : Parse String := do
  skipBlanks
  return String.ofList ((← get).rest.takeWhile fun c => !endsWord c)

def acceptWord (word : String) : Parse Bool := do
  if (← nextWord) == word then accept word else return false

def startsRedirection (cs : List Char) : Bool :=
  match (cs.dropWhile Char.isDigit).head? with
  | some c => c == '<' || c == '>'
  | none => false

def unexpected {α : Type} (expected : String) : Parse α := do
  let word ← nextWord
  let s ← get
  let found := match s.rest with
    | [] => "end of file"
    | '\n' :: _ => "newline"
    | cs =>
      if startsRedirection cs then "redirection"
      else match marks.find? fun m => m.toList.isPrefixOf cs with
        | some m => "\"" ++ m ++ "\""
        | none => if keywords.contains word then "\"" ++ word ++ "\"" else "word"
  if s.rest.head? == some '\n' then skip 1
  fail (found ++ " unexpected" ++ if expected.isEmpty then "" else " (expecting " ++ expected ++ ")")

def isBare (word : String) : Bool := !word.isEmpty && !word.toList.any ['\\', '\'', '"', '$', '\x60'].contains

/-- Puts the text that stands for the next word in its place, unless the word comes out of that text itself
or is a keyword where those count; tells whether it did. -/
def insertAlias (keywordsCount : Bool) : Parse Bool := do
  let word ← nextWord
  let s ← get
  let isOpen (i : Insertion) : Bool := i.name == word && i.left.all (· < s.rest.length)
  if !isBare word || (keywordsCount && keywords.contains word) || startsRedirection s.rest || s.inserted.any isOpen then
    return false
  match s.aliases.lookup word with
  | none => return false
  | some text =>
    let rest := s.rest.drop word.length
    let inserted := s.inserted.filter (·.left.all (· < s.rest.length))
    let own : Insertion := ⟨word, some rest.length, text.toList.getLast?.any isBlank⟩
    set { s with rest := text.toList ++ rest, inserted := own :: inserted }
    return true

def insertAliases (keywordsCount : Bool) : Parse Unit := do
  skipBlanks
  let s ← get
  if !s.aliases.isEmpty then go (s.inserted.length + s.aliases.length + s.rest.length + 1)
where
  go : Nat → Parse Unit
    | 0 => return
    | fuel + 1 => do if ← insertAlias keywordsCount then go fuel

def leavesInsertion : Parse Bool := do
  let before := (← get).rest.length
  skipBlanks
  let s ← get
  return s.inserted.any fun i => i.endsBlank && i.left.any fun left => left < before && s.rest.length ≤ left

def expectWord (word : String) : Parse Unit := do
  insertAliases true
  if !(← acceptWord word) then unexpected ("\"" ++ word ++ "\"")

def variableName : Parse String := do
  match ← peek? with
  | some c =>
    if isSpecialName c || c.isDigit then
      skip 1
      return String.singleton c
    else if isNameStart c then return String.ofList (← takeWhile isNameChar)
    else return ""
  | none => return ""

def fallbacks : List (Char × Fallback) := [('-', .use), ('=', .assign), ('+', .replace), ('?', .complain)]

/-- Where a word stands: plainly, in quotes, in the braces of a variable, or in a text of its own. -/
inductive Setting where
  | plain
  | quoted
  | braced (isQuoted : Bool)
  | document
  deriving DecidableEq, Repr, Inhabited

namespace Setting

def isQuoted : Setting → Bool
  | plain => false
  | quoted | document => true
  | braced q => q

def stops : Setting → Char → Bool
  | plain, c => endsWord c
  | quoted, c => c == '"'
  | braced _, c => c == '\x7d'
  | document, _ => false

def escapes (here : Setting) (c : Char) : Bool :=
  !here.isQuoted || ['$', '\x60', '\\'].contains c || (c == '"' && here != .document)
    || (c == '\x7d' && here == .braced true)

end Setting

def assignmentName? (cs : List Char) : Option String :=
  let name := cs.takeWhile isNameChar
  if (name.head?.any isNameStart) && cs[name.length]? == some '=' then some (String.ofList name) else none

def startsHome : List Char → Bool
  | ['~'] => true
  | '~' :: c :: _ => c == '/' || endsWord c
  | _ => false

/-- Takes the lines of a document out of a script: those behind the current line up to the one that ends
it. Tabs in front of lines may not count. -/
def takeDocument (stop : List Char) (dropsTabs : Bool) : Parse (List Char) := modifyGet fun s =>
  let here := s.rest.takeWhile (· != '\n')
  let (body, count, rest) := go (s.rest.length + 1) ((s.rest.drop here.length).drop 1)
  let after := here ++ '\n' :: rest
  let moved (left : Nat) : Nat := if left ≤ rest.length then left else left - (s.rest.length - after.length)
  (body, { s with
    rest := after, hidden := s.hidden + count
    inserted := s.inserted.map fun i => { i with left := i.left.map moved } })
where
  go : Nat → List Char → List Char × Nat × List Char
    | 0, cs => ([], 0, cs)
    | _, [] => ([], 0, [])
    | fuel + 1, cs =>
      let raw := cs.takeWhile (· != '\n')
      let rest := (cs.drop raw.length).drop 1
      let line := if dropsTabs then raw.dropWhile (· == '\t') else raw
      if line == stop then ([], 1, rest)
      else
        let (body, count, rest) := go fuel rest
        (line ++ '\n' :: body, count + 1, rest)

/-- The word that ends a document, without its quotes, whether it had any, and how many characters it takes. -/
def delimiter : Option Char → List Char → List Char × Bool × Nat
  | _, [] => ([], false, 0)
  | none, '\\' :: c :: cs =>
    let (text, _, n) := delimiter none cs
    (c :: text, true, n + 2)
  | quote, c :: cs =>
    if quote == some c || (quote.isNone && (c == '"' || c == '\'' || c == '\\')) then
      let (text, _, n) := delimiter (if quote.isNone && c != '\\' then some c else none) cs
      (text, true, n + 1)
    else if quote.isNone && endsWord c then ([], false, 0)
    else
      let (text, isQuoted, n) := delimiter quote cs
      (c :: text, isQuoted, n + 1)

def backquoted (isQuoted : Bool) : List Char → Option (List Char × Nat)
  | [] => none
  | '\x60' :: _ => some ([], 1)
  | '\\' :: c :: cs =>
    let isProtected := ['$', '\x60', '\\'].contains c || (isQuoted && c == '"')
    (backquoted isQuoted cs).map fun (text, n) => (if isProtected then c :: text else '\\' :: c :: text, n + 2)
  | c :: cs => (backquoted isQuoted cs).map fun (text, n) => (c :: text, n + 1)

def withHomes (isStart : Bool) : List Piece → List Piece
  | [] => []
  | .plain '~' false :: rest =>
    let isWhole := match rest with
      | [] => true
      | .plain c false :: _ => c == '/' || c == ':'
      | _ => false
    (if isStart && isWhole then .home else .plain '~' false) :: withHomes false rest
  | .plain c q :: rest => .plain c q :: withHomes (c == ':' && !q) rest
  | p :: rest => p :: withHomes false rest

mutual
def pieces (fuel : Nat) (here : Setting) : Parse (List Piece) :=
  match fuel with
  | 0 => fail "nested too deeply"
  | fuel + 1 => do
    let some c ← peek? | return []
    if here.stops c then return []
    let first ← piece fuel here c
    return first ++ (← pieces fuel here)

def piece (fuel : Nat) (here : Setting) (c : Char) : Parse (List Piece) :=
  match fuel with
  | 0 => fail "nested too deeply"
  | fuel + 1 => do
    skip 1
    let isQuoted := here.isQuoted
    match c with
    | '\\' =>
      let some d ← peek? | return [.plain c true]
      skip 1
      if d == '\n' then return []
      return if here.escapes d then [.plain d true] else [.plain c true, .plain d true]
    | '\'' =>
      if isQuoted then return [.plain c true]
      let text ← takeWhile (· != '\'')
      if !(← accept "'") then fail "Unterminated quoted string"
      return .nothing :: text.map (.plain · true)
    | '"' =>
      if here == .document then return [.plain c true]
      let inner ← pieces fuel .quoted
      if !(← accept "\"") then fail "Unterminated quoted string"
      -- all arguments may be none at all
      return match inner with
        | [.variable "@" .keep true] => inner
        | _ => .nothing :: inner
    | '$' => dollar fuel isQuoted
    | '\x60' =>
      match backquoted isQuoted (← get).rest with
      | none =>
        skip (← get).rest.length
        fail "EOF in backquote substitution"
      | some (text, n) =>
        let start ← get
        skip n
        let held ← get
        set { start.within text with hidden := 0 }
        let commands ← commands fuel true
        set held
        return [.output commands isQuoted]
    | _ => return [.plain c isQuoted]

def dollar (fuel : Nat) (isQuoted : Bool) : Parse (List Piece) :=
  match fuel with
  | 0 => fail "nested too deeply"
  | fuel + 1 => do
    if ← accept "((" then
      let expression ← sumPieces fuel 0
      return [.sum expression isQuoted]
    else if ← accept "(" then
      let commands ← commands fuel true
      if !(← accept ")") then unexpected "\")\""
      return [.output commands isQuoted]
    else if ← accept "\x7b" then
      let v ← braces fuel isQuoted
      if !(← accept "\x7d") then fail (if isQuoted then "Unterminated quoted string" else "Missing '\x7d'")
      return [v]
    else
      let name ← variableName
      return [if name.isEmpty then .plain '$' true else .variable name .keep isQuoted]

/-- What stands in braces behind a name that nothing can be done with. A line end right behind the name
does not count. -/
def badBraces (fuel : Nat) (name : String) (isQuoted : Bool) : Parse Piece :=
  match fuel with
  | 0 => fail "nested too deeply"
  | fuel + 1 => do
    if ← ahead "\n" then modify fun s => { s with rest := s.rest.tail }
    discard (pieces fuel (.braced isQuoted))
    return .variable name .unknown isQuoted

def braces (fuel : Nat) (isQuoted : Bool) : Parse Piece :=
  match fuel with
  | 0 => fail "nested too deeply"
  | fuel + 1 => do
    if (← ahead "#") && !(← ahead "#\x7d") then
      skip 1
      let name ← variableName
      if ← ahead "\x7d" then return .variable name .length isQuoted
      return ← badBraces fuel name isQuoted
    let name ← match ← peek? with
      | some c => if c.isDigit then pure (String.ofList (← takeWhile Char.isDigit)) else variableName
      | none => pure ""
    let emptyCounts ← accept ":"
    match (← peek?).bind fun c => fallbacks.lookup c with
    | some fallback =>
      if name.isEmpty then return ← badBraces fuel name isQuoted
      skip 1
      return .variable name (.orElse fallback emptyCounts (← pieces fuel (.braced isQuoted))) isQuoted
    | none =>
      let mark ← peek?
      if !name.isEmpty && !emptyCounts && (mark == some '#' || mark == some '%') then
        skip 1
        let longest ← accept (String.singleton (mark.getD '#'))
        return .variable name (.strip (mark == some '%') longest (← pieces fuel (.braced false))) isQuoted
      else if !name.isEmpty && !emptyCounts && (mark == some '\x7d' || mark.isNone) then
        return .variable name .keep isQuoted
      else badBraces fuel name isQuoted

def sumPieces (fuel : Nat) (depth : Nat) : Parse (List Piece) :=
  match fuel with
  | 0 => fail "nested too deeply"
  | fuel + 1 => do
    if depth == 0 && (← accept "))") then return []
    let some c ← peek? | fail "Missing '))'"
    let first ← if c == '(' || c == ')' || c == '"' then do
        skip 1
        pure [.plain c true]
      else piece fuel .quoted c
    let depth := if c == '(' then depth + 1 else if c == ')' then depth - 1 else depth
    return first ++ (← sumPieces fuel depth)

def word (fuel : Nat) : Parse (List Piece) :=
  match fuel with
  | 0 => fail "nested too deeply"
  | fuel + 1 => do
    skipBlanks
    if startsRedirection (← get).rest then return []
    if startsHome (← get).rest then
      skip 1
      return .home :: (← pieces fuel .plain)
    pieces fuel .plain

def redirections (fuel : Nat) : Parse (List Redirection) :=
  match fuel with
  | 0 => fail "nested too deeply"
  | fuel + 1 => do
    skipBlanks
    if !startsRedirection (← get).rest then return []
    let digits := String.ofList (← takeWhile Char.isDigit)
    let stream (standard : Nat) : Nat := digits.toNat?.getD standard
    if ← accept "<<" then
      let dropsTabs ← accept "-"
      skipBlanks
      let (stop, isQuoted, length) := delimiter none (← get).rest
      if length = 0 then unexpected ""
      skip length
      let body ← takeDocument stop dropsTabs
      let held ← get
      let text ← if isQuoted then pure (body.map (.plain · true)) else do
        set (held.within body)
        pieces fuel .document
      set held
      return .mk (stream 0) .document text :: (← redirections fuel)
    let (number, use) ← if ← accept ">>" then pure (stream 1, StreamUse.append)
      else if ← accept ">&" then pure (stream 1, .join)
      else if ← accept ">|" then pure (stream 1, .replace)
      else if ← accept ">" then pure (stream 1, .write)
      else if ← accept "<&" then pure (stream 0, .join)
      else if ← accept "<>" then pure (stream 0, .read)
      else do
        skip 1
        pure (stream 0, .read)
    let target ← word fuel
    if target.isEmpty then unexpected ""
    return .mk number use target :: (← redirections fuel)

def simple (fuel : Nat) (line : Nat) (assignments : List (String × List Piece)) (words : List (List Piece))
    (found : List Redirection) : Parse Command :=
  match fuel with
  | 0 => fail "nested too deeply"
  | fuel + 1 => do
    let leaves ← leavesInsertion
    if words.isEmpty || leaves then insertAliases false
    let more ← redirections fuel
    if !more.isEmpty then return ← simple fuel line assignments words (found ++ more)
    let s ← get
    match if words.isEmpty then assignmentName? s.rest else none with
    | some name =>
      skip (name.length + 1)
      let value ← pieces fuel .plain
      simple fuel line (assignments ++ [(name, withHomes true value)]) words found
    | none =>
      let raw ← nextWord
      match ← word fuel with
      | [] =>
        if assignments.isEmpty && words.isEmpty && found.isEmpty then unexpected ""
        return .simple line assignments words found
      | pieces =>
        let isName := words.isEmpty && assignments.isEmpty && found.isEmpty
        if isName && ((← get).rest.dropWhile isBlank).head? == some '(' then
          skipBlanks
          skip 1
          skipBlanks
          if !(← accept ")") then unexpected "\")\""
          if !Script.isName raw || specialCommands.contains raw then fail "Bad function name"
          skipLines
          return .define raw (← command fuel)
        simple fuel line assignments (words ++ [pieces]) found

def wordList (fuel : Nat) : Parse (List (List Piece)) :=
  match fuel with
  | 0 => fail "nested too deeply"
  | fuel + 1 => do
    match ← word fuel with
    | [] => return []
    | w => return w :: (← wordList fuel)

def branches (fuel : Nat) : Parse (List (List Command × List Command) × List Command) :=
  match fuel with
  | 0 => fail "nested too deeply"
  | fuel + 1 => do
    let test ← commands fuel false
    expectWord "then"
    let body ← commands fuel false
    if ← acceptWord "elif" then
      let (tests, otherwise) ← branches fuel
      return ((test, body) :: tests, otherwise)
    else if ← acceptWord "else" then
      let otherwise ← commands fuel false
      expectWord "fi"
      return ([(test, body)], otherwise)
    else
      expectWord "fi"
      return ([(test, body)], [])

def patterns (fuel : Nat) : Parse (List (List Piece)) :=
  match fuel with
  | 0 => fail "nested too deeply"
  | fuel + 1 => do
    let p ← word fuel
    skipBlanks
    if (← ahead "|") && !(← ahead "||") then
      skip 1
      return p :: (← patterns fuel)
    if !(← accept ")") then unexpected "\")\""
    return [p]

def arms (fuel : Nat) : Parse (List (List (List Piece) × List Command)) :=
  match fuel with
  | 0 => fail "nested too deeply"
  | fuel + 1 => do
    skipLines
    if ← acceptWord "esac" then return []
    discard (accept "(")
    let ps ← patterns fuel
    let body ← commands fuel true
    skipLines
    if ← accept ";;" then return (ps, body) :: (← arms fuel)
    if !(← acceptWord "esac") then unexpected "\";;\""
    return [(ps, body)]

def loopBody (fuel : Nat) : Parse (List Command) :=
  match fuel with
  | 0 => fail "nested too deeply"
  | fuel + 1 => do
    skipLines
    expectWord "do"
    let body ← commands fuel false
    expectWord "done"
    return body

def forEach (fuel : Nat) : Parse Command :=
  match fuel with
  | 0 => fail "nested too deeply"
  | fuel + 1 => do
    let name ← nextWord
    if !isName name then
      if (← ahead "\n") then skip 1
      fail "Bad for loop variable"
    skip name.length
    skipLines
    if ← acceptWord "in" then
      let words ← wordList fuel
      skipBlanks
      if !(← ahead ";;") && (← accept ";") then pure ()
      else if !(← accept "\n") then unexpected ""
      return .each name (some words) (← loopBody fuel)
    else
      if !(← ahead ";;") then discard (accept ";")
      return .each name none (← loopBody fuel)

def compound? (fuel : Nat) : Parse (Option Command) :=
  match fuel with
  | 0 => fail "nested too deeply"
  | fuel + 1 => do
    let word ← nextWord
    if (← accept "(") then
      let body ← commands fuel false
      if !(← accept ")") then unexpected "\")\""
      return some (.group body true)
    else if ← acceptWord "\x7b" then
      let body ← commands fuel false
      expectWord "\x7d"
      return some (.group body false)
    else if ← acceptWord "if" then
      let (tests, otherwise) ← branches fuel
      return some (.branch tests otherwise)
    else if word == "while" || word == "until" then
      skip word.length
      let test ← commands fuel false
      return some (.loop (word == "until") test (← loopBody fuel))
    else if ← acceptWord "for" then return some (← forEach fuel)
    else if ← acceptWord "case" then
      let subject ← Script.word fuel
      if subject.isEmpty then unexpected "word"
      skipLines
      expectWord "in"
      return some (.select subject (← arms fuel))
    else if keywords.contains word then unexpected ""
    else return none

def command (fuel : Nat) : Parse Command :=
  match fuel with
  | 0 => fail "nested too deeply"
  | fuel + 1 => do
    insertAliases true
    let line := (← get).line
    match ← compound? fuel with
    | none => simple fuel line [] [] []
    | some c =>
      match ← redirections fuel with
      | [] => return c
      | rs => return .redirected line c rs

def pipeParts (fuel : Nat) : Parse (List Command) :=
  match fuel with
  | 0 => fail "nested too deeply"
  | fuel + 1 => do
    let c ← command fuel
    skipBlanks
    if (← ahead "|") && !(← ahead "||") then
      skip 1
      skipLines
      return c :: (← pipeParts fuel)
    else return [c]

def pipeline (fuel : Nat) : Parse Command :=
  match fuel with
  | 0 => fail "nested too deeply"
  | fuel + 1 => do
    insertAliases true
    let isNegated ← acceptWord "!"
    let c ← match ← pipeParts fuel with
      | [c] => pure c
      | cs => pure (.piped cs)
    return if isNegated then .negated c else c

def links (fuel : Nat) (link : Link) : Parse (List (Link × Command)) :=
  match fuel with
  | 0 => fail "nested too deeply"
  | fuel + 1 => do
    let c ← pipeline fuel
    skipBlanks
    let next ← if ← accept "&&" then pure (some Link.ifSucceeded)
      else if ← accept "||" then pure (some .ifFailed)
      else pure none
    match next with
    | none => return [(link, c)]
    | some next =>
      skipLines
      return (link, c) :: (← links fuel next)

def statement (fuel : Nat) : Parse (Command × Bool) :=
  match fuel with
  | 0 => fail "nested too deeply"
  | fuel + 1 => do
    let c ← match ← links fuel .always with
      | [(_, c)] => pure c
      | cs => pure (.linked cs)
    skipBlanks
    if (← ahead "&") && !(← ahead "&&") then
      skip 1
      return (.background c, true)
    if ← ahead ";;" then return (c, false)
    return (c, (← accept ";") || (← ahead "\n"))

def commands (fuel : Nat) (mayBeEmpty : Bool) : Parse (List Command) :=
  match fuel with
  | 0 => fail "nested too deeply"
  | fuel + 1 => do
    skipLines
    insertAliases true
    skipLines
    if (← peek?).isNone then return []
    let ends := closers.contains (← nextWord) || (← ahead ")") || (← ahead ";;")
    if ends && mayBeEmpty then return []
    let (c, goesOn) ← statement fuel
    return c :: (← if goesOn then commands fuel true else pure [])
end

def lineCommands : Nat → Parse (List Command)
  | 0 => fail "nested too deeply"
  | fuel + 1 => do
    skipBlanks
    if (← peek?).isNone || (← accept "\n") then return []
    let (c, goesOn) ← statement (16 * ((← get).rest.length + 4))
    if goesOn || (← peek?).isNone then return c :: (← lineCommands fuel) else unexpected ""

def Source.next (s : Source) : Except Mistake (Option (List Command × Source)) := do
  if s.rest.isEmpty then return none
  return some (← (lineCommands (s.rest.length + 1)).run s)

end CallFusion.Cli.Script
