import CallFusion.Ir.Name
import CallFusion.Ir.Word

/-!
Tokens of textual IR. Each token is the longest that can be read at its place. Text in which no token
begins is passed over, as are blanks and comments, so every text has its tokens.
-/
namespace CallFusion.Ir

open CallFusion.Text

inductive Token where
  | word (s : String)
  | number (s : String)
  | real (s : String)
  | label (i : Ident)
  | field (key : String)
  | localName (i : Ident)
  | globalName (i : Ident)
  | comdatName (s : String)
  | attrGroup (n : Nat)
  | metaRef (n : Nat)
  | metaName (s : String)
  | nodeKind (s : String)
  | string (bytes : List UInt8)
  | ellipsis
  | mark (c : Char)
  deriving DecidableEq, Repr, Inhabited

structure Lexeme where
  token : Option Token
  length : Nat
  deriving Repr, Inhabited

namespace Lexeme

def of (t : Token) (length : Nat) : Lexeme := ⟨some t, length⟩

def nothing (length : Nat) : Lexeme := ⟨none, length⟩

/-- The longest of several readings, the first of them when some are equally long. -/
def longest (readings : List (Option Lexeme)) : Option Lexeme :=
  readings.foldl (fun best r =>
    match best, r with
    | some b, some l => if b.length < l.length then some l else some b
    | none, r => r
    | b, none => b) none

end Lexeme

namespace Token

def isHexChar (c : Char) : Bool := c.isDigit || ('a' ≤ c && c ≤ 'f') || ('A' ≤ c && c ≤ 'F')

def isNameStart (c : Char) : Bool := isNameChar c && !c.isDigit

def quoted? (cs : List Char) : Option (List Char) :=
  if cs.contains '"' then some (cs.takeWhile (· != '"')) else none

def literalBytes (body : List Char) : List UInt8 := unescape (bytes (String.ofList body))

def literalName (body : List Char) : String := ofBytes (literalBytes body)

def name? (cs : List Char) : Option (Ident × Nat) :=
  match cs with
  | '"' :: rest => (quoted? rest).map fun body => (.ofName (literalName body), body.length + 2)
  | c :: _ =>
    let run := cs.takeWhile (if c.isDigit then Char.isDigit else isNameChar)
    if run.isEmpty then none else some (.ofRun (String.ofList run), run.length)
  | [] => none

def opensForever (cs : List Char) : Bool :=
  match cs with
  | '"' :: rest => !rest.contains '"'
  | _ => false

/-- A name after its sigil. A lone sigil is passed over, with all that an unclosed quote swallows. -/
def sigilLexeme (make : Ident → Token) (cs : List Char) : Lexeme :=
  match name? cs with
  | some (i, n) => .of (make i) (n + 1)
  | none => .nothing (if opensForever cs then cs.length + 1 else 1)

def spelledWords : List (List Char) := words.map String.toList

def wordAt? (run : List Char) : Option Lexeme :=
  let found := if words.contains (String.ofList run) then [run] else spelledWords.filter fun w => w.isPrefixOf run
  Lexeme.longest (found.map fun w =>
    some (.of (if w == ['.', '.', '.'] then .ellipsis else .word (String.ofList w)) w.length))

def memberAt? (run : List Char) : Option Lexeme :=
  let word := run.takeWhile fun c => c.isAlphanum || c == '_'
  if wordOpenings.any fun o => o.toList.isPrefixOf word then some (.of (.word (String.ofList word)) word.length)
  else none

def integerTypeAt? (run : List Char) : Option Lexeme :=
  match run with
  | 'i' :: rest =>
    let ds := rest.takeWhile Char.isDigit
    if ds.isEmpty then none else some (.of (.word (String.ofList ('i' :: ds))) (ds.length + 1))
  | _ => none

/-- An integer in hexadecimal, whose opening says whether the top bit is a sign. -/
def hexIntegerAt? (run : List Char) : Option Lexeme :=
  match run with
  | c :: '0' :: 'x' :: rest =>
    let ds := rest.takeWhile isHexChar
    if (c == 'u' || c == 's') && !ds.isEmpty then
      some (.of (.number (String.ofList (c :: '0' :: 'x' :: ds))) (ds.length + 3))
    else none
  | _ => none

def integerAt? (run : List Char) : Option Lexeme :=
  let sign := run.takeWhile (· == '-')
  let ds := (run.drop sign.length).takeWhile Char.isDigit
  if sign.length ≤ 1 && !ds.isEmpty then some (.of (.number (String.ofList (sign ++ ds))) (sign.length + ds.length))
  else none

def exponentAt (cs : List Char) : List Char :=
  match cs with
  | e :: rest =>
    let sign := match rest with
      | c :: _ => if c == '+' || c == '-' then [c] else []
      | [] => []
    let ds := (rest.drop sign.length).takeWhile Char.isDigit
    if (e == 'e' || e == 'E') && !ds.isEmpty then e :: sign ++ ds else []
  | [] => []

def decimalAt? (cs : List Char) : Option Lexeme :=
  let sign := match cs with
    | c :: _ => if c == '+' || c == '-' then [c] else []
    | [] => []
  let whole := (cs.drop sign.length).takeWhile Char.isDigit
  match cs.drop (sign.length + whole.length) with
  | '.' :: rest =>
    let frac := rest.takeWhile Char.isDigit
    let text := sign ++ whole ++ '.' :: frac ++ exponentAt (rest.drop frac.length)
    if whole.isEmpty then none else some (.of (.real (String.ofList text)) text.length)
  | _ => none

def bitsAt? (run : List Char) : Option Lexeme :=
  match run with
  | '0' :: 'x' :: rest =>
    let form := match rest with
      | c :: _ => if ['K', 'L', 'M', 'H', 'R'].contains c then [c] else []
      | [] => []
    let ds := (rest.drop form.length).takeWhile isHexChar
    let text := '0' :: 'x' :: form ++ ds
    if ds.isEmpty then none else some (.of (.real (String.ofList text)) text.length)
  | _ => none

def comdatAt? (cs : List Char) : Option Lexeme :=
  match cs with
  | '$' :: rest =>
    match rest with
    | c :: _ =>
      if c == '"' || isNameStart c then
        (name? rest).map fun (i, n) => .of (.comdatName (match i with
          | .named s => s
          | .number _ => "")) (n + 1)
      else none
    | [] => none
  | _ => none

/-- A run of name characters: a label or field when a colon follows, else the longest reading of its
start. A run that starts no token is passed over whole. -/
def runLexeme (cs : List Char) : Lexeme :=
  let run := cs.takeWhile isNameChar
  let after := cs.drop run.length
  match after with
  | ':' :: _ =>
    let s := String.ofList run
    .of (if fieldKeys.contains s then .field s else .label (.ofRun s)) (run.length + 1)
  | _ =>
    let readings := [wordAt? run, memberAt? run, integerTypeAt? run, hexIntegerAt? run, integerAt? run,
      decimalAt? cs, bitsAt? run, comdatAt? cs]
    (Lexeme.longest readings).getD
      (.nothing (if run == ['$'] && opensForever after then cs.length else run.length))

/-- A metadata number or name, whose escapes are kept; the mark stands alone in front of anything else. -/
def metaLexeme (cs : List Char) : Lexeme :=
  let digits := cs.takeWhile Char.isDigit
  let run := cs.takeWhile fun c => isNameChar c || c == '\\'
  if !digits.isEmpty then .of (.metaRef (digitsValue (String.ofList digits))) (digits.length + 1)
  else if run.isEmpty then .of (.mark '!') 1
  else
    let s := String.ofList run
    .of (if nodeKinds.contains s then .nodeKind s else .metaName s) (run.length + 1)

def stringLexeme (cs : List Char) : Lexeme :=
  match quoted? cs with
  | some body =>
    match cs.drop (body.length + 1) with
    | ':' :: _ => .of (.label (.ofName (literalName body))) (body.length + 3)
    | _ => .of (.string (literalBytes body)) (body.length + 2)
  | none => .nothing (cs.length + 1)

def marks : List Char := ['=', ',', '(', ')', '[', ']', '\x7b', '\x7d', '<', '>', '*', '|']

def next (c : Char) (cs : List Char) : Lexeme :=
  if marks.contains c then .of (.mark c) 1
  else if isNameChar c then runLexeme (c :: cs)
  else match c with
    | '%' => sigilLexeme .localName cs
    | '@' => sigilLexeme .globalName cs
    | '!' => metaLexeme cs
    | '"' => stringLexeme cs
    | ';' => .nothing (1 + (cs.takeWhile fun c => c != '\n' && c != '\r').length)
    | '#' =>
      let ds := cs.takeWhile Char.isDigit
      if ds.isEmpty then .nothing 1 else .of (.attrGroup (digitsValue (String.ofList ds))) (ds.length + 1)
    | '+' => (decimalAt? ('+' :: cs)).getD (.nothing (1 + (cs.takeWhile Char.isDigit).length))
    | _ => .nothing 1

def scanChars : List Char → List Token
  | [] => []
  | c :: cs =>
    let l := next c cs
    -- a lexeme takes at least the first character
    l.token.toList ++ scanChars (cs.drop (l.length - 1))
termination_by cs => cs.length
decreasing_by simp only [List.length_cons, List.length_drop]; omega

def scan (s : String) : List Token := scanChars s.toList

end Token
end CallFusion.Ir
