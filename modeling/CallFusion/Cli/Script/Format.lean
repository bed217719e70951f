import CallFusion.Cli.Script.Real
import CallFusion.Text.Number

/-! Text with places for words, as scripts print it. -/
namespace CallFusion.Cli.Script

def controlChar? (c : Char) : Option Char :=
  [('a', '\x07'), ('b', '\x08'), ('e', '\x1b'), ('f', '\x0c'), ('n', '\n'), ('r', '\r'), ('t', '\t'), ('v', '\x0b'),
    ('\\', '\\')].lookup c

def octal (limit : Nat) (cs : List Char) : Char × List Char :=
  let digits := (cs.take limit).takeWhile fun c => '0' ≤ c && c ≤ '7'
  (Char.ofNat (digits.foldl (fun n c => n * 8 + (c.toNat - 48)) 0 % 256), cs.drop digits.length)

def unescaped : Nat → List Char → List Char × Bool
  | 0, _ => ([], false)
  | fuel + 1, '\\' :: c :: cs =>
    if c == 'c' then ([], true)
    else if '0' ≤ c && c ≤ '7' then
      let (d, cs) := octal 3 (if c == '0' then cs else c :: cs)
      let (rest, ended) := unescaped fuel cs
      (d :: rest, ended)
    else
      let (rest, ended) := unescaped fuel cs
      match controlChar? c with
      | some d => (d :: rest, ended)
      | none => ('\\' :: c :: rest, ended)
  | fuel + 1, c :: cs => let (rest, ended) := unescaped fuel cs; (c :: rest, ended)
  | _, [] => ([], false)

structure Layout where
  toLeft : Bool := false
  withZeros : Bool := false
  withPlus : Bool := false
  withBlank : Bool := false
  isMarked : Bool := false
  width : Nat := 0
  precision : Option Nat := none
  deriving Repr, Inhabited

namespace Layout

def ofFlags (flags : List Char) : Layout where
  toLeft := flags.contains '-'
  withZeros := flags.contains '0'
  withPlus := flags.contains '+'
  withBlank := flags.contains ' '
  isMarked := flags.contains '#'

def withWidth (l : Layout) (n : Int) : Layout := { l with width := n.natAbs, toLeft := l.toLeft || n < 0 }

def widen (l : Layout) (cs : List Char) : List Char :=
  let blanks := List.replicate (l.width - cs.length) ' '
  if l.toLeft then cs ++ blanks else blanks ++ cs

def text (l : Layout) (cs : List Char) : List Char := l.widen (l.precision.elim cs cs.take)

def sign (l : Layout) (isNegative : Bool) : List Char :=
  if isNegative then ['-'] else if l.withPlus then ['+'] else if l.withBlank then [' '] else []

def digits (l : Layout) (sign ds : List Char) : List Char :=
  let target := match l.precision with
    | some p => p
    | none => if l.withZeros && !l.toLeft then l.width - sign.length else 0
  let ds := if l.precision == some 0 && ds == ['0'] then [] else ds
  l.widen (sign ++ List.replicate (target - ds.length) '0' ++ ds)

def signed (l : Layout) (n : Int) : List Char := l.digits (l.sign (n < 0)) (Nat.toDigits 10 n.natAbs)

def unsigned (l : Layout) (letter : Char) (n : Int) : List Char :=
  let n := (UInt64.ofInt n).toNat
  match letter with
  | 'o' => l.digits (if l.isMarked && n != 0 then ['0'] else []) (Nat.toDigits 8 n)
  | 'x' => l.digits (if l.isMarked && n != 0 then ['0', 'x'] else []) (Nat.toDigits 16 n)
  | 'X' => l.digits (if l.isMarked && n != 0 then ['0', 'X'] else []) ((Nat.toDigits 16 n).map Char.toUpper)
  | _ => l.digits [] (Nat.toDigits 10 n)

def real (l : Layout) (letter : Char) (x : Real) : List Char :=
  let sign := l.sign x.isNegative
  let shown := match x.digits? letter.toLower l.isMarked l.precision with
    | some ds =>
      let (mark, ds) := if letter.toLower == 'a' then (ds.take 2, ds.drop 2) else ([], ds)
      let zeros := if l.withZeros && !l.toLeft then l.width - sign.length - mark.length - ds.length else 0
      l.widen (sign ++ mark ++ List.replicate zeros '0' ++ ds)
    | none => l.widen (sign ++ (if x matches .nan _ then "nan".toList else "inf".toList))
  if letter.isUpper then shown.map Char.toUpper else shown

end Layout

structure Printed where
  text : List Char := []
  complaints : List String := []
  problem : Option String := none
  deriving Repr, Inhabited

def Printed.andThen (p q : Printed) : Printed :=
  ⟨p.text ++ q.text, p.complaints ++ q.complaints, p.problem <|> q.problem⟩

def numberComplaints (word : String) (taken : Nat) (isOut : Bool) : List String :=
  if taken < word.length then
    [word ++ if taken = 0 then ": expected numeric value" else ": not completely converted"]
  else if isOut then [word ++ ": Numerical result out of range"]
  else []

def quotedCode? (word : String) : Option Nat :=
  match word.toList with
  | '"' :: rest | '\'' :: rest => some ((rest.head?.map Char.toNat).getD 0)
  | _ => none

/-- The number that a word stands for: the code of a character behind a quote, or what digits at its start
say, as far as a word of 64 bits with or without a sign holds it. -/
def wordNumber (isSigned : Bool) (word : String) : Int × List String :=
  match quotedCode? word with
  | some n => (n, [])
  | none =>
    let cs := word.toList
    let blanks := (cs.takeWhile fun c => c == ' ' || ('\t' ≤ c && c ≤ '\r')).length
    let (negative, signs, ds) := match cs.drop blanks with
      | '-' :: ds => (true, 1, ds)
      | '+' :: ds => (false, 1, ds)
      | ds => (false, 0, ds)
    let digitsOf (base : Nat) (cs : List Char) := (cs.map Text.hexChar?).takeWhile fun d => d.any (· < base)
    let (base, skipped) := match ds with
      | '0' :: 'x' :: rest | '0' :: 'X' :: rest => if (digitsOf 16 rest).isEmpty then (8, 0) else (16, 2)
      | '0' :: _ => (8, 0)
      | _ => (10, 0)
    let found := digitsOf base (ds.drop skipped)
    let n : Int := found.foldl (fun n d => n * base + d.getD 0) 0
    let value := if negative then -n else n
    let taken := if found.isEmpty then 0 else blanks + signs + skipped + found.length
    let (least, most) : Int × Int :=
      if isSigned then (-(Text.signedLimit : Int), Text.signedLimit - 1) else (-(Text.wordLimit - 1 : Int), Text.wordLimit - 1)
    if value < least || most < value then
      (if isSigned && negative then least else most, numberComplaints word taken true)
    else (value, numberComplaints word taken false)

def wordReal (word : String) : Real × List String :=
  match quotedCode? word with
  | some n => ((Real.ofRatio false n 1).1, [])
  | none =>
    match Real.read? word.toList with
    | some (x, isOut, taken) => (x, numberComplaints word taken isOut)
    | none => ((Real.ofRatio false 0 1).1, numberComplaints word 0 false)

def layoutNumber (cs : List Char) (args : List String) : Option Int × List Char × List String × List String :=
  match cs with
  | '*' :: cs =>
    let (n, complaints) := wordNumber true (args.headD "")
    (some n, cs, args.drop 1, complaints)
  | cs =>
    let ds := cs.takeWhile Char.isDigit
    let n : Nat := ds.foldl (fun n c => n * 10 + (c.toNat - 48)) 0
    (if ds.isEmpty then none else some n, cs.drop ds.length, args, [])

/-- A layout behind a percent sign, what follows it, the words that are left and complaints about words. -/
def readLayout (cs : List Char) (args : List String) : Layout × List Char × List String × List String :=
  let flags := cs.takeWhile "-0+ #".toList.contains
  let (width, rest, args, complaints) := layoutNumber (cs.drop flags.length) args
  let layout := (Layout.ofFlags flags).withWidth (width.getD 0)
  match rest with
  | '.' :: rest =>
    let (precision, rest, args, more) := layoutNumber rest args
    let n := precision.getD 0
    ({ layout with precision := if n < 0 then none else some n.toNat }, rest, args, complaints ++ more)
  | _ => (layout, rest, args, complaints)

def fillFormat : Nat → List Char → List String → Printed × List String × Bool
  | 0, _, args => ({}, args, false)
  | _, [], args => ({}, args, false)
  | fuel + 1, '%' :: '%' :: cs, args => let (p, left) := fillFormat fuel cs args; (Printed.andThen { text := ['%'] } p, left)
  | fuel + 1, '%' :: cs, args =>
    let (layout, rest, args, complaints) := readLayout cs args
    let word := args.headD ""
    let go (text : List Char) (more : List String) (cs : List Char) : Printed × List String × Bool :=
      let (q, left) := fillFormat fuel cs (args.drop 1)
      (Printed.andThen { text := text, complaints := complaints ++ more } q, left)
    let failing (problem : String) : Printed × List String × Bool :=
      ({ complaints := complaints, problem := some problem }, [], true)
    match rest with
    | [] => failing "missing format character"
    | 's' :: cs => go (layout.text word.toList) [] cs
    | 'c' :: cs => go ({ layout with precision := none }.text [word.toList.headD '\x00']) [] cs
    | 'b' :: cs =>
      let (text, ended) := unescaped (word.length + 1) word.toList
      if ended then ({ text := layout.text text, complaints := complaints }, [], true) else go (layout.text text) [] cs
    | c :: cs' =>
      if c == 'd' || c == 'i' then
        let (n, more) := wordNumber true word
        go (layout.signed n) more cs'
      else if "ouxX".toList.contains c then
        let (n, more) := wordNumber false word
        go (layout.unsigned c n) more cs'
      else if "aAeEfFgG".toList.contains c then
        let (x, more) := wordReal word
        go (layout.real c x) more cs'
      else
        let start := '%' :: cs.take (cs.length - cs'.length)
        failing (String.ofList start ++ ": invalid directive")
  | fuel + 1, '\\' :: c :: cs, args =>
    let go (ds : List Char) (cs : List Char) : Printed × List String × Bool :=
      let (p, left) := fillFormat fuel cs args
      (Printed.andThen { text := ds } p, left)
    match controlChar? c with
    | some d => go [d] cs
    | none =>
      if '0' ≤ c && c ≤ '7' then
        let (d, cs) := octal 3 (c :: cs)
        go [d] cs
      else go ['\\'] (c :: cs)
  | fuel + 1, c :: cs, args =>
    let (p, left) := fillFormat fuel cs args
    (Printed.andThen { text := [c] } p, left)

/-- A format is used again as long as it takes words and some are left. -/
def formatted (format : List Char) : Nat → List String → Printed
  | 0, _ => {}
  | fuel + 1, args =>
    let (p, left, ended) := fillFormat (2 * format.length + 1) format args
    if ended || left.isEmpty || left.length = args.length then p else p.andThen (formatted format fuel left)

end CallFusion.Cli.Script
