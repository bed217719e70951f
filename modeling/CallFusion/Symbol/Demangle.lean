import CallFusion.Symbol.CratePath
import CallFusion.Symbol.HashedPath
import CallFusion.Symbol.Itanium.Encoding
import CallFusion.Symbol.Itanium.Printer
import CallFusion.Text.Utf8

/-!
The logical name of a symbol, worked out from the symbol alone. A symbol of no known form is its own
name. The hash segment that closes some mangled paths, `::h` and hexadecimal digits, is no part of it. A symbol of
the Itanium C++ ABI is `_Z`, a name, and the types of its parameters; tags that compilers add to copies of a function
follow behind dots.
-/
namespace CallFusion.Symbol

namespace Itanium

def isTagChar (c : Char) : Bool := c.isLower || c.isDigit || c == '_'

/-- The tag of a clone: a dot and a word, then dots and numbers. -/
def cloneTag (cs : List Char) : List Char × List Char :=
  match cs with
  | '.' :: c :: more =>
    if isTagChar c then numbers more.length ('.' :: c :: more.takeWhile isTagChar) (more.dropWhile isTagChar)
    else ([], cs)
  | _ => ([], cs)
where
  numbers : Nat → List Char → List Char → List Char × List Char
    | 0, acc, cs => (acc, cs)
    | fuel + 1, acc, cs =>
      match cs with
      | '.' :: c :: more =>
        if c.isDigit then
          numbers fuel (acc ++ '.' :: c :: more.takeWhile Char.isDigit) (more.dropWhile Char.isDigit)
        else (acc, cs)
      | _ => (acc, cs)

def clones : Nat → Node → List Char → Node × List Char
  | 0, n, cs => (n, cs)
  | fuel + 1, n, cs =>
    match cloneTag cs with
    | ([], _) => (n, cs)
    | (tag, rest) => clones fuel ⟨.clone (String.ofList tag), [n]⟩ rest

/-- The declaration a symbol of this form stands for. Nesting is bounded by the symbol's length. -/
def demangle? (symbol : String) : Option String := do
  let cs := Text.octets symbol
  if cs.take 2 != ['_', 'Z'] then none
  let body := cs.drop 2
  let (n, s) ← (rule (8 * body.length + 32) (.encoding false)).run { rest := body }
  let (n, rest) := clones s.rest.length (n.settled s.shared) s.rest
  if rest.isEmpty then return Text.ofOctets (n.text (64 * Nat.pow (body.length + 4) 2)).toList else none

end Itanium

def isHashDigit (c : Char) : Bool := c.isDigit || ('a' ≤ c && c ≤ 'f')

def stripHash (name : String) : String :=
  let rev := name.toList.reverse
  let digits := rev.takeWhile isHashDigit
  match rev.drop digits.length with
  | 'h' :: ':' :: ':' :: rest => if digits.isEmpty then name else String.ofList rest.reverse
  | _ => name

def looksMangled (s : String) : Bool := s.startsWith "_Z" || s.startsWith "__Z" || s.startsWith "_R"

/-- Reads a mangled symbol; a hashed path that does not read as one may still be a plain one. -/
def read? (s : String) : Option String :=
  if s.startsWith "_R" then CratePath.demangle? s else HashedPath.demangle? s <|> Itanium.demangle? s

def logicalName (s : String) : String := ((if looksMangled s then read? s else none).map stripHash).getD s

end CallFusion.Symbol
