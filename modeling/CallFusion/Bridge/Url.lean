import CallFusion.Bridge.IpLiteral
import CallFusion.Fault
import CallFusion.Text.Escape
import CallFusion.Text.Trim

/-!
Addresses of services: a scheme, a user and a host, a path, a query and a fragment. An address is kept
in the spelling in which it is shown, with everything escaped that does not stand for itself. Texts
are octets.
-/
namespace CallFusion

open Text

inductive UrlPart where
  | host
  | zone
  | path
  | user
  | fragment
  deriving DecidableEq, Repr, Inhabited

inductive UrlFault where
  | controlCharacter
  | missingScheme
  | colonInFirstSegment
  | badEscape (text : List Char)
  | badHostCharacter (c : Char)
  | badPort (text : List Char)
  | missingBracket
  | badHost (reason : String)
  | badUser
  deriving DecidableEq, Repr, Inhabited

namespace UrlFault

def message : UrlFault → String
  | controlCharacter => "net/url: invalid control character in URL"
  | missingScheme => "missing protocol scheme"
  | colonInFirstSegment => "first path segment in URL cannot contain colon"
  | badEscape text => "invalid URL escape " ++ quoted (ofOctets text)
  | badHostCharacter c => "invalid character " ++ quoted (ofOctets [c]) ++ " in host name"
  | badPort text => "invalid port " ++ quoted (ofOctets text) ++ " after host"
  | missingBracket => "missing ']' in host"
  | badHost reason => reason
  | badUser => "net/url: invalid userinfo"

end UrlFault

namespace UrlPart

def keeps (part : UrlPart) (c : Char) : Bool :=
  c.isAlphanum || ['-', '_', '.', '~'].contains c ||
    match part with
    | host | zone =>
      ['!', '$', '&', '\'', '(', ')', '*', '+', ',', ';', '=', ':', '[', ']', '<', '>', '"'].contains c
    | path => ['$', '&', '+', ',', '/', ':', ';', '=', '@'].contains c
    | user => ['$', '&', '+', ',', ';', '='].contains c
    | fragment => ['$', '&', '+', ',', '/', ':', ';', '=', '?', '@', '!', '(', ')', '*'].contains c

def hexDigit (n : Nat) : Char := Char.ofNat (if n < 10 then 48 + n else 55 + n)

def escape (part : UrlPart) (cs : List Char) : List Char :=
  cs.flatMap fun c => if part.keeps c then [c] else ['%', hexDigit (c.toNat / 16), hexDigit (c.toNat % 16)]

/-- Whether an escape may stand in a part. In a host only bytes above ASCII and the percent sign are
escaped, in a zone also the blank and what a host would not keep. -/
def allowsEscape (part : UrlPart) (value : Nat) : Bool :=
  match part with
  | host => 0x80 ≤ value || value = 0x25
  | zone => value = 0x25 || value = 0x20 || host.keeps (Char.ofNat value)
  | _ => true

def unescape (part : UrlPart) : List Char → Except UrlFault (List Char)
  | [] => .ok []
  | '%' :: cs =>
    match cs with
    | a :: b :: rest =>
      match hexChar? a, hexChar? b with
      | some high, some low =>
        if part.allowsEscape (high * 16 + low) then
          return Char.ofNat (high * 16 + low) :: (← unescape part rest)
        else .error (.badEscape ['%', a, b])
      | _, _ => .error (.badEscape ['%', a, b])
    | _ => .error (.badEscape ('%' :: cs))
  | c :: cs =>
    if (part == host || part == zone) && c.toNat < 0x80 && !part.keeps c then .error (.badHostCharacter c)
    else return c :: (← unescape part cs)

def isWritten (part : UrlPart) (cs : List Char) : Bool :=
  cs.all fun c =>
    ['!', '$', '&', '\'', '(', ')', '*', '+', ',', ';', '=', ':', '@', '[', ']', '%'].contains c || part.keeps c

/-- The spelling of a part: as it was given if it may stand, and otherwise escaped anew. -/
def spelled (part : UrlPart) (given : List Char) : Except UrlFault (List Char) := do
  let plain ← part.unescape given
  return if part.isWritten given then given else part.escape plain

end UrlPart

structure Url where
  scheme : List Char := []
  rootless : List Char := []
  user : Option (List Char × Option (List Char)) := none
  host : List Char := []
  omitsHost : Bool := false
  path : List Char := []
  query : List Char := []
  fragment : List Char := []
  deriving DecidableEq, Repr, Inhabited

namespace Url

def cut (mark : Char) (cs : List Char) : List Char × Option (List Char) :=
  let before := cs.takeWhile (· != mark)
  match cs.drop before.length with
  | [] => (before, none)
  | _ :: after => (before, some after)

def cutLast (mark : Char) (cs : List Char) : Option (List Char × List Char) :=
  match cut mark cs.reverse with
  | (_, none) => none
  | (after, some before) => some (before.reverse, after.reverse)

def scheme? (cs : List Char) : Except UrlFault (List Char × List Char) :=
  let isLater := fun (c : Char) => c.isAlphanum || c == '+' || c == '-' || c == '.'
  let word := cs.takeWhile isLater
  match word, cs.drop word.length with
  | [], ':' :: _ => .error .missingScheme
  | c :: _, ':' :: rest => .ok (if c.isAlpha then (word.map Char.toLower, rest) else ([], cs))
  | _, _ => .ok ([], cs)

def isPort : List Char → Bool
  | [] => true
  | ':' :: digits => digits.all Char.isDigit
  | _ => false

def readHost (cs : List Char) : Except UrlFault (List Char) :=
  match cutLast '[' cs with
  | some (before, inner) =>
    match cutLast ']' cs, cutLast ']' inner with
    | none, _ => .error .missingBracket
    | some (_, port), found => do
      if !isPort port then .error (.badPort port)
      let port ← UrlPart.host.unescape port
      let address := (found.map (·.1)).getD []
      let name := address.takeWhile (· != '%')
      let zone := address.drop name.length
      let plain ← if ['%', '2', '5'].isPrefixOf zone then do
          pure ((← UrlPart.host.unescape name) ++ (← UrlPart.zone.unescape zone))
        else UrlPart.host.unescape address
      if !before.isEmpty then .error (.badHost "invalid IP-literal")
      match IpLiteral.problem? plain with
      | some reason => .error (.badHost reason)
      | none => return '[' :: plain ++ ']' :: port
  | none => do
    match cutLast ':' cs with
    | some (_, port) => if !isPort (':' :: port) then .error (.badPort (':' :: port))
    | none => pure ()
    UrlPart.host.unescape cs

def isUserChar (c : Char) : Bool :=
  c.isAlphanum || ['-', '.', '_', ':', '~', '!', '$', '&', '\'', '(', ')', '*', '+', ',', ';', '=', '%', '@'].contains c

def readUser (cs : List Char) : Except UrlFault (List Char × Option (List Char)) := do
  if !cs.all isUserChar then .error .badUser
  let (name, password) := cut ':' cs
  let name ← UrlPart.user.unescape name
  match password with
  | none => return (name, none)
  | some p => return (name, some (← UrlPart.user.unescape p))

def withoutEmptyPort (host : List Char) : List Char :=
  match host.reverse with
  | ':' :: rest => rest.reverse
  | _ => host

def readAuthority (u : Url) (cs : List Char) : Except UrlFault Url :=
  match cutLast '@' cs with
  | none => return { u with host := withoutEmptyPort (← readHost cs) }
  | some (user, host) => do
    let host ← readHost host
    return { u with user := some (← readUser user), host := withoutEmptyPort host }

def readBody (cs : List Char) : Except UrlFault Url := do
  if cs.any fun c => c.toNat < 0x20 || c.toNat = 0x7F then .error .controlCharacter
  if cs == ['*'] then return { path := ['*'] }
  let (scheme, rest) ← scheme? cs
  let (rest, query) := cut '?' rest
  let u : Url := { scheme := scheme, query := (query.map ('?' :: ·)).getD [] }
  let rooted := rest.head? == some '/'
  if !rooted && !scheme.isEmpty then return { u with rootless := rest }
  if !rooted && (cut '/' rest).1.contains ':' then .error .colonInFirstSegment
  let hasAuthority := ['/', '/'].isPrefixOf rest && (!scheme.isEmpty || rest[2]? != some '/')
  if hasAuthority then
    let authority := (rest.drop 2).takeWhile (· != '/')
    let u ← u.readAuthority authority
    return { u with path := ← UrlPart.path.spelled (rest.drop (2 + authority.length)) }
  else return { u with omitsHost := !scheme.isEmpty, path := ← UrlPart.path.spelled rest }

/-- Reads an address; what is wrong with it is said about the text without its fragment. -/
def read (address : String) : Except Fault Url :=
  let (body, fragment) := cut '#' (octets address)
  let fault (text : List Char) (f : UrlFault) : Fault :=
    .during ("parse " ++ quoted (ofOctets text)) (.plain f.message)
  match readBody body with
  | .error f => .error (fault body f)
  | .ok u =>
    match UrlPart.fragment.spelled (fragment.getD []) with
    | .error f => .error (fault (octets address) f)
    | .ok spelled => .ok { u with fragment := spelled }

def userText (name : List Char) (password : Option (List Char)) : List Char :=
  UrlPart.user.escape name ++ (password.map fun p => ':' :: UrlPart.user.escape p).getD []

def authorityText (u : Url) : List Char :=
  if u.scheme.isEmpty && u.host.isEmpty && u.user.isNone then []
  else if u.omitsHost && u.host.isEmpty && u.user.isNone then []
  else
    (if u.host.isEmpty && u.path.isEmpty && u.user.isNone then [] else ['/', '/']) ++
      (u.user.map fun (name, password) => userText name password ++ ['@']).getD [] ++ UrlPart.host.escape u.host

def octetText (u : Url) : List Char :=
  let scheme := if u.scheme.isEmpty then [] else u.scheme ++ [':']
  let front := scheme ++ u.authorityText
  let dotted := front.isEmpty && (cut '/' u.path).1.contains ':'
  let middle :=
    if !u.rootless.isEmpty then scheme ++ u.rootless
    else front ++ (if dotted then ['.', '/'] else []) ++ u.path
  middle ++ u.query ++ (if u.fragment.isEmpty then [] else '#' :: u.fragment)

def replaceFirst (old new : List Char) : List Char → List Char
  | [] => []
  | c :: cs => if old.isPrefixOf (c :: cs) then new ++ (c :: cs).drop old.length else c :: replaceFirst old new cs

/-- The address as it is shown: a password is hidden. -/
def shown (u : Url) : String :=
  ofOctets <| match u.user with
    | some (name, some password) =>
      replaceFirst (userText name (some password) ++ ['@']) (name ++ [':', '*', '*', '*', '@']) u.octetText
    | _ => u.octetText

def ports : List (List Char × String) := [("http".toList, "80"), ("https".toList, "443")]

def problem? (u : Url) : Option Fault :=
  if (ports.lookup u.scheme).isNone then some (.plain ("unsupported protocol scheme " ++ quoted (ofOctets u.scheme)))
  else if u.host.isEmpty then some (.plain "http: no Host in request URL")
  else none

end Url
end CallFusion
