import CallFusion.Text.Quoted

/-!
Network addresses of sixteen bytes as they stand in brackets: groups of hexadecimal digits between
colons, one run of empty groups, an address of four bytes at the end, and a zone. Texts are octets.
-/
namespace CallFusion.IpLiteral

open Text

structure IpFault where
  reason : String
  rest : List Char := []
  deriving DecidableEq, Repr, Inhabited

def IpFault.message (f : IpFault) (address : List Char) : String :=
  "ParseAddr(" ++ quoted (ofOctets address) ++ "): " ++ f.reason ++
    if f.rest.isEmpty then "" else " (at " ++ quoted (ofOctets f.rest) ++ ")"

structure Quad where
  value : Nat := 0
  digits : Nat := 0
  done : Nat := 0

/-- Checks four numbers between dots. `isFirst` and `afterDot` say what stands in front. -/
def checkQuad (isFirst afterDot : Bool) (q : Quad) : List Char → Except IpFault Unit
  | [] => if q.done < 3 then .error ⟨"IPv4 address too short", []⟩ else .ok ()
  | c :: cs =>
    if c.isDigit then
      if q.digits = 1 && q.value = 0 then .error ⟨"IPv4 field has octet with leading zero", []⟩
      else
        let value := q.value * 10 + (c.toNat - 48)
        if 255 < value then .error ⟨"IPv4 field has value >255", []⟩
        else checkQuad false false { q with value := value, digits := q.digits + 1 } cs
    else if c == '.' then
      if isFirst || cs.isEmpty || afterDot then .error ⟨"IPv4 field must have at least one digit", c :: cs⟩
      else if q.done = 3 then .error ⟨"IPv4 address too long", []⟩
      else checkQuad false true { done := q.done + 1 } cs
    else .error ⟨"unexpected character", c :: cs⟩

def isHexDigit (c : Char) : Bool := c.isDigit || ('a' ≤ c && c ≤ 'f') || ('A' ≤ c && c ≤ 'F')

/-- Checks the groups of an address. `size` counts the bytes so far, `gap` says whether the run of
empty groups was there. -/
def checkGroups : Nat → Nat → Bool → List Char → Except IpFault Unit
  | 0, size, gap, cs => finish size gap cs
  | fuel + 1, size, gap, cs =>
    if 16 ≤ size then finish size gap cs
    else
      let digits := cs.takeWhile isHexDigit
      let rest := cs.drop digits.length
      if 4 < digits.length then .error ⟨"each group must have 4 or less digits", cs⟩
      else if digits.isEmpty then .error ⟨"each colon-separated field must have at least one digit", cs⟩
      else match rest with
        | '.' :: _ =>
          if !gap && size != 12 then
            .error ⟨"embedded IPv4 address must replace the final 2 fields of the address", cs⟩
          else if 16 < size + 4 then
            .error ⟨"too many hex fields to fit an embedded IPv4 at the end of the address", cs⟩
          else do
            checkQuad true false {} cs
            finish (size + 4) gap []
        | [] => finish (size + 2) gap []
        | ':' :: ':' :: more =>
          if gap then .error ⟨"multiple :: in address", ':' :: more⟩
          else if more.isEmpty then finish (size + 2) true []
          else checkGroups fuel (size + 2) true more
        | [':'] => .error ⟨"colon must be followed by more characters", rest⟩
        | ':' :: more => checkGroups fuel (size + 2) gap more
        | _ => .error ⟨"unexpected character, want colon", rest⟩
where
  finish (size : Nat) (gap : Bool) (rest : List Char) : Except IpFault Unit :=
    if !rest.isEmpty then .error ⟨"trailing garbage after address", rest⟩
    else if size < 16 then if gap then .ok () else .error ⟨"address string too short", []⟩
    else if gap then .error ⟨"the :: must expand to at least one field of zeros", []⟩
    else .ok ()

def checkLong (address : List Char) : Except IpFault Unit :=
  let groups := address.takeWhile (· != '%')
  if address.drop groups.length == ['%'] then .error ⟨"zone must be a non-empty string", []⟩
  else match groups with
    | ':' :: ':' :: [] => .ok ()
    | ':' :: ':' :: more => checkGroups (more.length + 1) 0 true more
    | cs => checkGroups (cs.length + 1) 0 false cs

def problem? (address : List Char) : Option String :=
  match address.find? fun c => c == '.' || c == ':' || c == '%' with
  | some '.' =>
    match checkQuad true false {} address with
    | .error f => some ("invalid host: " ++ f.message address)
    | .ok () => some "invalid IP-literal"
  | some ':' =>
    match checkLong address with
    | .error f => some ("invalid host: " ++ f.message address)
    | .ok () => none
  | some _ => some ("invalid host: " ++ IpFault.message ⟨"missing IPv6 address", []⟩ address)
  | none => some ("invalid host: " ++ IpFault.message ⟨"unable to parse IP", []⟩ address)

end CallFusion.IpLiteral
