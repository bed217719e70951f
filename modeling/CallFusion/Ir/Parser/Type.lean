import CallFusion.Ir.Parser.Basic

/-! Reading types, and the attributes of parameters, which may name types. -/
namespace CallFusion.Ir.Read

def intWidth? (w : String) : Option Nat :=
  match w.toList with
  | 'i' :: ds => if !ds.isEmpty && ds.all Char.isDigit then some (digitsValue (String.ofList ds)) else none
  | _ => none

def keywordType? (w : String) : Option Ty :=
  match w with
  | "void" => some .void
  | "label" => some .label
  | "token" => some .token
  | "metadata" => some .metadata
  | "x86_mmx" => some .mmx
  | _ =>
    match intWidth? w with
    | some n => if n < Text.wordLimit then some (.int n.toUInt64) else none
    | none => (FloatKind.all.find? (·.text == w)).map .float

def namedType (i : Ident) : Read Ty := do
  match (← read).type? i.shown with
  | some t => return t
  | none => fail (.undefinedName i.text)

def paramWords : List String :=
  ["immarg", "inreg", "nest", "noalias", "nocapture", "nofree", "nonnull", "noundef", "readnone", "readonly",
    "returned", "signext", "swiftasync", "swifterror", "swiftself", "writeonly", "zeroext"]

def typedParamWords : List String := ["byval", "sret"]

def typeParamWords : List String := ["byref", "elementtype", "inalloca", "preallocated"]

def numberedParamWords : List String := ["alignstack", "dereferenceable", "dereferenceable_or_null"]

def stringAttr (bs : List UInt8) : Read String := do
  if ← acceptMark '=' then
    return Text.quoteBytes bs ++ "=" ++ Text.quoteBytes (← stringLiteral)
  return Text.quoteBytes bs

mutual
def typeAt : Nat → Read Ty
  | 0 => unexpected
  | n + 1 => do suffixAt n (← baseAt n)

def baseAt : Nat → Read Ty
  | 0 => unexpected
  | n + 1 => do
    match ← peek with
    | some (.word w) =>
      match keywordType? w with
      | some t => advance; return t
      | none => unexpected
    | some (.localName i) => advance; namedType i
    | some (.mark '[') =>
      advance
      let length ← word64
      expectWord "x"
      let elem ← typeAt n
      expectMark ']'
      return .array length elem
    | some (.mark '\x7b') =>
      advance
      return .struct false (← itemsUntil '\x7d' (typeAt n) n)
    | some (.mark '<') =>
      advance
      if ← acceptMark '\x7b' then
        let fields ← itemsUntil '\x7d' (typeAt n) n
        expectMark '>'
        return .struct true fields
      let scalable ← acceptWord "vscale"
      if scalable then expectWord "x"
      let length ← word64
      expectWord "x"
      let elem ← typeAt n
      expectMark '>'
      return .vector scalable length elem
    | _ => unexpected

def suffixAt : Nat → Ty → Read Ty
  | 0, t => return t
  | n + 1, t => do
    match ← peek with
    | some (.mark '*') => advance; suffixAt n (.pointer t 0)
    | some (.word "addrspace") =>
      advance
      let space ← parenthesizedNatural
      expectMark '*'
      suffixAt n (.pointer t space)
    | some (.mark '(') =>
      advance
      let (params, variadic) ← paramTypesAt n
      suffixAt n (.func t params variadic)
    | _ => return t
/-- Parameter types up to the closing parenthesis; attributes and names of parameters are dropped. -/
def paramTypesAt : Nat → Read (List Ty × Bool)
  | 0 => unexpected
  | n + 1 => do
    if ← acceptMark ')' then return ([], false)
    if ← accept .ellipsis then
      expectMark ')'
      return ([], true)
    let t ← typeAt n
    let _ ← many (paramAttrAt n) n
    if let some (.localName _) ← peek then advance
    if ← acceptMark ',' then
      if (← peek) == some (.mark ')') then unexpected
      let (ts, variadic) ← paramTypesAt n
      return (t :: ts, variadic)
    expectMark ')'
    return ([t], false)

def paramAttrAt : Nat → Read (Option String)
  | 0 => return none
  | n + 1 => do
    match ← peek with
    | some (.string bs) => advance; return some (← stringAttr bs)
    | some (.word "align") =>
      advance
      let size ← if (← peek) == some (.mark '(') then parenthesizedNatural else natural
      return some ("align " ++ toString size)
    | some (.word w) =>
      if paramWords.contains w then
        advance
        return some w
      else if numberedParamWords.contains w then
        advance
        return some (w ++ "(" ++ toString (← parenthesizedNatural) ++ ")")
      else if typedParamWords.contains w || typeParamWords.contains w then
        advance
        if ← acceptMark '(' then
          let t ← typeAt n
          expectMark ')'
          return some (w ++ "(" ++ t.text ++ ")")
        else if typedParamWords.contains w then return some w
        else unexpected
      else return none
    | _ => return none
end

def type : Read Ty := do typeAt (2 * (← remaining))

def paramAttrs : Read (List String) := do
  let n ← remaining
  many (paramAttrAt (2 * n)) n

end CallFusion.Ir.Read
