import CallFusion.Ir.Metadata.Schema
import CallFusion.Ir.Parser.Constant

/-!
Reading metadata. The fields of a specialised node are read in any order, the last of a key counts, and
the node is kept with its fields in the order and form in which they are printed.
-/
namespace CallFusion.Ir

def FieldForm.zeroText : FieldForm → Meta
  | .text => .literal []
  | .integer => .word "0"
  | .truth => .word "false"
  | .metadata | .metadataOrInteger | .operands => .word "%!s(<nil>)"
  | .node _ | .tuple => .null
  | .member v | .memberName v => .word (v.name 0)
  | .declarationFlags => .word "DIFlagZero"
  | .subprogramFlags => .word "DISPFlagZero"

/-- Fields in printing order; none stands for the zero of a field's form. -/
def arrangeFields (rules : List FieldRule) (distinct : Bool) (fields : List (String × Option Meta)) :
    List (String × Meta) :=
  rules.filterMap fun r =>
    match ((fields.reverse.find? (·.1 == r.key)).map (·.2)).join with
    | some m => some (r.key, m)
    | none => if r.showsZero distinct then some (r.key, r.form.zeroText) else none

namespace Read

def signedInteger : Read Int := do
  match ← peek with
  | some (.number s) => advance; return integerValue 64 s
  | _ => unexpected

def integerField (n : Int) : Option Meta := if n = 0 then none else some (.word (toString n))

def flagSet (opening : String) (flags : List (Nat × String)) : Nat → Read Nat
  | 0 => unexpected
  | n + 1 => do
    let bits ← match ← peek with
      | some (.word w) =>
        match flagBits? opening flags w with
        | some b => do
          advance
          pure b
        | none => unexpected
      | some (.number _) => natural
      | _ => unexpected
    if ← acceptMark '|' then return bits ||| (← flagSet opening flags n) else return bits

def flagField (names : Nat → List String) (bits : Nat) : Option Meta :=
  if bits = 0 then none else some (.word (" | ".intercalate (names bits)))

def memberName (v : Vocabulary) : Read (Option Meta) := do
  match ← peek with
  | some (.word w) =>
    if !v.admits w then unexpected
    advance
    return if v.isZero w then none else some (.word w)
  | _ => unexpected

def isNode (fits : Meta → Bool) (m : Meta) : Read Bool := do
  match m with
  | .ref id =>
    match (← read).node? id with
    | some body => return fits body
    | none => return (← read).trusting
  | m => return fits m

def isTuple : Meta → Bool
  | .tuple _ => true
  | _ => false

def isNodeOf (kind : String) : Meta → Bool
  | .node k _ => k == kind
  | _ => false

def expressionItem : Read (String × Meta) := do
  match ← peek with
  | some (.word w) =>
    if w.startsWith "DW_OP_" || w.startsWith "DW_ATE_" then
      advance
      return ("", .word w)
    else unexpected
  | some (.number _) => return ("", .word (toString (← natural)))
  | _ => unexpected

mutual
def metaAt : Nat → Read Meta
  | 0 => unexpected
  | n + 1 => do
    match ← peek with
    | some (.mark '!') =>
      if let some (.string bs) ← peek2 then
        advance
        advance
        return .text bs
      nodeAt n false
    | some (.nodeKind "DIArgList") =>
      advance
      expectMark '('
      return .node "DIArgList" (← itemsUntil ')' (do return ("", .const (← typedAt n))) n)
    | some (.metaRef _) | some (.nodeKind _) => nodeAt n false
    | _ => return .const (← typedAt n)

def nodeAt : Nat → Bool → Read Meta
  | 0, _ => unexpected
  | n + 1, distinct => do
    match ← peek with
    | some (.metaRef id) => advance; return .ref id
    | some (.mark '!') =>
      advance
      expectMark '\x7b'
      return .tuple (← itemsUntil '\x7d' (metaOrNullAt n) n)
    | some (.nodeKind kind) =>
      advance
      expectMark '('
      match kind with
      | "DIExpression" => return .node kind (← itemsUntil ')' expressionItem n)
      | _ =>
        match fieldRules? kind with
        | some rules => return .node kind (arrangeFields rules distinct (← itemsUntil ')' (fieldAt n rules) n))
        | none => unexpected
    | _ => unexpected

def metaOrNullAt : Nat → Read Meta
  | 0 => unexpected
  | n + 1 => do if ← acceptWord "null" then return .null else metaAt n

def fieldAt : Nat → List FieldRule → Read (String × Option Meta)
  | 0, _ => unexpected
  | n + 1, rules => do
    match ← peek with
    | some (.field key) =>
      match rules.find? (·.key == key) with
      | some rule =>
        advance
        return (key, ← fieldValueAt n rule.form)
      | none => unexpected
    | _ => unexpected
/-- What a field holds, or nothing for the zero of its form. -/
def fieldValueAt : Nat → FieldForm → Read (Option Meta)
  | 0, _ => unexpected
  | n + 1, form => do
    match form with
    | .text =>
      let bs ← stringLiteral
      return if bs.isEmpty then none else some (.literal bs)
    | .integer => return integerField (← signedInteger)
    | .truth =>
      if ← acceptWord "true" then return some (.word "true")
      expectWord "false"
      return none
    | .metadata => return some (← metaOrNullAt n)
    | .metadataOrInteger =>
      if let some (.number _) ← peek then return some (.word (toString (← signedInteger)))
      return some (← metaOrNullAt n)
    | .node kind =>
      if ← acceptWord "null" then return none
      let m ← metaAt n
      ensure (← isNode (isNodeOf kind) m) kind (some m)
    | .tuple =>
      if ← acceptWord "null" then return none
      let m ← metaAt n
      ensure (← isNode isTuple m) "tuple" (some m)
    | .member v =>
      match ← peek with
      | some (.number _) =>
        let code ← natural
        return if code = 0 then none else some (.word (v.name code))
      | _ => memberName v
    | .memberName v => memberName v
    | .declarationFlags =>
      return flagField declarationFlagNames (← flagSet "DIFlag" Ir.declarationFlags n)
    | .subprogramFlags =>
      return flagField subprogramFlagNames (← flagSet "DISPFlag" Ir.subprogramFlags n)
    | .operands =>
      expectMark '\x7b'
      let ms ← itemsUntil '\x7d' (metaOrNullAt n) n
      return if ms.isEmpty then none else some (.operands ms)
end

def metadata : Read Meta := do metaAt (4 * (← remaining))

def node (distinct : Bool) : Read Meta := do nodeAt (4 * (← remaining)) distinct

def attachments : Nat → Read (List Attachment)
  | 0 => return []
  | n + 1 => do
    match ← peek, ← peek2 with
    | some (.mark ','), some (.metaName name) =>
      advance
      advance
      let body ← node false
      return ⟨name, body⟩ :: (← attachments n)
    | _, _ => return []

def bareAttachments : Nat → Read (List Attachment)
  | 0 => return []
  | n + 1 => do
    match ← peek with
    | some (.metaName name) =>
      advance
      let body ← node false
      return ⟨name, body⟩ :: (← bareAttachments n)
    | _ => return []

end Read
end CallFusion.Ir
