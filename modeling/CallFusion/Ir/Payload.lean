import CallFusion.Ir.CallSite
import CallFusion.Ir.Layout

/-!
What a pointer argument designates: the type of the buffer behind it, and the string constant it
points at.
-/
namespace CallFusion.Ir

open CallFusion.Text

/-- The type an alloca reserves: an array when it reserves more than one element. -/
def allocatedType (elem : Ty) (count : Option Value) : Ty :=
  match count with
  | some (.const _ (.int _ n)) => if 1 < n ∧ n < (wordLimit : Int) then .array n.toNat.toUInt64 elem else elem
  | _ => elem

inductive Provenance where
  | derived (source : Value)
  | reserved (type : Ty)
  | unknown
  deriving Repr, Inhabited

def Function.provenance (f : Function) : Value → Provenance
  | .local id _ =>
    match (f.instruction? id).map fun i => i.op with
    | some op =>
      match op with
      | .alloca _ elem count _ _ => .reserved (allocatedType elem count)
      | .cast .bitcast x _ => .derived x
      | .gep _ _ x _ => .derived x
      | _ => .unknown
    | none => .unknown
  | .const m (.cast .bitcast c _) => .derived (.const m c)
  | .const m (.gep _ _ c _ _) => .derived (.const m c)
  | _ => .unknown

/-- The type a pointer points at, if it says more than a byte and has a size. -/
def tellingPointee? (table : TypeTable) (t : Ty) : Option Ty :=
  match t.pointee? with
  | some elem => if !elem.same (.int 8) && (extent table elem).isSized then some elem else none
  | none => none

/-- The type of the memory a buffer pointer designates: that of the alloca behind it, else the
first telling pointee on the way back. Looks back at most `steps` times. -/
def Function.payloadAt (f : Function) (table : TypeTable) : Nat → Option Ty → Value → Option Ty
  | 0, seen, _ => seen
  | n + 1, seen, v =>
    let seen := seen <|> tellingPointee? table v.type
    match f.provenance v with
    | .reserved t => some t
    | .derived x => payloadAt f table n seen x
    | .unknown => seen

def Function.payloadType? (f : Function) (table : TypeTable) (v : Value) : Option Ty :=
  f.payloadAt table 64 none v

def Function.payloadSize? (f : Function) (table : TypeTable) (v : Value) : Option UInt64 :=
  (f.payloadType? table v).bind fun t => (extent table t).size?

def Function.addressSource? (f : Function) : Value → Option Value
  | .local id _ =>
    (f.instruction? id).bind fun i => match i.op with
      | .cast .bitcast x _ => some x
      | .gep _ _ x _ => some x
      | _ => none
  | .const m (.cast .bitcast c _) => some (.const m c)
  | .const m (.cast .ptrtoint c _) => some (.const m c)
  | .const m (.gep _ _ c _ _) => some (.const m c)
  | _ => none

def Function.globalBehind? (f : Function) (m : Module) : Nat → Value → Option Global
  | n, v =>
    match v.symbol?.bind m.global? with
    | some g => some g
    | none =>
      match n with
      | 0 => none
      | n + 1 => (f.addressSource? v).bind (globalBehind? f m n)

def dropTrailingNul (bs : List UInt8) : List UInt8 := if bs.getLast? = some 0 then bs.dropLast else bs

/-- The text between the first `c` with a quote behind it and the next quote. -/
def firstCharArray? : List UInt8 → Option (List UInt8)
  | [] => none
  | [_] => none
  | a :: b :: rest =>
    if a = 99 && b = 34 && rest.contains 34 then some (rest.takeWhile (· != 34))
    else firstCharArray? (b :: rest)

/-- The string a global holds: its characters, or the first characters its initializer spells. -/
def Global.string? (g : Global) (names : Names) : Option (List UInt8) :=
  match g.init with
  | none => none
  | some (.chars bs) => some (dropTrailingNul bs)
  | some c => (firstCharArray? (bytes (c.render names))).map fun bs => dropTrailingNul (unescapeHex bs)

def Module.stringOperand? (m : Module) (f : Function) (v : Value) : Option (List UInt8) :=
  (f.globalBehind? m 16 v).bind fun g => g.string? (m.names none)

end CallFusion.Ir
