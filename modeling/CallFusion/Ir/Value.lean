import CallFusion.Ir.Operation

/-!
Values that fill operand slots. Parameters, results and blocks are the same value when their
numbers agree and symbols when their symbol numbers agree. Any other constant is told apart by the
number of its mention, so that two equal literals are two values.
-/
namespace CallFusion.Ir

structure InlineAsm where
  flags : List String
  code : List UInt8
  constraints : List UInt8
  deriving DecidableEq, Repr, Inhabited

inductive Value where
  | local (id : LocalId) (type : Ty)
  | block (id : LocalId)
  | const (mention : Nat) (c : Constant)
  | asm (mention : Nat) (type : Ty) (code : InlineAsm)
  | metadata (call : LocalId) (position : Nat) (content : Argument Value)
  deriving Repr, Inhabited

namespace Value

def type : Value → Ty
  | .local _ t => t
  | .block _ => .label
  | .const _ c => c.type
  | .asm _ t _ => t
  | .metadata _ _ _ => .metadata

/-- Mentions `1`, `2` and `3` are kept for the constants of which there is only one each. -/
def firstMention : Nat := 4

def truth (b : Bool) : Value := .const (if b then 1 else 2) (.truth b)

def noToken : Value := .const 3 .none

def symbol (id : SymbolId) (type : Ty) : Value := .const 0 (.symbol id type)

/-- Whether two values are one and the same; a constant of mention `0` equals none. -/
def same : Value → Value → Bool
  | .local a _, .local b _ => a == b
  | .block a, .block b => a == b
  | .const m c, .const n d =>
    match c, d with
    | .symbol a _, .symbol b _ => a == b
    | .symbol _ _, _ => false
    | _, .symbol _ _ => false
    | _, _ => m == n && m != 0
  | .asm m _ _, .asm n _ _ => m == n && m != 0
  | .metadata a i _, .metadata b j _ => a == b && i == j
  | _, _ => false

def mention : Value → Nat
  | .const m _ => m
  | .asm m _ _ => m
  | _ => 0

def symbol? : Value → Option SymbolId
  | .const _ (.symbol id _) => some id
  | _ => none

def block? : Value → Option LocalId
  | .block id => some id
  | _ => none

def local? : Value → Option LocalId
  | .local id _ => some id
  | _ => none

def argument : Value → Argument Value
  | .metadata _ _ content => content
  | v => .value [] v

def isConstant : Value → Bool
  | .const _ _ => true
  | _ => false

def mentions (target : SymbolId) : Value → Bool
  | .const _ c => c.mentions target
  | _ => false

end Value

def Call.signature? (c : Call Value) : Option (Ty × List Ty × Bool) :=
  match c.callee.type.pointee?.map Ty.unalias with
  | some (.func result params variadic) => some (result, params, variadic)
  | _ => none

end CallFusion.Ir
