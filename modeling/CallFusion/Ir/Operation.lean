import CallFusion.Ir.Constant

/-!
Instructions and terminators over an operand type `α`. `operands` lists the operand slots in
order, and `mapOperands` changes every slot in place; a slot is marked as debug when it sits in a
metadata argument.
-/
namespace CallFusion.Ir

structure Operand (α : Type) where
  value : α
  debug : Bool
  deriving Repr, Inhabited

def Operand.code {α : Type} (value : α) : Operand α := ⟨value, false⟩

inductive Argument (α : Type) where
  | value (attrs : List String) (v : α)
  | debugValue (v : α)
  | debugList (vs : List α)
  | debugNode (node : Meta)
  deriving Repr, Inhabited

namespace Argument

variable {α β : Type}

def operands : Argument α → List (Operand α)
  | value _ v => [⟨v, false⟩]
  | debugValue v => [⟨v, true⟩]
  | debugList vs => vs.map fun v => ⟨v, true⟩
  | debugNode _ => []

def mapOperands (f : Bool → α → β) : Argument α → Argument β
  | value attrs v => value attrs (f false v)
  | debugValue v => debugValue (f true v)
  | debugList vs => debugList (vs.map (f true))
  | debugNode n => debugNode n

def bare : Argument α → Argument α
  | value _ v => value [] v
  | a => a

def value? : Argument α → Option α
  | value _ v => some v
  | _ => none

end Argument

structure Bundle (α : Type) where
  tag : List UInt8
  inputs : List α
  deriving Repr, Inhabited

structure Call (α : Type) where
  fast : List String := []
  convention : String := ""
  resultAttrs : List String := []
  space : Nat := 0
  callee : α
  args : List (Argument α)
  attrs : List String := []
  bundles : List (Bundle α) := []
  deriving Repr, Inhabited

namespace Call

variable {α β : Type}

def bundleOperands (c : Call α) : List (Operand α) :=
  c.bundles.flatMap fun b => b.inputs.map Operand.code

def argOperands (c : Call α) : List (Operand α) := c.args.flatMap Argument.operands

def mapOperands (f : Bool → α → β) (c : Call α) : Call β where
  fast := c.fast
  convention := c.convention
  resultAttrs := c.resultAttrs
  space := c.space
  callee := f false c.callee
  args := c.args.map (Argument.mapOperands f)
  attrs := c.attrs
  bundles := c.bundles.map fun b => ⟨b.tag, b.inputs.map (f false)⟩

end Call

structure Access where
  atomic : Bool := false
  volatile : Bool := false
  scope : String := ""
  ordering : String := ""
  align : Nat := 0
  deriving DecidableEq, Repr, Inhabited

inductive Operation (α : Type) where
  | fneg (flags : List String) (x : α)
  | binary (op : BinaryOp) (flags : List String) (x y : α)
  | cast (op : CastOp) (source : α) (target : Ty)
  | compare (floating : Bool) (flags : List String) (pred : String) (x y : α)
  | alloca (flags : List String) (elem : Ty) (count : Option α) (align : Nat) (space : Nat)
  | load (access : Access) (elem : Ty) (source : α)
  | store (access : Access) (value dest : α)
  | fence (scope ordering : String)
  | cmpxchg (flags : List String) (address expected new : α) (scope success failure : String)
  | atomicrmw (volatile : Bool) (op : String) (address x : α) (scope ordering : String)
  | gep (inbounds : Bool) (elem : Ty) (source : α) (indices : List α)
  | extractElement (x index : α)
  | insertElement (x elem index : α)
  | shuffleVector (x y mask : α)
  | extractValue (x : α) (indices : List Nat)
  | insertValue (x elem : α) (indices : List Nat)
  | phi (flags : List String) (incoming : List (α × α))
  | select (flags : List String) (cond x y : α)
  | freeze (x : α)
  | vaArg (source : α) (target : Ty)
  | call (tail : String) (c : Call α)
  | landingPad (cleanup : Bool) (clauses : List (Bool × α))
  | catchPad (scope : α) (args : List (Argument α))
  | cleanupPad (scope : α) (args : List (Argument α))
  deriving Repr, Inhabited

namespace Operation

variable {α β : Type}

def operands : Operation α → List (Operand α)
  | fneg _ x => [.code x]
  | binary _ _ x y => [.code x, .code y]
  | cast _ x _ => [.code x]
  | compare _ _ _ x y => [.code x, .code y]
  | alloca _ _ count _ _ => count.toList.map .code
  | load _ _ x => [.code x]
  | store _ x d => [.code x, .code d]
  | fence _ _ => []
  | cmpxchg _ a e n _ _ _ => [.code a, .code e, .code n]
  | atomicrmw _ _ a x _ _ => [.code a, .code x]
  | gep _ _ x is => .code x :: is.map .code
  | extractElement x i => [.code x, .code i]
  | insertElement x e i => [.code x, .code e, .code i]
  | shuffleVector x y m => [.code x, .code y, .code m]
  | extractValue x _ => [.code x]
  | insertValue x e _ => [.code x, .code e]
  | phi _ incoming => incoming.flatMap fun p => [.code p.1, .code p.2]
  | select _ c x y => [.code c, .code x, .code y]
  | freeze x => [.code x]
  | vaArg x _ => [.code x]
  | call _ c => .code c.callee :: (c.argOperands ++ c.bundleOperands)
  | landingPad _ clauses => clauses.map fun p => .code p.2
  | catchPad s args => .code s :: args.flatMap Argument.operands
  | cleanupPad s args => .code s :: args.flatMap Argument.operands

def mapOperands (f : Bool → α → β) : Operation α → Operation β
  | fneg flags x => fneg flags (f false x)
  | binary op flags x y => binary op flags (f false x) (f false y)
  | cast op x t => cast op (f false x) t
  | compare fl flags p x y => compare fl flags p (f false x) (f false y)
  | alloca flags t count a s => alloca flags t (count.map (f false)) a s
  | load acc t x => load acc t (f false x)
  | store acc x d => store acc (f false x) (f false d)
  | fence s o => fence s o
  | cmpxchg flags a e n s o p => cmpxchg flags (f false a) (f false e) (f false n) s o p
  | atomicrmw v op a x s o => atomicrmw v op (f false a) (f false x) s o
  | gep b t x is => gep b t (f false x) (is.map (f false))
  | extractElement x i => extractElement (f false x) (f false i)
  | insertElement x e i => insertElement (f false x) (f false e) (f false i)
  | shuffleVector x y m => shuffleVector (f false x) (f false y) (f false m)
  | extractValue x is => extractValue (f false x) is
  | insertValue x e is => insertValue (f false x) (f false e) is
  | phi flags incoming => phi flags (incoming.map fun p => (f false p.1, f false p.2))
  | select flags c x y => select flags (f false c) (f false x) (f false y)
  | freeze x => freeze (f false x)
  | vaArg x t => vaArg (f false x) t
  | call tail c => call tail (c.mapOperands f)
  | landingPad cl clauses => landingPad cl (clauses.map fun p => (p.1, f false p.2))
  | catchPad s args => catchPad (f false s) (args.map (Argument.mapOperands f))
  | cleanupPad s args => cleanupPad (f false s) (args.map (Argument.mapOperands f))

/-- Whether the operation can be named: stores and fences leave no result at all. -/
def hasResult : Operation α → Bool
  | store _ _ _ => false
  | fence _ _ => false
  | _ => true

end Operation

inductive Terminator (α : Type) where
  | ret (value : Option α)
  | br (target : α)
  | condBr (cond yes no : α)
  | switch (x fallback : α) (cases : List (α × α))
  | indirectBr (address : α) (targets : List α)
  | invoke (c : Call α) (normal unwind : α)
  | callBr (c : Call α) (normal : α) (others : List α)
  | resume (x : α)
  | catchSwitch (scope : α) (handlers : List α) (unwind : Option α)
  | catchRet (pad target : α)
  | cleanupRet (pad : α) (unwind : Option α)
  | unreachable
  deriving Repr, Inhabited

namespace Terminator

variable {α β : Type}

def operands : Terminator α → List (Operand α)
  | ret value => value.toList.map .code
  | br t => [.code t]
  | condBr c y n => [.code c, .code y, .code n]
  | switch x d cases => .code x :: .code d :: cases.flatMap fun p => [.code p.1, .code p.2]
  | indirectBr a ts => .code a :: ts.map .code
  | invoke c n u => .code c.callee :: (c.argOperands ++ .code n :: .code u :: c.bundleOperands)
  | callBr c n os => .code c.callee :: (c.argOperands ++ .code n :: (os.map .code ++ c.bundleOperands))
  | resume x => [.code x]
  | catchSwitch s hs u => .code s :: (hs.map .code ++ u.toList.map .code)
  | catchRet p t => [.code p, .code t]
  | cleanupRet p u => .code p :: u.toList.map .code
  | unreachable => []

def mapOperands (f : Bool → α → β) : Terminator α → Terminator β
  | ret value => ret (value.map (f false))
  | br t => br (f false t)
  | condBr c y n => condBr (f false c) (f false y) (f false n)
  | switch x d cases => switch (f false x) (f false d) (cases.map fun p => (f false p.1, f false p.2))
  | indirectBr a ts => indirectBr (f false a) (ts.map (f false))
  | invoke c n u => invoke (c.mapOperands f) (f false n) (f false u)
  | callBr c n os => callBr (c.mapOperands f) (f false n) (os.map (f false))
  | resume x => resume (f false x)
  | catchSwitch s hs u => catchSwitch (f false s) (hs.map (f false)) (u.map (f false))
  | catchRet p t => catchRet (f false p) (f false t)
  | cleanupRet p u => cleanupRet (f false p) (u.map (f false))
  | unreachable => unreachable

/-- Calls that branch and catch switches can be named; other terminators leave no result. -/
def hasResult : Terminator α → Bool
  | invoke _ _ _ => true
  | callBr _ _ _ => true
  | catchSwitch _ _ _ => true
  | _ => false

def targets : Terminator α → List α
  | br t => [t]
  | condBr _ y n => [y, n]
  | switch _ d cases => d :: cases.map (·.2)
  | indirectBr _ ts => ts
  | invoke _ n u => [n, u]
  | callBr _ n os => n :: os
  | catchSwitch _ hs u => hs ++ u.toList
  | catchRet _ t => [t]
  | cleanupRet _ u => u.toList
  | _ => []

end Terminator
end CallFusion.Ir
