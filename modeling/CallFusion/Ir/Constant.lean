import CallFusion.Ir.FloatLiteral

/-!
Constants and metadata nodes. Functions and globals are mentioned by a symbol number that stays the
same when they are renamed; a mention carries its pointer type, which never changes.
-/
namespace CallFusion.Ir

structure SymbolId where
  index : Nat
  deriving DecidableEq, Repr, Inhabited

abbrev LocalId := Nat

inductive CastOp where
  | trunc
  | zext
  | sext
  | fptrunc
  | fpext
  | fptoui
  | fptosi
  | uitofp
  | sitofp
  | ptrtoint
  | inttoptr
  | bitcast
  | addrspacecast
  deriving DecidableEq, Repr, Inhabited

def CastOp.text : CastOp → String
  | trunc => "trunc"
  | zext => "zext"
  | sext => "sext"
  | fptrunc => "fptrunc"
  | fpext => "fpext"
  | fptoui => "fptoui"
  | fptosi => "fptosi"
  | uitofp => "uitofp"
  | sitofp => "sitofp"
  | ptrtoint => "ptrtoint"
  | inttoptr => "inttoptr"
  | bitcast => "bitcast"
  | addrspacecast => "addrspacecast"

def CastOp.all : List CastOp :=
  [trunc, zext, sext, fptrunc, fpext, fptoui, fptosi, uitofp, sitofp, ptrtoint, inttoptr, bitcast,
    addrspacecast]

inductive BinaryOp where
  | add
  | fadd
  | sub
  | fsub
  | mul
  | fmul
  | udiv
  | sdiv
  | fdiv
  | urem
  | srem
  | frem
  | shl
  | lshr
  | ashr
  | and
  | or
  | xor
  deriving DecidableEq, Repr, Inhabited

def BinaryOp.text : BinaryOp → String
  | add => "add"
  | fadd => "fadd"
  | sub => "sub"
  | fsub => "fsub"
  | mul => "mul"
  | fmul => "fmul"
  | udiv => "udiv"
  | sdiv => "sdiv"
  | fdiv => "fdiv"
  | urem => "urem"
  | srem => "srem"
  | frem => "frem"
  | shl => "shl"
  | lshr => "lshr"
  | ashr => "ashr"
  | and => "and"
  | or => "or"
  | xor => "xor"

def BinaryOp.all : List BinaryOp :=
  [add, fadd, sub, fsub, mul, fmul, udiv, sdiv, fdiv, urem, srem, frem, shl, lshr, ashr, and, or, xor]

inductive Constant where
  | int (type : Ty) (value : Int)
  | float (type : Ty) (value : FloatLiteral)
  | null (type : Ty)
  | undef (type : Ty)
  | poison (type : Ty)
  | zero (type : Ty)
  | none
  | truth (value : Bool)
  | chars (bytes : List UInt8)
  | array (type : Ty) (elems : List Constant)
  | vector (type : Ty) (elems : List Constant)
  | struct (type : Ty) (packed : Bool) (fields : List Constant)
  | symbol (id : SymbolId) (type : Ty)
  /-- A function reached in a special way, which the word in front names. -/
  | reached (way : String) (id : SymbolId) (type : Ty)
  | blockAddress (function : SymbolId) (type : Ty) (block : LocalId)
  | cast (op : CastOp) (source : Constant) (target : Ty)
  | gep (inbounds : Bool) (elem : Ty) (source : Constant) (indices : List Constant) (type : Ty)
  | inRange (index : Constant)
  | select (cond x y : Constant)
  | fneg (x : Constant)
  | binary (op : BinaryOp) (flags : List String) (x y : Constant)
  | compare (floating : Bool) (pred : String) (x y : Constant) (type : Ty)
  | extractElement (x index : Constant) (type : Ty)
  | insertElement (x elem index : Constant)
  | shuffleVector (x y mask : Constant) (type : Ty)
  | extractValue (x : Constant) (indices : List Nat) (type : Ty)
  | insertValue (x elem : Constant) (indices : List Nat)
  deriving Repr, Inhabited

namespace Constant

def type : Constant → Ty
  | int t _ => t
  | float t _ => t
  | null t => t
  | undef t => t
  | poison t => t
  | zero t => t
  | none => .token
  | truth _ => .int 1
  | chars bs => .array bs.length.toUInt64 (.int 8)
  | array t _ => t
  | vector t _ => t
  | struct t _ _ => t
  | symbol _ t => t
  | reached _ _ t => t
  | blockAddress _ _ _ => .bytePointer
  | cast _ _ t => t
  | gep _ _ _ _ t => t
  | inRange c => c.type
  | select _ x _ => x.type
  | fneg x => x.type
  | binary _ _ x _ => x.type
  | compare _ _ _ _ t => t
  | extractElement _ _ t => t
  | insertElement x _ _ => x.type
  | shuffleVector _ _ _ t => t
  | extractValue _ _ t => t
  | insertValue x _ _ => x.type

def isExpression : Constant → Bool
  | cast _ _ _ => true
  | gep _ _ _ _ _ => true
  | select _ _ _ => true
  | fneg _ => true
  | binary _ _ _ _ => true
  | compare _ _ _ _ _ => true
  | extractElement _ _ _ => true
  | insertElement _ _ _ => true
  | shuffleVector _ _ _ _ => true
  | extractValue _ _ _ => true
  | insertValue _ _ _ => true
  | _ => false

mutual
/-- Whether a constant, or one that it is made of at any depth, is as `p` says. -/
def anywhere (p : Constant → Bool) : Constant → Bool
  | array t elems => p (array t elems) || anyAnywhere p elems
  | vector t elems => p (vector t elems) || anyAnywhere p elems
  | struct t packed fields => p (struct t packed fields) || anyAnywhere p fields
  | cast op source target => p (cast op source target) || anywhere p source
  | gep inbounds elem source indices t =>
    p (gep inbounds elem source indices t) || anywhere p source || anyAnywhere p indices
  | inRange c => p (inRange c) || anywhere p c
  | select cond x y => p (select cond x y) || anywhere p cond || anywhere p x || anywhere p y
  | fneg x => p (fneg x) || anywhere p x
  | binary op flags x y => p (binary op flags x y) || anywhere p x || anywhere p y
  | compare floating pred x y t => p (compare floating pred x y t) || anywhere p x || anywhere p y
  | extractElement x i t => p (extractElement x i t) || anywhere p x || anywhere p i
  | insertElement x e i => p (insertElement x e i) || anywhere p x || anywhere p e || anywhere p i
  | shuffleVector x y m t => p (shuffleVector x y m t) || anywhere p x || anywhere p y || anywhere p m
  | extractValue x is t => p (extractValue x is t) || anywhere p x
  | insertValue x e is => p (insertValue x e is) || anywhere p x || anywhere p e
  | c => p c

def anyAnywhere (p : Constant → Bool) : List Constant → Bool
  | [] => false
  | c :: cs => anywhere p c || anyAnywhere p cs
end

/-- Whether a constant is the given function or global, or names it directly. -/
def pointsTo (target : SymbolId) : Constant → Bool
  | symbol id _ => id == target
  | reached _ id _ => id == target
  | blockAddress fn _ _ => fn == target
  | _ => false

/-- Whether a constant is, or mentions at any depth, the given function or global. -/
def mentions (target : SymbolId) (c : Constant) : Bool := c.anywhere (pointsTo target)

def mentionsTruth (b : Bool) (c : Constant) : Bool :=
  c.anywhere fun | truth b' => b == b' | _ => false

def mentionsNone (c : Constant) : Bool :=
  c.anywhere fun | none => true | _ => false

def mentionsBlock (function : SymbolId) (block : LocalId) (c : Constant) : Bool :=
  c.anywhere fun | blockAddress fn _ b => fn == function && b == block | _ => false

end Constant

/-- Metadata: references to numbered nodes, strings, constants, tuples, and specialised nodes with
named fields. -/
inductive Meta where
  | null
  | ref (id : Nat)
  | text (bytes : List UInt8)
  | const (value : Constant)
  | tuple (fields : List Meta)
  | node (kind : String) (fields : List (String × Meta))
  | operands (fields : List Meta)
  | literal (bytes : List UInt8)
  | word (text : String)
  deriving Repr, Inhabited

namespace Meta

mutual
/-- Constants of a tuple, nested tuples included, that mention a symbol. -/
def countMentions (target : SymbolId) : Meta → Nat
  | tuple fields => countAll target fields
  | _ => 0

def countAll (target : SymbolId) : List Meta → Nat
  | [] => 0
  | m :: ms => countField target m + countAll target ms

def countField (target : SymbolId) : Meta → Nat
  | const c => if c.mentions target then 1 else 0
  | tuple fields => countAll target fields
  | _ => 0
end

end Meta

structure Attachment where
  name : String
  node : Meta
  deriving Repr, Inhabited

structure MetaDef where
  id : Nat
  distinct : Bool
  body : Meta
  deriving Repr, Inhabited

end CallFusion.Ir
