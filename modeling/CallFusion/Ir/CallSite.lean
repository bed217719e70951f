import CallFusion.Ir.Uses

/-!
Call sites: ordinary calls inside a block and invokes at its end, in program order.
-/
namespace CallFusion.Ir

inductive CallKind where
  | any
  | ordinary
  | exceptional
  deriving DecidableEq, Repr, Inhabited

def CallKind.text : CallKind → String
  | any => "call or invoke"
  | ordinary => "call"
  | exceptional => "invoke"

structure CallSite where
  block : LocalId
  /-- Position in the block; none for an invoke. -/
  index : Option Nat
  id : LocalId
  ident : Ident
  type : Ty
  call : Call Value
  attachments : List Attachment
  successors : Option (Value × Value)
  deriving Repr, Inhabited

namespace CallSite

def isExceptional (s : CallSite) : Bool := s.successors.isSome

def kind (s : CallSite) : CallKind := if s.isExceptional then .exceptional else .ordinary

def accepts (s : CallSite) (kind : CallKind) : Bool := kind == .any || kind == s.kind

def value (s : CallSite) : Value := .local s.id s.type

def args (s : CallSite) : List (Argument Value) := s.call.args.map Argument.bare

def arg? (s : CallSite) (i : Nat) : Option (Argument Value) := s.args[i]?

def argValue? (s : CallSite) (i : Nat) : Option Value :=
  (s.arg? i).map fun
    | .value _ v => v
    | content => .metadata s.id i content

def normal? (s : CallSite) : Option LocalId := s.successors.bind fun p => p.1.block?

def unwind? (s : CallSite) : Option LocalId := s.successors.bind fun p => p.2.block?

end CallSite

def Argument.type : Argument Value → Ty
  | .value _ v => v.type
  | _ => .metadata

def Block.callSites (b : Block) : List CallSite :=
  (b.insts.zipIdx.filterMap fun (inst, i) =>
    inst.call?.map fun c => ⟨b.id, some i, inst.id, inst.ident, inst.type, c, inst.attachments, none⟩) ++
  match b.term.op with
  | .invoke c n u => [⟨b.id, none, b.term.id, b.term.ident, b.term.type, c, b.term.attachments, some (n, u)⟩]
  | _ => []

def Constant.stripCasts : Constant → Constant
  | .cast .bitcast c _ => c.stripCasts
  | c => c

namespace Function

/-- Every call site, block by block, an invoke after its block's instructions. -/
def callSites (f : Function) : List CallSite := f.blocks.flatMap (·.callSites)

def castSource? (f : Function) (v : Value) : Option Value :=
  match v with
  | .local id _ =>
    (f.instruction? id).bind fun i => match i.op with
      | .cast .bitcast x _ => some x
      | _ => none
  | _ => none

def followCasts (f : Function) : Nat → Value → Option Value
  | 0, _ => none
  | n + 1, v =>
    match f.castSource? v with
    | some x => followCasts f n x
    | none => some v

/-- The value behind bitcasts, in instructions and in constants. A chain longer than the function
runs in a circle and has no end. -/
def stripCasts? (f : Function) (v : Value) : Option Value :=
  (f.followCasts (f.instructions.length + 2) v).map fun
    | .const m c => .const m c.stripCasts
    | v => v

def calledId? (f : Function) (s : CallSite) : Option SymbolId :=
  (f.stripCasts? s.call.callee).bind Value.symbol?

end Function

def Module.calledFunction? (m : Module) (f : Function) (s : CallSite) : Option Function :=
  (f.calledId? s).bind m.function?

def Module.argumentFunction? (m : Module) (f : Function) (a : Argument Value) : Option Function :=
  match a with
  | .value _ v => ((f.stripCasts? v).bind Value.symbol?).bind m.function?
  | _ => none

def isIntrinsic (name : String) : Bool := name.startsWith "llvm."

end CallFusion.Ir
