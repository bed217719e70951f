import CallFusion.Ir.CallSite

/-!
Putting an ordinary call where a call site was. An invoke becomes the call followed by a branch to
its normal continuation, and the unwind block loses the phi entries of the edge that went away.
-/
namespace CallFusion.Ir

namespace Function

variable (f : Function)

/-- The instruction for a replacement call: it takes over the old name when the types agree. -/
def replacementFor (site : CallSite) (call : Call Value) (type : Ty) (attached : List Attachment) :
    Instruction :=
  { id := f.freshId
    ident := if site.type.same type then site.ident else .number 0
    type := type
    op := .call "" call
    attachments := attached }

def spliceOrdinary (m : Module) (site : CallSite) (inst : Instruction) : Function × Option Fault :=
  match (f.block? site.block).bind (·.indexOf? site.id) with
  | none => (f, some (.structural "call is not in its recorded block"))
  | some i =>
    let inserted := f.updateBlock site.block (·.insertAt i [inst])
    match inserted.replaceAllUses m site.value inst.value with
    | .error e => (f, some e)
    | .ok (redirected, _) =>
      match (redirected.block? site.block).bind fun b => b.insts.find? (·.id == site.id) with
      | none => (redirected, some (.structural "instruction is not in the given block"))
      | some old =>
        match redirected.eraseInstruction m site.block old with
        | .ok g => (g, none)
        | .error e => (redirected, some e)

def spliceInvoke (m : Module) (site : CallSite) (normal : Value) (inst : Instruction) :
    Function × Option Fault :=
  let appended := f.updateBlock site.block fun b => { b with insts := b.insts ++ [inst] }
  match appended.replaceAllUses m site.value inst.value with
  | .error e => (f, some e)
  | .ok (redirected, _) =>
    let branch : Terminal := ⟨redirected.freshId, .number 0, .void, .br normal, []⟩
    match redirected.replaceTerminator m site.block (some branch) with
    | .error e => (redirected, some e)
    | .ok lowered =>
      match site.unwind?, normal.block? with
      | some u, some n => if u = n then (lowered, none) else ((lowered.dropIncoming u site.block).1, none)
      | _, _ => (lowered, none)

/-- Replaces a call site by an ordinary call. When the result types differ the old result may only
be used by debug slots, which lose it, those of the new call with them. Returns the function as far
as it was edited. -/
def replaceCallSite (m : Module) (site : CallSite) (call : Call Value) (type : Ty)
    (attached : List Attachment) : Function × Option Fault :=
  let agrees := site.type.same type
  if !agrees && !(f.codeUses site.value).isEmpty then
    (f, some (.structural ("replacement call returns " ++ type.text ++ " but " ++ site.ident.text ++
      " of type " ++ site.type.text ++ " is still used")))
  else
    let g := if agrees then f else (f.dropDebugUses site.value).1
    let call := if agrees then call else call.mapOperands site.value.dropDebug
    let inst := g.replacementFor site call type attached
    match site.successors with
    | none => g.spliceOrdinary m site inst
    | some (normal, _) =>
      match normal.block? with
      | none => (g, some (.structural "invoke has no normal continuation block"))
      | some _ => g.spliceInvoke m site normal inst

end Function
end CallFusion.Ir
