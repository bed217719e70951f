import CallFusion.Ir.Payload
import CallFusion.Ir.Splice
import CallFusion.Locator
import CallFusion.Merge.Profile

/-!
Marshalling calls of a merged callee. A plan finds the call that receives the arguments and the one
that sends the result, and applying it turns each into a memory copy between the buffer it was
given and the buffer the caller passes in.
-/
namespace CallFusion

open Ir

def copyName : String := "llvm.memcpy.p0i8.p0i8.i64"

structure MarshallingPlan where
  function : SymbolId
  receive : Option CallSite
  send : CallSite
  receiveSize : UInt64
  sendSize : UInt64
  deriving Repr, Inhabited

namespace MarshallingPlan

variable {σ : Type}

def findCall (bridge : Bridge σ) (m : Module) (f : Function) (name : String) :
    StateM (Locator σ) (Option CallSite) := do
  match ← Locator.findByName bridge m f name .exceptional with
  | some site => return some site
  | none => Locator.findByName bridge m f name .ordinary

/-- What is copied for one marshalling call: its size, or why it cannot be a copy. -/
def copySize (m : Module) (f : Function) (payload : Payload) (site : CallSite) (buffer : Param) :
    Except Diagnostic (UInt64 × Diagnostics) :=
  let name := ((m.calledFunction? f site).map (·.name)).getD ""
  if !site.type.isVoid && !(f.codeUses site.value).isEmpty then
    .error (.structural ("result of the call to '" ++ name ++ "' in '" ++ f.name ++ "' is used"))
  else match site.arg? 0 with
    | some (.value _ v) =>
      if !v.type.isPointer then
        .error (.structural ("first argument of the call to '" ++ name ++ "' is not a buffer pointer"))
      else if !buffer.type.isPointer then
        .error (.structural ("parameter " ++ buffer.ident.text ++ " of '" ++ f.name ++ "' is not a pointer"))
      else
        let size := (f.payloadSize? m.types v).getD 0
        if size != 0 then .ok (size, [])
        else .ok (payload.size, [.note ("payload type of " ++ f.identText m v ++ " in '" ++ f.name ++
          "' is unknown; copying " ++ toString payload.size ++ " bytes (" ++ toString payload.align ++
          "-byte aligned)")])
    | _ => .error (.structural ("first argument of the call to '" ++ name ++ "' is not a buffer pointer"))

/-- Finds the marshalling calls of a function. No plan means that they have to stay; the
diagnostics say why. -/
def make (bridge : Bridge σ) (m : Module) (f? : Option Function) (names : MarshallingNames)
    (payload : Payload) : StateM (Locator σ) (Option MarshallingPlan × Diagnostics) := do
  match f?.filter (!·.isDeclaration) with
  | none => return (none, [.structural "no function body to elide marshalling from"])
  | some f =>
    let payload := if payload.size = 0 then .standard else payload
    let receive ← findCall bridge m f names.receive
    let noted : Diagnostics := if receive.isSome then []
      else [.note ("no call to '" ++ names.receive ++ "' in '" ++ f.name ++ "'; arguments are not copied in")]
    match ← findCall bridge m f names.send with
    | none =>
      return (none, noted ++ [.notFound ("cannot find the " ++ names.send ++ " call in '" ++ f.name ++ "'")])
    | some send =>
      match f.params with
      | result :: args :: _ =>
        let received := match receive with
          | some site => copySize m f payload site args
          | none => .ok (0, [])
        match received with
        | .error d => return (none, noted ++ [d])
        | .ok (receiveSize, ds) =>
          match copySize m f payload send result with
          | .error d => return (none, noted ++ ds ++ [d])
          | .ok (sendSize, ds') =>
            return (some ⟨f.id, receive, send, receiveSize, sendSize⟩, noted ++ ds ++ ds')
      | params =>
        return (none, noted ++ [.structural ("'" ++ f.name ++ "' takes " ++ toString params.length ++
          " parameters; the result and argument buffers are missing")])

end MarshallingPlan

def copySignature : Ty := .func .void [.bytePointer, .bytePointer, .int 64, .int 1] false

def copyDeclaration (id : SymbolId) : Function where
  id := id
  symbol := .named copyName
  result := .void
  params :=
    [⟨0, .named "dst", .bytePointer, []⟩, ⟨1, .named "src", .bytePointer, []⟩, ⟨2, .named "len", .int 64, []⟩,
      ⟨3, .named "isvolatile", .int 1, []⟩]

/-- The module with the copy intrinsic declared. A function of its name with another type is
refused. -/
def declareCopy (m : Module) : Except Fault (Module × Function) :=
  match m.findFunction copyName with
  | some f =>
    if f.signature.same copySignature then .ok (m, f)
    else .error (.structural ("'" ++ copyName ++ "' is already declared with signature " ++ f.signature.text))
  | none =>
    let f := copyDeclaration m.freshSymbol
    .ok (m.addFunction f, f)

def usedNames (f : Function) : List String :=
  f.params.map (·.ident.shown) ++ f.blocks.flatMap fun b =>
    b.ident.shown :: (b.insts.filter (·.op.hasResult)).map (·.ident.shown)

/-- The first of `base`, `base.1`, `base.2`, … that is not in use, counting from `i`. -/
def uniqueFrom (used : List String) (base : String) : Nat → Nat → String
  | 0, i => base ++ "." ++ toString i
  | fuel + 1, i =>
    let name := if i = 0 then base else base ++ "." ++ toString i
    if used.contains name then uniqueFrom used base fuel (i + 1) else name

def uniqueName (f : Function) (base : String) : String :=
  let used := usedNames f
  uniqueFrom used base used.length 0

/-- A value as a byte pointer, with the cast that makes it one if it takes an instruction. -/
def toBytePointer (f : Function) (id : LocalId) (mention : Nat) (name : String) (v : Value) :
    Value × List Instruction :=
  if v.type.same .bytePointer then (v, [])
  else match v with
    | .const _ c => (.const mention (.cast .bitcast c .bytePointer), [])
    | v =>
      let cast : Instruction :=
        { id := id, ident := .named (uniqueName f name), type := .bytePointer,
          op := .cast .bitcast v .bytePointer }
      (cast.value, [cast])

def lengthConstant (size : UInt64) : Constant := .int (.int 64) size.toInt64.toInt

namespace MarshallingPlan

def insertCasts (m : Module) (f : Function) (site : CallSite) (casts : List Instruction) : Except Fault Function :=
  if casts.isEmpty then .ok f
  else if site.isExceptional then
    .ok (f.updateBlock site.block fun b => { b with insts := b.insts ++ casts })
  else match (f.block? site.block).bind (·.indexOf? site.id) with
    | some i => .ok (f.updateBlock site.block (·.insertAt i casts))
    | none => .error (.callSiteNotFound f.name (((m.calledFunction? f site).map (·.name)).getD ""))

def replaceByCopy (m : Module) (f copy : Function) (site : CallSite) (dest source : Value) (size : UInt64)
    (tag : String) : Function × Option Fault :=
  let id := f.freshId
  let mention := f.freshMention
  let (dest, destCast) := toBytePointer f id mention (tag ++ ".dst") dest
  let (source, sourceCast) := toBytePointer f (id + 1) (mention + 1) (tag ++ ".src") source
  match insertCasts m f site (destCast ++ sourceCast) with
  | .error e => (f, some e)
  | .ok f =>
    let call : Call Value :=
      { callee := copy.value
        args := [.value [] dest, .value [] source, .value [] (.const (mention + 2) (lengthConstant size)),
          .value [] (.truth false)] }
    match f.replaceCallSite m site call .void [] with
    | (f, none) => (f, none)
    | (f, some e) =>
      let name := ((m.calledFunction? f site).map (·.name)).getD ""
      (f, some (.during ("eliding call to '" ++ name ++ "'") e))

def bufferOf (site : CallSite) : Value := ((site.arg? 0).bind Argument.value?).getD (.const 0 .none)

/-- Replaces the planned calls by copies and counts them. Returns the module as far as it was
edited. -/
def apply (plan : MarshallingPlan) (m : Module) : Module × Nat × Option Fault :=
  match declareCopy m with
  | .error e => (m, 0, some e)
  | .ok (m, copy) =>
    match m.function? plan.function with
    | none => (m, 0, none)
    | some f =>
      match f.params with
      | result :: args :: _ =>
        let (f, n, failed) := match plan.receive with
          | none => (f, 0, none)
          | some site =>
            match replaceByCopy m f copy site (bufferOf site) args.value plan.receiveSize "recv" with
            | (f, none) => (f, 1, none)
            | (f, some e) => (f, 0, some e)
        match failed with
        | some e => (m.setFunction f, n, some e)
        | none =>
          let m := m.setFunction f
          match replaceByCopy m f copy plan.send result.value (bufferOf plan.send) plan.sendSize "send" with
          | (f, none) => (m.setFunction f, n + 1, none)
          | (f, some e) => (m.setFunction f, n, some e)
      | _ => (m, 0, none)

end MarshallingPlan
end CallFusion
