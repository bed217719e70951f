import CallFusion.Fault
import CallFusion.Ir.Printer

/-!
Uses of a value in a function, and edits that go through them: redirecting all uses, erasing an
instruction, replacing a terminator.
-/
namespace CallFusion.Ir

/-- One operand slot that holds a value: where it is and whether it is a debug slot. The index is
that of an instruction in its block, none for the terminator. -/
structure Use where
  block : LocalId
  index : Option Nat
  debug : Bool
  deriving DecidableEq, Repr, Inhabited

def Value.dropDebug (v : Value) (debug : Bool) (x : Value) : Value :=
  if debug && x.same v then .const 0 (.undef v.type) else x

namespace Function

variable (f : Function)

def slots : List (Use × Value) :=
  f.blocks.flatMap fun b =>
    (b.insts.zipIdx.flatMap fun (inst, i) =>
      inst.op.operands.map fun o => (⟨b.id, some i, o.debug⟩, o.value)) ++
    b.term.op.operands.map fun o => (⟨b.id, none, o.debug⟩, o.value)

def uses (v : Value) : List Use := (f.slots.filter fun s => s.2.same v).map (·.1)

def codeUses (v : Value) : List Use := (f.uses v).filter (!·.debug)

def useCount (v : Value) : Nat := (f.uses v).length

def identText (m : Module) (v : Value) : String := v.ident (m.names (some f))

/-- Points every debug slot that holds `v` at an undefined value of the same type. -/
def dropDebugUses (v : Value) : Function × Nat :=
  (f.mapOperands v.dropDebug, ((f.uses v).filter (·.debug)).length)

def redirect (old new : Value) : Function := f.mapOperands fun _ x => if x.same old then new else x

/-- Redirects every use of `old` to `new` and counts them; a used value keeps its type. -/
def replaceAllUses (m : Module) (old new : Value) : Except Fault (Function × Nat) :=
  let n := f.useCount old
  if n = 0 then .ok (f, 0)
  else if old.type.same new.type then .ok (f.redirect old new, n)
  else .error (.structural ("cannot replace " ++ f.identText m old ++ " of type " ++ old.type.text ++
    " with value of type " ++ new.type.text))

/-- Unlinks an instruction from a block. An instruction whose result is used stays. -/
def eraseInstruction (m : Module) (block : LocalId) (inst : Instruction) : Except Fault Function :=
  let n := if inst.op.hasResult then f.useCount inst.value else 0
  if n > 0 then .error (.hasUses (f.identText m inst.value) n)
  else match (f.block? block).bind (·.indexOf? inst.id) with
    | none => .error (.structural "instruction is not in the given block")
    | some i =>
      let rest := f.updateBlock block fun b => { b with insts := b.insts.eraseIdx i }
      .ok { rest with dropped := rest.dropped ++ [(inst.id, inst.ident)] }

def replaceTerminator (m : Module) (block : LocalId) (term : Option Terminal) : Except Fault Function :=
  match term with
  | none => .error (.structural "block would lose its terminator")
  | some t =>
    let old := (f.block? block).map (·.term)
    let n := match old with
      | some o => if o.op.hasResult then f.useCount o.value else 0
      | none => 0
    if n > 0 then .error (.hasUses (((old.map fun o => f.identText m o.value)).getD "") n)
    else
      let rest := f.updateBlock block fun b => { b with term := t }
      .ok { rest with dropped := rest.dropped ++ (old.map fun o => (o.id, o.ident)).toList }

end Function

/-- Drops the entries of a block's phis that arrive from `pred`, and counts them. -/
def Block.dropIncoming (b : Block) (pred : LocalId) : Block × Nat :=
  let arrives := fun (p : Value × Value) => p.2.same (.block pred)
  ({ b with insts := b.insts.map fun i => match i.op with
      | .phi flags incoming => { i with op := .phi flags (incoming.filter (!arrives ·)) }
      | _ => i },
    b.insts.foldl (fun n i => match i.op with
      | .phi _ incoming => n + (incoming.filter arrives).length
      | _ => n) 0)

def Function.dropIncoming (f : Function) (block pred : LocalId) : Function × Nat :=
  (f.updateBlock block fun b => (b.dropIncoming pred).1,
    ((f.block? block).map fun b => (b.dropIncoming pred).2).getD 0)

end CallFusion.Ir
