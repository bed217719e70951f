import CallFusion.Fault
import CallFusion.Ir.Printer

/-!
Numbers of unnamed locals. One counter per function numbers the unnamed parameters and then, block
by block, the unnamed block, its unnamed results and the unnamed result of its terminator. A local
without a result takes no number. A number other than zero that an unnamed local carries already has to
be the one due; so all numbers are cleared before a function is numbered again.
-/
namespace CallFusion.Ir

def Instruction.isNumbered (i : Instruction) : Bool := i.op.hasResult && !i.type.isVoid

def Terminal.isNumbered (t : Terminal) : Bool := t.op.hasResult && !t.type.isVoid

def Ident.clearNumber : Ident → Ident
  | .named s => .named s
  | .number _ => .number 0

def Function.clearNumbers (f : Function) : Function :=
  { f with
    params := f.params.map fun p => { p with ident := p.ident.clearNumber }
    blocks := f.blocks.map fun b =>
      { b with
        ident := b.ident.clearNumber
        insts := b.insts.map fun i => { i with ident := i.ident.clearNumber }
        term := { b.term with ident := b.term.ident.clearNumber } } }

/-! ### Numbers that are given if they are due -/

/-- Numbering keeps the number that is due, and stops at an identifier that carries another one. -/
abbrev Numbering := StateT Nat (Except Ident)

def Ident.assign (i : Ident) : Numbering Ident := fun due =>
  match i with
  | .named s => .ok (.named s, due)
  | .number n => if n = 0 ∨ n = due then .ok (.number due, due + 1) else .error i

def Param.assign (p : Param) : Numbering Param := return { p with ident := ← p.ident.assign }

def Instruction.assign (i : Instruction) : Numbering Instruction := do
  if i.isNumbered then return { i with ident := ← i.ident.assign } else return i

def Terminal.assign (t : Terminal) : Numbering Terminal := do
  if t.isNumbered then return { t with ident := ← t.ident.assign } else return t

def Block.assign (b : Block) : Numbering Block := do
  let ident ← b.ident.assign
  let insts ← b.insts.mapM Instruction.assign
  let term ← b.term.assign
  return { b with ident := ident, insts := insts, term := term }

namespace Function

/-- The function with its unnamed locals numbered, or the first of them that carries a number it is not due. -/
def assignNumbers (f : Function) : Except Ident Function :=
  let numbering : Numbering Function := do
    let params ← f.params.mapM Param.assign
    let blocks ← f.blocks.mapM Block.assign
    return { f with params := params, blocks := blocks }
  numbering.run' 0

/-- The function numbered afresh. The locals of a declaration stay as they are. -/
def renumbered (f : Function) : Except Ident Function :=
  if f.isDeclaration then .ok f else f.clearNumbers.assignNumbers

def numberedIdents (f : Function) : List Ident :=
  f.params.map (·.ident) ++ f.blocks.flatMap fun b =>
    b.ident :: ((b.insts.filter (·.isNumbered)).map (·.ident) ++
      (if b.term.isNumbered then [b.term.ident] else []))

def locals (f : Function) : List (Ident × Value) :=
  f.params.map (fun p => (p.ident, p.value)) ++ f.blocks.flatMap fun b =>
    (b.ident, Value.block b.id) :: ((b.insts.filter (·.isNumbered)).map (fun i => (i.ident, i.value)) ++
      (if b.term.isNumbered then [(b.term.ident, b.term.value)] else []))

def localWritten? (f : Function) (text : String) : Option Value := (f.locals.find? (·.1.text == text)).map (·.2)

def blockNamed? (f : Function) (name : String) : Option Block := f.blocks.find? (·.ident.shown == name)

end Function

def Ident.renumber (i : Ident) (n : Nat) : Ident × Nat :=
  match i with
  | .named s => (.named s, n)
  | .number _ => (.number n, n + 1)

def renumberSymbols {α : Type} (ident : α → Ident) (set : α → Ident → α) : List α → Nat → List α × Nat
  | [], n => ([], n)
  | a :: as, n =>
    let (i, n) := (ident a).renumber n
    let (as, n) := renumberSymbols ident set as n
    (set a i :: as, n)

namespace Module

/-- The module with its unnamed symbols numbered: variables first, then aliases, then functions. -/
def renumberSymbols (m : Module) : Module :=
  let (globals, n) := Ir.renumberSymbols (·.symbol) (fun (g : Global) i => { g with symbol := i }) m.globals 0
  let set := fun (a : Alias) i => { a with symbol := i }
  let (plain, n) := Ir.renumberSymbols (·.symbol) set (m.aliases.filter (!·.resolved)) n
  let (resolved, n) := Ir.renumberSymbols (·.symbol) set (m.aliases.filter (·.resolved)) n
  let (functions, _) := Ir.renumberSymbols (·.symbol) (fun (f : Function) i => { f with symbol := i }) m.functions n
  { m with globals := globals, aliases := plain ++ resolved, functions := functions }

def renumberLocals (m : Module) : Except Ident Module :=
  return { m with functions := ← m.functions.mapM Function.renumbered }

def renumbered (m : Module) : Except Ident Module := return (← m.renumberLocals).renumberSymbols

def renumber (m : Module) : Module := m.renumbered.toOption.getD m

def format (m : Module) : Except Fault (Module × String) :=
  match m.renumbered with
  | .error _ => .error (.writeModule "module" (some .malformed))
  | .ok numbered => .ok (numbered, numbered.text)

end Module
end CallFusion.Ir
