import CallFusion.Ir.Uses

/-!
References to functions from the rest of a module: operands of other functions, their
personalities, initializers of globals, and metadata tuples.
-/
namespace CallFusion.Ir

def Function.mentionCount (f : Function) (target : SymbolId) : Nat :=
  (if (f.personality.map (·.mentions target)).getD false then 1 else 0) +
    (f.operands.filter fun o => o.value.mentions target).length

def Global.mentions (g : Global) (target : SymbolId) : Bool := (g.init.map (·.mentions target)).getD false

namespace Module

def referenceCount (m : Module) (target : SymbolId) : Nat :=
  (m.functions.filter (·.id != target)).foldl (fun n f => n + f.mentionCount target) 0 +
    (m.globals.filter (·.mentions target)).length +
    m.metaDefs.foldl (fun n d => n + d.body.countMentions target) 0

/-- Drops a function that nothing else refers to; none when something does, or it is not there. -/
def removeFunction? (m : Module) (target : SymbolId) : Option Module :=
  if m.referenceCount target > 0 then none
  else if (m.function? target).isSome then
    some (m.dropFunction target)
  else none

end Module

/-- Whether a value is the target, a value of the function `owner`, or a constant that mentions it. Among
constants, symbols, blocks, truth values and the missing token can be mentioned by others. -/
def Value.references (owner : SymbolId) (v target : Value) : Bool :=
  v.same target ||
    match v, target with
    | .const _ c, .const _ (.symbol id _) => c.mentions id
    | .const _ c, .const n (.truth b) => n == (Value.truth b).mention && c.mentionsTruth b
    | .const _ c, .const _ .none => c.mentionsNone
    | .const _ c, .block b => c.mentionsBlock owner b
    | _, _ => false

end CallFusion.Ir
