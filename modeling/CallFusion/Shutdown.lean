import CallFusion.Fault

/-!
Releasing what a program acquired. Hooks run once, the newest first, so that a resource is released
before those it was built on; every hook runs even if others fail.
-/
namespace CallFusion

structure Hook (σ : Type) where
  name : String
  run : StateM σ (Option Fault)

/-- Hooks in order of registration, until they are taken to be run. -/
structure Coordinator (σ : Type) where
  hooks : List (Hook σ) := []
  done : Bool := false

namespace Coordinator

variable {σ : Type}

/-- Adds a hook; once the hooks were taken, further ones are dropped. -/
def register (c : Coordinator σ) (hook : Hook σ) : Coordinator σ :=
  if c.done then c else { c with hooks := c.hooks ++ [hook] }

def offer (c : Coordinator σ) (hook : Option (Hook σ)) : Coordinator σ := hook.elim c c.register

def size (c : Coordinator σ) : Nat := if c.done then 0 else c.hooks.length

/-- Takes all hooks, newest first. Only the first taker gets any. -/
def take (c : Coordinator σ) : List (Hook σ) × Coordinator σ :=
  if c.done then ([], c) else (c.hooks.reverse, { hooks := [], done := true })

def runHooks : List (Hook σ) → StateM σ (List Fault)
  | [] => return []
  | hook :: rest => do
    let fault ← hook.run
    let faults ← runHooks rest
    return (fault.map (Fault.during hook.name)).toList ++ faults

def joined : List Fault → Option Fault
  | [] => none
  | [f] => some f
  | f :: rest => match joined rest with
    | some g => some (.both f g)
    | none => some f

def run (c : Coordinator σ) : StateM σ (Option Fault × Coordinator σ) := do
  let (hooks, c) := c.take
  return (joined (← runHooks hooks), c)

end Coordinator

structure Ending where
  fault : Option Fault
  cancelled : Bool

/-- Runs a program, which may register hooks, and then the hooks, whose faults nobody hears of. An
interrupt cancels the program and hides how it ended. -/
def supervise {σ α : Type} (interrupted : Bool)
    (program : Coordinator σ → StateM σ (α × Option Fault × Coordinator σ)) (c : Coordinator σ) :
    StateM σ (α × Ending) := do
  let (a, fault, c) ← program c
  let _ ← c.run
  return (a, if interrupted then ⟨some .interrupted, true⟩ else ⟨fault, false⟩)

end CallFusion
