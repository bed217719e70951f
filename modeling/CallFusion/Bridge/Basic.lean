import CallFusion.Fault
import CallFusion.Symbol.Demangle

/-!
Demangling bridges: whatever answers a symbol with its logical name. A bridge may keep a state of
its own, so asking twice need not give the same answer.
-/
namespace CallFusion

structure Reply where
  name : String
  fault : Option Fault
  deriving Repr, Inhabited

/-- A demangling bridge with a state of its own. -/
abbrev Bridge (σ : Type) := String → StateM σ Reply

def Bridge.inProcess {σ : Type} : Bridge σ := fun symbol => return ⟨Symbol.logicalName symbol, none⟩

/-! ### Asking again

An attempt that failed is repeated until one succeeds, the retries are used up, the attempt says that
repeating is useless, or the work is cancelled. -/

inductive Attempt (α : Type) where
  | done (answer : α)
  | failed (cause : Fault)
  | refused (cause : Fault)
  deriving Repr, Inhabited

namespace Attempt

variable {σ α : Type}

/-- Makes one attempt and up to `retries` more. Cancellation counts only after an attempt failed,
and then hides its cause. -/
def repeated (cancelled : σ → Bool) (attempt : StateM σ (Attempt α)) : Nat → StateM σ (Except Fault α)
  | 0 => do
    match ← attempt with
    | done a => return .ok a
    | refused cause => return .error cause
    | failed cause => return .error (if cancelled (← get) then .cancelled else cause)
  | retries + 1 => do
    match ← attempt with
    | done a => return .ok a
    | refused cause => return .error cause
    | failed _ =>
      if cancelled (← get) then return .error .cancelled
      else repeated cancelled attempt retries

def reply (symbol : String) : Except Fault String → Reply
  | .ok name => ⟨name, none⟩
  | .error cause => ⟨symbol, some (.demanglerUnavailable (some cause))⟩

end Attempt
end CallFusion
