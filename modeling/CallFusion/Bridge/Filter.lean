import CallFusion.Bridge.Basic
import CallFusion.Text.Trim

/-!
A bridge to an outside filter program. The symbol is written to the program as a line; exactly one
line that is not blank counts as its answer.
-/
namespace CallFusion

open Text

structure Filter (σ : Type) where
  path : String
  retries : UInt64
  run : String → StateM σ (Except Fault String)
  cancelled : σ → Bool

namespace Filter

variable {σ : Type}

def isLineEnd (c : Char) : Bool := c == '\r' || c == '\n'

def lines (output : String) : List String := splitChar '\n' (trimEndWith isLineEnd output)

def name? (output : String) : Option String :=
  match lines output with
  | [line] => if (trim line).isEmpty then none else some (trim line)
  | _ => none

def unusable (path output : String) : Fault :=
  .plain (path ++ ": expected one line of output, got " ++ toString (lines output).length)

def attempt (p : Filter σ) (symbol : String) : StateM σ (Attempt String) := do
  match ← p.run (symbol ++ "\n") with
  | .error cause => return .failed cause
  | .ok output => match name? output with
    | some name => return .done name
    | none => return .failed (unusable p.path output)

/-- Asks the program; the empty symbol is its own name. -/
def bridge (p : Filter σ) : Bridge σ := fun symbol => do
  if symbol.isEmpty then return ⟨symbol, none⟩
  let answer ← Attempt.repeated p.cancelled (p.attempt symbol) p.retries.toNat
  return Attempt.reply symbol (answer.map Symbol.stripHash)

end Filter
end CallFusion
