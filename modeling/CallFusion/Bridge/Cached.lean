import CallFusion.Bridge.Basic

/-!
A bridge with a memory, and a shelf where names outlive the program. A call proceeds in steps, so
that several calls may share one memory and one shelf. Failures are never kept, and a shelf that
fails only costs time.
-/
namespace CallFusion

structure Shelf (σ : Type) where
  lookup : String → StateM σ (Except Fault (Option String))
  save : String → String → StateM σ (Option Fault)

/-- What calls share: the names remembered, newest first, and the state of bridge and shelf. -/
structure Memory (σ : Type) where
  names : List (String × String)
  inner : σ

namespace Memory

variable {σ : Type}

def name? (m : Memory σ) (symbol : String) : Option String := (m.names.find? (·.1 == symbol)).map (·.2)

def remember (m : Memory σ) (symbol name : String) : Memory σ := { m with names := (symbol, name) :: m.names }

def lift {α : Type} (act : StateM σ α) : StateM (Memory σ) α := fun m =>
  let (a, inner) := act.run m.inner
  (a, { m with inner := inner })

end Memory

inductive CallPhase where
  | peek
  | consult
  | ask
  | remember (name : String) (fresh : Bool)
  | shelve (name : String)
  | finished (reply : Reply)
  deriving Repr, Inhabited

structure CachedBridge (σ : Type) where
  next : Bridge σ
  shelf : Option (Shelf σ)

namespace CachedBridge

variable {σ : Type}

def consult (c : CachedBridge σ) (symbol : String) : StateM (Memory σ) CallPhase := do
  match c.shelf with
  | none => return .ask
  | some shelf =>
    match ← Memory.lift (shelf.lookup symbol) with
    | .ok (some name) => return .remember name false
    | _ => return .ask

def ask (c : CachedBridge σ) (symbol : String) : StateM (Memory σ) CallPhase := do
  let reply ← Memory.lift (c.next symbol)
  if reply.fault.isSome then return .finished reply else return .remember reply.name true

def shelve (c : CachedBridge σ) (symbol name : String) : StateM (Memory σ) CallPhase := do
  if let some shelf := c.shelf then
    let _ ← Memory.lift (shelf.save symbol name)
  return .finished ⟨name, none⟩

def step (c : CachedBridge σ) (symbol : String) : CallPhase → StateM (Memory σ) CallPhase
  | .peek => return match (← get).name? symbol with
    | some name => .finished ⟨name, none⟩
    | none => .consult
  | .consult => c.consult symbol
  | .ask => c.ask symbol
  | .remember name fresh => do
    modify (·.remember symbol name)
    return if fresh then .shelve name else .finished ⟨name, none⟩
  | .shelve name => c.shelve symbol name
  | .finished reply => return .finished reply

def steps (c : CachedBridge σ) (symbol : String) : Nat → CallPhase → StateM (Memory σ) CallPhase
  | 0, phase => return phase
  | n + 1, phase => do c.steps symbol n (← c.step symbol phase)

/-- A whole call. No call takes more than five steps. -/
def bridge (c : CachedBridge σ) : Bridge (Memory σ) := fun symbol => do
  match ← c.steps symbol 5 .peek with
  | .finished reply => return reply
  | _ => return ⟨symbol, none⟩

end CachedBridge
end CallFusion
