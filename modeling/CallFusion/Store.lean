import CallFusion.Store.Row

/-!
What outlives a run: the logical names of symbols, and a history of runs. Saving a symbol replaces
its name; a recorded run gets a number that is larger than every number given before, also after
old runs were dropped.
-/
namespace CallFusion

/-- The rows of two tables, in the order in which they were put there, and the largest number that a run ever had. -/
structure Store where
  names : List (String × String) := []
  runs : List RunRow := []
  sequence : Nat := 0
  deriving DecidableEq, Repr, Inhabited

namespace Store

def empty : Store := {}

def lookup (s : Store) (symbol : String) : Option String := (s.names.find? (·.1 == symbol)).map (·.2)

def save (s : Store) (symbol name : String) : Store :=
  if s.names.any (·.1 == symbol) then
    { s with names := s.names.map fun row => if row.1 == symbol then (symbol, name) else row }
  else { s with names := s.names ++ [(symbol, name)] }

/-- The number of the next run: it is above those in the table and above those that were. -/
def nextId (s : Store) : Nat := (s.runs.map (·.id)).foldl max s.sequence + 1

/-- Adds a run under the next number, which is given back. A run without a time gets the present one. -/
def record (s : Store) (now : Timestamp) (run : RunRecord) : Nat × Store :=
  (s.nextId, { s with runs := s.runs ++ [.ofRecord s.nextId (run.dated now)], sequence := s.nextId })

def defaultLimit : Nat := 20

def effectiveLimit (limit : Int) : Nat := if limit ≤ 0 then defaultLimit else limit.toNat

def newestFirst (s : Store) : List RunRow := s.runs.mergeSort fun a b => b.id ≤ a.id

/-- The newest runs, newest first. One row that does not read back spoils the list. -/
def list (s : Store) (limit : Int) : Except Fault (List RunRecord) :=
  (s.newestFirst.take (effectiveLimit limit)).mapM RunRow.read

/-- Keeps only the newest runs; a limit that is not positive keeps all. -/
def cleanup (s : Store) (limit : Int) : Store :=
  if limit ≤ 0 then s
  else
    let kept := (s.newestFirst.take limit.toNat).map (·.id)
    { s with runs := s.runs.filter fun row => kept.contains row.id }

def keptRuns : Int := 500

end Store

structure Connection where
  store : Store
  isOpen : Bool := true
  now : Timestamp := ⟨0, 0⟩
  deriving Repr, Inhabited

namespace Connection

def closed (what : String) : Fault := .store what (some (.plain "sql: database is closed"))

def withStore {α : Type} (c : Connection) (what : String) (act : Store → α × Store) : Except Fault (α × Connection) :=
  if c.isOpen then
    let (a, s) := act c.store
    .ok (a, { c with store := s })
  else .error (closed what)

def lookup (c : Connection) (symbol : String) : Except Fault (Option String) :=
  (c.withStore "failed to look up symbol" fun s => (s.lookup symbol, s)).map (·.1)

def save (c : Connection) (symbol name : String) : Except Fault Connection :=
  (c.withStore "failed to save symbol" fun s => ((), s.save symbol name)).map (·.2)

def record (c : Connection) (run : RunRecord) : Except Fault (Nat × Connection) :=
  c.withStore "failed to record run" fun s => s.record c.now run

def list (c : Connection) (limit : Int) : Except Fault (List RunRecord) := do
  let (runs, _) ← c.withStore "failed to list runs" fun s => (s.list limit, s)
  runs

/-- Nothing is asked of the store where nothing would be dropped by its limit. -/
def cleanup (c : Connection) (limit : Int) : Except Fault Connection :=
  if limit ≤ 0 then .ok c
  else (c.withStore "failed to trim history" fun s => ((), s.cleanup limit)).map (·.2)

def close (c : Connection) : Connection := { c with isOpen := false }

end Connection
end CallFusion
