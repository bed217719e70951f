import CallFusion.Proofs.Except
import CallFusion.Proofs.Store.Tables

/-!
Calls of a store and their replies. A call about names is answered from the names and changes nothing else, and a call about
runs is answered from the runs; so either kind is answered as if there had been no calls of the other.
-/
namespace CallFusion

/-- What is asked of a store. A run is recorded at a time, for the case that it has none. -/
inductive StoreCall where
  | save (symbol name : String)
  | lookup (symbol : String)
  | record (now : Timestamp) (run : RunRecord)
  | list (limit : Int)
  | cleanup (limit : Int)

/-- What a store gives back. -/
inductive StoreReply where
  | done
  | name (found : Option String)
  | number (id : Nat)
  | runs (listed : List RunRecord)

abbrev StoreLog := List (StoreCall × StoreReply)

/-- Whether a call is about the names of symbols; the others are about runs. -/
def StoreCall.isNaming : StoreCall → Bool
  | save .. | lookup _ => true
  | record .. | list _ | cleanup _ => false

namespace Connection

def opened : Connection := { store := .empty }

def answer (c : Connection) : StoreCall → Except Fault (StoreReply × Connection)
  | .save symbol name => (c.save symbol name).map (.done, ·)
  | .lookup symbol => (c.lookup symbol).map fun found => (.name found, c)
  | .record now run => ({ c with now := now }.record run).map fun (id, c) => (.number id, c)
  | .list limit => (c.list limit).map fun listed => (.runs listed, c)
  | .cleanup limit => (c.cleanup limit).map (.done, ·)

def serve (c : Connection) : List StoreCall → Except Fault (StoreLog × Connection)
  | [] => .ok ([], c)
  | call :: calls => do
    let (reply, c) ← c.answer call
    let (log, c) ← c.serve calls
    return ((call, reply) :: log, c)

variable {c d : Connection}

theorem serve_cons {call : StoreCall} {calls : List StoreCall} {log : StoreLog} {last : Connection} :
    c.serve (call :: calls) = .ok (log, last) ↔
      ∃ reply next later, c.answer call = .ok (reply, next) ∧ next.serve calls = .ok (later, last) ∧
        log = (call, reply) :: later := by
  simp only [serve, Except.bind_eq_ok_iff, Except.pure_eq_ok_iff, Prod.exists, Prod.mk.injEq]
  constructor
  · rintro ⟨reply, next, first, later, last, others, rfl, rfl⟩
    exact ⟨reply, next, later, first, others, rfl⟩
  · rintro ⟨reply, next, later, first, others, rfl⟩
    exact ⟨reply, next, first, later, last, others, rfl, rfl⟩

/-! ### Calls of an open store -/

theorem withStore_open {α : Type} (isOpen : c.isOpen = true) (what : String) (act : Store → α × Store) :
    c.withStore what act = .ok ((act c.store).1, { c with store := (act c.store).2 }) := by
  rw [withStore, if_pos isOpen]

theorem answer_save (isOpen : c.isOpen = true) (symbol name : String) :
    c.answer (.save symbol name) = .ok (.done, { c with store := c.store.save symbol name }) := by
  rw [answer, save, withStore_open isOpen]
  rfl

theorem answer_lookup (isOpen : c.isOpen = true) (symbol : String) :
    c.answer (.lookup symbol) = .ok (.name (c.store.lookup symbol), c) := by
  rw [answer, lookup, withStore_open isOpen]
  rfl

theorem answer_record (isOpen : c.isOpen = true) (now : Timestamp) (run : RunRecord) :
    c.answer (.record now run) = .ok (.number c.store.nextId, { c with now := now, store := (c.store.record now run).2 }) := by
  have same : Connection.isOpen { c with now := now } = true := isOpen
  rw [answer, record, withStore_open same]
  rfl

theorem answer_list (isOpen : c.isOpen = true) (limit : Int) :
    c.answer (.list limit) = (c.store.list limit).map fun listed => (.runs listed, c) := by
  rw [answer, list, withStore_open isOpen]
  rfl

theorem answer_list_ok (isOpen : c.isOpen = true) {limit : Int} {reply : StoreReply} {next : Connection} :
    c.answer (.list limit) = .ok (reply, next) ↔
      ∃ listed, c.store.list limit = .ok listed ∧ reply = .runs listed ∧ next = c := by
  rw [answer_list isOpen]
  cases c.store.list limit with
  | error fault => simp [Except.map]
  | ok listed => simp [Except.map, eq_comm]

theorem answer_cleanup (isOpen : c.isOpen = true) (limit : Int) :
    c.answer (.cleanup limit) = .ok (.done, { c with store := c.store.cleanup limit }) := by
  rw [answer, cleanup]
  split_ifs with nothing
  · have same : c.store.cleanup limit = c.store := by rw [Store.cleanup, if_pos nothing]
    rw [same]
    rfl
  · rw [withStore_open isOpen]
    rfl

/-! ### Calls of one kind -/

/-- Two open stores with the same names. -/
structure SameNames (c d : Connection) : Prop where
  first : c.isOpen = true
  second : d.isOpen = true
  names : c.store.names = d.store.names

/-- Two open stores with the same runs. -/
structure SameRuns (c d : Connection) : Prop where
  first : c.isOpen = true
  second : d.isOpen = true
  runs : c.store.runs = d.store.runs
  sequence : c.store.sequence = d.store.sequence

variable {call : StoreCall} {reply : StoreReply} {next : Connection}

theorem SameNames.answer (alike : SameNames c d) (kind : call.isNaming = true) (answered : c.answer call = .ok (reply, next)) :
    ∃ next', d.answer call = .ok (reply, next') ∧ SameNames next next' := by
  cases call with
  | save symbol name =>
    rw [answer_save alike.first] at answered
    cases answered
    have saved : (c.store.save symbol name).names = (d.store.save symbol name).names := by
      simp only [Store.save, alike.names]
      split_ifs <;> rfl
    exact ⟨_, answer_save alike.second symbol name, alike.first, alike.second, saved⟩
  | lookup symbol =>
    rw [answer_lookup alike.first] at answered
    cases answered
    have found : d.store.lookup symbol = c.store.lookup symbol := by rw [Store.lookup, Store.lookup, alike.names]
    exact ⟨d, by rw [answer_lookup alike.second, found], alike⟩
  | record | list | cleanup => contradiction

theorem SameNames.unseen (alike : SameNames c d) (kind : call.isNaming = false)
    (answered : c.answer call = .ok (reply, next)) : SameNames next d := by
  cases call with
  | save | lookup => contradiction
  | record now run =>
    rw [answer_record alike.first] at answered
    cases answered
    exact ⟨alike.first, alike.second, alike.names⟩
  | list limit =>
    obtain ⟨listed, -, rfl, rfl⟩ := (answer_list_ok alike.first).mp answered
    exact alike
  | cleanup limit =>
    rw [answer_cleanup alike.first] at answered
    cases answered
    exact ⟨alike.first, alike.second, (c.store.cleanup_names limit).trans alike.names⟩

theorem SameRuns.answer (alike : SameRuns c d) (kind : call.isNaming = false) (answered : c.answer call = .ok (reply, next)) :
    ∃ next', d.answer call = .ok (reply, next') ∧ SameRuns next next' := by
  obtain ⟨first, second, runs, sequence⟩ := alike
  cases call with
  | save | lookup => contradiction
  | record now run =>
    rw [answer_record first] at answered
    cases answered
    have number : d.store.nextId = c.store.nextId := by rw [Store.nextId, Store.nextId, runs, sequence]
    have recorded := answer_record second now run
    rw [number] at recorded
    refine ⟨_, recorded, first, second, ?_, ?_⟩
    · simp only [Store.record, runs, number]
    · simp only [Store.record, number]
  | list limit =>
    obtain ⟨listed, read, rfl, rfl⟩ := (answer_list_ok first).mp answered
    have same : d.store.list limit = .ok listed := by
      rw [← read, Store.list, Store.list, Store.newestFirst, Store.newestFirst, runs]
    exact ⟨d, (answer_list_ok second).mpr ⟨listed, same, rfl, rfl⟩, first, second, runs, sequence⟩
  | cleanup limit =>
    rw [answer_cleanup first] at answered
    cases answered
    refine ⟨_, answer_cleanup second limit, first, second, ?_, by simpa using sequence⟩
    simp only [Store.cleanup, Store.newestFirst, runs]
    split_ifs
    · exact runs
    · rfl

theorem SameRuns.unseen (alike : SameRuns c d) (kind : call.isNaming = true)
    (answered : c.answer call = .ok (reply, next)) : SameRuns next d := by
  obtain ⟨first, second, runs, sequence⟩ := alike
  cases call with
  | record | list | cleanup => contradiction
  | save symbol name =>
    rw [answer_save first] at answered
    cases answered
    exact ⟨first, second, (c.store.save_runs symbol name).trans runs, (c.store.save_sequence symbol name).trans sequence⟩
  | lookup symbol =>
    rw [answer_lookup first] at answered
    cases answered
    exact ⟨first, second, runs, sequence⟩

variable {calls : List StoreCall} {log : StoreLog} {last : Connection}

end Connection
end CallFusion
