import CallFusion.Proofs.Store.Calls

/-!
What a store answers over a history of calls. The names are a table in which the last saved name counts, and the runs are a
log under growing numbers whose old end may be dropped.
-/
namespace CallFusion

/-- A recorded run fits into a row, with a time that can be written. -/
def StoreCall.Storable : StoreCall → Prop
  | record now run => now.Writable ∧ run.Storable
  | _ => True

theorem RunRecord.Storable.dated {run : RunRecord} (fits : run.Storable) {now : Timestamp} (present : now.Writable) :
    (run.dated now).Storable := by
  unfold RunRecord.dated
  split_ifs
  · exact ⟨present, fits.diagnostics, fits.keys, fits.counts⟩
  · exact fits

namespace StoreLog

/-- The name under which a symbol was saved last. -/
def lastSaved (symbol : String) (log : StoreLog) : Option String :=
  log.foldl (fun found entry => match entry.1 with
    | .save other name => if other = symbol then some name else found
    | _ => found) none

def numbers (log : StoreLog) : List Nat :=
  log.filterMap fun
    | (.record .., .number id) => some id
    | _ => none

def liveStep (live : List RunRecord) : StoreCall × StoreReply → List RunRecord
  | (.record now run, .number id) => { run.dated now with id := id } :: live
  | (.cleanup limit, _) => if limit ≤ 0 then live else live.take limit.toNat
  | _ => live

/-- The runs that were recorded and are still there, newest first. -/
def live (log : StoreLog) : List RunRecord := log.foldl liveStep []

/-- What may be replied to a call after a history. -/
inductive Expects (log : StoreLog) : StoreCall → StoreReply → Prop
  | save (symbol name : String) : Expects log (.save symbol name) .done
  | lookup (symbol : String) : Expects log (.lookup symbol) (.name (lastSaved symbol log))
  | record (now : Timestamp) (run : RunRecord) {id : Nat} (fresh : ∀ earlier ∈ numbers log, earlier < id) :
      Expects log (.record now run) (.number id)
  | list (limit : Int) {listed : List RunRecord}
      (same : List.Forall₂ RunRecord.Same listed ((live log).take (if limit ≤ 0 then 20 else limit.toNat))) :
      Expects log (.list limit) (.runs listed)
  | cleanup (limit : Int) : Expects log (.cleanup limit) .done

theorem lastSaved_append (symbol : String) (log : StoreLog) (entry : StoreCall × StoreReply) :
    lastSaved symbol (log ++ [entry]) = match entry.1 with
      | .save other name => if other = symbol then some name else lastSaved symbol log
      | _ => lastSaved symbol log := by
  rw [lastSaved, List.foldl_append]
  rfl

theorem live_append (log : StoreLog) (entry : StoreCall × StoreReply) : live (log ++ [entry]) = liveStep (live log) entry := by
  rw [live, List.foldl_append]
  rfl

theorem numbers_append (log : StoreLog) (entry : StoreCall × StoreReply) :
    numbers (log ++ [entry]) = numbers log ++ numbers [entry] := List.filterMap_append

theorem numbers_append_of_none (log : StoreLog) {entry : StoreCall × StoreReply} (none : numbers [entry] = []) :
    numbers (log ++ [entry]) = numbers log := by
  rw [numbers_append, none, List.append_nil]

end StoreLog

/-- A row that a run can be read from. -/
structure RunRow.Holds (row : RunRow) (run : RunRecord) : Prop where
  id : row.id = run.id
  read : ∃ back, row.read = .ok back ∧ back.Same run

theorem RunRow.holds_ofRecord {run : RunRecord} (fits : run.Storable) (id : Nat) :
    (RunRow.ofRecord id run).Holds { run with id := id } := ⟨rfl, RunRecord.read_ofRecord fits id⟩

theorem RunRow.mapM_read {rows : List RunRow} {runs : List RunRecord} (hold : List.Forall₂ RunRow.Holds rows runs) :
    ∃ backs, rows.mapM RunRow.read = .ok backs ∧ List.Forall₂ RunRecord.Same backs runs := by
  induction hold with
  | nil => exact ⟨[], rfl, .nil⟩
  | cons head _ ih =>
    obtain ⟨back, read, same⟩ := head.read
    obtain ⟨backs, others, alike⟩ := ih
    exact ⟨back :: backs, by simp [read, others, bind, Except.bind, pure, Except.pure], .cons same alike⟩

namespace Connection

/-- A connection whose store is as a history has left it. -/
structure Kept (log : StoreLog) (c : Connection) : Prop where
  isOpen : c.isOpen = true
  names : ∀ symbol, c.store.lookup symbol = log.lastSaved symbol
  ordered : c.store.Ordered
  growing : log.numbers.Pairwise (· < ·)
  given : ∀ id ∈ log.numbers, id ≤ c.store.sequence
  rows : List.Forall₂ RunRow.Holds c.store.runs.reverse log.live

variable {log : StoreLog} {c : Connection}

theorem Kept.save (kept : Kept log c) (symbol name : String) :
    Kept (log ++ [(.save symbol name, .done)]) { c with store := c.store.save symbol name } where
  isOpen := kept.isOpen
  names := fun other => by
    rw [Store.lookup_save, kept.names, StoreLog.lastSaved_append]
  ordered := kept.ordered.save symbol name
  growing := by
    rw [StoreLog.numbers_append_of_none log rfl]
    exact kept.growing
  given := by
    rw [StoreLog.numbers_append_of_none log rfl, Store.save_sequence]
    exact kept.given
  rows := by
    rw [StoreLog.live_append, Store.save_runs]
    exact kept.rows

theorem Kept.ask (kept : Kept log c) {call : StoreCall} (asks : (∃ symbol, call = .lookup symbol) ∨ ∃ limit, call = .list limit)
    (reply : StoreReply) : Kept (log ++ [(call, reply)]) c := by
  have none : StoreLog.numbers [(call, reply)] = [] := by
    rcases asks with ⟨symbol, rfl⟩ | ⟨limit, rfl⟩ <;> rfl
  have live : StoreLog.liveStep log.live (call, reply) = log.live := by
    rcases asks with ⟨symbol, rfl⟩ | ⟨limit, rfl⟩ <;> rfl
  have saved : ∀ other, (log ++ [(call, reply)]).lastSaved other = log.lastSaved other := by
    intro other
    rw [StoreLog.lastSaved_append]
    rcases asks with ⟨symbol, rfl⟩ | ⟨limit, rfl⟩ <;> rfl
  refine ⟨kept.isOpen, fun other => (kept.names other).trans (saved other).symm, kept.ordered, ?_, ?_, ?_⟩
  · rw [StoreLog.numbers_append_of_none log none]
    exact kept.growing
  · rw [StoreLog.numbers_append_of_none log none]
    exact kept.given
  · rw [StoreLog.live_append, live]
    exact kept.rows

theorem Kept.lt_nextId (kept : Kept log c) {id : Nat} (member : id ∈ log.numbers) : id < c.store.nextId :=
  Nat.lt_of_le_of_lt (kept.given id member) c.store.sequence_lt_nextId

theorem Kept.record (kept : Kept log c) {now : Timestamp} (present : now.Writable) {run : RunRecord} (fits : run.Storable) :
    Kept (log ++ [(.record now run, .number c.store.nextId)]) { c with now := now, store := (c.store.record now run).2 } where
  isOpen := kept.isOpen
  names := fun symbol => by
    rw [StoreLog.lastSaved_append]
    exact kept.names symbol
  ordered := kept.ordered.record now run
  growing := by
    rw [StoreLog.numbers_append]
    refine List.pairwise_append.mpr ⟨kept.growing, List.pairwise_singleton _ _, fun id earlier last same => ?_⟩
    rw [List.mem_singleton.mp same]
    exact kept.lt_nextId earlier
  given := fun id member => by
    rw [StoreLog.numbers_append, List.mem_append] at member
    rcases member with earlier | last
    · exact Nat.le_of_lt (kept.lt_nextId earlier)
    · exact Nat.le_of_eq (List.mem_singleton.mp last)
  rows := by
    rw [StoreLog.live_append]
    simp only [Store.record, List.reverse_append, List.reverse_singleton, List.singleton_append, StoreLog.liveStep]
    exact .cons (RunRow.holds_ofRecord (fits.dated present) _) kept.rows

theorem Kept.cleanup (kept : Kept log c) (limit : Int) :
    Kept (log ++ [(.cleanup limit, .done)]) { c with store := c.store.cleanup limit } where
  isOpen := kept.isOpen
  names := fun symbol => by
    rw [StoreLog.lastSaved_append, Store.lookup, Store.cleanup_names]
    exact kept.names symbol
  ordered := kept.ordered.cleanup limit
  growing := by
    rw [StoreLog.numbers_append_of_none log rfl]
    exact kept.growing
  given := by
    rw [StoreLog.numbers_append_of_none log rfl, Store.cleanup_sequence]
    exact kept.given
  rows := by
    rw [StoreLog.live_append, StoreLog.liveStep]
    split_ifs with all
    · rw [Store.cleanup, if_pos all]
      exact kept.rows
    · rw [kept.ordered.cleanup_runs (by omega)]
      exact List.forall₂_take _ kept.rows

theorem Kept.list (kept : Kept log c) (limit : Int) :
    ∃ listed, c.store.list limit = .ok listed ∧
      List.Forall₂ RunRecord.Same listed (log.live.take (if limit ≤ 0 then 20 else limit.toNat)) := by
  rw [Store.list, kept.ordered.newestFirst_eq]
  exact RunRow.mapM_read (List.forall₂_take _ kept.rows)

/-- A store as a history has left it replies to one more call as that history lets expect, and is left as the longer history
leaves it. -/
theorem Kept.answer (kept : Kept log c) {call : StoreCall} (fits : call.Storable) :
    ∃ reply next, c.answer call = .ok (reply, next) ∧ log.Expects call reply ∧ Kept (log ++ [(call, reply)]) next := by
  cases call with
  | save symbol name => exact ⟨_, _, answer_save kept.isOpen symbol name, .save symbol name, kept.save symbol name⟩
  | lookup symbol =>
    have answered := answer_lookup kept.isOpen symbol
    rw [kept.names] at answered
    exact ⟨_, c, answered, .lookup symbol, kept.ask (.inl ⟨symbol, rfl⟩) _⟩
  | record now run =>
    obtain ⟨present, fits⟩ := fits
    have fresh : ∀ earlier ∈ log.numbers, earlier < c.store.nextId := fun _ member => kept.lt_nextId member
    exact ⟨_, _, answer_record kept.isOpen now run, .record now run fresh, kept.record present fits⟩
  | list limit =>
    obtain ⟨listed, read, same⟩ := kept.list limit
    have answered := (answer_list_ok kept.isOpen).mpr ⟨listed, read, rfl, rfl⟩
    exact ⟨_, c, answered, .list limit same, kept.ask (.inr ⟨limit, rfl⟩) _⟩
  | cleanup limit => exact ⟨_, _, answer_cleanup kept.isOpen limit, .cleanup limit, kept.cleanup limit⟩

/-- Every call of a history is answered, and each as the calls before it let expect. -/
theorem Kept.serve (kept : Kept log c) {calls : List StoreCall} (fits : ∀ call ∈ calls, call.Storable) :
    ∃ later last, c.serve calls = .ok (later, last) ∧ later.map (·.1) = calls ∧ Kept (log ++ later) last ∧
      ∀ before call reply after, later = before ++ (call, reply) :: after → StoreLog.Expects (log ++ before) call reply := by
  induction calls generalizing log c with
  | nil => exact ⟨[], c, rfl, rfl, by rwa [List.append_nil], fun before _ _ _ same => by simp at same⟩
  | cons call calls ih =>
    obtain ⟨reply, next, answered, expected, left⟩ := kept.answer (fits call List.mem_cons_self)
    obtain ⟨later, last, served, same, end_, others⟩ := ih left fun other member => fits other (List.mem_cons_of_mem _ member)
    refine ⟨(call, reply) :: later, last, serve_cons.mpr ⟨reply, next, later, answered, served, rfl⟩, ?_, ?_, ?_⟩
    · rw [List.map_cons, same]
    · rw [List.append_assoc] at end_
      exact end_
    · intro before call' reply' after split
      cases before with
      | nil =>
        cases split
        rw [List.append_nil]
        exact expected
      | cons entry before =>
        obtain ⟨rfl, rest⟩ := List.cons.inj split
        have expected' := others before call' reply' after rest
        rw [List.append_assoc] at expected'
        exact expected'

theorem Kept.ids (kept : Kept log c) : c.store.newestFirst.map (·.id) = log.live.map (·.id) := by
  rw [kept.ordered.newestFirst_eq]
  have rows := kept.rows
  generalize c.store.runs.reverse = held, log.live = live at rows
  induction rows with
  | nil => rfl
  | cons head _ ih => rw [List.map_cons, List.map_cons, head.id, ih]

/-- How a new store serves a history of calls. -/
structure Serves (calls : List StoreCall) (log : StoreLog) (last : Connection) : Prop where
  /-- No call fails, and each is answered in its turn. -/
  served : opened.serve calls = .ok (log, last)
  inTurn : log.map (·.1) = calls
  /-- Each reply is what the calls and replies before it let expect. -/
  expected : ∀ before call reply after, log = before ++ (call, reply) :: after → StoreLog.Expects before call reply
  /-- No number is given again, and later runs have larger ones. -/
  growing : log.numbers.Pairwise (· < ·)
  /-- Exactly those runs are left in the table that were recorded and not dropped, in their order. -/
  left : last.store.newestFirst.map (·.id) = log.live.map (·.id)
  /-- Names are answered as if there were no runs. -/
  naming : ∃ other, opened.serve (calls.filter StoreCall.isNaming) = .ok (log.filter fun entry => entry.1.isNaming, other)
  /-- Runs are answered as if there were no names. -/
  recording : ∃ other, opened.serve (calls.filter fun call => !call.isNaming) =
    .ok (log.filter fun entry => !entry.1.isNaming, other)

end Connection
end CallFusion
