import Mathlib
import CallFusion.Proofs.Json.Stored
import CallFusion.Proofs.Text.Instants
import CallFusion.Store.Row

/-!
Runs in rows. A run that was put into a row is read out of it as it was recorded.
-/
namespace CallFusion

namespace Json

theorem mapM_map {α β : Type} {encode : α → β} {decode : β → Option α} {as : List α}
    (each : ∀ a ∈ as, decode (encode a) = some a) : (as.map encode).mapM decode = some as := by
  induction as with
  | nil => rfl
  | cons a as ih =>
    have head := each a List.mem_cons_self
    have tail := ih fun b member => each b (List.mem_cons_of_mem _ member)
    simp [head, tail]

theorem list?_ofTexts (ss : List String) : list? text? (ofTexts ss) = some ss :=
  mapM_map fun _ _ => rfl

theorem integer?_ofInt {n : Int} (word : Text.isSignedWord n = true) : integer? (ofInt n) = some n := by
  simp [integer?, ofInt, Int.toInt?_repr, word]

theorem table?_integers {ms : List (String × Int)} (words : ∀ m ∈ ms, Text.isSignedWord m.2 = true) :
    table? integer? (.obj (ms.map fun (key, n) => (key, ofInt n))) = some ms := by
  refine mapM_map fun m member => ?_
  simp [integer?_ofInt (words m member)]

theorem legible_ofTexts {ss : List String} (valid : ∀ s ∈ ss, Text.Valid s) : Legible (ofTexts ss) := by
  refine .arr fun j member => ?_
  obtain ⟨s, inside, rfl⟩ := List.mem_map.mp member
  exact .str (valid s inside)

theorem legible_integers {ms : List (String × Int)} (valid : ∀ m ∈ ms, Text.Valid m.1) :
    Legible (.obj (ms.map fun (key, n) => (key, ofInt n))) := by
  refine .obj (fun m member => ?_) fun m member => ?_
  · obtain ⟨k, inside, rfl⟩ := List.mem_map.mp member
    exact valid k inside
  · obtain ⟨k, inside, rfl⟩ := List.mem_map.mp member
    exact .int k.2

end Json

namespace RunRow

theorem decoded_stored {α : Type} (what : String) {encode : α → Json} {decode : Json → Option α} {value : Option α}
    (legible : ∀ a ∈ value, (encode a).Legible) (back : ∀ a ∈ value, decode (encode a) = some a)
    (present : ∀ a ∈ value, encode a ≠ .null) :
    decoded what decode (some (Json.ofOption encode value).stored) = .ok value := by
  have whole : (Json.ofOption encode value).Legible := by
    cases value with
    | none => exact .null
    | some a => exact legible a rfl
  have read := Json.parse?_stored whole
  have filled : (Json.ofOption encode value).stored ≠ "" := by
    intro empty
    have text := Json.stored_toList (Json.ofOption encode value)
    obtain ⟨c, cs, first, -⟩ := whole.starts
    rw [empty, ← Json.chars, first] at text
    exact List.cons_ne_nil c cs text.symm
  have taken : Json.optional? decode (Json.ofOption encode value) = some value := by
    cases value with
    | none => rfl
    | some a =>
      have same := back a rfl
      have other := present a rfl
      simp [Json.ofOption, Json.optional?, same]
  unfold decoded
  split
  next heq => exact absurd heq (Option.some_ne_none _)
  next heq => exact absurd (Option.some.inj heq) filled
  next heq =>
    rw [← Option.some.inj heq, read, Option.bind_some, taken]

end RunRow

namespace RunRecord

/-- A run that fits into a row: its time is written in four digits, its texts are valid and its numbers words. -/
structure Storable (r : RunRecord) : Prop where
  time : r.createdAt.Writable
  diagnostics : ∀ ds ∈ r.diagnostics, ∀ d ∈ ds, Text.Valid d
  keys : ∀ ms ∈ r.stats, ∀ m ∈ ms, Text.Valid m.1
  counts : ∀ ms ∈ r.stats, ∀ m ∈ ms, Text.isSignedWord m.2 = true

/-- Two records of the same run. Every field is the same; statistics are a table without an order. -/
structure Same (a b : RunRecord) : Prop where
  others : a = { b with stats := a.stats }
  stats : Option.Rel List.Perm a.stats b.stats

def sortedStats (r : RunRecord) : Option (List (String × Int)) := r.stats.map fun ms => ms.mergeSort fun a b => a.1 ≤ b.1

theorem perm_sortedStats (r : RunRecord) : Option.Rel List.Perm r.sortedStats r.stats := by
  unfold sortedStats
  cases r.stats with
  | none => exact .none
  | some ms => exact .some (ms.mergeSort_perm _)

theorem decoded_diagnostics {r : RunRecord} (fits : r.Storable) (what : String) :
    RunRow.decoded what (Json.list? Json.text?) (some r.diagnosticsJson.stored) = .ok r.diagnostics :=
  RunRow.decoded_stored what (fun ds member => Json.legible_ofTexts (fits.diagnostics ds member))
    (fun ds _ => Json.list?_ofTexts ds) (fun _ _ => Json.noConfusion)

theorem decoded_stats {r : RunRecord} (fits : r.Storable) (what : String) :
    RunRow.decoded what (Json.table? Json.integer?) (some r.statsJson.stored) = .ok r.sortedStats := by
  have written : r.statsJson =
      Json.ofOption (fun ms => .obj (ms.map fun m : String × Int => (m.1, Json.ofInt m.2))) r.sortedStats := by
    unfold statsJson sortedStats
    cases r.stats <;> rfl
  have among : ∀ ms ∈ r.sortedStats, ∃ given ∈ r.stats, ms.Perm given := by
    intro ms member
    obtain ⟨given, here, rfl⟩ := Option.map_eq_some_iff.mp member
    exact ⟨given, here, given.mergeSort_perm _⟩
  rw [written]
  refine RunRow.decoded_stored what (fun ms member => ?_) (fun ms member => ?_) (fun _ _ => Json.noConfusion)
  · obtain ⟨given, here, perm⟩ := among ms member
    exact Json.legible_integers fun m inside => fits.keys given here m (perm.mem_iff.mp inside)
  · obtain ⟨given, here, perm⟩ := among ms member
    exact Json.table?_integers fun m inside => fits.counts given here m (perm.mem_iff.mp inside)

/-- A run is read from its row under the number of the row. -/
theorem read_ofRecord {r : RunRecord} (fits : r.Storable) (id : Nat) :
    ∃ back, (RunRow.ofRecord id r).read = .ok back ∧ Same back { r with id := id } := by
  refine ⟨{ r with id := id, stats := r.sortedStats }, ?_, rfl, r.perm_sortedStats⟩
  have time := Timestamp.parse?_text fits.time
  have diagnostics := decoded_diagnostics fits "diagnostics"
  have stats := decoded_stats fits "stats"
  cases changed : r.changed <;>
    simp [RunRow.read, RunRow.ofRecord, time, diagnostics, stats, changed, bind, Except.bind, pure, Except.pure]

end RunRecord
end CallFusion
