import CallFusion.Proofs.Store.Rows
import CallFusion.Store

/-!
The two tables of a store. Names are replaced in place; runs are added under numbers that only grow, so the table of runs
stays in the order of its numbers, and dropping old runs leaves its end.
-/
namespace CallFusion.Store

@[simp] theorem save_runs (s : Store) (symbol name : String) : (s.save symbol name).runs = s.runs := by
  unfold save
  split_ifs <;> rfl

@[simp] theorem save_sequence (s : Store) (symbol name : String) : (s.save symbol name).sequence = s.sequence := by
  unfold save
  split_ifs <;> rfl

@[simp] theorem cleanup_names (s : Store) (limit : Int) : (s.cleanup limit).names = s.names := by
  unfold cleanup
  split_ifs <;> rfl

@[simp] theorem cleanup_sequence (s : Store) (limit : Int) : (s.cleanup limit).sequence = s.sequence := by
  unfold cleanup
  split_ifs <;> rfl

/-! ### Names -/

theorem find?_replaced (names : List (String × String)) (symbol name other : String) :
    (names.map fun row => if row.1 == symbol then (symbol, name) else row).find? (·.1 == other) =
      if symbol = other then (names.find? (·.1 == symbol)).map fun _ => (symbol, name) else names.find? (·.1 == other) := by
  induction names with
  | nil => simp
  | cons row names ih =>
    rw [List.map_cons, List.find?_cons, ih]
    by_cases here : row.1 = symbol
    · by_cases same : symbol = other
      · simp [here, same]
      · simp [here, same, beq_eq_false_iff_ne.mpr same]
    · by_cases same : symbol = other
      · subst same
        simp [beq_eq_false_iff_ne.mpr here]
      · simp [here, same, List.find?_cons]

theorem lookup_save (s : Store) (symbol name other : String) :
    (s.save symbol name).lookup other = if symbol = other then some name else s.lookup other := by
  by_cases known : s.names.any (·.1 == symbol) = true
  · have found : (s.names.find? (·.1 == symbol)).isSome = true := by
      rw [List.find?_isSome]
      exact List.any_eq_true.mp known
    obtain ⟨row, first⟩ := Option.isSome_iff_exists.mp found
    rw [save, if_pos known]
    simp only [lookup, find?_replaced, first]
    split_ifs <;> rfl
  · have absent : s.names.find? (·.1 == symbol) = none := by
      rw [List.find?_eq_none]
      exact fun row member here => known (List.any_eq_true.mpr ⟨row, member, here⟩)
    rw [save, if_neg known]
    simp only [lookup, List.find?_append]
    split_ifs with same
    · subst same
      simp [absent]
    · simp [same]

/-! ### Runs -/

/-- The runs stand in the order of their numbers, and no number is above the largest that was given. -/
structure Ordered (s : Store) : Prop where
  increasing : (s.runs.map (·.id)).Pairwise (· < ·)
  bounded : ∀ row ∈ s.runs, row.id ≤ s.sequence

variable {s : Store}

theorem le_foldl_max (ns : List Nat) (n : Nat) : n ≤ ns.foldl max n ∧ ∀ m ∈ ns, m ≤ ns.foldl max n := by
  induction ns generalizing n with
  | nil => exact ⟨Nat.le_refl _, fun _ member => absurd member List.not_mem_nil⟩
  | cons k ns ih =>
    obtain ⟨least, each⟩ := ih (max n k)
    rw [List.foldl_cons]
    refine ⟨Nat.le_trans (Nat.le_max_left n k) least, fun m member => ?_⟩
    rcases List.mem_cons.mp member with rfl | inside
    · exact Nat.le_trans (Nat.le_max_right n m) least
    · exact each m inside

theorem sequence_lt_nextId (s : Store) : s.sequence < s.nextId := Nat.lt_succ_of_le (le_foldl_max _ _).1

theorem id_lt_nextId {row : RunRow} (member : row ∈ s.runs) : row.id < s.nextId :=
  Nat.lt_succ_of_le ((le_foldl_max _ _).2 row.id (List.mem_map_of_mem member))

theorem Ordered.save (ordered : s.Ordered) (symbol name : String) : (s.save symbol name).Ordered :=
  ⟨by rw [save_runs]; exact ordered.increasing, by rw [save_runs, save_sequence]; exact ordered.bounded⟩

theorem Ordered.record (ordered : s.Ordered) (now : Timestamp) (run : RunRecord) : (s.record now run).2.Ordered := by
  refine ⟨?_, fun row member => ?_⟩
  · simp only [Store.record, List.map_append, List.map_cons, List.map_nil]
    refine List.pairwise_append.mpr ⟨ordered.increasing, List.pairwise_singleton _ _, ?_⟩
    intro id member last same
    obtain ⟨row, inside, rfl⟩ := List.mem_map.mp member
    rw [List.mem_singleton.mp same]
    exact id_lt_nextId inside
  · rcases List.mem_append.mp member with inside | last
    · exact Nat.le_of_lt (id_lt_nextId inside)
    · rw [List.mem_singleton.mp last]
      exact Nat.le_refl _

theorem Ordered.row_eq (ordered : s.Ordered) {a b : RunRow} (first : a ∈ s.runs) (second : b ∈ s.runs) (same : a.id = b.id) :
    a = b := by
  have distinct : (s.runs.map (·.id)).Nodup := ordered.increasing.imp Nat.ne_of_lt
  exact List.inj_on_of_nodup_map distinct first second same

theorem Ordered.newestFirst_eq (ordered : s.Ordered) : s.newestFirst = s.runs.reverse := by
  have sorted : s.newestFirst.Pairwise fun a b => decide (b.id ≤ a.id) = true :=
    List.pairwise_mergeSort (by simp; omega) (by simp; omega) s.runs
  have falling : s.runs.reverse.Pairwise fun a b => decide (b.id ≤ a.id) = true := by
    rw [List.pairwise_reverse]
    exact (List.pairwise_map.mp ordered.increasing).imp fun less => decide_eq_true (Nat.le_of_lt less)
  have perm : s.newestFirst.Perm s.runs.reverse := (s.runs.mergeSort_perm _).trans s.runs.reverse_perm.symm
  refine perm.eq_of_pairwise (fun a b first second up down => ?_) sorted falling
  have same : a.id = b.id := Nat.le_antisymm (of_decide_eq_true down) (of_decide_eq_true up)
  exact ordered.row_eq ((s.runs.mergeSort_perm _).mem_iff.mp first) (List.mem_reverse.mp second) same

theorem Ordered.cleanup_runs (ordered : s.Ordered) {limit : Int} (positive : 0 < limit) :
    (s.cleanup limit).runs.reverse = s.runs.reverse.take limit.toNat := by
  have limited : ¬ limit ≤ 0 := by omega
  have split := List.take_append_drop limit.toNat s.runs.reverse
  have apart : (s.runs.reverse.map (·.id)).Nodup := by
    rw [List.map_reverse, List.nodup_reverse]
    exact ordered.increasing.imp Nat.ne_of_lt
  simp only [Store.cleanup, limited, if_false, ordered.newestFirst_eq]
  rw [← List.filter_reverse]
  generalize s.runs.reverse.take limit.toNat = kept at split ⊢
  generalize s.runs.reverse.drop limit.toNat = dropped at split
  rw [← split] at apart ⊢
  rw [List.map_append, List.nodup_append] at apart
  obtain ⟨-, -, apart⟩ := apart
  have stay : kept.filter (fun row => (kept.map (·.id)).contains row.id) = kept :=
    List.filter_eq_self.mpr fun row member => List.contains_iff_mem.mpr (List.mem_map_of_mem member)
  have go : dropped.filter (fun row => (kept.map (·.id)).contains row.id) = [] := by
    refine List.filter_eq_nil_iff.mpr fun row member here => ?_
    exact apart _ (List.contains_iff_mem.mp here) _ (List.mem_map_of_mem member) rfl
  rw [List.filter_append, stay, go, List.append_nil]

theorem Ordered.cleanup (ordered : s.Ordered) (limit : Int) : (s.cleanup limit).Ordered := by
  unfold Store.cleanup
  split_ifs
  · exact ordered
  · refine ⟨ordered.increasing.sublist (List.filter_sublist.map RunRow.id), fun row member => ?_⟩
    exact ordered.bounded row (List.mem_filter.mp member).1

end CallFusion.Store
