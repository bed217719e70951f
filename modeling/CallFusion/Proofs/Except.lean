import Mathlib.Data.List.Forall2

/-! Steps that may fail: what they come to where none of them does. -/

namespace Except

variable {ε α β : Type}

theorem bind_eq_ok_iff {act : Except ε α} {next : α → Except ε β} {b : β} :
    (act >>= next) = .ok b ↔ ∃ a, act = .ok a ∧ next a = .ok b := by
  cases act with
  | error e => simp [Bind.bind, Except.bind]
  | ok a => simp [Bind.bind, Except.bind]

theorem pure_eq_ok_iff {a b : α} : (Pure.pure a : Except ε α) = .ok b ↔ a = b := by
  change Except.ok a = .ok b ↔ _
  rw [Except.ok.injEq]

theorem mapError_eq_ok_iff {ε' : Type} {act : Except ε α} {f : ε → ε'} {a : α} : act.mapError f = .ok a ↔ act = .ok a := by
  cases act with
  | error e => simp [Except.mapError]
  | ok a => simp [Except.mapError]

theorem mapM_eq_ok_iff {act : α → Except ε β} {as : List α} {bs : List β} :
    as.mapM act = .ok bs ↔ List.Forall₂ (fun a b => act a = .ok b) as bs := by
  induction as generalizing bs with
  | nil => rw [List.mapM_nil, pure_eq_ok_iff, List.forall₂_nil_left_iff, eq_comm]
  | cons a as ih =>
    simp only [List.mapM_cons, bind_eq_ok_iff, pure_eq_ok_iff, List.forall₂_cons_left_iff, ih]
    constructor
    · rintro ⟨b, first, cs, others, rfl⟩
      exact ⟨b, cs, first, others, rfl⟩
    · rintro ⟨b, cs, first, others, rfl⟩
      exact ⟨b, first, cs, others, rfl⟩

theorem exists_of_mem_mapM {act : α → Except ε β} {as : List α} {bs : List β} (run : as.mapM act = .ok bs) {b : β}
    (listed : b ∈ bs) : ∃ a ∈ as, act a = .ok b := by
  have paired := mapM_eq_ok_iff.mp run
  induction paired with
  | nil => cases listed
  | @cons a c as bs first others ih =>
    rcases List.mem_cons.mp listed with rfl | later
    · exact ⟨a, List.mem_cons_self, first⟩
    · obtain ⟨d, member, given⟩ := ih (mapM_eq_ok_iff.mpr others) later
      exact ⟨d, List.mem_cons_of_mem _ member, given⟩

end Except
