import CallFusion.Text.Trim
import Mathlib.Data.List.DropRight

/-!
Texts without the characters at their ends that are taken off. What is taken off stands in front and behind, and more of
it there makes no difference. A text falls into pieces as the list of its characters does.
-/

namespace CallFusion.Text

variable {drop : Char → Bool}

/-- A part of some characters that has no character to be dropped at its ends, while nothing else stands around it. -/
structure Stripped (drop : Char → Bool) (whole part : List Char) : Prop where
  around : ∃ front back, whole = front ++ (part ++ back) ∧ (∀ c ∈ front, drop c = true) ∧ ∀ c ∈ back, drop c = true
  first : ∀ c ∈ part.head?, drop c = false
  last : ∀ c ∈ part.getLast?, drop c = false

theorem trimWith_toList (drop : Char → Bool) (s : String) :
    (trimWith drop s).toList = (s.toList.dropWhile drop).rdropWhile drop := by
  simp [trimWith, List.rdropWhile]

theorem exists_trimmed (drop : Char → Bool) (s : String) : ∃ front back,
    s.toList = front ++ ((trimWith drop s).toList ++ back) ∧ (∀ c ∈ front, drop c = true) ∧ ∀ c ∈ back, drop c = true := by
  refine ⟨s.toList.takeWhile drop, (s.toList.dropWhile drop).rtakeWhile drop, ?_, fun c => List.mem_takeWhile_imp, ?_⟩
  · rw [trimWith_toList, List.rdropWhile_append_rtakeWhile, List.takeWhile_append_dropWhile]
  · exact fun c => List.mem_rtakeWhile_imp

theorem rdropWhile_append {back : List Char} (taken : ∀ c ∈ back, drop c = true) (cs : List Char) :
    (cs ++ back).rdropWhile drop = cs.rdropWhile drop := by
  rw [List.rdropWhile, List.reverse_append, List.dropWhile_append_of_pos (by simpa using taken), List.rdropWhile]

theorem trimWith_append {front back : List Char} (taken : ∀ c ∈ front, drop c = true) (taken' : ∀ c ∈ back, drop c = true)
    (cs : List Char) : trimWith drop (.ofList (front ++ (cs ++ back))) = trimWith drop (.ofList cs) := by
  apply String.toList_injective
  rw [trimWith_toList, trimWith_toList, String.toList_ofList, String.toList_ofList, List.dropWhile_append_of_pos taken,
    List.dropWhile_append]
  split
  · next none =>
    rw [List.isEmpty_iff.mp none, List.dropWhile_eq_nil_iff.mpr taken']
  · exact rdropWhile_append taken' _

theorem trimWith_cons {c : Char} (kept : drop c = false) (cs : List Char) :
    (trimWith drop (.ofList (c :: cs))).toList = c :: cs.rdropWhile drop := by
  rw [trimWith_toList, String.toList_ofList, List.dropWhile_cons_of_neg (by simp [kept]), List.rdropWhile, List.reverse_cons,
    List.dropWhile_append]
  split
  · next none => simp [List.rdropWhile, List.isEmpty_iff.mp none, kept]
  · simp [List.rdropWhile]

theorem Stripped.trimmed {part : List Char} (first : ∀ c ∈ part.head?, drop c = false)
    (last : ∀ c ∈ part.getLast?, drop c = false) : (part.dropWhile drop).rdropWhile drop = part := by
  have front : part.dropWhile drop = part := by
    rw [List.dropWhile_eq_self_iff]
    intro some
    simp [first part[0] (by simp [List.head?_eq_getElem?, some])]
  rw [front, List.rdropWhile_eq_self_iff]
  intro some
  simp [last (part.getLast some) (List.getLast?_eq_getLast_of_ne_nil some)]

theorem trimWith_eq_iff {whole : List Char} {part : String} :
    trimWith drop (.ofList whole) = part ↔ Stripped drop whole part.toList := by
  constructor
  · rintro rfl
    refine ⟨by simpa using exists_trimmed drop (.ofList whole), ?_, ?_⟩
    all_goals
      rw [trimWith_toList, String.toList_ofList]
      intro c member
    · obtain ⟨back, parts⟩ := List.rdropWhile_prefix drop (whole.dropWhile drop)
      have kept := List.head?_dropWhile_not drop whole
      rwa [← parts, List.head?_append, member] at kept
    · have kept := List.head?_dropWhile_not drop (whole.dropWhile drop).reverse
      rw [List.rdropWhile, List.getLast?_reverse] at member
      rwa [member] at kept
  · rintro ⟨⟨front, back, rfl, taken, taken'⟩, first, last⟩
    rw [trimWith_append taken taken']
    apply String.toList_injective
    rw [trimWith_toList, String.toList_ofList, Stripped.trimmed first last]

/-- The pieces of a text are those of the list of its characters. -/
theorem splitChar_eq (sep : Char) (s : String) : splitChar sep s = (s.toList.splitOn sep).map .ofList := by
  have pieces : ∀ cs : List Char, splitChar.go sep cs = cs.splitOn sep := by
    intro cs
    induction cs with
    | nil => rfl
    | cons c cs ih =>
      rw [List.splitOn_eq_splitOnP] at ih ⊢
      rw [splitChar.go, ih, List.splitOnP_cons_eq_if_modifyHead]
      cases same : c == sep with
      | true => rfl
      | false =>
        obtain ⟨piece, rest, some⟩ := List.exists_cons_of_ne_nil (List.splitOnP_ne_nil (· == sep) cs)
        rw [some]
        rfl
  rw [splitChar, pieces]

end CallFusion.Text
