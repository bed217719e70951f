import CallFusion.Ir.Layout
import Mathlib.Data.List.Forall2
import Mathlib.Data.Nat.Find

/-!
What a type holds by value. A type is finite when following the names in it comes to an end; its shape is then the same
however deep one looks, and no definition on the way needs itself.
-/

namespace CallFusion.Ir

/-- A type with the names in it looked through. What is behind a pointer is no part of it. -/
inductive Shape where
  | int (bits : Nat)
  | float (kind : FloatKind)
  | pointer
  | array (length : Nat) (elem : Shape)
  | vector (length : Nat) (elem : Shape)
  | struct (packed : Bool) (fields : List Shape)
  /-- A structure of which nothing is known, or a type whose values are not stored. -/
  | sizeless
  deriving Repr, Inhabited

/-- The shape of a type that is at most so deep. -/
def shape? (table : TypeTable) : Nat → Ty → Option Shape
  | 0, _ => none
  | depth + 1, t =>
    match t with
    | .int bits => some (.int bits.toNat)
    | .float kind => some (.float kind)
    | .pointer _ _ => some .pointer
    | .array length elem => (shape? table depth elem).map (.array length.toNat)
    | .vector _ length elem => (shape? table depth elem).map (.vector length.toNat)
    | .struct packed fields => (fields.mapM (shape? table depth)).map (.struct packed)
    | .synonym _ body => shape? table depth body
    | .named name =>
      match table.find? name with
      | some (.is body) => shape? table depth body
      | some .opaqueStruct => some .sizeless
      | none => none
    | .void | .label | .token | .metadata | .mmx | .func _ _ _ | .unset => some .sizeless

/-- A finite type has a shape. -/
def HasShape (table : TypeTable) (t : Ty) (s : Shape) : Prop := ∃ depth, shape? table depth t = some s

section

variable {table : TypeTable} {t : Ty} {s : Shape} {depth more : Nat}

theorem mapM_eq_some_iff {α β : Type} {f : α → Option β} {xs : List α} {ys : List β} :
    xs.mapM f = some ys ↔ List.Forall₂ (fun x y => f x = some y) xs ys := by
  induction xs generalizing ys with
  | nil => simp [eq_comm]
  | cons x xs ih =>
    simp only [List.mapM_cons, Option.pure_def, Option.bind_eq_bind, Option.bind_eq_some_iff, Option.some.injEq,
      List.forall₂_cons_left_iff, ih]
    grind

theorem mapM_cons_eq_some {α β : Type} {f : α → Option β} {x : α} {xs : List α} {ys : List β}
    (found : (x :: xs).mapM f = some ys) : ∃ y rest, f x = some y ∧ xs.mapM f = some rest ∧ ys = y :: rest := by
  obtain ⟨y, rest, here, others, form⟩ := List.forall₂_cons_left_iff.mp (mapM_eq_some_iff.mp found)
  exact ⟨y, rest, here, mapM_eq_some_iff.mpr others, form⟩

theorem mem_mapM {α β : Type} {f : α → Option β} {xs : List α} {ys : List β} (found : xs.mapM f = some ys) {y : β}
    (listed : y ∈ ys) : ∃ x ∈ xs, f x = some y := by
  obtain ⟨k, within, rfl⟩ := List.getElem_of_mem listed
  have both := mapM_eq_some_iff.mp found
  have inside : k < xs.length := both.length_eq ▸ within
  exact ⟨xs[k], List.getElem_mem inside, both.get inside within⟩

theorem mapM_eq_none_iff {α β : Type} {f : α → Option β} {xs : List α} : xs.mapM f = none ↔ ∃ x ∈ xs, f x = none := by
  induction xs with
  | nil => simp
  | cons x xs ih =>
    rw [List.mapM_cons, List.exists_mem_cons_iff, ← ih]
    cases f x <;> cases xs.mapM f <;> simp

theorem mapM_mono {α β : Type} {f g : α → Option β} {xs : List α} {ys : List β}
    (known : ∀ x y, f x = some y → g x = some y) (found : xs.mapM f = some ys) : xs.mapM g = some ys :=
  mapM_eq_some_iff.mpr ((mapM_eq_some_iff.mp found).imp known)

theorem shape?_mono (found : shape? table depth t = some s) (deeper : depth ≤ more) : shape? table more t = some s := by
  induction depth generalizing t s more with
  | zero => cases found
  | succ depth ih =>
    obtain ⟨more, rfl⟩ := Nat.exists_eq_add_one_of_ne_zero (n := more) (by omega)
    have deeper : depth ≤ more := Nat.le_of_succ_le_succ deeper
    cases t with
    | array length elem | vector _ length elem =>
      obtain ⟨inner, known, form⟩ := Option.map_eq_some_iff.mp found
      exact Option.map_eq_some_iff.mpr ⟨inner, ih known deeper, form⟩
    | struct packed fields =>
      obtain ⟨inner, known, form⟩ := Option.map_eq_some_iff.mp found
      exact Option.map_eq_some_iff.mpr ⟨inner, mapM_mono (fun f y known => ih known deeper) known, form⟩
    | synonym name body => exact ih (t := body) found deeper
    | named name =>
      simp only [shape?] at found ⊢
      split at found
      · exact ih found deeper
      · exact found
      · exact found
    | _ => exact found

theorem HasShape.unique {s' : Shape} (shape : HasShape table t s) (also : HasShape table t s') : s = s' := by
  obtain ⟨depth, found⟩ := shape
  obtain ⟨depth', found'⟩ := also
  have first := shape?_mono found (Nat.le_max_left depth depth')
  have second := shape?_mono found' (Nat.le_max_right depth depth')
  exact Option.some.inj (first.symm.trans second)

theorem TypeTable.find?_without {name other : String} (apart : other ≠ name) :
    (table.without name).find? other = table.find? other := by
  rw [TypeTable.find?, TypeTable.find?, TypeTable.without, List.find?_filter]
  congr 2
  funext d
  by_cases same : d.name = other
  · simp [same, apart]
  · simp [same]

theorem shape?_without {name : String} (unneeded : ∀ k ≤ depth, shape? table k (.named name) = none)
    (found : shape? table depth t = some s) : shape? (table.without name) depth t = some s := by
  induction depth generalizing t s with
  | zero => cases found
  | succ depth ih =>
    have ih := fun {t s} => @ih t s fun k small => unneeded k (Nat.le_succ_of_le small)
    cases t with
    | array length elem | vector _ length elem =>
      obtain ⟨inner, known, form⟩ := Option.map_eq_some_iff.mp found
      exact Option.map_eq_some_iff.mpr ⟨inner, ih known, form⟩
    | struct packed fields =>
      obtain ⟨inner, known, form⟩ := Option.map_eq_some_iff.mp found
      exact Option.map_eq_some_iff.mpr ⟨inner, mapM_mono (fun f y known => ih known) known, form⟩
    | synonym other body => exact ih found
    | named other =>
      have apart : other ≠ name := by
        rintro rfl
        exact nomatch (unneeded _ le_rfl).symm.trans found
      simp only [shape?, TypeTable.find?_without apart] at found ⊢
      split at found
      · exact ih found
      · exact found
      · exact found
    | _ => exact found

theorem shape?_body {name : String} {body : Ty} (defined : table.find? name = some (.is body))
    (found : shape? table depth body = some s) : shape? (table.without name) depth body = some s := by
  classical
  have deep : ∃ k, shape? table k body = some s := ⟨depth, found⟩
  refine shape?_mono (shape?_without (fun k small => ?_) (Nat.find_spec deep)) (Nat.find_min' deep found)
  -- The name would need its body to be less deep than that is.
  cases k with
  | zero => rfl
  | succ k =>
    simp only [shape?, defined]
    cases early : shape? table k body with
    | none => rfl
    | some s' =>
      have same : s' = s := HasShape.unique ⟨k, early⟩ ⟨depth, found⟩
      exact absurd (same ▸ early) (Nat.find_min deep small)

end

end CallFusion.Ir
