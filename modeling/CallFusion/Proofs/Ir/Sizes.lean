import CallFusion.Proofs.Ir.Layout
import CallFusion.Proofs.Ir.Measures

/-!
Sizes in words. The size and the alignment of a finite type are those of its shape in unbounded numbers as long as these
are small, and a type has none exactly if it contains something by value that has none.
-/

namespace CallFusion.Ir

open Shape

def Extent.ofMeasure : Option (Nat × Nat) → Extent
  | some (size, align) => .sized size.toUInt64 align.toUInt64
  | none => .unsized

theorem toNat_toUInt64 {n : Nat} (small : n < 2 ^ 64) : n.toUInt64.toNat = n := Nat.mod_eq_of_lt small

theorem alignTo_toUInt64 {n a : Nat} (small : n ≤ 2 ^ 63) (aligned : a ≤ 16) :
    alignTo n.toUInt64 a.toUInt64 = (rounded n a).toUInt64 := by
  have low : a.toUInt64 ≤ 1 ↔ a ≤ 1 := by
    rw [UInt64.le_iff_toNat_le, toNat_toUInt64 (by omega)]
    rfl
  rw [alignTo, rounded_eq]
  by_cases one : a ≤ 1
  · rw [if_pos (low.mpr one), if_pos one]
  · rw [if_neg (mt low.mp one), if_neg one]
    have last : (n.toUInt64 + a.toUInt64 - 1).toNat = n + a - 1 := by
      have one : (1 : UInt64).toNat = 1 := rfl
      rw [UInt64.toNat_sub, UInt64.toNat_add, toNat_toUInt64 (by omega), toNat_toUInt64 (by omega), one]
      omega
    have under := Nat.div_mul_le_self (n + a - 1) a
    apply UInt64.toNat_inj.mp
    rw [UInt64.toNat_mul, UInt64.toNat_div, last, toNat_toUInt64 (by omega), toNat_toUInt64 (by omega),
      Nat.mod_eq_of_lt (by omega)]

theorem shifted_toNat {k : Nat} (small : k < 64) : ((1 : UInt64) <<< k.toUInt64).toNat = 2 ^ k := by
  have one : (1 : UInt64).toNat = 1 := rfl
  rw [UInt64.toNat_shiftLeft, toNat_toUInt64 (by omega), Nat.mod_eq_of_lt small, one, Nat.one_shiftLeft,
    Nat.mod_eq_of_lt (Nat.pow_lt_pow_right (by decide) small)]

theorem findSome?_range {α : Type} {f : Nat → Option α} {n k : Nat} {x : α} (below : k < n) (before : ∀ j < k, f j = none)
    (here : f k = some x) : (List.range n).findSome? f = some x := by
  obtain ⟨more, rfl⟩ := Nat.exists_eq_add_of_lt below
  have split : List.range (k + more + 1) = List.range k ++ k :: ((List.range more).map Nat.succ).map (k + ·) := by
    rw [Nat.add_assoc, List.range_add, List.range_succ_eq_map]
    rfl
  exact List.findSome?_eq_some_iff.mpr ⟨_, k, _, split, here, fun j listed => before j (List.mem_range.mp listed)⟩

theorem powerAbove?_toUInt64 {n : Nat} (small : n ≤ 2 ^ 63) : powerAbove? n.toUInt64 = some (2 ^ Nat.clog 2 n).toUInt64 := by
  have reached : Nat.clog 2 n < 64 := Nat.lt_succ_of_le (Nat.clog_le_of_le_pow small)
  have large : ∀ k < 64, ((1 : UInt64) <<< k.toUInt64 < n.toUInt64 ↔ k < Nat.clog 2 n) := by
    intro k below
    rw [UInt64.lt_iff_toNat_lt, shifted_toNat below, toNat_toUInt64 (by omega), Nat.lt_clog_iff_pow_lt (by decide)]
  rw [powerAbove?, findSome?_range reached]
  · intro k less
    simp only [large k (by omega), less, if_true]
  · simp only [large _ reached, Nat.lt_irrefl, if_false, Option.some.injEq]
    apply UInt64.toNat_inj.mp
    rw [shifted_toNat reached, toNat_toUInt64 (Nat.pow_lt_pow_right (by decide) reached)]

theorem le_toUInt64 {n k : Nat} (small : n < 2 ^ 64) (small' : k < 2 ^ 64) : n.toUInt64 ≤ k.toUInt64 ↔ n ≤ k := by
  rw [UInt64.le_iff_toNat_le, toNat_toUInt64 small, toNat_toUInt64 small']

theorem min_toUInt64 {n k : Nat} (small : n < 2 ^ 64) (small' : k < 2 ^ 64) : min n.toUInt64 k.toUInt64 = (min n k).toUInt64 := by
  change (if n.toUInt64 ≤ k.toUInt64 then n.toUInt64 else k.toUInt64) = _
  rw [Nat.min_def, if_congr (le_toUInt64 small small') rfl rfl, apply_ite Nat.toUInt64]

theorem max_toUInt64 {n k : Nat} (small : n < 2 ^ 64) (small' : k < 2 ^ 64) : max n.toUInt64 k.toUInt64 = (max n k).toUInt64 := by
  change (if n.toUInt64 ≤ k.toUInt64 then k.toUInt64 else n.toUInt64) = _
  rw [Nat.max_def, if_congr (le_toUInt64 small small') rfl rfl, apply_ite Nat.toUInt64]

theorem powerExtent_toUInt64 {n limit : Nat} (small : 2 ^ Nat.clog 2 n ≤ 2 ^ 63) (limited : limit ≤ 16) :
    powerExtent n.toUInt64 limit.toUInt64 =
      .ofMeasure (some (2 ^ Nat.clog 2 n, min (2 ^ Nat.clog 2 n) limit)) := by
  have reach := Nat.le_pow_clog (b := 2) (by decide) n
  rw [powerExtent, powerAbove?_toUInt64 (reach.trans small)]
  dsimp only [Extent.ofMeasure]
  rw [min_toUInt64 (by omega) (by omega)]

section

variable {table : TypeTable} {packed : Bool} {fields : List Ty} {shapes : List Shape}

/-- Fields that all have a size, placed in words as in unbounded numbers. -/
theorem fieldsExtent_sized (agree : List.Forall₂ (fun f s => extent table f = .ofMeasure s.exact) fields shapes)
    {parts : List (Nat × Nat)} (sized : shapes.mapM exact = some parts) {offset align : Nat} (aligned : align ∣ 16)
    (small : (close (placed (fitted packed parts) offset align)).1 ≤ 2 ^ 63) :
    fieldsExtent table packed fields offset.toUInt64 align.toUInt64 =
      .ofMeasure (some (close (placed (fitted packed parts) offset align))) := by
  induction agree generalizing parts offset align with
  | nil =>
    obtain rfl : [] = parts := by simpa using sized
    have none : fitted packed [] = [] := by cases packed <;> rfl
    rw [none] at small ⊢
    have below : offset ≤ 2 ^ 63 := (@le_close (offset, align) aligned).trans small
    rw [fieldsExtent, alignTo_toUInt64 below (Nat.le_of_dvd (by decide) aligned)]
    rfl
  | @cons f s fields shapes first _ ih =>
    obtain ⟨p, parts, here, others, rfl⟩ := mapM_cons_eq_some sized
    have rest : ∀ q ∈ fitted packed parts, Whole q := parts_whole others
    have fit : Whole (p.1, if packed then 1 else p.2) := by
      cases packed with
      | false => exact exact_whole here
      | true => exact ⟨Nat.one_dvd _, Nat.one_dvd _⟩
    rw [fitted_cons, placed_cons] at small ⊢
    have word : (if packed then 1 else p.2.toUInt64) = (if packed then 1 else p.2).toUInt64 := by cases packed <;> rfl
    rw [fieldsExtent, first, here]
    dsimp only [Extent.ofMeasure] at small ⊢
    rw [word]
    generalize (if packed then 1 else p.2) = own at fit small ⊢
    have grown : max align own ∣ 16 := max_rec' (· ∣ 16) aligned fit.1
    -- The end of the structure is small, and this field ends before it.
    have reach := (le_placed rest (rounded offset own + p.1) (max align own)).trans
      ((le_close (place_aligned rest _ grown)).trans small)
    have above : offset ≤ rounded offset own := (rounded_least offset fit.positive).1.1
    have narrow : align ≤ 16 := Nat.le_of_dvd (by decide) aligned
    have narrow' : own ≤ 16 := fit.small
    rw [alignTo_toUInt64 (by omega) narrow', max_toUInt64 (by omega) (by omega), ← UInt64.ofNat_add]
    exact ih others grown small

theorem fieldsExtent_unsized (agree : List.Forall₂ (fun f s => extent table f = .ofMeasure s.exact) fields shapes)
    (lacking : shapes.mapM exact = none) (offset align : UInt64) : fieldsExtent table packed fields offset align = .unsized := by
  induction agree generalizing offset align with
  | nil => cases lacking
  | @cons f s fields shapes first _ ih =>
    rw [fieldsExtent, first]
    cases here : s.exact with
    | none => rfl
    | some p =>
      rw [mapM_eq_none_iff, List.exists_mem_cons_iff, here] at lacking
      exact ih (mapM_eq_none_iff.mpr (lacking.resolve_left (Option.some_ne_none p))) _ _

theorem forall₂_imp {α β : Type} {R S : α → β → Prop} {as : List α} {bs : List β} (both : List.Forall₂ R as bs)
    (imp : ∀ a b, b ∈ bs → R a b → S a b) : List.Forall₂ S as bs := by
  induction both with
  | nil => exact .nil
  | cons first _ rest =>
    exact .cons (imp _ _ List.mem_cons_self first) (rest fun a b listed => imp a b (List.mem_cons_of_mem _ listed))

theorem mul_toUInt64 (n : Nat) (length : UInt64) : n.toUInt64 * length = (n * length.toNat).toUInt64 := by
  apply UInt64.toNat_inj.mp
  rw [UInt64.toNat_mul]
  change n % 2 ^ 64 * length.toNat % 2 ^ 64 = n * length.toNat % 2 ^ 64
  rw [Nat.mod_mul_mod]

theorem extent_int {bits : UInt64} (fits : Fits (.int bits.toNat)) :
    extent table (.int bits) = .ofMeasure (Shape.int bits.toNat).exact := by
  have wide := fits.width bits.toNat (.whole _)
  have bytes : (bits + 7) / 8 = ((bits.toNat + 7) / 8).toUInt64 := by
    have seven : (7 : UInt64).toNat = 7 := rfl
    have eight : (8 : UInt64).toNat = 8 := rfl
    apply UInt64.toNat_inj.mp
    rw [UInt64.toNat_div, UInt64.toNat_add, seven, eight, toNat_toUInt64 (by omega), Nat.mod_eq_of_lt wide]
  rw [extent, bytes, exact_int]
  exact powerExtent_toUInt64 (fits.size _ (.whole _) _ (exact_int _)) (by decide)

theorem extent_array_ofMeasure {elem : Ty} {e : Shape} (inner : extent table elem = .ofMeasure e.exact) {length : UInt64}
    (fits : Fits (.array length.toNat e)) :
    extent table (.array length elem) = .ofMeasure (Shape.array length.toNat e).exact := by
  rw [extent, inner, exact_array]
  cases sized : e.exact with
  | none => rfl
  | some p =>
    have room := fits.elem.size _ (.whole _) p sized
    dsimp only [Extent.ofMeasure, Option.map_some]
    rw [alignTo_toUInt64 room (exact_whole sized).small, mul_toUInt64]

theorem extent_vector {elem : Ty} {e : Shape} (inner : extent table elem = .ofMeasure e.exact) {scalable : Bool}
    {length : UInt64} (fits : Fits (.vector length.toNat e)) :
    extent table (.vector scalable length elem) = .ofMeasure (Shape.vector length.toNat e).exact := by
  have whole := fits.size _ (.whole _)
  rw [extent, inner]
  rw [exact_vector] at whole ⊢
  cases sized : e.exact with
  | none => rfl
  | some p =>
    rw [sized] at whole
    dsimp only [Extent.ofMeasure, Option.map_some]
    rw [mul_toUInt64]
    exact powerExtent_toUInt64 (whole _ rfl) (by decide)

theorem extent_struct (agree : List.Forall₂ (fun f s => extent table f = .ofMeasure s.exact) fields shapes)
    (fits : Fits (.struct packed shapes)) :
    extent table (.struct packed fields) = .ofMeasure (Shape.struct packed shapes).exact := by
  have whole := fits.size _ (.whole _)
  rw [extent]
  rw [exact_struct] at whole ⊢
  cases sized : shapes.mapM exact with
  | none => exact fieldsExtent_unsized agree sized 0 1
  | some parts =>
    rw [sized] at whole
    exact fieldsExtent_sized agree sized (Nat.one_dvd 16) (whole _ rfl)

/-- The size of a type in words is the one in unbounded numbers, if that is small. -/
theorem extent_of_shape? {depth : Nat} {t : Ty} {s : Shape} (found : shape? table depth t = some s) (fits : Fits s) :
    extent table t = .ofMeasure s.exact := by
  induction depth generalizing table t s with
  | zero => cases found
  | succ depth ih =>
    cases t with
    | int bits =>
      obtain rfl := Option.some.inj found
      exact extent_int fits
    | float kind =>
      obtain rfl := Option.some.inj found
      rw [extent]
      cases kind <;> rfl
    | array length elem =>
      obtain ⟨e, known, rfl⟩ := Option.map_eq_some_iff.mp found
      exact extent_array_ofMeasure (ih known fits.elem) fits
    | vector scalable length elem =>
      obtain ⟨e, known, rfl⟩ := Option.map_eq_some_iff.mp found
      exact extent_vector (ih known fits.lane) fits
    | struct packed fields =>
      obtain ⟨shapes, known, rfl⟩ := Option.map_eq_some_iff.mp found
      refine extent_struct ?_ fits
      exact forall₂_imp (mapM_eq_some_iff.mp known) fun f s listed known => ih known (fits.field listed)
    | synonym name body =>
      rw [extent]
      exact ih found fits
    | named name =>
      simp only [shape?] at found
      rw [extent.eq_def]
      dsimp only
      split
      · next body defined =>
        rw [defined] at found
        exact ih (shape?_body defined found) fits
      · next defined =>
        rw [defined] at found
        obtain rfl := Option.some.inj found
        rfl
      · next defined =>
        rw [defined] at found
        cases found
    | _ =>
      obtain rfl := Option.some.inj found
      rw [extent]
      rfl

end

/-- Size and alignment of a type, given what it contains by value. -/
structure LaidOut (table : TypeTable) (t : Ty) (s : Shape) : Prop where
  unsized : extent table t = .unsized ↔ Part .sizeless s
  sized : ¬ Part .sizeless s → ∃ size align : UInt64, extent table t = .sized size align ∧
    s.exact = some (size.toNat, align.toNat) ∧ s.checked = some (some (size.toNat, align.toNat)) ∧
    (∃ k ≤ 4, align.toNat = 2 ^ k) ∧ align.toNat ∣ size.toNat ∧ s.Sound size.toNat align.toNat
  parts : ∀ u part, HasShape table u part → Part part s → extent table u = .ofMeasure part.exact

/-- The layout of a finite type whose sizes are small: no number overflows on the way. -/
theorem extent_laidOut {table : TypeTable} {t : Ty} {s : Shape} (finite : HasShape table t s) (below : s.Below) :
    LaidOut table t s := by
  have agree : ∀ u part, HasShape table u part → Part part s → extent table u = .ofMeasure part.exact :=
    fun u part ⟨depth, found⟩ within => extent_of_shape? found (below.fits.part within)
  have here := agree t s finite (.whole s)
  refine ⟨?_, fun sizes => ?_, agree⟩
  · rw [here, ← exact_eq_none_iff]
    cases s.exact <;> simp [Extent.ofMeasure]
  · obtain ⟨p, known⟩ := Option.ne_none_iff_exists'.mp (mt exact_eq_none_iff.mp sizes)
    have whole := exact_whole known
    have room := below.fits.size s (.whole s) p known
    have size : p.1.toUInt64.toNat = p.1 := toNat_toUInt64 (by omega)
    have align : p.2.toUInt64.toNat = p.2 := toNat_toUInt64 (by have := whole.small; omega)
    refine ⟨p.1.toUInt64, p.2.toUInt64, by rw [here, known]; rfl, ?_⟩
    rw [size, align]
    obtain ⟨k, small, power⟩ := (Nat.dvd_prime_pow Nat.prime_two (m := 4)).mp whole.1
    exact ⟨known, checked_of_exact below.fits known, ⟨k, small, power⟩, whole.2, exact_sound known⟩

/-- A structure by name and by value in an array, a packed one, and a pointer back to the first. -/
def recordTypes : TypeTable := [⟨"pair", .is (.struct false [.int 8, .int 33]), "pair"⟩]

def record : Ty :=
  .struct false [.int 1, .array 3 (.named "pair"), .struct true [.int 8, .vector false 3 (.float .float)],
    .pointer (.named "pair") 0]

def recordShape : Shape :=
  .struct false [.int 1, .array 3 (.struct false [.int 8, .int 33]), .struct true [.int 8, .vector 3 (.float .float)],
    .pointer]

theorem record_laidOut : HasShape recordTypes record recordShape ∧ recordShape.Below ∧ LaidOut recordTypes record recordShape := by
  have finite : HasShape recordTypes record recordShape := ⟨5, by rfl⟩
  have leaf : ∀ s : Shape, s.children = [] → s.bits < 2 ^ 63 → s.Below := fun s none small =>
    below_iff.mpr ⟨small, by simp [none]⟩
  have pair : (Shape.struct false [.int 8, .int 33]).Below :=
    below_iff.mpr ⟨by decide +kernel, by simpa [children] using ⟨leaf (.int 8) rfl (by decide), leaf (.int 33) rfl (by decide)⟩⟩
  have packed : (Shape.struct true [.int 8, .vector 3 (.float .float)]).Below := by
    have lanes : (Shape.vector 3 (.float .float)).Below :=
      below_iff.mpr ⟨by decide +kernel, by simpa [children] using leaf (.float .float) rfl (by decide +kernel)⟩
    exact below_iff.mpr ⟨by decide +kernel, by simpa [children] using ⟨leaf (.int 8) rfl (by decide), lanes⟩⟩
  have below : recordShape.Below := by
    have pairs : (Shape.array 3 (.struct false [.int 8, .int 33])).Below :=
      below_iff.mpr ⟨by decide +kernel, by simpa [children] using pair⟩
    refine below_iff.mpr ⟨by decide +kernel, ?_⟩
    simpa [recordShape, children] using
      ⟨leaf (.int 1) rfl (by decide), pairs, packed, leaf .pointer rfl (by decide +kernel)⟩
  exact ⟨finite, below, extent_laidOut finite below⟩

example : recordShape.exact = some (88, 8) := by decide +kernel

end CallFusion.Ir
