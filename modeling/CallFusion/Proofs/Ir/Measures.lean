import CallFusion.Proofs.Ir.Shapes
import Mathlib.Data.Nat.Log
import Mathlib.Data.Nat.Prime.Basic
import Mathlib.Order.Bounds.Basic

/-!
The storage of a shape in unbounded numbers, and the same in numbers of which none may outgrow a word. Sizes are whole
numbers of alignments, fields stand at the least offsets that suit them, and small sizes outgrow no word on the way.
-/

namespace CallFusion.Ir

namespace Shape

section

variable {m : Type → Type} [Monad m] (keep : Nat → m Nat)

def roundUp (n a : Nat) : m Nat :=
  if a ≤ 1 then pure n
  else do
    let past ← keep (n + a)
    keep ((past - 1) / a * a)

/-- Storage of a whole power of two, aligned to at most `limit`. -/
def power (n limit : Nat) : m (Option (Nat × Nat)) := do
  let size ← keep (2 ^ Nat.clog 2 n)
  pure (some (size, min size limit))

/-- Where the last of some parts ends that are placed one after the other from `offset` on, and the largest alignment. -/
def place : List (Nat × Nat) → Nat → Nat → m (Nat × Nat)
  | [], offset, align => pure (offset, align)
  | (size, own) :: rest, offset, align => do
    let start ← roundUp keep offset own
    place rest (← keep (start + size)) (max align own)

/-- The parts of a packed structure need no alignment. -/
def fitted (packed : Bool) (parts : List (Nat × Nat)) : List (Nat × Nat) :=
  if packed then parts.map fun p => (p.1, 1) else parts

mutual
/-- Size and alignment of what has a shape, if it has a size. Every number on the way goes through `keep`. -/
def measure : Shape → m (Option (Nat × Nat))
  | int bits => do power keep ((← keep (bits + 7)) / 8) 8
  | float kind => pure (some (kind.size.toNat, kind.size.toNat))
  | pointer => pure (some (8, 8))
  | array length elem => do
    match ← measure elem with
    | some (size, align) =>
      let step ← roundUp keep size align
      pure (some (← keep (step * length), align))
    | none => pure none
  | vector length elem => do
    match ← measure elem with
    | some (size, _) => power keep (← keep (size * length)) 16
    | none => pure none
  | struct packed fields => do
    match ← measures fields with
    | some parts =>
      let (stop, align) ← place keep (fitted packed parts) 0 1
      pure (some (← roundUp keep stop align, align))
    | none => pure none
  | sizeless => pure none

def measures : List Shape → m (Option (List (Nat × Nat)))
  | [] => pure (some [])
  | s :: ss => do
    match ← measure s with
    | some part => do
      match ← measures ss with
      | some parts => pure (some (part :: parts))
      | none => pure none
    | none => pure none
end

end

/-- Rounding up, placing and measuring in unbounded numbers. -/
def rounded (n a : Nat) : Nat := roundUp (m := Id) pure n a

def placed (parts : List (Nat × Nat)) (offset align : Nat) : Nat × Nat := place (m := Id) pure parts offset align

def exact (s : Shape) : Option (Nat × Nat) := measure (m := Id) pure s

def word (n : Nat) : Option Nat := if n < 2 ^ 64 then some n else none

/-- Size and alignment in words, and nothing at all if a number on the way does not fit one. -/
def checked (s : Shape) : Option (Option (Nat × Nat)) := measure word s

theorem rounded_eq (n a : Nat) : rounded n a = if a ≤ 1 then n else (n + a - 1) / a * a := by
  unfold rounded roundUp
  split <;> rfl

theorem rounded_least (n : Nat) {a : Nat} (positive : 0 < a) :
    IsLeast {x | n ≤ x ∧ a ∣ x} (rounded n a) := by
  rw [rounded_eq]
  split
  · obtain rfl : a = 1 := by omega
    exact ⟨⟨le_rfl, Nat.one_dvd n⟩, fun x above => above.1⟩
  · refine ⟨⟨?_, Nat.dvd_mul_left a _⟩, ?_⟩
    · have := Nat.lt_div_mul_add (a := n + a - 1) positive
      omega
    · rintro x ⟨above, k, rfl⟩
      rw [Nat.mul_comm a k]
      refine Nat.mul_le_mul_right a ?_
      have : (n + a - 1) / a < k + 1 := (Nat.div_lt_iff_lt_mul positive).mpr (by
        rw [Nat.add_mul, Nat.mul_comm k a]
        omega)
      omega

theorem rounded_of_dvd {n a : Nat} (positive : 0 < a) (multiple : a ∣ n) : rounded n a = n :=
  (rounded_least n positive).unique ⟨⟨le_rfl, multiple⟩, fun _ above => above.1⟩

theorem min_pow_dvd (j k : Nat) : min (2 ^ j) (2 ^ k) ∣ 2 ^ j ∧ min (2 ^ j) (2 ^ k) ∣ 2 ^ k := by
  rcases Nat.le_total j k with less | less
  · rw [Nat.min_eq_left (Nat.pow_le_pow_right (by decide) less)]
    exact ⟨dvd_rfl, Nat.pow_dvd_pow 2 less⟩
  · rw [Nat.min_eq_right (Nat.pow_le_pow_right (by decide) less)]
    exact ⟨Nat.pow_dvd_pow 2 less, dvd_rfl⟩

theorem exact_int (bits : Nat) :
    exact (.int bits) = some (2 ^ Nat.clog 2 ((bits + 7) / 8), min (2 ^ Nat.clog 2 ((bits + 7) / 8)) 8) := rfl

theorem exact_array (length : Nat) (elem : Shape) :
    exact (.array length elem) = elem.exact.map fun p => (rounded p.1 p.2 * length, p.2) := by
  rw [exact, measure, exact]
  cases measure (m := Id) pure elem <;> rfl

theorem exact_vector (length : Nat) (elem : Shape) :
    exact (.vector length elem) =
      elem.exact.map fun p => (2 ^ Nat.clog 2 (p.1 * length), min (2 ^ Nat.clog 2 (p.1 * length)) 16) := by
  rw [exact, measure, exact]
  cases measure (m := Id) pure elem <;> rfl

theorem measures_exact (fields : List Shape) : measures (m := Id) pure fields = fields.mapM exact := by
  induction fields with
  | nil => rfl
  | cons s ss ih =>
    rw [List.mapM_cons, ← ih, exact, measures]
    cases measure (m := Id) pure s with
    | none => rfl
    | some part => cases measures (m := Id) pure ss <;> rfl

/-- Where a structure ends, and its alignment. -/
def close (stop : Nat × Nat) : Nat × Nat := (rounded stop.1 stop.2, stop.2)

theorem exact_struct (packed : Bool) (fields : List Shape) :
    exact (.struct packed fields) =
      (fields.mapM exact).map fun parts => close (placed (fitted packed parts) 0 1) := by
  rw [exact, measure, ← measures_exact]
  cases measures (m := Id) pure fields <;> rfl

def Whole (p : Nat × Nat) : Prop := p.2 ∣ 16 ∧ p.2 ∣ p.1

theorem Whole.positive {p : Nat × Nat} (whole : Whole p) : 0 < p.2 := Nat.pos_of_dvd_of_pos whole.1 (by decide)

theorem Whole.small {p : Nat × Nat} (whole : Whole p) : p.2 ≤ 16 := Nat.le_of_dvd (by decide) whole.1

theorem whole_power (n : Nat) {k : Nat} (small : k ≤ 4) :
    Whole (2 ^ Nat.clog 2 n, min (2 ^ Nat.clog 2 n) (2 ^ k)) :=
  ⟨(min_pow_dvd _ k).2.trans (Nat.pow_dvd_pow 2 small), (min_pow_dvd _ k).1⟩

theorem fitted_whole {packed : Bool} {parts : List (Nat × Nat)} (whole : ∀ p ∈ parts, Whole p) :
    ∀ p ∈ fitted packed parts, Whole p := by
  intro p listed
  cases packed with
  | false => exact whole p listed
  | true =>
    obtain ⟨q, _, rfl⟩ := List.mem_map.mp listed
    exact ⟨Nat.one_dvd _, Nat.one_dvd _⟩

theorem place_aligned {parts : List (Nat × Nat)} (whole : ∀ p ∈ parts, Whole p) (offset : Nat) {align : Nat}
    (fits : align ∣ 16) : (placed parts offset align).2 ∣ 16 := by
  induction parts generalizing offset align with
  | nil => exact fits
  | cons p rest ih =>
    have grown : max align p.2 ∣ 16 := max_rec' (· ∣ 16) fits (whole p List.mem_cons_self).1
    exact ih (fun q listed => whole q (List.mem_cons_of_mem _ listed)) _ grown

theorem close_whole {stop : Nat × Nat} (fits : stop.2 ∣ 16) : Whole (close stop) :=
  ⟨fits, (rounded_least stop.1 (Nat.pos_of_dvd_of_pos fits (by decide))).1.2⟩

theorem exact_whole {s : Shape} {p : Nat × Nat} (sized : s.exact = some p) : Whole p := by
  match s with
  | .int bits =>
    rw [exact_int] at sized
    exact Option.some.inj sized ▸ whole_power _ (k := 3) (by decide)
  | .float kind =>
    obtain rfl := Option.some.inj sized
    cases kind <;> exact ⟨by decide, dvd_rfl⟩
  | .pointer =>
    obtain rfl := Option.some.inj sized
    exact ⟨by decide, dvd_rfl⟩
  | .array length elem =>
    rw [exact_array] at sized
    obtain ⟨inner, known, rfl⟩ := Option.map_eq_some_iff.mp sized
    have whole := exact_whole known
    exact ⟨whole.1, (rounded_least _ whole.positive).1.2.mul_right _⟩
  | .vector length elem =>
    rw [exact_vector] at sized
    obtain ⟨inner, _, rfl⟩ := Option.map_eq_some_iff.mp sized
    exact whole_power _ (k := 4) le_rfl
  | .struct packed fields =>
    rw [exact_struct] at sized
    obtain ⟨parts, known, rfl⟩ := Option.map_eq_some_iff.mp sized
    refine close_whole (place_aligned (fitted_whole fun p listed => ?_) 0 (Nat.one_dvd _))
    obtain ⟨f, member, same⟩ := mem_mapM known listed
    exact exact_whole same
  | .sizeless => cases sized

theorem parts_whole {packed : Bool} {fields : List Shape} {parts : List (Nat × Nat)} (known : fields.mapM exact = some parts) :
    ∀ p ∈ fitted packed parts, Whole p := fitted_whole fun p listed => by
  obtain ⟨f, _, same⟩ := mem_mapM known listed
  exact exact_whole same

def children : Shape → List Shape
  | array _ elem | vector _ elem => [elem]
  | struct _ fields => fields
  | _ => []

inductive Part : Shape → Shape → Prop
  | whole (s : Shape) : Part s s
  | inside {part child s : Shape} (listed : child ∈ s.children) (below : Part part child) : Part part s

/-- Every size in it is far from the end of the words, and so is every width. -/
structure Fits (s : Shape) : Prop where
  width : ∀ bits, Part (.int bits) s → bits + 7 < 2 ^ 64
  size : ∀ part, Part part s → ∀ p, part.exact = some p → p.1 ≤ 2 ^ 63

theorem Fits.child {s child : Shape} (fits : Fits s) (listed : child ∈ s.children) : Fits child where
  width bits part := fits.width bits (.inside listed part)
  size part below := fits.size part (.inside listed below)

theorem Fits.elem {length : Nat} {elem : Shape} (fits : Fits (.array length elem)) : Fits elem :=
  fits.child List.mem_cons_self

theorem Fits.lane {length : Nat} {elem : Shape} (fits : Fits (.vector length elem)) : Fits elem :=
  fits.child List.mem_cons_self

theorem Fits.field {packed : Bool} {fields : List Shape} (fits : Fits (.struct packed fields)) {f : Shape}
    (listed : f ∈ fields) : Fits f :=
  fits.child listed

theorem word_eq {n : Nat} (small : n < 2 ^ 64) : word n = some n := if_pos small

theorem roundUp_word {n a : Nat} (small : n ≤ 2 ^ 63) (aligned : a ≤ 16) : roundUp word n a = some (rounded n a) := by
  have under : (n + a - 1) / a * a < 2 ^ 64 := by
    have := Nat.div_mul_le_self (n + a - 1) a
    omega
  rw [rounded_eq, roundUp, word_eq (n := n + a) (by omega)]
  split
  · rfl
  · exact word_eq under

theorem power_word {n limit : Nat} (small : 2 ^ Nat.clog 2 n ≤ 2 ^ 63) :
    power word n limit = some (some (2 ^ Nat.clog 2 n, min (2 ^ Nat.clog 2 n) limit)) := by
  rw [power, word_eq (by omega)]
  rfl

theorem placed_cons (p : Nat × Nat) (rest : List (Nat × Nat)) (offset align : Nat) :
    placed (p :: rest) offset align = placed rest (rounded offset p.2 + p.1) (max align p.2) := rfl

theorem le_placed {parts : List (Nat × Nat)} (whole : ∀ p ∈ parts, Whole p) (offset align : Nat) :
    offset ≤ (placed parts offset align).1 := by
  induction parts generalizing offset align with
  | nil => exact le_rfl
  | cons p rest ih =>
    have later := ih (fun q listed => whole q (List.mem_cons_of_mem _ listed)) (rounded offset p.2 + p.1) (max align p.2)
    have above := (rounded_least offset (whole p List.mem_cons_self).positive).1.1
    rw [placed_cons]
    omega

theorem place_word {parts : List (Nat × Nat)} (whole : ∀ p ∈ parts, Whole p) {offset align : Nat}
    (small : (placed parts offset align).1 ≤ 2 ^ 63) : place word parts offset align = some (placed parts offset align) := by
  induction parts generalizing offset align with
  | nil => rfl
  | cons p rest ih =>
    have others : ∀ q ∈ rest, Whole q := fun q listed => whole q (List.mem_cons_of_mem _ listed)
    rw [placed_cons] at small ⊢
    have later := le_placed others (rounded offset p.2 + p.1) (max align p.2)
    have first := whole p List.mem_cons_self
    have above := (rounded_least offset first.positive).1.1
    rw [place, roundUp_word (by omega) first.small]
    simp only [Option.bind_eq_bind, Option.bind_some, word_eq (show rounded offset p.2 + p.1 < 2 ^ 64 by omega)]
    exact ih others small

theorem le_close {stop : Nat × Nat} (fits : stop.2 ∣ 16) : stop.1 ≤ (close stop).1 :=
  (rounded_least stop.1 (Nat.pos_of_dvd_of_pos fits (by decide))).1.1

theorem measures_word {ss : List Shape} {parts : List (Nat × Nat)}
    (kept : ∀ s ∈ ss, ∀ p, s.exact = some p → s.checked = some (some p)) (sized : ss.mapM exact = some parts) :
    measures word ss = some (some parts) := by
  induction ss generalizing parts with
  | nil =>
    obtain rfl : [] = parts := by simpa using sized
    rfl
  | cons s rest ih =>
    obtain ⟨first, others, here, later, rfl⟩ := mapM_cons_eq_some sized
    have head := kept s List.mem_cons_self first here
    have tail := ih (fun t listed => kept t (List.mem_cons_of_mem _ listed)) later
    rw [checked] at head
    rw [measures, head]
    simp only [Option.bind_eq_bind, Option.bind_some, tail]
    rfl

/-- No number on the way to a size overflows. -/
theorem checked_of_exact {s : Shape} (fits : Fits s) {p : Nat × Nat} (sized : s.exact = some p) :
    s.checked = some (some p) := by
  match s with
  | .int bits =>
    have small := fits.size _ (.whole _) p sized
    rw [exact_int] at sized
    obtain rfl := Option.some.inj sized
    rw [checked, measure, word_eq (fits.width bits (.whole _))]
    exact power_word small
  | .float kind => exact congrArg some sized
  | .pointer => exact congrArg some sized
  | .array length elem =>
    have small := fits.size _ (.whole _) p sized
    rw [exact_array] at sized
    obtain ⟨inner, known, rfl⟩ := Option.map_eq_some_iff.mp sized
    have child := fits.elem
    have whole := exact_whole known
    have step := roundUp_word (child.size _ (.whole _) inner known) whole.small
    have ih := checked_of_exact child known
    rw [checked] at ih ⊢
    rw [measure, ih]
    simp only [Option.bind_eq_bind, Option.bind_some, step, word_eq (show rounded inner.1 inner.2 * length < 2 ^ 64 by omega)]
    rfl
  | .vector length elem =>
    have small := fits.size _ (.whole _) p sized
    rw [exact_vector] at sized
    obtain ⟨inner, known, rfl⟩ := Option.map_eq_some_iff.mp sized
    have child := fits.lane
    have ih := checked_of_exact child known
    have reach := Nat.le_pow_clog (b := 2) (by decide) (inner.1 * length)
    rw [checked] at ih ⊢
    rw [measure, ih]
    simp only [Option.bind_eq_bind, Option.bind_some, word_eq (show inner.1 * length < 2 ^ 64 by omega)]
    exact power_word small
  | .struct packed fields =>
    have small := fits.size _ (.whole _) p sized
    rw [exact_struct] at sized
    obtain ⟨parts, known, rfl⟩ := Option.map_eq_some_iff.mp sized
    -- every place is at most the size of the whole, which fits
    have whole : ∀ p ∈ fitted packed parts, Whole p := parts_whole known
    have aligned := place_aligned whole 0 (Nat.one_dvd 16)
    have ended := le_close aligned
    have ih := measures_word (fun f listed q => checked_of_exact (fits.field listed)) known
    rw [checked, measure, ih]
    simp only [Option.bind_eq_bind, Option.bind_some, place_word whole (ended.trans small),
      roundUp_word (ended.trans small) (Nat.le_of_dvd (by decide) aligned)]
    rfl
  | .sizeless => cases sized

theorem part_iff {part s : Shape} : Part part s ↔ part = s ∨ ∃ child ∈ s.children, Part part child := by
  constructor
  · intro below
    cases below with
    | whole => exact .inl rfl
    | inside listed below => exact .inr ⟨_, listed, below⟩
  · rintro (rfl | ⟨child, listed, below⟩)
    · exact .whole _
    · exact .inside listed below

theorem Part.trans {a b c : Shape} (first : Part a b) (second : Part b c) : Part a c := by
  induction second with
  | whole => exact first
  | inside listed _ ih => exact .inside listed ih

theorem Fits.part {s part : Shape} (fits : Fits s) (below : Part part s) : Fits part where
  width bits inner := fits.width bits (inner.trans below)
  size inner within := fits.size inner (within.trans below)

/-- What has no size contains something that has none. -/
theorem exact_eq_none_iff {s : Shape} : s.exact = none ↔ Part .sizeless s := by
  match s with
  | .int bits => simp [part_iff (s := .int bits), children, exact_int]
  | .float kind => simp [part_iff (s := .float kind), children, exact, measure]
  | .pointer => simp [part_iff (s := .pointer), children, exact, measure]
  | .array length elem => simp [part_iff (s := .array length elem), children, exact_array, exact_eq_none_iff (s := elem)]
  | .vector length elem => simp [part_iff (s := .vector length elem), children, exact_vector, exact_eq_none_iff (s := elem)]
  | .struct packed fields =>
    have each : ∀ f ∈ fields, (f.exact = none ↔ Part .sizeless f) := fun f _ => exact_eq_none_iff
    simp only [exact_struct, Option.map_eq_none_iff, mapM_eq_none_iff, part_iff (s := .struct packed fields), children, reduceCtorEq,
      false_or]
    exact exists_congr fun f => and_congr_right fun listed => each f listed
  | .sizeless => exact iff_of_true rfl (.whole _)

def bits (s : Shape) : Nat :=
  match s with
  | int bits => bits
  | s =>
    match s.exact with
    | some p => 8 * p.1
    | none => 0

/-- The sizes in bits of a type and of all that it contains by value are below the limit of signed words. -/
def Below (s : Shape) : Prop := ∀ part, Part part s → part.bits < 2 ^ 63

theorem below_iff {s : Shape} : Below s ↔ s.bits < 2 ^ 63 ∧ ∀ child ∈ s.children, Below child := by
  constructor
  · exact fun below => ⟨below s (.whole s), fun child listed part inner => below part (.inside listed inner)⟩
  · rintro ⟨here, inner⟩ part within
    rcases part_iff.mp within with rfl | ⟨child, listed, below⟩
    · exact here
    · exact inner child listed part below

theorem Below.fits {s : Shape} (below : Below s) : Fits s where
  width bits inner := by
    have small : bits < 2 ^ 63 := below _ inner
    omega
  size part within p sized := by
    have small := below part within
    cases part with
    | int bits =>
      rw [exact_int] at sized
      obtain rfl := Option.some.inj sized
      have narrow : bits < 2 ^ 63 := small
      have few : Nat.clog 2 ((bits + 7) / 8) ≤ 60 := Nat.clog_le_of_le_pow (by omega)
      exact (Nat.pow_le_pow_right (by decide) few).trans (by decide)
    | _ =>
      simp only [bits, sized] at small
      omega

/-- Offsets of parts behind a start, one after the other: each is the least that is aligned and behind the part before. -/
inductive Placed : Nat → List (Nat × Nat) → List Nat → Nat → Prop
  | done (stop : Nat) : Placed stop [] [] stop
  | next {start offset stop : Nat} {p : Nat × Nat} {parts : List (Nat × Nat)} {offsets : List Nat}
      (least : IsLeast {o | start ≤ o ∧ p.2 ∣ o} offset) (rest : Placed (offset + p.1) parts offsets stop) :
      Placed start (p :: parts) (offset :: offsets) stop

theorem exists_placed {parts : List (Nat × Nat)} (whole : ∀ p ∈ parts, Whole p) (start align : Nat) :
    ∃ offsets, Placed start parts offsets (placed parts start align).1 := by
  induction parts generalizing start align with
  | nil => exact ⟨[], .done start⟩
  | cons p rest ih =>
    obtain ⟨offsets, later⟩ := ih (fun q listed => whole q (List.mem_cons_of_mem _ listed)) (rounded start p.2 + p.1)
      (max align p.2)
    exact ⟨rounded start p.2 :: offsets, .next (rounded_least start (whole p List.mem_cons_self).positive) later⟩

theorem placed_align (parts : List (Nat × Nat)) (start align : Nat) :
    (placed parts start align).2 = (parts.map (·.2)).foldl max align := by
  induction parts generalizing start align with
  | nil => rfl
  | cons p rest ih => exact ih _ _

theorem fitted_cons (packed : Bool) (p : Nat × Nat) (parts : List (Nat × Nat)) :
    fitted packed (p :: parts) = (p.1, if packed then 1 else p.2) :: fitted packed parts := by
  cases packed <;> rfl

theorem placed_packed (parts : List (Nat × Nat)) (start : Nat) :
    placed (fitted true parts) start 1 = (start + (parts.map (·.1)).sum, 1) := by
  induction parts generalizing start with
  | nil => rfl
  | cons p rest ih =>
    rw [fitted_cons, placed_cons]
    simp only [if_true, Nat.max_self, rounded_of_dvd Nat.one_pos (Nat.one_dvd start), ih, List.map_cons, List.sum_cons,
      Nat.add_assoc]

/-- What size and alignment have to be, by what a type is made of. -/
inductive Sound : Shape → Nat → Nat → Prop
  | int {bits size align : Nat} (covers : (bits + 7) / 8 ≤ size) : Sound (.int bits) size align
  | float (kind : FloatKind) (size align : Nat) : Sound (.float kind) size align
  | pointer (size align : Nat) : Sound .pointer size align
  | array {length : Nat} {elem : Shape} {each align own : Nat} (known : elem.exact = some (each, own)) :
      Sound (.array length elem) (length * each) align
  | vector {length : Nat} {elem : Shape} {each own size align : Nat} (known : elem.exact = some (each, own))
      (covers : length * each ≤ size) : Sound (.vector length elem) size align
  | struct {fields : List Shape} {parts : List (Nat × Nat)} {offsets : List Nat} {stop size align : Nat}
      (known : fields.mapM exact = some parts) (apart : Placed 0 parts offsets stop)
      (largest : align = (parts.map (·.2)).foldl max 1) (least : IsLeast {n | stop ≤ n ∧ align ∣ n} size) :
      Sound (.struct false fields) size align
  | packed {fields : List Shape} {parts : List (Nat × Nat)} (known : fields.mapM exact = some parts) :
      Sound (.struct true fields) (parts.map (·.1)).sum 1

theorem exact_sound {s : Shape} {p : Nat × Nat} (sized : s.exact = some p) : Sound s p.1 p.2 := by
  cases s with
  | int bits =>
    rw [exact_int] at sized
    obtain rfl := Option.some.inj sized
    exact .int (Nat.le_pow_clog (by decide) _)
  | float kind => exact .float kind p.1 p.2
  | pointer => exact .pointer p.1 p.2
  | array length elem =>
    rw [exact_array] at sized
    obtain ⟨inner, known, rfl⟩ := Option.map_eq_some_iff.mp sized
    have whole := exact_whole known
    rw [rounded_of_dvd whole.positive whole.2, Nat.mul_comm]
    exact .array known
  | vector length elem =>
    rw [exact_vector] at sized
    obtain ⟨inner, known, rfl⟩ := Option.map_eq_some_iff.mp sized
    refine .vector known ?_
    rw [Nat.mul_comm]
    exact Nat.le_pow_clog (by decide) _
  | struct packed fields =>
    rw [exact_struct] at sized
    obtain ⟨parts, known, rfl⟩ := Option.map_eq_some_iff.mp sized
    cases packed with
    | true =>
      rw [placed_packed, Nat.zero_add, close, rounded_of_dvd Nat.one_pos (Nat.one_dvd _)]
      exact .packed known
    | false =>
      have whole : ∀ p ∈ parts, Whole p := @parts_whole false _ _ known
      obtain ⟨offsets, apart⟩ := exists_placed whole 0 1
      have positive := Nat.pos_of_dvd_of_pos (place_aligned whole 0 (Nat.one_dvd 16)) (by decide)
      exact .struct known apart (placed_align parts 0 1) (rounded_least _ positive)
  | sizeless => cases sized

end Shape
end CallFusion.Ir
