import CallFusion.Proofs.Text.Digits
import CallFusion.Proofs.Text.Rounding
import Mathlib.Data.List.TakeWhile

/-!
Texts for spans of time. A span is a row of numbers with units, each perhaps with a fraction, behind a sign if there is
one. A fraction is worked out in floating point, of as many of its digits as a word has room for. Such texts, and no
others, are read.
-/

namespace CallFusion.Text

inductive TimeUnit : String → Nat → Prop
  | nano : TimeUnit "ns" 1
  | micro : TimeUnit "us" (10 ^ 3)
  | microSign : TimeUnit "µs" (10 ^ 3)
  | mu : TimeUnit "μs" (10 ^ 3)
  | milli : TimeUnit "ms" (10 ^ 6)
  | second : TimeUnit "s" (10 ^ 9)
  | minute : TimeUnit "m" (60 * 10 ^ 9)
  | hour : TimeUnit "h" (3600 * 10 ^ 9)

/-- The longest row of leading digits for a number up to 2 ^ 63. -/
structure Counted (digits used : List Char) : Prop where
  front : used <+: digits
  fits : number used ≤ 2 ^ 63
  longest : ∀ more, more <+: digits → number more ≤ 2 ^ 63 → more.length ≤ used.length

/-- A power of ten in floating point, multiplied up factor by factor. -/
inductive Scale : Nat → ℚ → Prop
  | one : Scale 0 1
  | ten {places : Nat} {s t : ℚ} (before : Scale places s) (rounds : Rounds (s * 10) t) : Scale (places + 1) t

/-- What digits behind a point make of a unit. Each result in between is rounded, and of the last one the whole part is
taken. -/
inductive Fraction (unit : Nat) (digits : List Char) : Nat → Prop
  | mk {used : List Char} {f u s q y : ℚ} (counted : Counted digits used) (counts : Rounds (number used) f)
    (base : Rounds unit u) (scale : Scale used.length s) (share : Rounds (u / s) q) (whole : Rounds (f * q) y) :
    Fraction unit digits ⌊y⌋₊

/-- One number with its unit. There are digits in front of the point or behind it. -/
inductive Part : List Char → Nat → Prop
  | whole {digits : List Char} {name : String} {unit : Nat} (filled : digits ≠ []) (decimal : ∀ c ∈ digits, c.isDigit = true)
    (named : TimeUnit name unit) : Part (digits ++ name.toList) (number digits * unit)
  | fraction {digits behind : List Char} {name : String} {unit v : Nat} (filled : digits ≠ [] ∨ behind ≠ [])
    (decimal : ∀ c ∈ digits, c.isDigit = true) (decimal' : ∀ c ∈ behind, c.isDigit = true) (named : TimeUnit name unit)
    (share : Fraction unit behind v) : Part (digits ++ '.' :: (behind ++ name.toList)) (number digits * unit + v)

/-- The sum of the parts. It is kept in 64 bits, and neither a part nor the sum behind one is more than 2 ^ 63. -/
inductive Parts : Nat → List Char → Nat → Prop
  | done (sum : Nat) : Parts sum [] sum
  | part {sum v total : Nat} {cs rest : List Char} (first : Part cs v) (fits : v ≤ 2 ^ 63)
    (small : (sum + v) % 2 ^ 64 ≤ 2 ^ 63) (later : Parts ((sum + v) % 2 ^ 64) rest total) : Parts sum (cs ++ rest) total

/-- What stands in a text behind its sign, and if that is a minus. No sign is needed. -/
inductive Signed (text : String) : Bool → List Char → Prop
  | none : Signed text false text.toList
  | plus {cs : List Char} (spelled : text.toList = '+' :: cs) : Signed text false cs
  | minus {cs : List Char} (spelled : text.toList = '-' :: cs) : Signed text true cs

/-- A text for a span of time in nanoseconds. Zero needs no unit. -/
inductive Span (text : String) : Int → Prop
  | zero {negative : Bool} (signed : Signed text negative ['0']) : Span text 0
  | ahead {cs : List Char} {n : Nat} (signed : Signed text false cs) (filled : cs ≠ []) (parts : Parts 0 cs n)
    (below : n < 2 ^ 63) : Span text n
  | back {cs : List Char} {n : Nat} (signed : Signed text true cs) (filled : cs ≠ []) (parts : Parts 0 cs n) :
    Span text (-n)

/-! ### Fractions -/

theorem Counted.unique {digits used more : List Char} (first : Counted digits used) (second : Counted digits more) :
    used = more := by
  have same : used.length = more.length :=
    le_antisymm (second.longest used first.front first.fits) (first.longest more second.front second.fits)
  exact (List.prefix_of_prefix_length_le first.front second.front same.le).eq_of_length same

theorem Scale.unique {places : Nat} {s t : ℚ} (first : Scale places s) (second : Scale places t) : s = t := by
  induction first generalizing t with
  | one =>
    cases second
    rfl
  | ten before rounds ih =>
    cases second with
    | ten before' rounds' =>
      obtain rfl := ih before'
      exact rounds.unique rounds'

theorem Fraction.unique {unit : Nat} {digits : List Char} {v w : Nat} (first : Fraction unit digits v)
    (second : Fraction unit digits w) : v = w := by
  obtain ⟨counted, counts, base, scale, share, whole⟩ := first
  obtain ⟨counted', counts', base', scale', share', whole'⟩ := second
  obtain rfl := counted.unique counted'
  obtain rfl := counts.unique counts'
  obtain rfl := base.unique base'
  obtain rfl := scale.unique scale'
  obtain rfl := share.unique share'
  rw [whole.unique whole']

theorem durationLimit_eq : durationLimit = 2 ^ 63 := rfl

theorem fractionDigits_eq {n : Nat} (small : n ≤ 2 ^ 63) (places : Nat) (ds : List Char) : ∃ used, used <+: ds ∧
    fractionDigits n places ds = (digitsFrom n used, places + used.length) ∧ digitsFrom n used ≤ 2 ^ 63 ∧
    ∀ more, more <+: ds → digitsFrom n more ≤ 2 ^ 63 → more.length ≤ used.length := by
  induction ds generalizing n places with
  | nil => exact ⟨[], List.prefix_refl [], rfl, small, fun more front _ => front.length_le⟩
  | cons c cs ih =>
    rw [fractionDigits]
    split
    · next large =>
      refine ⟨[], List.nil_prefix, rfl, small, fun more front fits => ?_⟩
      cases more with
      | nil => exact le_rfl
      | cons d more =>
        -- One more digit is too much, and those behind it make it no less.
        obtain ⟨rfl, _⟩ := List.cons_prefix_cons.mp front
        have grown := le_digitsFrom (n * 10 + (d.toNat - 48)) more
        change digitsFrom (n * 10 + (d.toNat - 48)) more ≤ 2 ^ 63 at fits
        rw [Bool.or_eq_true, decide_eq_true_iff, decide_eq_true_iff, durationLimit_eq] at large
        omega
    · next fits =>
      have next : n * 10 + (c.toNat - 48) ≤ 2 ^ 63 := by
        rw [Bool.or_eq_true, decide_eq_true_iff, decide_eq_true_iff, durationLimit_eq] at fits
        omega
      obtain ⟨used, front, read, below, longest⟩ := ih next (places + 1)
      refine ⟨c :: used, List.cons_prefix_cons.mpr ⟨rfl, front⟩, ?_, below, fun more front' fits' => ?_⟩
      · rw [read, List.length_cons, Nat.add_assoc, Nat.add_comm 1]
        rfl
      · cases more with
        | nil => exact Nat.zero_le _
        | cons d more =>
          obtain ⟨rfl, behind⟩ := List.cons_prefix_cons.mp front'
          exact Nat.succ_le_succ (longest more behind fits')

theorem decimalScale_scale (places : Nat) : Scale places (decimalScale places).value ∧ 0 < (decimalScale places).value := by
  induction places with
  | zero =>
    have one : (decimalScale 0).value = 1 := by
      rw [show decimalScale 0 = ⟨2 ^ 52, -52⟩ by decide, Binary.value]
      norm_num
    rw [one]
    exact ⟨.one, one_pos⟩
  | succ places ih =>
    have ten : (Binary.ofNat 10).value = 10 := by
      rw [show Binary.ofNat 10 = ⟨10 * 2 ^ 49, -49⟩ by decide, Binary.value]
      norm_num
    have rounds := Binary.times_rounds (decimalScale places) (.ofNat 10)
    rw [ten] at rounds
    exact ⟨.ten ih.1 rounds, rounds.pos (mul_pos ih.2 (by norm_num))⟩

theorem fractionOf_fraction (unit : Nat) (digits : List Char) :
    Fraction unit digits (fractionOf unit (fractionDigits 0 0 digits).1 (fractionDigits 0 0 digits).2) := by
  obtain ⟨used, front, read, fits, longest⟩ := fractionDigits_eq (Nat.zero_le _) 0 digits
  have counted : Counted digits used := by
    refine ⟨front, number_eq used ▸ fits, fun more front' fits' => longest more front' ?_⟩
    rwa [number_eq] at fits'
  obtain ⟨scale, positive⟩ := decimalScale_scale used.length
  have counts := Binary.ofNat_rounds (number used)
  have base := Binary.ofNat_rounds unit
  have share := Binary.dividedBy_rounds (.ofNat unit) positive.ne'
  rw [read, Nat.zero_add, ← number_eq, fractionOf]
  dsimp only
  split
  · next none =>
    have nothing : Rounds (number used) 0 := .inl ⟨by rw [none, Nat.cast_zero], rfl⟩
    simpa using Fraction.mk counted nothing base scale share (.inl ⟨zero_mul _, rfl⟩)
  · rw [Binary.floor_eq]
    exact .mk counted counts base scale share (Binary.times_rounds _ _)

/-! ### Parts -/

theorem find?_units_iff {name : String} {unit : Nat} :
    (∃ known, durationUnits.find? (·.1 == name) = some (known, unit)) ↔ TimeUnit name unit := by
  constructor
  · rintro ⟨known, found⟩
    have named := List.find?_some found
    have listed := List.mem_of_find?_eq_some found
    obtain rfl : known = name := by simpa using named
    simp only [durationUnits, List.mem_cons, Prod.mk.injEq, List.not_mem_nil, or_false] at listed
    rcases listed with ⟨rfl, rfl⟩ | ⟨rfl, rfl⟩ | ⟨rfl, rfl⟩ | ⟨rfl, rfl⟩ | ⟨rfl, rfl⟩ | ⟨rfl, rfl⟩ | ⟨rfl, rfl⟩ | ⟨rfl, rfl⟩
    exacts [.nano, .micro, .microSign, .mu, .milli, .second, .minute, .hour]
  · intro named
    cases named <;> exact ⟨_, rfl⟩

theorem TimeUnit.chars {name : String} {unit : Nat} (named : TimeUnit name unit) :
    name.toList ≠ [] ∧ ∀ c ∈ name.toList, isUnitEnd c = false := by
  cases named <;> simp [isUnitEnd]

theorem TimeUnit.head {name : String} {unit : Nat} (named : TimeUnit name unit) :
    ∃ c cs, name.toList = c :: cs ∧ c.isDigit = false ∧ c ≠ '.' := by
  obtain ⟨some, chars⟩ := named.chars
  obtain ⟨c, cs, spelled⟩ := List.exists_cons_of_ne_nil some
  have first := chars c (spelled ▸ List.mem_cons_self)
  rw [isUnitEnd, Bool.or_eq_false_iff, beq_eq_false_iff_ne] at first
  exact ⟨c, cs, spelled, first.2, first.1⟩

theorem TimeUnit.pos {name : String} {unit : Nat} (named : TimeUnit name unit) : 0 < unit := by
  cases named <;> simp

/-- Nothing follows, or the next number. -/
def Ends (rest : List Char) : Prop := ∀ c ∈ rest.head?, isUnitEnd c = true

theorem takeWhile_append_of_ends {p : Char → Bool} {front : List Char} (rest : List Char) (taken : ∀ c ∈ front, p c = true)
    (stopped : ∀ c ∈ rest.head?, p c = false) :
    (front ++ rest).takeWhile p = front ∧ (front ++ rest).dropWhile p = rest := by
  rw [List.takeWhile_append_of_pos taken, List.dropWhile_append_of_pos taken]
  cases rest with
  | nil => simp
  | cons c cs => simp [stopped c rfl]

theorem digits_fit_iff {digits behind : List Char} :
    (digits.isEmpty && behind.isEmpty || decide (durationLimit < number digits)) = false ↔
      (digits ≠ [] ∨ behind ≠ []) ∧ number digits ≤ 2 ^ 63 := by
  rw [Bool.or_eq_false_iff, Bool.and_eq_false_iff, decide_eq_false_iff_not, durationLimit_eq, not_lt]
  simp only [List.isEmpty_eq_false_iff]

theorem value_fits_iff {n unit more : Nat} (positive : 0 < unit) :
    (decide (durationLimit / unit < n) || decide (durationLimit < n * unit + more)) = false ↔ n * unit + more ≤ 2 ^ 63 := by
  rw [Bool.or_eq_false_iff, decide_eq_false_iff_not, decide_eq_false_iff_not, durationLimit_eq, not_lt, not_lt,
    Nat.le_div_iff_mul_le positive]
  exact and_iff_right_of_imp (Nat.le_add_right _ _).trans

theorem measured?_eq_ok_iff {digits behind tail rest : List Char} {v : Nat} :
    measured? digits behind tail = .ok (v, rest) ↔ (digits ≠ [] ∨ behind ≠ []) ∧ v ≤ 2 ^ 63 ∧ Ends rest ∧
      ∃ name unit, TimeUnit name unit ∧ tail = name.toList ++ rest ∧
        v = number digits * unit + fractionOf unit (fractionDigits 0 0 behind).1 (fractionDigits 0 0 behind).2 := by
  have counts : digitsNumber digits = number digits := Timestamp.digitsValue_eq digits 0
  rw [measured?, counts]
  constructor
  · intro read
    split at read
    · cases read
    next fine =>
    dsimp only at read
    split at read
    · cases read
    split at read
    · cases read
    next known unit found =>
    split at read
    · cases read
    next fits =>
    obtain ⟨rfl, rfl⟩ := Prod.mk.inj (Except.ok.inj read)
    have named := find?_units_iff.mp ⟨known, found⟩
    have filled := (digits_fit_iff.mp (Bool.not_eq_true _ ▸ fine)).1
    have bounded := (value_fits_iff named.pos).mp (Bool.not_eq_true _ ▸ fits)
    refine ⟨filled, bounded, fun c first => ?_, _, unit, named, ?_, rfl⟩
    · have stopped := List.head?_dropWhile_not (fun c => !isUnitEnd c) tail
      simp_all
    · rw [String.toList_ofList, List.takeWhile_append_dropWhile]
  · rintro ⟨filled, fits, ends, name, unit, named, rfl, rfl⟩
    obtain ⟨some, chars⟩ := named.chars
    obtain ⟨taken, dropped⟩ : (name.toList ++ rest).takeWhile (!isUnitEnd ·) = name.toList ∧
        (name.toList ++ rest).dropWhile (!isUnitEnd ·) = rest :=
      takeWhile_append_of_ends rest (by simpa using chars) (by simpa [Ends] using ends)
    obtain ⟨known, found⟩ := find?_units_iff.mpr named
    have alone : number digits ≤ 2 ^ 63 := by
      calc number digits ≤ number digits * unit := Nat.le_mul_of_pos_right _ named.pos
        _ ≤ 2 ^ 63 := (Nat.le_add_right _ _).trans fits
    have fine := digits_fit_iff.mpr ⟨filled, alone⟩
    have small := (value_fits_iff named.pos).mpr fits
    have spelled : name.toList.isEmpty = false := by simpa using some
    simp only [fine, taken, dropped, spelled, String.ofList_toList, found, small, Bool.false_eq_true, if_false]

/-- The first part is read, up to where the next one begins. -/
theorem durationPart?_eq_ok_iff {cs rest : List Char} {v : Nat} :
    durationPart? cs = .ok (v, rest) ↔ v ≤ 2 ^ 63 ∧ Ends rest ∧ ∃ part, Part part v ∧ cs = part ++ rest := by
  constructor
  · intro read
    have split := List.takeWhile_append_dropWhile (p := Char.isDigit) (l := cs)
    have decimal : ∀ c ∈ cs.takeWhile Char.isDigit, c.isDigit = true := fun c => List.mem_takeWhile_imp
    simp only [durationPart?, digitRun] at read
    generalize cs.takeWhile Char.isDigit = digits at *
    generalize cs.dropWhile Char.isDigit = tail at *
    split at read
    · next behind =>
      have split' := List.takeWhile_append_dropWhile (p := Char.isDigit) (l := behind)
      have decimal' : ∀ c ∈ behind.takeWhile Char.isDigit, c.isDigit = true := fun c => List.mem_takeWhile_imp
      generalize behind.takeWhile Char.isDigit = fraction at *
      obtain ⟨filled, fits, ends, name, unit, named, form, rfl⟩ := measured?_eq_ok_iff.mp read
      refine ⟨fits, ends, _, .fraction filled decimal decimal' named (fractionOf_fraction unit fraction), ?_⟩
      rw [← split, ← split', form]
      simp
    · obtain ⟨filled, fits, ends, name, unit, named, form, rfl⟩ := measured?_eq_ok_iff.mp read
      have none : fractionOf unit (fractionDigits 0 0 []).1 (fractionDigits 0 0 []).2 = 0 := rfl
      rw [none, Nat.add_zero] at fits ⊢
      refine ⟨fits, ends, _, .whole (filled.resolve_right fun some => some rfl) decimal named, ?_⟩
      rw [← split, form, List.append_assoc]
  · rintro ⟨fits, ends, part, spelled, rfl⟩
    cases spelled with
    | @whole digits name unit filled decimal named =>
      obtain ⟨c, more, spelled, letter, point⟩ := named.head
      obtain ⟨taken, dropped⟩ := takeWhile_append_of_ends (name.toList ++ rest) decimal (by simpa [spelled] using letter)
      rw [List.append_assoc, durationPart?, digitRun, taken, dropped]
      dsimp only
      split
      · next same =>
        rw [spelled] at same
        exact absurd (List.cons.inj same).1 point
      · exact measured?_eq_ok_iff.mpr ⟨.inl filled, fits, ends, name, unit, named, rfl, rfl⟩
    | @fraction digits behind name unit share filled decimal decimal' named share' =>
      obtain ⟨c, more, spelled, letter, point⟩ := named.head
      obtain ⟨taken, dropped⟩ := takeWhile_append_of_ends ('.' :: (behind ++ (name.toList ++ rest))) decimal
        (by simp [show Char.isDigit '.' = false by decide])
      obtain ⟨taken', dropped'⟩ := takeWhile_append_of_ends (name.toList ++ rest) decimal'
        (by simpa [spelled] using letter)
      obtain rfl := share'.unique (fractionOf_fraction unit behind)
      rw [List.append_assoc, List.cons_append, List.append_assoc, durationPart?, digitRun, taken, dropped]
      simp only [digitRun, taken', dropped']
      exact measured?_eq_ok_iff.mpr ⟨filled, fits, ends, name, unit, named, rfl, rfl⟩

/-! ### Spans -/

theorem Part.head {cs : List Char} {v : Nat} (part : Part cs v) : cs ≠ [] ∧ Ends cs := by
  have digit : ∀ {c : Char}, c.isDigit = true → isUnitEnd c = true := fun decimal => by simp [isUnitEnd, decimal]
  cases part with
  | @whole digits name unit filled decimal named =>
    obtain ⟨c, more, rfl⟩ := List.exists_cons_of_ne_nil filled
    refine ⟨by simp, fun d first => ?_⟩
    obtain rfl : c = d := by simpa using first
    exact digit (decimal c List.mem_cons_self)
  | @fraction digits behind name unit share filled decimal decimal' named share' =>
    refine ⟨by simp, fun d first => ?_⟩
    cases digits with
    | nil =>
      obtain rfl : '.' = d := by simpa using first
      rfl
    | cons c more =>
      obtain rfl : c = d := by simpa using first
      exact digit (decimal c List.mem_cons_self)

theorem Parts.ends {sum total : Nat} {cs : List Char} (parts : Parts sum cs total) : Ends cs := by
  cases parts with
  | done => exact fun c none => nomatch none
  | part first _ _ _ =>
    obtain ⟨some, ends⟩ := first.head
    rwa [Ends, List.head?_append_of_ne_nil _ some]

theorem parts_nil_iff {sum total : Nat} : Parts sum [] total ↔ sum = total := by
  constructor
  · intro parts
    generalize spelled : ([] : List Char) = cs at parts
    cases parts with
    | done => rfl
    | part first _ _ _ => exact absurd (List.append_eq_nil_iff.mp spelled.symm).1 first.head.1
  · rintro rfl
    exact .done sum

theorem parts_cons_iff {sum total : Nat} {cs : List Char} (some : cs ≠ []) : Parts sum cs total ↔
    ∃ v rest, durationPart? cs = .ok (v, rest) ∧ (sum + v) % 2 ^ 64 ≤ 2 ^ 63 ∧ Parts ((sum + v) % 2 ^ 64) rest total := by
  constructor
  · intro parts
    cases parts with
    | done => exact absurd rfl some
    | part first fits small later => exact ⟨_, _, durationPart?_eq_ok_iff.mpr ⟨fits, later.ends, _, first, rfl⟩, small, later⟩
  · rintro ⟨v, rest, read, small, later⟩
    obtain ⟨fits, _, part, first, rfl⟩ := durationPart?_eq_ok_iff.mp read
    exact .part first fits small later

theorem durationParts_eq_ok_iff {fuel sum total : Nat} {cs : List Char} (enough : cs.length ≤ fuel) :
    durationParts fuel sum cs = .ok total ↔ Parts sum cs total := by
  induction fuel generalizing sum cs with
  | zero =>
    obtain rfl := List.eq_nil_of_length_eq_zero (Nat.le_zero.mp enough)
    simp [durationParts, parts_nil_iff]
  | succ fuel ih =>
    cases cs with
    | nil => simp [durationParts, parts_nil_iff]
    | cons c cs =>
      rw [parts_cons_iff (List.cons_ne_nil c cs), durationParts]
      cases read : durationPart? (c :: cs) with
      | error e => simp
      | ok pair =>
        obtain ⟨v, rest⟩ := pair
        obtain ⟨_, _, part, first, spelled⟩ := durationPart?_eq_ok_iff.mp read
        have shorter : rest.length ≤ fuel := by
          have used := List.length_pos_of_ne_nil first.head.1
          have whole := congrArg List.length spelled
          rw [List.length_append] at whole
          omega
        have whole : (∃ v' rest', (Except.ok (v, rest) : Except DurationFault (Nat × List Char)) = .ok (v', rest') ∧
            (sum + v') % 2 ^ 64 ≤ 2 ^ 63 ∧ Parts ((sum + v') % 2 ^ 64) rest' total) ↔
            (sum + v) % 2 ^ 64 ≤ 2 ^ 63 ∧ durationParts fuel ((sum + v) % 2 ^ 64) rest = .ok total := by
          rw [ih shorter]
          constructor
          · rintro ⟨_, _, ⟨⟩, later⟩
            exact later
          · exact fun later => ⟨v, rest, rfl, later⟩
        rw [whole]
        dsimp only
        rw [durationLimit_eq, show wordLimit = 2 ^ 64 from rfl]
        split
        · next large => exact iff_of_false nofun fun later => absurd later.1 (Nat.not_le.mpr large)
        · next small => rw [and_iff_right (Nat.not_lt.mp small)]
      · exact nofun

theorem unsigned?_eq_ok_iff {negative : Bool} {cs : List Char} {d : Int} : unsigned? negative cs = .ok d ↔
    cs = ['0'] ∧ d = 0 ∨ cs ≠ [] ∧ ∃ n, Parts 0 cs n ∧ if negative then d = -n else n < 2 ^ 63 ∧ d = n := by
  unfold unsigned?
  split
  · next zero =>
    obtain rfl : cs = ['0'] := by simpa using zero
    have unitless : ¬ ∃ n, Parts 0 ['0'] n := by
      rintro ⟨n, parts⟩
      obtain ⟨v, rest, read, -⟩ := (parts_cons_iff (List.cons_ne_nil _ _)).mp parts
      cases read
    constructor
    · rintro ⟨⟩
      exact .inl ⟨rfl, rfl⟩
    · rintro (⟨-, rfl⟩ | ⟨-, n, parts, -⟩)
      · rfl
      · exact absurd ⟨n, parts⟩ unitless
  next unlike =>
  split
  · next none =>
    obtain rfl := List.isEmpty_iff.mp none
    simp
  next some =>
  have other : cs ≠ ['0'] := by simpa using unlike
  have filled : cs ≠ [] := by simpa using some
  rw [or_iff_right fun zero => other zero.1, and_iff_right filled]
  simp only [← durationParts_eq_ok_iff (Nat.le_refl cs.length)]
  cases durationParts cs.length 0 cs with
  | error e => simp
  | ok n =>
    rw [durationLimit_eq]
    cases negative with
    | true => simp [eq_comm]
    | false =>
      simp only [Bool.false_eq_true, if_false, Except.ok.injEq, exists_eq_left']
      split
      · next small =>
        rw [and_iff_right small]
        simp [eq_comm]
      · next large => exact iff_of_false nofun fun result => large result.1

theorem unsigned?_sign {negative : Bool} {c : Char} {cs : List Char} {d : Int} (sign : c = '-' ∨ c = '+') :
    unsigned? negative (c :: cs) ≠ .ok d := by
  rw [ne_eq, unsigned?_eq_ok_iff]
  rintro (⟨same, -⟩ | ⟨-, n, parts, -⟩)
  · obtain ⟨rfl, -⟩ := List.cons.inj same
    revert sign
    decide
  · have first := parts.ends c rfl
    rcases sign with rfl | rfl
    all_goals cases first

theorem duration?_eq_ok_iff_signed {text : String} {d : Int} :
    duration? text = .ok d ↔ ∃ negative cs, Signed text negative cs ∧ unsigned? negative cs = .ok d := by
  unfold duration?
  split
  · next cs spelled =>
    refine ⟨fun read => ⟨true, cs, .minus spelled, read⟩, ?_⟩
    rintro ⟨_, _, none | spelled' | spelled', read⟩
    · exact absurd (spelled ▸ read) (unsigned?_sign (.inl rfl))
    · cases spelled.symm.trans spelled'
    · rwa [(List.cons.inj (spelled.symm.trans spelled')).2]
  · next cs spelled =>
    refine ⟨fun read => ⟨false, cs, .plus spelled, read⟩, ?_⟩
    rintro ⟨_, _, none | spelled' | spelled', read⟩
    · exact absurd (spelled ▸ read) (unsigned?_sign (.inr rfl))
    · rwa [(List.cons.inj (spelled.symm.trans spelled')).2]
    · cases spelled.symm.trans spelled'
  · next minus plus =>
    refine ⟨fun read => ⟨false, _, .none, read⟩, ?_⟩
    rintro ⟨_, _, none | spelled | spelled, read⟩
    · exact read
    · exact absurd spelled (plus _)
    · exact absurd spelled (minus _)

theorem duration?_eq_ok_iff {text : String} {d : Int} : duration? text = .ok d ↔ Span text d := by
  rw [duration?_eq_ok_iff_signed]
  constructor
  · rintro ⟨negative, cs, signed, read⟩
    rcases unsigned?_eq_ok_iff.mp read with ⟨rfl, rfl⟩ | ⟨filled, n, parts, result⟩
    · exact .zero signed
    · cases negative with
      | true =>
        obtain rfl := result
        exact .back signed filled parts
      | false =>
        obtain ⟨below, rfl⟩ := result
        exact .ahead signed filled parts below
  · intro span
    cases span with
    | zero signed => exact ⟨_, _, signed, unsigned?_eq_ok_iff.mpr (.inl ⟨rfl, rfl⟩)⟩
    | ahead signed filled parts below => exact ⟨_, _, signed, unsigned?_eq_ok_iff.mpr (.inr ⟨filled, _, parts, below, rfl⟩)⟩
    | back signed filled parts => exact ⟨_, _, signed, unsigned?_eq_ok_iff.mpr (.inr ⟨filled, _, parts, rfl⟩)⟩

end CallFusion.Text
