import Mathlib.Data.List.TakeWhile
import CallFusion.Proofs.Text.Calendar
import CallFusion.Proofs.Text.Digits

/-!
Points in time as text. A time within the years of four digits is written so that it reads back as the same instant.
-/
namespace CallFusion.Timestamp

/-- A time with whole nanoseconds whose year is written in four digits. -/
structure Writable (t : Timestamp) : Prop where
  nanos : t.nanos < 10 ^ 9
  first : 0 ≤ t.date.year
  last : t.date.year ≤ 9999

variable {t : Timestamp}

theorem clock_lt (t : Timestamp) : t.clock < 86400 := by
  simp only [clock, Int.fmod_eq_emod_of_nonneg _ (by decide : (0 : Int) ≤ 86400)]
  omega

theorem seconds_eq (t : Timestamp) : t.seconds = t.date.days * 86400 + t.clock := by
  simp only [date, clock, Date.days_ofDays, Int.fmod_eq_emod_of_nonneg _ (by decide : (0 : Int) ≤ 86400),
    Int.fdiv_eq_ediv_of_nonneg _ (by decide : (0 : Int) ≤ 86400)]
  omega

theorem stripped_append (cs : List Char) :
    ∃ n, cs = (cs.reverse.dropWhile (· == '0')).reverse ++ List.replicate n '0' := by
  refine ⟨(cs.reverse.takeWhile (· == '0')).length, ?_⟩
  have zeros : cs.reverse.takeWhile (· == '0') = List.replicate (cs.reverse.takeWhile (· == '0')).length '0' := by
    refine List.eq_replicate_iff.mpr ⟨rfl, fun c member => ?_⟩
    simpa using List.mem_takeWhile_imp member
  calc cs = (cs.reverse.takeWhile (· == '0') ++ cs.reverse.dropWhile (· == '0')).reverse := by
        rw [List.takeWhile_append_dropWhile, List.reverse_reverse]
    _ = (cs.reverse.dropWhile (· == '0')).reverse ++ (cs.reverse.takeWhile (· == '0')).reverse := List.reverse_append
    _ = _ := by
      rw [zeros, List.reverse_replicate, List.length_replicate]

theorem fraction?_digits {ds : List Char} (some_digit : ds ≠ []) (digits : ∀ c ∈ ds, c.isDigit = true) :
    fraction? ('.' :: ds ++ ['Z']) = some (Nat.ofDigitChars 10 ((ds ++ List.replicate 9 '0').take 9) 0, ['Z']) := by
  have front : (ds ++ ['Z']).takeWhile Char.isDigit = ds := by
    rw [List.takeWhile_append_of_pos digits, List.takeWhile_cons_of_neg (by decide), List.append_nil]
  have back : (ds ++ ['Z']).drop ds.length = ['Z'] := List.drop_left
  have filled : ds.isEmpty = false := by simpa using some_digit
  simp only [fraction?, List.cons_append, beq_self_eq_true, Bool.true_or, if_true, front, back, filled, digitsValue_eq,
    Bool.false_eq_true, if_false]

theorem fraction?_fractionText (small : t.nanos < 10 ^ 9) :
    fraction? (t.fractionText.toList ++ ['Z']) = some (t.nanos, ['Z']) := by
  by_cases whole : t.nanos = 0
  · simp [fractionText, whole, fraction?]
  · obtain ⟨n, split⟩ := stripped_append (padded 9 t.nanos).toList
    have text : t.fractionText.toList = '.' :: ((padded 9 t.nanos).toList.reverse.dropWhile (· == '0')).reverse := by
      simp [fractionText, whole]
    rw [text]
    generalize ((padded 9 t.nanos).toList.reverse.dropWhile (· == '0')).reverse = ds at split
    have digits : ∀ c ∈ ds, c.isDigit = true := by
      intro c member
      have inside : c ∈ (padded 9 t.nanos).toList := by
        rw [split]
        exact List.mem_append_left _ member
      exact padded_isDigit inside
    have some_digit : ds ≠ [] := by
      intro none
      have value := padded_value 9 t.nanos
      rw [split, none, digitsValue_eq, List.nil_append, Nat.ofDigitChars_replicate_zero, Nat.mul_zero] at value
      exact whole value.symm
    have length : (ds ++ List.replicate n '0').length = 9 := by
      rw [← split]
      exact padded_length (by decide) small
    have filled : (ds ++ List.replicate 9 '0').take 9 = (padded 9 t.nanos).toList := by
      have count : n + (9 - n) = 9 := by
        rw [List.length_append, List.length_replicate] at length
        omega
      calc (ds ++ List.replicate 9 '0').take 9 = ((ds ++ List.replicate n '0') ++ List.replicate (9 - n) '0').take 9 := by
            rw [List.append_assoc, List.replicate_append_replicate, count]
        _ = ds ++ List.replicate n '0' := List.take_left' length
        _ = (padded 9 t.nanos).toList := split.symm
    rw [fraction?_digits some_digit digits, filled, ← digitsValue_eq, padded_value]

@[simp] theorem mark?_cons (c : Char) (cs : List Char) : mark? c (c :: cs) = some cs := by
  simp [mark?]

theorem shortNumber?_padded {n : Nat} (small : n < 10 ^ 2) (rest : List Char) :
    shortNumber? ((padded 2 n).toList ++ rest) = some (n, rest) := by
  simp [shortNumber?, digits?_padded (by decide : 0 < 2) small]

def layout (year month day hour minute second : Nat) (rest : List Char) : List Char :=
  (padded 4 year).toList ++ '-' :: ((padded 2 month).toList ++ '-' :: ((padded 2 day).toList ++
    'T' :: ((padded 2 hour).toList ++ ':' :: ((padded 2 minute).toList ++ ':' :: ((padded 2 second).toList ++ rest)))))

theorem parse?_layout {s : String} {year month day hour minute second nanos : Nat} {rest : List Char}
    (written : s.toList = layout year month day hour minute second rest) (fraction : fraction? rest = some (nanos, ['Z']))
    (years : year ≤ 9999) (months : 1 ≤ month ∧ month ≤ 12) (days : 1 ≤ day ∧ day ≤ Date.monthLength year month)
    (hours : hour < 24) (minutes : minute < 60) (seconds : second < 60) :
    parse? s = some ⟨(Date.mk year month day).days * 86400 + hour * 3600 + minute * 60 + second, nanos⟩ := by
  have longest : Date.monthLength year month ≤ 31 := by
    simp only [Date.monthLength]
    split_ifs <;> omega
  have readYear := fun rest => digits?_padded (by decide) (show year < 10 ^ 4 by omega) rest
  have readMonth := fun rest => digits?_padded (by decide) (show month < 10 ^ 2 by omega) rest
  have readDay := fun rest => digits?_padded (by decide) (show day < 10 ^ 2 by omega) rest
  have readHour := fun rest => shortNumber?_padded (show hour < 10 ^ 2 by omega) rest
  have readMinute := fun rest => digits?_padded (by decide) (show minute < 10 ^ 2 by omega) rest
  have readSecond := fun rest => digits?_padded (by decide) (show second < 10 ^ 2 by omega) rest
  rw [parse?, written, layout]
  -- the binds are opened by definition, since simp takes long to walk through them
  dsimp only [bind, Option.bind]
  simp only [readYear, readMonth, readDay, readHour, readMinute, readSecond, mark?_cons, fraction, offset?]
  simp [months, days, hours, minutes, seconds]

theorem text_toList (fit : t.Writable) : t.text.toList =
    layout t.date.year.toNat t.date.month t.date.day (t.clock / 3600) (t.clock / 60 % 60) (t.clock % 60)
      (t.fractionText.toList ++ ['Z']) := by
  have year : t.date.year.natAbs = t.date.year.toNat := by
    have := fit.first
    omega
  have sign : ¬ t.date.year < 0 := by
    have := fit.first
    omega
  simp [text, dateText, clockText, layout, year, sign]

/-- A time reads back as the instant that was written. -/
theorem parse?_text (fit : t.Writable) : parse? t.text = some t := by
  have clock := t.clock_lt
  have year : (t.date.year.toNat : Int) = t.date.year := Int.toNat_of_nonneg fit.first
  have written := parse?_layout (t.text_toList fit) (fraction?_fractionText fit.nanos)
    (by have := fit.last; omega) (Date.ofDays_month _) (by rw [year]; exact Date.ofDays_day _) (by omega) (by omega) (by omega)
  have seconds : (t.date.days * 86400 + (t.clock / 3600 : Nat) * 3600 + (t.clock / 60 % 60 : Nat) * 60 +
      (t.clock % 60 : Nat) : Int) = t.seconds := by
    have whole := t.seconds_eq
    omega
  rw [written, year, seconds]

end CallFusion.Timestamp
