import Mathlib.Tactic.IntervalCases
import Mathlib.Tactic.SplitIfs
import CallFusion.Timestamp

/-!
The calendar. Every number of days is the number of a day that exists, in a month of that year, so a date can be counted
back to the days that it was made from.
-/
namespace CallFusion

/-- A day within four hundred years from March: whole centuries, then whole groups of four years, then whole years. A
century is cut short by a day, except the last. -/
structure EraDay where
  centuries : Int
  groups : Int
  years : Int
  days : Int
  centuries_mem : 0 ≤ centuries ∧ centuries ≤ 3
  groups_mem : 0 ≤ groups ∧ groups ≤ 24
  years_mem : 0 ≤ years ∧ years ≤ 3
  days_mem : 0 ≤ days ∧ days ≤ 365
  leap : days = 365 → years = 3 ∧ (groups = 24 → centuries = 3)

namespace EraDay

def number (e : EraDay) : Int := 36524 * e.centuries + 1461 * e.groups + 365 * e.years + e.days

def year (e : EraDay) : Int := 100 * e.centuries + 4 * e.groups + e.years

theorem exists_number {n : Int} (least : 0 ≤ n) (small : n < 146097) : ∃ e : EraDay, e.number = n := by
  let centuries := min (n / 36524) 3
  let rest := n - 36524 * centuries
  let groups := rest / 1461
  let years := min (rest % 1461 / 365) 3
  refine ⟨⟨centuries, groups, years, rest % 1461 - 365 * years, ?_, ?_, ?_, ?_, ?_⟩, ?_⟩
  · omega
  · omega
  · omega
  · omega
  · omega
  · simp only [number]
    omega

theorem year_mem (e : EraDay) : 0 ≤ e.year ∧ e.year < 400 := by
  have := e.centuries_mem
  have := e.groups_mem
  have := e.years_mem
  simp only [year]
  omega

theorem number_eq (e : EraDay) : e.number = e.year * 365 + e.year / 4 - e.year / 100 + e.days := by
  have := e.groups_mem
  have := e.years_mem
  have fourths : e.year / 4 = 25 * e.centuries + e.groups := by
    simp only [year]
    omega
  have hundredths : e.year / 100 = e.centuries := by
    simp only [year]
    omega
  rw [fourths, hundredths]
  simp only [number, year]
  omega

theorem year_of_number (e : EraDay) :
    (e.number - e.number / 1460 + e.number / 36524 - e.number / 146096) / 365 = e.year := by
  have centuries := e.centuries_mem
  have groups := e.groups_mem
  have years := e.years_mem
  have days := e.days_mem
  have leap := e.leap
  have century : 1461 * e.groups + 365 * e.years + e.days < 36524 ∨ e.number = 146096 ∧ e.centuries = 3 := by
    simp only [number]
    omega
  have hundredths : e.number / 36524 - e.number / 146096 = e.centuries := by
    rcases century with within | ⟨last, fourth⟩
    · have quotient : e.number / 36524 = e.centuries := by
        simp only [number]
        omega
      omega
    · rw [last, fourth]
      decide
  have fourths : e.number / 1460 =
      25 * e.centuries + e.groups + (24 * e.centuries + e.groups + 365 * e.years + e.days) / 1460 := by
    simp only [number]
    omega
  rw [fourths, Int.add_sub_assoc, hundredths]
  simp only [number, year]
  omega

end EraDay

namespace Date

theorem isLeap_eraYear {e : EraDay} (era : Int) (last : e.days = 365) : isLeap (e.year + era * 400 + 1) = true := by
  have leap := e.leap last
  have centuries := e.centuries_mem
  have groups := e.groups_mem
  simp only [isLeap, Bool.and_eq_true, Bool.or_eq_true, beq_iff_eq, bne_iff_ne, EraDay.year]
  omega

/-- What a number of days is taken apart into. -/
theorem ofDays_eq (n : Int) : ∃ (e : EraDay) (era : Int), n + 719468 = era * 146097 + e.number ∧
    ofDays n =
      let shifted := (5 * e.days + 2) / 153
      let month := if shifted < 10 then shifted + 3 else shifted - 9
      ⟨e.year + era * 400 + (if month ≤ 2 then 1 else 0), month.toNat, (e.days - (153 * shifted + 2) / 5 + 1).toNat⟩ := by
  let era := (n + 719468).fdiv 146097
  have era_eq : era = (n + 719468) / 146097 := Int.fdiv_eq_ediv_of_nonneg _ (by decide)
  obtain ⟨e, number⟩ := EraDay.exists_number (n := n + 719468 - era * 146097) (by omega) (by omega)
  refine ⟨e, era, by omega, ?_⟩
  have days : e.number - (365 * e.year + e.year / 4 - e.year / 100) = e.days := by
    rw [e.number_eq]
    omega
  simp only [ofDays]
  rw [show (n + 719468).fdiv 146097 = era from rfl, ← number, e.year_of_number, days]

/-- A number of days is the number of the day that it is turned into. -/
theorem days_ofDays (n : Int) : (ofDays n).days = n := by
  obtain ⟨e, era, number, same⟩ := ofDays_eq n
  have days := e.days_mem
  have year := e.year_mem
  have count := e.number_eq
  generalize split : (5 * e.days + 2) / 153 = shifted at same
  have months : 0 ≤ shifted ∧ shifted ≤ 11 := by omega
  have marched : (if (ofDays n).month ≤ 2 then (ofDays n).year - 1 else (ofDays n).year) = e.year + era * 400 := by
    rw [same]
    dsimp only
    split_ifs <;> omega
  have moved : ((ofDays n).month + 9 : Int) % 12 = shifted := by
    rw [same]
    dsimp only
    split_ifs <;> omega
  have day : (ofDays n).day = e.days - (153 * shifted + 2) / 5 + 1 := by
    rw [same]
    dsimp only
    omega
  have cycle : (e.year + era * 400).fdiv 400 = era := by
    rw [Int.fdiv_eq_ediv_of_nonneg _ (by decide)]
    omega
  simp only [Date.days, marched, moved, day, cycle]
  rw [Int.add_sub_cancel]
  omega

theorem ofDays_month (n : Int) : 1 ≤ (ofDays n).month ∧ (ofDays n).month ≤ 12 := by
  obtain ⟨e, era, -, same⟩ := ofDays_eq n
  have days := e.days_mem
  rw [same]
  dsimp only
  split_ifs <;> omega

theorem ofDays_day (n : Int) :
    1 ≤ (ofDays n).day ∧ (ofDays n).day ≤ monthLength (ofDays n).year (ofDays n).month := by
  obtain ⟨e, era, -, same⟩ := ofDays_eq n
  have days := e.days_mem
  generalize split : (5 * e.days + 2) / 153 = shifted at same
  rw [same]
  refine ⟨by dsimp only; omega, ?_⟩
  by_cases february : shifted = 11
  · subst february
    have least : 28 ≤ monthLength (e.year + era * 400 + 1) 2 := by
      simp only [monthLength, beq_self_eq_true, if_true]
      split_ifs <;> omega
    have long : e.days = 365 → monthLength (e.year + era * 400 + 1) 2 = 29 := by
      intro last
      simp [monthLength, isLeap_eraYear era last]
    change (e.days - 337 + 1).toNat ≤ monthLength (e.year + era * 400 + 1) 2
    omega
  · have months : 0 ≤ shifted ∧ shifted ≤ 10 := by omega
    obtain ⟨first, last⟩ := months
    interval_cases shifted <;> simp [monthLength] <;> omega

end Date
end CallFusion
