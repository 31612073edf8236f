import Mathlib.Algebra.Order.Ring.Int
import Mathlib.Tactic.IntervalCases
import ToolBridge.Calendar.Date

/-! Days of the calendar counted by its own rules: which years leap, how long a month is, and nothing else. A date
found for a number of days is one that the calendar has, and counting its days gives the number back. -/

namespace ToolBridge.Calendar

/-! ## The rules of the calendar -/

/-- Every fourth year leaps, but of those that end a century only every fourth. -/
def Leaps (year : Int) : Prop := 4 ∣ year ∧ (100 ∣ year → 400 ∣ year)

instance (year : Int) : Decidable (Leaps year) := inferInstanceAs (Decidable (_ ∧ _))

def yearLength (year : Int) : Int := if Leaps year then 366 else 365

def monthLength (year : Int) : Nat → Nat
  | 1 | 3 | 5 | 7 | 8 | 10 | 12 => 31
  | 4 | 6 | 9 | 11 => 30
  | 2 => if Leaps year then 29 else 28
  | _ => 0

/-- The days of so many years from 1970 on. -/
def yearsOn : Nat → Int
  | 0 => 0
  | n + 1 => yearsOn n + yearLength (1970 + n)

/-- The days of so many years back from 1970. -/
def yearsBack : Nat → Int
  | 0 => 0
  | n + 1 => yearsBack n + yearLength (1969 - n)

/-- The days of the months of a year before one; what is no month has none. -/
def monthsOn (year : Int) : Nat → Nat
  | 0 => 0
  | month + 1 => monthsOn year month + monthLength year month

namespace Date

structure Proper (d : Date) : Prop where
  month : 1 ≤ d.month ∧ d.month ≤ 12
  day : 1 ≤ d.day ∧ d.day ≤ monthLength d.year d.month

/-- The days from 1 January 1970 to a date. One of the two spans of years is empty. -/
def dayNumber (d : Date) : Int :=
  yearsOn (d.year - 1970).toNat - yearsBack (1970 - d.year).toNat + monthsOn d.year d.month + (d.day - 1)

end Date

def Weekday.place : Weekday → Int
  | .monday => 1
  | .tuesday => 2
  | .wednesday => 3
  | .thursday => 4
  | .friday => 5
  | .saturday => 6
  | .sunday => 7

/-- Day 0 was a Thursday, and a weekday comes again every seven days. -/
def Weekday.FallsOn (weekday : Weekday) (days : Int) : Prop := 7 ∣ days - (weekday.place - thursday.place)

/-! ## Years and leap days -/

/-- The leap days of all years before one, counted from the year 1 on. -/
def leapDays (year : Int) : Int := (year - 1) / 4 - (year - 1) / 100 + (year - 1) / 400

theorem leapDays_succ (year : Int) : leapDays (year + 1) = leapDays year + (yearLength year - 365) := by
  unfold leapDays yearLength
  by_cases leaps : Leaps year
  · rw [if_pos leaps]
    unfold Leaps at leaps
    omega
  · rw [if_neg leaps]
    unfold Leaps at leaps
    omega

theorem yearsOn_eq (n : Nat) : yearsOn n = 365 * n + (leapDays (1970 + n) - 477) := by
  induction n with
  | zero => decide
  | succ n ih =>
    have next := leapDays_succ (1970 + n)
    rw [yearsOn, ih, Int.natCast_succ, ← Int.add_assoc, next]
    omega

theorem yearsBack_eq (n : Nat) : yearsBack n = 365 * n - (leapDays (1970 - n) - 477) := by
  induction n with
  | zero => decide
  | succ n ih =>
    have next := leapDays_succ (1969 - n)
    have same : (1969 - n + 1 : Int) = 1970 - n := by omega
    have earlier : (1970 - (n + 1 : Nat) : Int) = 1969 - n := by omega
    rw [same] at next
    rw [yearsBack, ih, next, earlier]
    omega

theorem years_eq (year : Int) :
    yearsOn (year - 1970).toNat - yearsBack (1970 - year).toNat = 365 * (year - 1970) + (leapDays year - 477) := by
  rw [yearsOn_eq, yearsBack_eq]
  rcases Int.le_total 1970 year with later | earlier
  · have since : (1970 + (year - 1970).toNat : Int) = year := by omega
    have origin : (1970 - (1970 - year).toNat : Int) = 1970 := by omega
    have counted : leapDays 1970 = 477 := by decide
    rw [since, origin, counted]
    omega
  · have since : (1970 + (year - 1970).toNat : Int) = 1970 := by omega
    have origin : (1970 - (1970 - year).toNat : Int) = year := by omega
    have counted : leapDays 1970 = 477 := by decide
    rw [since, origin, counted]
    omega

/-! ## Years counted from March -/

/-- The days of a span of four hundred years before one of its years, if years start in March. -/
def marchStart (year : Nat) : Nat := 365 * year + year / 4 - year / 100 + year / 400

/-- The day of a span, the leap days before it left out. -/
def unleaped (day : Nat) : Nat := day - day / 1460 + day / 36524 - day / 146096

theorem unleaped_mono {a b : Nat} (le : a ≤ b) (below : b < 146097) : unleaped a ≤ unleaped b := by
  induction b, le using Nat.le_induction with
  | base => exact Nat.le_refl _
  | succ b _ ih =>
    refine Nat.le_trans (ih (by omega)) ?_
    unfold unleaped
    omega

theorem unleaped_ends : ∀ year < 400, 365 * year ≤ unleaped (marchStart year) ∧
    unleaped (marchStart (year + 1) - 1) < 365 * (year + 1) := by decide +kernel

theorem year_of_day {day year : Nat} (below : day < 146097) (found : year = unleaped day / 365) :
    year < 400 ∧ marchStart year ≤ day ∧ day < marchStart (year + 1) := by
  have small : year < 400 := by
    have most := unleaped_mono (Nat.le_of_lt_succ below) (by decide)
    have last : unleaped 146096 = 145999 := by decide
    omega
  refine ⟨small, ?_, ?_⟩
  · by_contra before
    cases year with
    | zero => exact before (Nat.zero_le day)
    | succ year =>
      have ends := (unleaped_ends year (by omega)).2
      have most := unleaped_mono (Nat.le_sub_one_of_lt (Nat.not_le.mp before)) (by unfold marchStart; omega)
      omega
  · by_contra after
    by_cases final : year = 399
    · subst final
      exact after below
    · have starts := (unleaped_ends (year + 1) (by omega)).1
      have least := unleaped_mono (Nat.not_lt.mp after) below
      omega

/-- The month of the calendar that follows so many others from March on. -/
def marchMonth (month : Nat) : Nat := if month < 10 then month + 3 else month - 9

/-- The days from the first of March to a month. -/
def marchDays (month : Nat) : Nat := (153 * month + 2) / 5

theorem monthLength_march (year : Int) : ∀ month < 11,
    marchDays month + monthLength year (marchMonth month) = marchDays (month + 1) := by
  intro month before
  interval_cases month <;> rfl

theorem monthsOn_march (year : Int) : ∀ month < 10,
    monthsOn year (marchMonth month) = 31 + monthLength year 2 + marchDays month := by
  intro month before
  interval_cases month <;> simp [marchMonth, monthsOn, marchDays, monthLength]

theorem february (year : Int) : (monthLength year 2 : Int) = yearLength year - 337 := by
  change ((if Leaps year then 29 else 28 : Nat) : Int) = _
  unfold yearLength
  split <;> rfl

/-- Months counted from March are found for the days of such a year, which ends with its leap day. -/
theorem date_of_march {year : Int} {day : Nat} (within : (day : Int) < yearLength (year + 1)) {month : Nat}
    (found : month = (5 * day + 2) / 153) {d : Date}
    (date : d = ⟨year + (if month < 10 then 0 else 1), marchMonth month, day - marchDays month + 1⟩) :
    d.Proper ∧ d.dayNumber = 365 * (year - 1969) + (leapDays (year + 1) - 477) - 306 + day := by
  have upper : month < 12 := by
    unfold yearLength at within
    split at within <;> omega
  have begun : marchDays month ≤ day := by
    unfold marchDays
    omega
  have next := leapDays_succ year
  subst date
  refine ⟨⟨?_, ?_⟩, ?_⟩
  · dsimp only [marchMonth]
    split <;> omega
  · refine ⟨Nat.le_add_left 1 _, ?_⟩
    dsimp only
    by_cases last : month = 11
    · subst last
      have days := february (year + 1)
      have before : marchDays 11 = 337 := rfl
      change day - marchDays 11 + 1 ≤ monthLength (year + 1) 2
      omega
    · have length := monthLength_march (year + (if month < 10 then 0 else 1)) month (by omega)
      have before : day < marchDays (month + 1) := by
        unfold marchDays
        omega
      omega
  · rw [Date.dayNumber, years_eq]
    dsimp only
    by_cases same : month < 10
    · have days := february year
      rw [if_pos same, monthsOn_march _ month same, Int.add_zero]
      omega
    · have start : (monthsOn (year + 1) (marchMonth month) : Int) = marchDays month - 306 := by
        interval_cases month <;> rfl
      rw [if_neg same, start]
      omega

/-! ## Dates of days -/

theorem yearLength_era (era year : Int) : yearLength (era * 400 + year) = yearLength year := by
  have fourth : 4 ∣ era * 400 + year ↔ 4 ∣ year := by omega
  have century : 100 ∣ era * 400 + year ↔ 100 ∣ year := by omega
  have turn : 400 ∣ era * 400 + year ↔ 400 ∣ year := by omega
  refine if_congr ?_ rfl rfl
  rw [Leaps, Leaps, fourth, century, turn]

theorem leapDays_era (era year : Int) : leapDays (era * 400 + year + 1) = era * 97 + leapDays (year + 1) := by
  have fourths : (era * 400 + year) / 4 = era * 100 + year / 4 := by omega
  have centuries : (era * 400 + year) / 100 = era * 4 + year / 100 := by omega
  have turns : (era * 400 + year) / 400 = era + year / 400 := by omega
  rw [leapDays, leapDays, Int.add_sub_cancel, Int.add_sub_cancel, fourths, centuries, turns]
  omega

/-- A year of a span, counted from March, is as long as the year of the calendar that begins in it. -/
theorem marchStart_succ : ∀ year < 400, (marchStart (year + 1) : Int) = marchStart year + yearLength (year + 1) := by
  decide +kernel

theorem marchStart_eq {year : Nat} (small : year < 400) :
    marchStart year = 365 * year + year / 4 - year / 100 ∧ (marchStart year : Int) = 365 * year + leapDays (year + 1) := by
  have turn : year / 400 = 0 := Nat.div_eq_of_lt small
  have fourths : ((year : Int) + 1 - 1) / 4 = (year / 4 : Nat) := by omega
  have centuries : ((year : Int) + 1 - 1) / 100 = (year / 100 : Nat) := by omega
  have turns : ((year : Int) + 1 - 1) / 400 = 0 := by omega
  rw [leapDays, fourths, centuries, turns]
  unfold marchStart
  omega

theorem marchMonth_turn {month : Nat} (upper : month < 12) :
    (if marchMonth month ≤ 2 then 1 else 0 : Int) = if month < 10 then 0 else 1 := by
  interval_cases month <;> rfl

/-- The date of a day is one that the calendar has, and it is that many days from 1 January 1970. -/
theorem ofDays_proper (days : Int) : (Date.ofDays days).Proper ∧ (Date.ofDays days).dayNumber = days := by
  obtain ⟨era, day, below, span⟩ : ∃ (era : Int) (day : Nat), day < 146097 ∧ days + 719468 = era * 146097 + day :=
    ⟨(days + 719468) / 146097, ((days + 719468) % 146097).toNat, by omega, by omega⟩
  have spans : (days + 719468).fdiv Date.cycle = era := by
    rw [Int.fdiv_eq_ediv_of_nonneg _ (by decide), Date.cycle]
    omega
  have inside : ((days + 719468).fmod Date.cycle).toNat = day := by
    rw [Int.fmod_eq_emod_of_nonneg _ (by decide), Date.cycle]
    omega
  obtain ⟨year, found⟩ : ∃ year, year = unleaped day / 365 := ⟨_, rfl⟩
  obtain ⟨small, first, last⟩ := year_of_day below found
  obtain ⟨later, since⟩ : ∃ later, later = day - marchStart year := ⟨_, rfl⟩
  obtain ⟨month, months⟩ : ∃ month, month = (5 * later + 2) / 153 := ⟨_, rfl⟩
  have length := marchStart_succ year small
  rw [← yearLength_era era, ← Int.add_assoc] at length
  have within : (later : Int) < yearLength (era * 400 + year + 1) := by omega
  have upper : month < 12 := by
    have most : (yearLength (era * 400 + year + 1) : Int) ≤ 366 := by
      unfold yearLength
      split <;> decide
    omega
  have date : Date.ofDays days = ⟨era * 400 + year + (if month < 10 then 0 else 1), marchMonth month,
      later - marchDays month + 1⟩ := by
    have years : (day - day / 1460 + day / 36524 - day / 146096) / 365 = year := found.symm
    have days' : day - (365 * year + year / 4 - year / 100) = later := by
      rw [since, (marchStart_eq small).1]
    rw [← marchMonth_turn upper]
    simp only [Date.ofDays, spans, inside, years, days', ← months]
    rfl
  obtain ⟨proper, number⟩ := date_of_march within months date
  refine ⟨proper, number.trans ?_⟩
  have started := (marchStart_eq small).2
  rw [leapDays_era]
  omega

theorem ofDays_fallsOn (days : Int) : (Weekday.ofDays days).FallsOn days := by
  have range : (days.fmod 7).toNat < 7 := by
    rw [Int.fmod_eq_emod_of_nonneg _ (by decide)]
    omega
  have left : (days - (days.fmod 7).toNat) % 7 = 0 := by
    rw [Int.fmod_eq_emod_of_nonneg _ (by decide)]
    omega
  unfold Weekday.ofDays Weekday.FallsOn
  generalize (days.fmod 7).toNat = past at range left
  interval_cases past <;> simp only [Weekday.place] <;> omega

end ToolBridge.Calendar
