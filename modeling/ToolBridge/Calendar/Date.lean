/-! Dates of the Gregorian calendar, carried on before its introduction and into negative years,
and the number of days from 1 January 1970. -/

namespace ToolBridge.Calendar

structure Date where
  year : Int
  /-- From 1 to 12. -/
  month : Nat
  /-- From 1. -/
  day : Nat
deriving DecidableEq, Repr

namespace Date

/-- Days in four hundred years. -/
def cycle : Int := 146097

/-- Years are counted from March here, so that a leap day is the last of its year. -/
def ofDays (days : Int) : Date :=
  let shifted := days + 719468
  let era := shifted.fdiv cycle
  let dayOfEra := (shifted.fmod cycle).toNat
  let yearOfEra := (dayOfEra - dayOfEra / 1460 + dayOfEra / 36524 - dayOfEra / 146096) / 365
  let dayOfYear := dayOfEra - (365 * yearOfEra + yearOfEra / 4 - yearOfEra / 100)
  let monthFromMarch := (5 * dayOfYear + 2) / 153
  let day := dayOfYear - (153 * monthFromMarch + 2) / 5 + 1
  let month := if monthFromMarch < 10 then monthFromMarch + 3 else monthFromMarch - 9
  ⟨era * 400 + yearOfEra + (if month ≤ 2 then 1 else 0), month, day⟩

end Date

inductive Weekday where
  | monday
  | tuesday
  | wednesday
  | thursday
  | friday
  | saturday
  | sunday
deriving DecidableEq, Repr

def Weekday.name : Weekday → String
  | .monday => "Monday"
  | .tuesday => "Tuesday"
  | .wednesday => "Wednesday"
  | .thursday => "Thursday"
  | .friday => "Friday"
  | .saturday => "Saturday"
  | .sunday => "Sunday"

/-- Day 0 was a Thursday. -/
def Weekday.ofDays (days : Int) : Weekday :=
  match (days.fmod 7).toNat with
  | 0 => .thursday
  | 1 => .friday
  | 2 => .saturday
  | 3 => .sunday
  | 4 => .monday
  | 5 => .tuesday
  | _ => .wednesday

def monthName : Nat → String
  | 1 => "January"
  | 2 => "February"
  | 3 => "March"
  | 4 => "April"
  | 5 => "May"
  | 6 => "June"
  | 7 => "July"
  | 8 => "August"
  | 9 => "September"
  | 10 => "October"
  | 11 => "November"
  | _ => "December"

end ToolBridge.Calendar
