import ToolBridge.Calendar.Instant
import ToolBridge.Proofs.CalendarDays
import ToolBridge.Proofs.WrittenFrames

/-! The description of an instant, read. Its parts as numbers and its two texts give one date and one time of day, and
the calendar takes these back to the seconds that the description tells. -/

namespace ToolBridge

namespace Text

def Digits (s : String) : Prop := ∀ c ∈ s.toList, c.isDigit = true

theorem Digits.free {s : String} (digits : Digits s) {c : Char} (other : c.isDigit = false) : c ∉ s.toList :=
  fun member => absurd (digits c member) (by simp [other])

theorem digits_toString (n : Nat) : Digits (toString n) := by
  have same : (toString n).toList = Nat.toDigits 10 n := String.toList_ofList
  intro c member
  exact Nat.isDigit_of_mem_toDigits (by decide) (by decide) (same ▸ member)

end Text

namespace Calendar

open Text (Digits)

/-! ## Reading a description -/

/-- A date and a time of day, as they are shown. -/
structure Shown where
  date : Date
  hour : Nat
  minute : Nat
  second : Nat
deriving DecidableEq, Repr

namespace Shown

structure Proper (s : Shown) : Prop where
  date : s.date.Proper
  hour : s.hour < 24
  minute : s.minute < 60
  second : s.second < 60

/-- The seconds from the start of 1970, by the calendar. -/
def seconds (s : Shown) : Int := s.date.dayNumber * 86400 + s.hour * 3600 + s.minute * 60 + s.second

def number? (s : String) : Option Nat := Text.readDigits 10 s.toList

def year? (s : String) : Option Int :=
  match s.toList with
  | '-' :: digits => (Text.readDigits 10 digits).map fun n : Nat => -(n : Int)
  | digits => (Text.readNatChars 10 digits).map fun n : Nat => (n : Int)

/-- Hours, minutes and seconds between colons. -/
def time? (date : Date) (s : String) : Option Shown :=
  match Text.split ':' s with
  | [hour, minute, second] => do some ⟨date, ← number? hour, ← number? minute, ← number? second⟩
  | _ => none

/-- Year, month and day between hyphens, of which a year before 0 has one in front. -/
def date? (s : String) : Option Date :=
  match Text.split '-' s with
  | [year, month, day] => do some ⟨← year? year, ← number? month, ← number? day⟩
  | [before, year, month, day] => do some ⟨← year? (before ++ "-" ++ year), ← number? month, ← number? day⟩
  | _ => none

/-- A date, the letter T, a time of day, and the letter Z. -/
def ofIso? (s : String) : Option Shown :=
  match Text.split 'T' s with
  | [date, rest] => match Text.split 'Z' rest with
    | [time, last] => do
      guard (last = "")
      time? (← date? date) time
    | _ => none
  | _ => none

def monthNames : List String := ["January", "February", "March", "April", "May", "June", "July", "August", "September",
  "October", "November", "December"]

def month? (name : String) : Option Nat := (monthNames.idxOf? name).map (· + 1)

/-- The name of a day and a comma, then day, month, year, time of day and the words for universal time. -/
def ofReadable? (s : String) : Option (String × Shown) :=
  match Text.split ' ' s with
  | [first, day, month, year, time, zone] => match Text.split ',' first with
    | [weekday, last] => do
      guard (last = "" ∧ zone = "UTC")
      let shown ← time? ⟨← year? year, ← month? month, ← number? day⟩ time
      some (weekday, shown)
    | _ => none
  | _ => none

def natural? : Json → Option Nat
  | .num (.int (.ofNat n)) => some n
  | _ => none

def whole? : Json → Option Int
  | .num (.int n) => some n
  | _ => none

/-- The name of the day, and the date and the time of day, from the numbers of a description. -/
def ofComponents? (j : Json) : Option (String × Shown) := do
  let parts ← j.member? "components"
  let date : Date := ⟨← whole? (← parts.member? "year"), ← natural? (← parts.member? "month"),
    ← natural? (← parts.member? "day")⟩
  let weekday ← (← parts.member? "weekday").asString?
  some (weekday, ⟨date, ← natural? (← parts.member? "hour"), ← natural? (← parts.member? "minute"),
    ← natural? (← parts.member? "second")⟩)

end Shown

/-! ## Numbers and names as they are written -/

namespace Instant

theorem toList_padded (width n : Nat) :
    (padded width n).toList = List.replicate (width - (Nat.toDigits 10 n).length) '0' ++ Nat.toDigits 10 n := by
  have digits : (toString n).toList = Nat.toDigits 10 n := String.toList_ofList
  rw [padded, String.toList_ofList, digits]

theorem digits_padded (width n : Nat) : Digits (padded width n) := by
  intro c member
  rw [toList_padded] at member
  rcases List.mem_append.mp member with zero | digit
  · rw [List.eq_of_mem_replicate zero]
    rfl
  · exact Nat.isDigit_of_mem_toDigits (by decide) (by decide) digit

theorem readDigits_padded (width n : Nat) : Text.readDigits 10 (padded width n).toList = some n := by
  rw [toList_padded, Text.readDigits_eq (by simp [Nat.toDigits_ne_nil]), List.foldlM_append,
    Text.foldlM_shift_zeros 10 _ (by decide)]
  exact Text.foldlM_shift_toDigits (by decide) (by decide) n

theorem yearText_cases (year : Int) :
    (year < 0 ∧ (yearText year).toList = '-' :: (padded 4 year.natAbs).toList) ∨
      0 ≤ year ∧ ((yearText year).toList = (padded 4 year.toNat).toList ∨
        (yearText year).toList = '+' :: (padded 4 year.toNat).toList) := by
  by_cases negative : year < 0
  · refine .inl ⟨negative, ?_⟩
    rw [yearText, if_neg (by omega), if_pos negative]
    simp
  · refine .inr ⟨by omega, ?_⟩
    by_cases short : year ≤ 9999
    · exact .inl (by rw [yearText, if_pos ⟨by omega, short⟩])
    · refine .inr ?_
      have same : year.natAbs = year.toNat := by omega
      rw [yearText, if_neg (by omega), if_neg negative, same]
      simp

theorem yearText_chars (year : Int) : ∀ c ∈ (yearText year).toList, c = '-' ∨ c = '+' ∨ c.isDigit = true := by
  have digit (n : Nat) : ∀ c ∈ (padded 4 n).toList, c = '-' ∨ c = '+' ∨ c.isDigit = true :=
    fun c member => .inr (.inr (digits_padded 4 n c member))
  rcases yearText_cases year with ⟨_, shape⟩ | ⟨_, shape | shape⟩ <;> rw [shape]
  · exact List.forall_mem_cons.mpr ⟨.inl rfl, digit _⟩
  · exact digit _
  · exact List.forall_mem_cons.mpr ⟨.inr (.inl rfl), digit _⟩

theorem yearText_free (year : Int) {c : Char} (other : c ≠ '-' ∧ c ≠ '+' ∧ c.isDigit = false) :
    c ∉ (yearText year).toList := by
  intro member
  rcases yearText_chars year c member with hyphen | plus | digit
  · exact other.1 hyphen
  · exact other.2.1 plus
  · exact Bool.false_ne_true (other.2.2.symm.trans digit)

/-- A year from 0 on has no hyphen. -/
theorem yearText_unbroken {year : Int} (nonnegative : 0 ≤ year) : '-' ∉ (yearText year).toList := by
  have free := (digits_padded 4 year.toNat).free (rfl : '-'.isDigit = false)
  rcases yearText_cases year with ⟨negative, _⟩ | ⟨_, shape | shape⟩
  · exact absurd nonnegative (Int.not_le.mpr negative)
  · rwa [shape]
  · rw [shape]
    exact List.not_mem_cons_of_ne_of_not_mem (by decide) free

theorem year?_yearText (year : Int) : Shown.year? (yearText year) = some year := by
  rcases yearText_cases year with ⟨negative, shape⟩ | ⟨nonnegative, shapes⟩
  · rw [Shown.year?, shape]
    simp only [readDigits_padded, Option.map_some, Option.some.injEq]
    omega
  · have unbroken := yearText_unbroken nonnegative
    have read : Text.readNatChars 10 (yearText year).toList = some year.toNat := by
      rcases shapes with shape | shape <;> rw [shape]
      · exact Text.readNatChars_of_readDigits (readDigits_padded 4 year.toNat)
      · rw [Text.readNatChars, readDigits_padded]
    unfold Shown.year?
    split
    next digits signed => exact absurd (signed ▸ List.mem_cons_self) unbroken
    next => rw [read, Option.map_some, Int.toNat_of_nonneg nonnegative]

end Instant

theorem month?_monthName : ∀ month, 1 ≤ month → month ≤ 12 → Shown.month? (monthName month) = some month := by
  have all : ∀ month < 13, 1 ≤ month → Shown.month? (monthName month) = some month := by decide +kernel
  exact fun month least most => all month (Nat.lt_succ_of_le most) least

/-- Names of days and months are letters alone. -/
def Letters (s : String) : Prop := ∀ c ∈ s.toList, c.isAlpha = true

instance (s : String) : Decidable (Letters s) := List.decidableBAll (fun c : Char => c.isAlpha = true) s.toList

theorem Letters.free {s : String} (letters : Letters s) {c : Char} (other : c.isAlpha = false) : c ∉ s.toList :=
  fun member => absurd (letters c member) (by simp [other])

theorem letters_weekday (weekday : Weekday) : Letters weekday.name := by
  cases weekday <;> decide +kernel

theorem letters_month (month : Nat) : Letters (monthName month) := by
  unfold monthName
  split <;> decide +kernel

/-! ## Texts taken apart -/

namespace Instant

variable (t : Instant)

def shown : Shown := ⟨t.date, t.hour, t.minute, t.second⟩

def dateText : String :=
  (String.singleton '-').intercalate [yearText t.date.year, padded 2 t.date.month, padded 2 t.date.day]

theorem clockText_eq (plain : t.nanos < nanosPerSecond) :
    t.clockText = (String.singleton ':').intercalate [padded 2 t.hour, padded 2 t.minute, padded 2 t.second] := by
  have shown : t.shownSecond = t.second := by
    rw [shownSecond, Nat.div_eq_of_lt plain, Nat.add_zero]
  refine String.toList_inj.mp ?_
  rw [clockText, shown]
  simp [toString]

theorem time?_clockText (plain : t.nanos < nanosPerSecond) : Shown.time? t.date t.clockText = some t.shown := by
  have apart : ∀ piece ∈ [padded 2 t.hour, padded 2 t.minute, padded 2 t.second], ':' ∉ piece.toList := by
    simp only [List.forall_mem_cons, List.not_mem_nil, false_implies, implies_true, and_true]
    exact ⟨(digits_padded _ _).free rfl, (digits_padded _ _).free rfl, (digits_padded _ _).free rfl⟩
  rw [Shown.time?, clockText_eq t plain, Text.split_join apart (List.cons_ne_nil _ _)]
  simp [Shown.number?, readDigits_padded, shown]

theorem date?_dateText : Shown.date? t.dateText = some t.date := by
  have month := (digits_padded 2 t.date.month).free (rfl : '-'.isDigit = false)
  have day := (digits_padded 2 t.date.day).free (rfl : '-'.isDigit = false)
  rcases Int.lt_or_le t.date.year 0 with negative | nonnegative
  · obtain ⟨_, shape⟩ := (yearText_cases t.date.year).resolve_right fun other => Int.not_le.mpr negative other.1
    have year := (digits_padded 4 t.date.year.natAbs).free (rfl : '-'.isDigit = false)
    have signed : "" ++ "-" ++ padded 4 t.date.year.natAbs = yearText t.date.year :=
      String.toList_inj.mp (by rw [shape]; simp)
    have apart : ∀ piece ∈ ["", padded 4 t.date.year.natAbs, padded 2 t.date.month, padded 2 t.date.day],
        '-' ∉ piece.toList := by
      simp only [List.forall_mem_cons, List.not_mem_nil, false_implies, implies_true, and_true]
      exact ⟨by simp, year, month, day⟩
    have text : t.dateText = (String.singleton '-').intercalate
        ["", padded 4 t.date.year.natAbs, padded 2 t.date.month, padded 2 t.date.day] :=
      String.toList_inj.mp (by simp [dateText, ← signed])
    rw [Shown.date?, text, Text.split_join apart (List.cons_ne_nil _ _)]
    simp only [signed]
    simp [Shown.number?, readDigits_padded, year?_yearText]
  · have apart : ∀ piece ∈ [yearText t.date.year, padded 2 t.date.month, padded 2 t.date.day], '-' ∉ piece.toList := by
      simp only [List.forall_mem_cons, List.not_mem_nil, false_implies, implies_true, and_true]
      exact ⟨yearText_unbroken nonnegative, month, day⟩
    rw [Shown.date?, dateText, Text.split_join apart (List.cons_ne_nil _ _)]
    simp [Shown.number?, readDigits_padded, year?_yearText]

theorem clockText_free (plain : t.nanos < nanosPerSecond) {c : Char} (other : c ≠ ':' ∧ c.isDigit = false) :
    c ∉ t.clockText.toList := by
  have free (n : Nat) := (digits_padded 2 n).free other.2
  rw [clockText_eq t plain]
  simp [free, other.1]

theorem ofIso?_isoText (plain : t.nanos < nanosPerSecond) : Shown.ofIso? t.isoText = some t.shown := by
  have marked : 'T' ∉ t.dateText.toList := by
    have free (n : Nat) := (digits_padded 2 n).free (rfl : 'T'.isDigit = false)
    simp [dateText, free, yearText_free t.date.year (show 'T' ≠ '-' ∧ 'T' ≠ '+' ∧ 'T'.isDigit = false by decide)]
  have apart : ∀ piece ∈ [t.dateText, t.clockText ++ "Z"], 'T' ∉ piece.toList := by
    have free := t.clockText_free plain (show 'T' ≠ ':' ∧ 'T'.isDigit = false by decide)
    simp [marked, free]
  have ended : ∀ piece ∈ [t.clockText, ""], 'Z' ∉ piece.toList := by
    have free := t.clockText_free plain (show 'Z' ≠ ':' ∧ 'Z'.isDigit = false by decide)
    simp [free]
  have whole : t.isoText = (String.singleton 'T').intercalate [t.dateText, t.clockText ++ "Z"] :=
    String.toList_inj.mp (by simp [isoText, dateText, toString])
  have rest : t.clockText ++ "Z" = (String.singleton 'Z').intercalate [t.clockText, ""] :=
    String.toList_inj.mp (by simp)
  rw [Shown.ofIso?, whole, Text.split_join apart (List.cons_ne_nil _ _)]
  simp only
  rw [rest, Text.split_join ended (List.cons_ne_nil _ _)]
  simp [date?_dateText, time?_clockText t plain]

theorem ofReadable?_readableText (plain : t.nanos < nanosPerSecond) (proper : t.date.Proper) :
    Shown.ofReadable? t.readableText = some (t.weekday.name, t.shown) := by
  have apart : ∀ piece ∈ [t.weekday.name ++ ",", toString t.date.day, monthName t.date.month, yearText t.date.year,
      t.clockText, "UTC"], ' ' ∉ piece.toList := by
    have weekday := (letters_weekday t.weekday).free (rfl : ' '.isAlpha = false)
    have day := (Text.digits_toString t.date.day).free (rfl : ' '.isDigit = false)
    have month := (letters_month t.date.month).free (rfl : ' '.isAlpha = false)
    have year := yearText_free t.date.year (show ' ' ≠ '-' ∧ ' ' ≠ '+' ∧ ' '.isDigit = false by decide)
    have clock := t.clockText_free plain (show ' ' ≠ ':' ∧ ' '.isDigit = false by decide)
    simp only [List.forall_mem_cons, List.not_mem_nil, false_implies, implies_true, and_true]
    exact ⟨by simp [weekday], day, month, year, clock, by decide⟩
  have named : ∀ piece ∈ [t.weekday.name, ""], ',' ∉ piece.toList := by
    simp [(letters_weekday t.weekday).free (rfl : ','.isAlpha = false)]
  have whole : t.readableText = (String.singleton ' ').intercalate [t.weekday.name ++ ",", toString t.date.day,
      monthName t.date.month, yearText t.date.year, t.clockText, "UTC"] :=
    String.toList_inj.mp (by simp [readableText, toString])
  have first : t.weekday.name ++ "," = (String.singleton ',').intercalate [t.weekday.name, ""] :=
    String.toList_inj.mp (by simp)
  have day : Shown.number? (toString t.date.day) = some t.date.day := Text.readDigits_natural t.date.day
  rw [Shown.ofReadable?, whole, Text.split_join apart (List.cons_ne_nil _ _)]
  simp only
  rw [first, Text.split_join named (List.cons_ne_nil _ _)]
  have clock : Shown.time? ⟨t.date.year, t.date.month, t.date.day⟩ t.clockText = some t.shown :=
    t.time?_clockText plain
  have month := month?_monthName t.date.month proper.month.1 proper.month.2
  simp [-Nat.toString_eq_repr, day, month, year?_yearText, clock]

theorem ofComponents?_describe : Shown.ofComponents? t.describe = some (t.weekday.name, t.shown) := by
  rfl

/-! ## One instant -/

theorem secondOfDay_eq : t.seconds = t.days * 86400 + t.secondOfDay ∧ t.secondOfDay < 86400 := by
  unfold days secondOfDay
  rw [Int.fdiv_eq_ediv_of_nonneg _ (by decide), Int.fmod_eq_emod_of_nonneg _ (by decide)]
  omega

theorem shown_proper : t.shown.Proper := by
  have day := t.secondOfDay_eq.2
  refine ⟨(ofDays_proper t.days).1, ?_, ?_, ?_⟩
  · change t.secondOfDay / 3600 < 24
    omega
  · exact Nat.mod_lt _ (by decide)
  · exact Nat.mod_lt _ (by decide)

theorem seconds_shown : t.shown.seconds = t.seconds := by
  have day := t.secondOfDay_eq.1
  have number : t.date.dayNumber = t.days := (ofDays_proper t.days).2
  have clock : t.secondOfDay = t.hour * 3600 + t.minute * 60 + t.second := by
    unfold hour minute second
    omega
  rw [Shown.seconds, shown, number, day, clock]
  dsimp only
  omega

theorem milliseconds_fdiv (plain : t.nanos < nanosPerSecond) : t.milliseconds.fdiv 1000 = t.seconds := by
  have part : t.nanos / 1000000 < 1000 := Nat.div_lt_of_lt_mul plain
  rw [milliseconds, Int.fdiv_eq_ediv_of_nonneg _ (by decide)]
  omega

/-- Every part of a description denotes the instant: the numbers and both texts show one date and one time of day that
the calendar has, it takes them back to the seconds, and the day has the name that is told. -/
theorem described_alike (plain : t.nanos < nanosPerSecond) :
    ∃ (shown : Shown) (weekday : Weekday) (milliseconds : Int),
      Shown.ofComponents? t.describe = some (weekday.name, shown) ∧
      (∃ iso, t.describe.member? "iso8601" = some (.str iso) ∧ Shown.ofIso? iso = some shown) ∧
      (∃ readable, t.describe.member? "readable" = some (.str readable) ∧
        Shown.ofReadable? readable = some (weekday.name, shown)) ∧
      shown.Proper ∧ weekday.FallsOn shown.date.dayNumber ∧
      t.describe.member? "timestamp" = some (.ofInt shown.seconds) ∧ shown.seconds = t.seconds ∧
      t.describe.member? "timestamp_ms" = some (.ofInt milliseconds) ∧ shown.seconds = milliseconds.fdiv 1000 := by
  have proper := t.shown_proper
  have seconds := t.seconds_shown
  have fallsOn : t.weekday.FallsOn t.shown.date.dayNumber := by
    change t.weekday.FallsOn (Date.ofDays t.days).dayNumber
    rw [(ofDays_proper t.days).2]
    exact ofDays_fallsOn t.days
  have readable := t.ofReadable?_readableText plain proper.date
  refine ⟨t.shown, t.weekday, t.milliseconds, t.ofComponents?_describe, ⟨t.isoText, ?_, t.ofIso?_isoText plain⟩,
    ⟨t.readableText, ?_, readable⟩, proper, fallsOn, ?_, seconds, ?_, ?_⟩
  · rfl
  · rfl
  · rw [seconds]
    rfl
  · rfl
  · rw [seconds, t.milliseconds_fdiv plain]

/-- The last millisecond of the year before 0. -/
def lastBeforeZero : Instant := ⟨-62167219201, 999000000⟩

theorem described_alike_before_zero :
    ∃ (shown : Shown) (weekday : Weekday),
      Shown.ofComponents? lastBeforeZero.describe = some (weekday.name, shown) ∧
      Shown.ofIso? "-0001-12-31T23:59:59Z" = some shown ∧
      Shown.ofReadable? "Friday, 31 December -0001 23:59:59 UTC" = some (weekday.name, shown) ∧
      shown.Proper ∧ weekday.FallsOn shown.date.dayNumber ∧
      shown.seconds = -62167219201 ∧ shown.seconds = (-62167219200001 : Int).fdiv 1000 := by
  obtain ⟨shown, weekday, milliseconds, components, ⟨iso, isoTold, ofIso⟩, ⟨readable, readableTold, ofReadable⟩,
    proper, fallsOn, -, seconds, millisecondsTold, divided⟩ := described_alike lastBeforeZero (by decide)
  have isoText : lastBeforeZero.isoText = "-0001-12-31T23:59:59Z" := by decide +kernel
  have readableText : lastBeforeZero.readableText = "Friday, 31 December -0001 23:59:59 UTC" := by decide +kernel
  have isoSame : lastBeforeZero.isoText = iso := Json.str.inj (Option.some.inj isoTold)
  have readableSame : lastBeforeZero.readableText = readable := Json.str.inj (Option.some.inj readableTold)
  have millisecondsSame : lastBeforeZero.milliseconds = milliseconds :=
    Json.Number.int.inj (Json.num.inj (Option.some.inj millisecondsTold))
  rw [← isoSame, isoText] at ofIso
  rw [← readableSame, readableText] at ofReadable
  rw [← millisecondsSame] at divided
  exact ⟨shown, weekday, components, ofIso, ofReadable, proper, fallsOn, seconds, divided⟩

end Instant

end Calendar

end ToolBridge
