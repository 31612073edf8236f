import ToolBridge.Calendar.Date
import ToolBridge.Json.Basic

/-! Instants of universal time and their description. A leap second has the seconds of the one before
it and a billion nanoseconds or more. -/

namespace ToolBridge.Calendar

structure Instant where
  /-- Seconds since the start of 1970. -/
  seconds : Int
  nanos : Nat
deriving DecidableEq, Repr

namespace Instant

def nanosPerSecond : Nat := 1000000000

def first : Int := -8334601228800

def last : Int := 8210266876799

def secondOfDay (t : Instant) : Nat := (t.seconds.fmod 86400).toNat

def hour (t : Instant) : Nat := t.secondOfDay / 3600

def minute (t : Instant) : Nat := t.secondOfDay / 60 % 60

def second (t : Instant) : Nat := t.secondOfDay % 60

/-- Within the years -262143 to 262142; only second 59 of a minute may be a leap second. -/
def ofParts? (seconds : Int) (nanos : Nat) : Option Instant :=
  let t : Instant := ⟨seconds, nanos⟩
  if first ≤ seconds ∧ seconds ≤ last ∧ nanos < 2 * nanosPerSecond ∧
      (nanos < nanosPerSecond ∨ t.second = 59) then some t
  else none

/-- The instant that many nanoseconds after the start of 1970. -/
def ofNanos (nanos : Int) : Instant := ⟨nanos.fdiv nanosPerSecond, (nanos.fmod nanosPerSecond).toNat⟩

def days (t : Instant) : Int := t.seconds.fdiv 86400

def date (t : Instant) : Date := .ofDays t.days

def weekday (t : Instant) : Weekday := .ofDays t.days

def milliseconds (t : Instant) : Int := t.seconds * 1000 + t.nanos / 1000000

/-- Decimal digits, with zeros in front up to a width. -/
def padded (width n : Nat) : String :=
  let digits := (toString n).toList
  .ofList (List.replicate (width - digits.length) '0' ++ digits)

/-- Four digits; a year that has more or is negative carries its sign. -/
def yearText (year : Int) : String :=
  if 0 ≤ year ∧ year ≤ 9999 then padded 4 year.toNat
  else (if year < 0 then "-" else "+") ++ padded 4 year.natAbs

/-- The second on the clock's face: a leap second is the sixtieth. -/
def shownSecond (t : Instant) : Nat := t.second + t.nanos / nanosPerSecond

def clockText (t : Instant) : String :=
  s!"{padded 2 t.hour}:{padded 2 t.minute}:{padded 2 t.shownSecond}"

def isoText (t : Instant) : String :=
  s!"{yearText t.date.year}-{padded 2 t.date.month}-{padded 2 t.date.day}T{t.clockText}Z"

def readableText (t : Instant) : String :=
  s!"{t.weekday.name}, {t.date.day} {monthName t.date.month} {yearText t.date.year} {t.clockText} UTC"

def describe (t : Instant) : Json :=
  .obj [
    ("components", .obj [
      ("day", .ofNat t.date.day),
      ("hour", .ofNat t.hour),
      ("minute", .ofNat t.minute),
      ("month", .ofNat t.date.month),
      ("second", .ofNat t.second),
      ("weekday", .str t.weekday.name),
      ("year", .ofInt t.date.year)]),
    ("iso8601", .str t.isoText),
    ("readable", .str t.readableText),
    ("timestamp", .ofInt t.seconds),
    ("timestamp_ms", .ofInt t.milliseconds)]

end Instant

end ToolBridge.Calendar
