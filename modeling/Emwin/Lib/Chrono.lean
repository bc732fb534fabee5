/-
# Instants and partial timestamps

Instants are nanoseconds since 1970-01-01 00:00 UTC.  A date is representable when its year
lies between `MIN_YEAR` and `MAX_YEAR`; what would lead out of these years is `none`.
Durations are differences of instants and are cut towards zero when they are read in larger
units.
-/
import Emwin.Lib.Calendar

namespace Chrono

open Calendar

/-- An instant, in nanoseconds. -/
abbrev DateTime := ℤ

/-- The first year with dates. -/
def MIN_YEAR : ℤ := -262143

/-- The last year with dates. -/
def MAX_YEAR : ℤ := 262142

/-- The nanoseconds of a second. -/
def SECOND : ℤ := 1000000000

/-- The nanoseconds of an hour. -/
def HOUR : ℤ := 3600 * SECOND

/-- The nanoseconds of a day. -/
def DAY : ℤ := 86400 * SECOND

/-! ## Reading an instant -/

/-- The days between 1970-01-01 and the date of an instant. -/
def dayNumber (t : DateTime) : ℤ := t / DAY

/-- `date_naive`. -/
def date (t : DateTime) : Date := civilFromDays (dayNumber t)

/-- The second of the day. -/
def secondOfDay (t : DateTime) : ℕ := (t % DAY / SECOND).toNat

/-- `hour`. -/
def hour (t : DateTime) : ℕ := secondOfDay t / 3600

/-- `minute`. -/
def minute (t : DateTime) : ℕ := secondOfDay t / 60 % 60

/-- `second`. -/
def second (t : DateTime) : ℕ := secondOfDay t % 60

/-- `num_seconds` of a duration. -/
def numSeconds (d : ℤ) : ℤ := d.tdiv SECOND

/-- `num_days` of a duration. -/
def numDays (d : ℤ) : ℤ := d.tdiv DAY

/-! ## Building an instant -/

/-- `NaiveDate::from_ymd_opt`: the day number of a date that exists. -/
def fromYmdOpt (year : ℤ) (month day : ℕ) : Option ℤ :=
  if MIN_YEAR ≤ year ∧ year ≤ MAX_YEAR ∧ 1 ≤ month ∧ month ≤ 12 ∧ 1 ≤ day ∧
      day ≤ daysInMonth year month then
    some (daysFromCivil ⟨year, month, day⟩)
  else none

/-- `NaiveTime::from_hms_opt`: the second of the day. -/
def fromHmsOpt (hour minute second : ℕ) : Option ℕ :=
  if hour < 24 ∧ minute < 60 ∧ second < 60 then some (hour * 3600 + minute * 60 + second)
  else none

/-- The instant of a day number and a second of the day. -/
def utc (days : ℤ) (seconds : ℕ) : DateTime := days * DAY + seconds * SECOND

/-- Whether the date of an instant is representable. -/
def InRange (t : DateTime) : Prop := MIN_YEAR ≤ (date t).year ∧ (date t).year ≤ MAX_YEAR

instance (t : DateTime) : Decidable (InRange t) := inferInstanceAs (Decidable (_ ∧ _))

/-- `DateTime::from_timestamp`, for whole seconds. -/
def fromTimestamp (seconds : ℤ) : Option DateTime :=
  let t := seconds * SECOND
  if InRange t then some t else none

/-- Adding a duration to an instant; `none` is out of range, where `+` panics. -/
def checkedAdd (t : DateTime) (d : ℤ) : Option DateTime :=
  if InRange (t + d) then some (t + d) else none

end Chrono
