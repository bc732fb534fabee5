/-
# The civil calendar

Dates of the proleptic Gregorian calendar and the days since 1970-01-01, in both
directions.  A day number belongs to exactly one year (`yearOf_spec`), and within a year the
months are counted off one after another.
-/
import Mathlib.Algebra.BigOperators.Group.List.Basic
import Mathlib.Algebra.Order.Group.Unbundled.Int
import Mathlib.Algebra.Ring.Nat
import Mathlib.Tactic.Common

namespace Calendar

/-- A date. -/
structure Date where
  year : ℤ
  month : ℕ
  day : ℕ
  deriving DecidableEq, Repr

/-! ## Years -/

/-- Whether a year has a 29th of February. -/
def isLeapYear (year : ℤ) : Bool := year % 4 == 0 && (year % 100 != 0 || year % 400 == 0)

/-- The days from 0001-01-01 to the first day of a year. -/
def daysBeforeYear (year : ℤ) : ℤ :=
  365 * (year - 1) + (year - 1) / 4 - (year - 1) / 100 + (year - 1) / 400

/-- The year of a day, counted from 0001-01-01.  A year has 365.2425 days on average, and a
guess from that is off by one year at most. -/
def yearOf (n : ℤ) : ℤ :=
  let guess := n * 400 / 146097 + 1
  if n < daysBeforeYear guess then guess - 1
  else if n < daysBeforeYear (guess + 1) then guess
  else guess + 1

/-- A day lies in its year. -/
theorem yearOf_spec (n : ℤ) :
    daysBeforeYear (yearOf n) ≤ n ∧ n < daysBeforeYear (yearOf n + 1) := by
  unfold yearOf
  dsimp only
  split_ifs with hbefore hwithin
  · refine ⟨?_, by rwa [sub_add_cancel]⟩
    unfold daysBeforeYear at *
    omega
  · exact ⟨not_lt.mp hbefore, hwithin⟩
  · refine ⟨not_lt.mp hwithin, ?_⟩
    unfold daysBeforeYear at *
    omega

/-! ## Months -/

/-- The number of days of a month. -/
def daysInMonth (year : ℤ) (month : ℕ) : ℕ :=
  match month with
  | 2 => if isLeapYear year then 29 else 28
  | 4 | 6 | 9 | 11 => 30
  | _ => 31

/-- The days of the year before a month. -/
def daysBeforeMonth (year : ℤ) (month : ℕ) : ℕ :=
  ((List.range' 1 (month - 1)).map (daysInMonth year)).sum

/-- Count off months from `month` on while days are left; at most `months` of them. -/
def countOff (year : ℤ) : (months month days : ℕ) → ℕ × ℕ
  | 0, month, days => (month, days + 1)
  | months + 1, month, days =>
      if days < daysInMonth year month then (month, days + 1)
      else countOff year months (month + 1) (days - daysInMonth year month)

/-- Counting stops in one of the months that it may reach. -/
theorem countOff_month (year : ℤ) (months month days : ℕ) :
    month ≤ (countOff year months month days).1 ∧
      (countOff year months month days).1 ≤ month + months := by
  induction months generalizing month days with
  | zero => exact ⟨le_rfl, le_rfl⟩
  | succ months ih =>
      rw [countOff]
      split_ifs
      · exact ⟨le_rfl, Nat.le_add_right _ _⟩
      · obtain ⟨hlow, hhigh⟩ := ih (month + 1) (days - daysInMonth year month)
        omega

/-! ## Days -/

/-- The days from 0001-01-01 to 1970-01-01. -/
def EPOCH : ℤ := 719162

/-- The days from 1970-01-01 to a date. -/
def daysFromCivil (date : Date) : ℤ :=
  daysBeforeYear date.year + daysBeforeMonth date.year date.month + date.day - 1 - EPOCH

/-- The date a number of days after 1970-01-01. -/
def civilFromDays (days : ℤ) : Date :=
  let n := days + EPOCH
  let year := yearOf n
  let (month, day) := countOff year 11 1 (n - daysBeforeYear year).toNat
  ⟨year, month, day⟩

/-- The month of a date is one of the twelve. -/
theorem civilFromDays_month (days : ℤ) :
    1 ≤ (civilFromDays days).month ∧ (civilFromDays days).month ≤ 12 :=
  countOff_month _ 11 1 _

example : civilFromDays 19782 = ⟨2024, 2, 29⟩ := by decide

/-! ## Printing -/

/-- A number with zeros in front, in at least `width` digits. -/
def padded (width n : ℕ) : List Char :=
  let digits := Nat.toDigits 10 n
  List.replicate (width - digits.length) '0' ++ digits

/-- A year in four digits; a sign stands before a year that needs one. -/
def printYear (year : ℤ) : List Char :=
  if year < 0 then '-' :: padded 4 year.natAbs
  else if 9999 < year then '+' :: padded 4 year.natAbs
  else padded 4 year.natAbs

end Calendar
