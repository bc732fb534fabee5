/-
# Instants on the hour

The instants on the hour behind a midnight are numbered by the hours since; the hour of the day
is the rest of this number by 24 (`hour_onHour`).  Whether a date is representable depends on its
day number only, and the representable days are an interval (`inRange_iff`).
-/
import Emwin.Lib.Chrono
import Emwin.Lib.CivilDays

namespace Chrono

open Calendar

/-- The instant a number of hours after the midnight of a day. -/
def onHour (day : ℤ) (k : ℕ) : DateTime := utc day (k * 3600)

variable {day : ℤ} {j k : ℕ}

/-- An instant on the hour, in nanoseconds since the epoch. -/
theorem onHour_eq (day : ℤ) (k : ℕ) :
    onHour day k = (day * 86400000000000 + k * 3600000000000 : ℤ) := by
  show (day * 86400000000000 + ((k * 3600 : ℕ) : ℤ) * 1000000000 : ℤ) = _
  omega

theorem onHour_add (day : ℤ) (k j : ℕ) : onHour day k + (j : ℤ) * HOUR = onHour day (k + j) := by
  rw [onHour_eq, onHour_eq]
  show (_ + (j : ℤ) * 3600000000000 : ℤ) = _
  push_cast
  omega

theorem onHour_add_day (day : ℤ) (k : ℕ) : onHour day k + DAY = onHour day (k + 24) := by
  rw [← onHour_add]
  rfl

theorem onHour_le_iff : onHour day j ≤ onHour day k ↔ j ≤ k := by
  rw [onHour_eq, onHour_eq]
  show (_ : ℤ) ≤ _ ↔ _
  omega

theorem onHour_injective (day : ℤ) : Function.Injective (onHour day) := by
  intro j k h
  rw [onHour_eq, onHour_eq] at h
  have h' : (day * 86400000000000 + j * 3600000000000 : ℤ) =
    day * 86400000000000 + k * 3600000000000 := h
  omega

/-- The hour of the day. -/
theorem hour_onHour (day : ℤ) (k : ℕ) : hour (onHour day k) = k % 24 := by
  show ((onHour day k % 86400000000000 / 1000000000 : ℤ)).toNat / 3600 = k % 24
  rw [onHour_eq]
  omega

/-- The day. -/
theorem dayNumber_onHour (day : ℤ) (k : ℕ) : dayNumber (onHour day k) = day + (k / 24 : ℕ) := by
  show (onHour day k : ℤ) / 86400000000000 = _
  rw [onHour_eq]
  show ((day * 86400000000000 + k * 3600000000000) / 86400000000000 : ℤ) = day + ((k / 24 : ℕ) : ℤ)
  omega

/-! ## Representable days -/

/-- The days of a range of years. -/
theorem year_iff (n low high : ℤ) :
    (low ≤ (civilFromDays n).year ∧ (civilFromDays n).year ≤ high) ↔
      daysBeforeYear low ≤ n + EPOCH ∧ n + EPOCH < daysBeforeYear (high + 1) := by
  obtain ⟨hbefore, hbehind⟩ := yearOf_spec (n + EPOCH)
  show low ≤ yearOf (n + EPOCH) ∧ yearOf (n + EPOCH) ≤ high ↔ _
  generalize yearOf (n + EPOCH) = year at hbefore hbehind
  have hmono : ∀ {y z : ℤ}, y ≤ z → daysBeforeYear y ≤ daysBeforeYear z := by
    intro y z hyz
    unfold daysBeforeYear
    omega
  constructor
  · rintro ⟨hlow, hhigh⟩
    have := hmono hlow
    have := hmono (show year + 1 ≤ high + 1 by omega)
    omega
  · rintro ⟨hlow, hhigh⟩
    constructor
    · by_contra h
      have := hmono (show year + 1 ≤ low by omega)
      omega
    · by_contra h
      have := hmono (show high + 1 ≤ year by omega)
      omega

/-- An instant is representable if its day is. -/
theorem inRange_iff (t : DateTime) :
    InRange t ↔ -96465292 ≤ dayNumber t ∧ dayNumber t < 95026237 := by
  unfold InRange date
  rw [year_iff, show daysBeforeYear MIN_YEAR = -95746130 by decide,
    show daysBeforeYear (MAX_YEAR + 1) = 95745399 by decide, EPOCH]
  omega

end Chrono
