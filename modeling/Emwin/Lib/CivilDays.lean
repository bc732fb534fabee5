/-
# Days and dates

Counting the months of all years in one line, the months follow each other without gaps
(`monthStart_succ`); a day belongs to exactly one month (`monthOf_eq`), and its date is the
month and the distance to the first of it.  Days and dates determine each other
(`daysFromCivil_civilFromDays`, `civilFromDays_daysFromCivil`).
-/
import Emwin.Lib.Calendar
import Mathlib.Data.Int.LeastGreatest
import Mathlib.Tactic.IntervalCases

namespace Calendar

/-- Whether a date exists. -/
def Date.Valid (d : Date) : Prop :=
  1 ≤ d.month ∧ d.month ≤ 12 ∧ 1 ≤ d.day ∧ d.day ≤ daysInMonth d.year d.month

/-! ## Months in one line -/

/-- The number of a month, counting the months of all years. -/
def monthIndex (year : ℤ) (month : ℕ) : ℤ := year * 12 + (month - 1)

/-- The year of a month. -/
def indexYear (k : ℤ) : ℤ := k / 12

/-- The month within its year. -/
def indexMonth (k : ℤ) : ℕ := (k % 12).toNat + 1

/-- The days of a month. -/
def monthLength (k : ℤ) : ℕ := daysInMonth (indexYear k) (indexMonth k)

/-- The day number of the first of a month. -/
def monthStart (k : ℤ) : ℤ := daysFromCivil ⟨indexYear k, indexMonth k, 1⟩

variable {year : ℤ} {month : ℕ} {k l n : ℤ}

theorem indexYear_monthIndex (h : 1 ≤ month ∧ month ≤ 12) :
    indexYear (monthIndex year month) = year := by
  unfold indexYear monthIndex
  omega

theorem indexMonth_monthIndex (h : 1 ≤ month ∧ month ≤ 12) :
    indexMonth (monthIndex year month) = month := by
  unfold indexMonth monthIndex
  omega

theorem monthIndex_index (k : ℤ) : monthIndex (indexYear k) (indexMonth k) = k := by
  unfold monthIndex indexYear indexMonth
  omega

theorem indexMonth_bounds (k : ℤ) : 1 ≤ indexMonth k ∧ indexMonth k ≤ 12 := by
  unfold indexMonth
  omega

theorem daysInMonth_bounds (year : ℤ) (month : ℕ) :
    28 ≤ daysInMonth year month ∧ daysInMonth year month ≤ 31 := by
  unfold daysInMonth
  split
  · split_ifs <;> omega
  all_goals omega

/-- Which months are shorter than 31 days. -/
theorem daysInMonth_lt_iff (hmonth : 1 ≤ month ∧ month ≤ 12) :
    daysInMonth year month < 31 ↔
      month = 2 ∨ month = 4 ∨ month = 6 ∨ month = 9 ∨ month = 11 := by
  obtain ⟨h1, h12⟩ := hmonth
  interval_cases month
  all_goals simp [daysInMonth]
  · split_ifs <;> omega

/-- A short month is between two months of 31 days of the same year. -/
theorem monthLength_around (h : monthLength k < 31) :
    monthLength (k - 1) = 31 ∧ monthLength (k + 1) = 31 ∧
      indexYear (k - 1) = indexYear k ∧ indexYear (k + 1) = indexYear k := by
  have hshort := (daysInMonth_lt_iff (indexMonth_bounds k)).mp h
  have hlong : ∀ {l : ℤ}, ¬ monthLength l < 31 → monthLength l = 31 := by
    intro l hl
    exact le_antisymm (daysInMonth_bounds _ _).2 (not_lt.mp hl)
  refine ⟨hlong fun hl => ?_, hlong fun hl => ?_, ?_, ?_⟩
  · have := (daysInMonth_lt_iff (indexMonth_bounds (k - 1))).mp hl
    unfold indexMonth at this hshort
    omega
  · have := (daysInMonth_lt_iff (indexMonth_bounds (k + 1))).mp hl
    unfold indexMonth at this hshort
    omega
  · unfold indexYear
    unfold indexMonth at hshort
    omega
  · unfold indexYear
    unfold indexMonth at hshort
    omega
/-! ## The months follow each other -/

/-- The months before the next one. -/
theorem daysBeforeMonth_succ (year : ℤ) {month : ℕ} (hmonth : 1 ≤ month) :
    daysBeforeMonth year (month + 1) = daysBeforeMonth year month + daysInMonth year month := by
  obtain ⟨m, rfl⟩ := Nat.exists_eq_add_of_le' hmonth
  simp only [daysBeforeMonth, Nat.add_sub_cancel]
  rw [List.range'_1_concat, List.map_append, List.sum_append, List.map_singleton,
    List.sum_singleton, Nat.add_comm 1 m]

/-- A later month has more days before it. -/
theorem daysBeforeMonth_le (year : ℤ) {m m' : ℕ} (hm : 1 ≤ m) (h : m ≤ m') :
    daysBeforeMonth year m ≤ daysBeforeMonth year m' := by
  induction m', h using Nat.le_induction with
  | base => exact le_refl _
  | succ m' hle ih =>
      have := daysBeforeMonth_succ year (hm.trans hle)
      omega

/-- A year is as long as its twelve months. -/
theorem daysBeforeYear_succ (year : ℤ) :
    daysBeforeYear (year + 1) =
      daysBeforeYear year + (daysBeforeMonth year 12 + daysInMonth year 12 : ℕ) := by
  have hlength : daysBeforeMonth year 12 + daysInMonth year 12 =
      337 + (if isLeapYear year then 29 else 28) := by
    simp only [daysBeforeMonth, daysInMonth, List.range', List.map_cons, List.map_nil,
      List.sum_cons, List.sum_nil]
    omega
  rw [hlength, daysBeforeYear, daysBeforeYear]
  by_cases hleap : isLeapYear year = true
  · rw [if_pos hleap]
    simp only [isLeapYear, Bool.and_eq_true, Bool.or_eq_true, bne_iff_ne, beq_iff_eq] at hleap
    omega
  · rw [if_neg hleap]
    simp only [isLeapYear, Bool.and_eq_true, Bool.or_eq_true, bne_iff_ne, beq_iff_eq] at hleap
    omega

/-- A month begins where the one before it ends. -/
theorem monthStart_succ (k : ℤ) : monthStart (k + 1) = monthStart k + monthLength k := by
  obtain ⟨hlow, hhigh⟩ := indexMonth_bounds k
  rcases Nat.lt_or_ge (indexMonth k) 12 with hmonth | hmonth
  · have hyear : indexYear (k + 1) = indexYear k := by
      unfold indexMonth at hmonth
      unfold indexYear
      omega
    have hnext : indexMonth (k + 1) = indexMonth k + 1 := by
      unfold indexMonth at hmonth ⊢
      omega
    have hsucc := daysBeforeMonth_succ (indexYear k) hlow
    simp only [monthStart, monthLength, daysFromCivil, hyear, hnext, hsucc]
    omega
  · have hyear : indexYear (k + 1) = indexYear k + 1 := by
      unfold indexMonth at hmonth
      unfold indexYear
      omega
    have hnext : indexMonth (k + 1) = 1 := by
      unfold indexMonth at hmonth ⊢
      omega
    have htwelve : indexMonth k = 12 := le_antisymm hhigh hmonth
    have hfirst : daysBeforeMonth (indexYear k + 1) 1 = 0 := rfl
    simp only [monthStart, monthLength, daysFromCivil, hyear, hnext, htwelve, hfirst,
      daysBeforeYear_succ]
    omega

/-- Months are at least 28 days apart for each month between them. -/
theorem monthStart_add_le (k : ℤ) (j : ℕ) : monthStart k + 28 * j ≤ monthStart (k + j) := by
  induction j with
  | zero => simp
  | succ j ih =>
      have hlength := (daysInMonth_bounds (indexYear (k + j)) (indexMonth (k + j))).1
      have hsucc := monthStart_succ (k + j)
      rw [show k + ((j + 1 : ℕ) : ℤ) = k + j + 1 by omega, hsucc]
      unfold monthLength
      push_cast
      omega

/-- A later month begins later. -/
theorem monthStart_le (h : k ≤ l) : monthStart k + 28 * (l - k) ≤ monthStart l := by
  obtain ⟨j, rfl⟩ := Int.le.dest h
  have := monthStart_add_le k j
  rwa [add_sub_cancel_left]

/-- A date is its month and the distance to the first of it. -/
theorem daysFromCivil_eq {d : Date} (h : d.Valid) :
    daysFromCivil d = monthStart (monthIndex d.year d.month) + (d.day - 1) := by
  have hmonth : 1 ≤ d.month ∧ d.month ≤ 12 := ⟨h.1, h.2.1⟩
  simp only [monthStart, daysFromCivil, indexYear_monthIndex hmonth, indexMonth_monthIndex hmonth]
  omega

/-! ## Dates of days -/

/-- Counting off months finds the month of a day. -/
theorem countOff_eq {year : ℤ} {months month target day : ℕ} (hmonth : 1 ≤ month)
    (hlow : month ≤ target) (hhigh : target ≤ month + months) (hday : 1 ≤ day)
    (hlast : day ≤ daysInMonth year target) {days : ℕ}
    (hdays : days + 1 + daysBeforeMonth year month = daysBeforeMonth year target + day) :
    countOff year months month days = (target, day) := by
  induction months generalizing month days with
  | zero =>
      obtain rfl : month = target := by omega
      rw [countOff, show days + 1 = day by omega]
  | succ months ih =>
      rw [countOff]
      rcases Nat.eq_or_lt_of_le hlow with rfl | hlater
      · rw [if_pos (by omega), show days + 1 = day by omega]
      · have hsucc := daysBeforeMonth_succ year hmonth
        have hmono := daysBeforeMonth_le year (Nat.le_add_left 1 month) hlater
        rw [if_neg (by omega)]
        exact ih (by omega) (by omega) (by omega) (by omega)

/-- Years that follow each other are separate. -/
theorem daysBeforeYear_lt {y z : ℤ} (h : y < z) : daysBeforeYear (y + 1) ≤ daysBeforeYear z := by
  unfold daysBeforeYear
  omega

/-- **Dates.**  The date of the day of a date. -/
theorem civilFromDays_daysFromCivil {d : Date} (h : d.Valid) :
    civilFromDays (daysFromCivil d) = d := by
  obtain ⟨year, month, day⟩ := d
  obtain ⟨hm1, hm12, hd1, hd⟩ := h
  dsimp only at hm1 hm12 hd1 hd
  have hwithin : daysBeforeMonth year month + daysInMonth year month ≤
      daysBeforeMonth year 12 + daysInMonth year 12 := by
    rw [← daysBeforeMonth_succ year hm1, ← daysBeforeMonth_succ year (by omega)]
    exact daysBeforeMonth_le year (by omega) (by omega)
  have hsucc := daysBeforeYear_succ year
  have hnumber : daysFromCivil ⟨year, month, day⟩ + EPOCH =
      daysBeforeYear year + (daysBeforeMonth year month + day - 1 : ℤ) := by
    simp only [daysFromCivil]
    omega
  have hyear : yearOf (daysFromCivil ⟨year, month, day⟩ + EPOCH) = year := by
    obtain ⟨hlow, hhigh⟩ := yearOf_spec (daysFromCivil ⟨year, month, day⟩ + EPOCH)
    rcases lt_trichotomy (yearOf (daysFromCivil ⟨year, month, day⟩ + EPOCH)) year with
      hlt | heq | hgt
    · have := daysBeforeYear_lt hlt
      omega
    · exact heq
    · have := daysBeforeYear_lt hgt
      omega
  unfold civilFromDays
  dsimp only
  rw [hyear, hnumber]
  have hcount : countOff year 11 1 (daysBeforeYear year +
      (daysBeforeMonth year month + day - 1 : ℤ) - daysBeforeYear year).toNat = (month, day) := by
    refine countOff_eq le_rfl hm1 (by omega) hd1 hd ?_
    have hfirst : daysBeforeMonth year 1 = 0 := rfl
    omega
  rw [hcount]

/-- Every day lies in a month. -/
theorem exists_month (n : ℤ) : ∃ k, monthStart k ≤ n ∧ n < monthStart (k + 1) := by
  have hbounded : ∀ k, monthStart k ≤ n → k ≤ n - monthStart 0 ∨ k ≤ 0 := by
    intro k hk
    rcases le_or_gt k 0 with hneg | hpos
    · exact Or.inr hneg
    · have := monthStart_le hpos.le
      omega
  have hinhabited : ∃ k, monthStart k ≤ n := by
    refine ⟨min 0 (n - monthStart 0), ?_⟩
    have := monthStart_le (min_le_left 0 (n - monthStart 0))
    omega
  obtain ⟨k, hk, hgreatest⟩ := Int.exists_greatest_of_bdd
    ⟨max (n - monthStart 0) 0, fun k hk => le_max_iff.mpr (hbounded k hk)⟩ hinhabited
  refine ⟨k, hk, not_le.mp ?_⟩
  intro hnext
  have := hgreatest (k + 1) hnext
  omega

/-- Every day is the day of a date. -/
theorem exists_date (n : ℤ) : ∃ d : Date, d.Valid ∧ daysFromCivil d = n := by
  obtain ⟨k, hlow, hhigh⟩ := exists_month n
  rw [monthStart_succ] at hhigh
  unfold monthLength at hhigh
  obtain ⟨hm1, hm12⟩ := indexMonth_bounds k
  have hday : (n - monthStart k).toNat + 1 ≤ daysInMonth (indexYear k) (indexMonth k) := by
    omega
  have hvalid : Date.Valid ⟨indexYear k, indexMonth k, (n - monthStart k).toNat + 1⟩ :=
    ⟨hm1, hm12, Nat.le_add_left _ _, hday⟩
  refine ⟨_, hvalid, ?_⟩
  rw [daysFromCivil_eq hvalid, monthIndex_index]
  dsimp only
  omega

/-- **Days.**  A day has a date, and is the day of it. -/
theorem civilFromDays_spec (n : ℤ) :
    (civilFromDays n).Valid ∧ daysFromCivil (civilFromDays n) = n := by
  obtain ⟨d, hd, rfl⟩ := exists_date n
  rw [civilFromDays_daysFromCivil hd]
  exact ⟨hd, rfl⟩

/-! ## The month of a day -/

/-- The month of a day. -/
def monthOf (n : ℤ) : ℤ := monthIndex (civilFromDays n).year (civilFromDays n).month

/-- A day is its month and the distance to the first of it. -/
theorem eq_monthStart_add (n : ℤ) : n = monthStart (monthOf n) + ((civilFromDays n).day - 1) := by
  obtain ⟨hvalid, hday⟩ := civilFromDays_spec n
  rw [monthOf, ← daysFromCivil_eq hvalid, hday]

/-- A day lies in its month. -/
theorem monthOf_spec (n : ℤ) : monthStart (monthOf n) ≤ n ∧ n < monthStart (monthOf n + 1) := by
  obtain ⟨hm1, hm12, hd1, hd⟩ := (civilFromDays_spec n).1
  have hn := eq_monthStart_add n
  have hsucc := monthStart_succ (monthOf n)
  have hlength : monthLength (monthOf n) =
      daysInMonth (civilFromDays n).year (civilFromDays n).month := by
    rw [monthLength, monthOf, indexYear_monthIndex ⟨hm1, hm12⟩, indexMonth_monthIndex ⟨hm1, hm12⟩]
  omega

end Calendar
