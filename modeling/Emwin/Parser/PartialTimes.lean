/-
# What partial timestamps resolve to

A timestamp that names a day of the month and a time of day is resolved among the months around
a reference.  The candidates are the instants of these months that have the fields
(`mem_candidateDatetimes_iff`), and two instants with the same fields are at least 28 days
apart; so an instant that is near enough to the reference is the one that is found.

Only the three months around the reference are tried.  Early in a month behind a short one an
instant of the month before that can be nearer than any of theirs (`Skips`); in all other cases
the instant that is found is nearest of all (`resolveDayTimeNearest_nearest_iff`).
-/
import Emwin.Lib.CivilDays
import Emwin.Parser.Support

namespace Parser

open Calendar Chrono

/-! ## Instants with given fields -/

/-- Whether an instant is a whole minute. -/
def WholeMinute (t : DateTime) : Prop := t % (60 * SECOND) = 0

/-- A whole minute on a day of the month at a time of day. -/
def HasFields (t : DateTime) (day hour minute : ℕ) : Prop :=
  (date t).day = day ∧ Chrono.hour t = hour ∧ Chrono.minute t = minute ∧ WholeMinute t

instance (t : DateTime) : Decidable (WholeMinute t) := inferInstanceAs (Decidable (_ = _))

instance (t : DateTime) (day hour minute : ℕ) : Decidable (HasFields t day hour minute) :=
  inferInstanceAs (Decidable (_ ∧ _))

/-- The month of an instant. -/
def monthNumber (t : DateTime) : ℤ := monthOf (dayNumber t)

variable {r t x : DateTime} {year n : ℤ} {month day hour minute : ℕ}

/-- The second of the day, in nanoseconds since the epoch. -/
theorem secondOfDay_eq (t : ℤ) :
    secondOfDay t = (t % 86400000000000 / 1000000000 : ℤ).toNat := rfl

/-- An instant of a day, in nanoseconds since the epoch. -/
theorem utc_eq (n : ℤ) (seconds : ℕ) :
    utc n seconds = (n * 86400000000000 + seconds * 1000000000 : ℤ) := rfl

/-- A whole minute is its day and its time of day. -/
theorem eq_utc {t : ℤ} (h : WholeMinute t) :
    t = utc (dayNumber t) (Chrono.hour t * 3600 + Chrono.minute t * 60) := by
  have hrest : t % (60 * 1000000000) = 0 := h
  have hsecond := secondOfDay_eq t
  rw [utc_eq, show dayNumber t = t / 86400000000000 from rfl, Chrono.hour, Chrono.minute, hsecond]
  omega

theorem hour_lt (t : DateTime) : Chrono.hour t < 24 := by
  rw [Chrono.hour, secondOfDay_eq]
  omega

theorem minute_lt (t : DateTime) : Chrono.minute t < 60 := by
  simp only [Chrono.minute]
  omega

/-- The day of an instant that is built from one. -/
theorem dayNumber_utc (n : ℤ) {seconds : ℕ} (h : seconds < 86400) :
    dayNumber (utc n seconds) = n := by
  simp only [dayNumber, utc, DAY, SECOND]
  omega

/-- The time of day of an instant that is built from one. -/
theorem time_utc (n : ℤ) (hhour : hour < 24) (hminute : minute < 60) :
    Chrono.hour (utc n (hour * 3600 + minute * 60)) = hour ∧
      Chrono.minute (utc n (hour * 3600 + minute * 60)) = minute ∧
      WholeMinute (utc n (hour * 3600 + minute * 60)) := by
  have hsecond : secondOfDay (utc n (hour * 3600 + minute * 60)) = hour * 3600 + minute * 60 := by
    rw [secondOfDay_eq, utc_eq]
    omega
  have hwhole : (n * DAY + ((hour * 3600 + minute * 60 : ℕ) : ℤ) * SECOND) % (60 * SECOND) = 0 := by
    simp only [DAY, SECOND]
    omega
  refine ⟨?_, ?_, hwhole⟩
  · rw [Chrono.hour, hsecond]
    omega
  · rw [Chrono.minute, hsecond]
    omega

/-- What `build_candidate` builds. -/
theorem buildCandidate_eq_some_iff : buildCandidate year month day hour minute = some t ↔
    InRange t ∧ HasFields t day hour minute ∧ date t = ⟨year, month, day⟩ := by
  constructor
  · intro h
    obtain ⟨n, hdate, time, htime, heq⟩ : ∃ n, fromYmdOpt year month day = some n ∧
        ∃ time, fromHmsOpt hour minute 0 = some time ∧ utc n time = t := by
      simpa [buildCandidate, Option.bind_eq_some_iff] using h
    rw [fromYmdOpt] at hdate
    rw [fromHmsOpt] at htime
    split_ifs at hdate htime with hd ht
    obtain rfl := Option.some.inj hdate
    obtain rfl := Option.some.inj htime
    subst heq
    have hvalid : Date.Valid ⟨year, month, day⟩ := hd.2.2
    rw [Nat.add_zero]
    have hday : date (utc (daysFromCivil ⟨year, month, day⟩) (hour * 3600 + minute * 60)) =
        ⟨year, month, day⟩ := by
      rw [date, dayNumber_utc _ (by omega), civilFromDays_daysFromCivil hvalid]
    refine ⟨?_, ⟨by rw [hday], time_utc _ ht.1 ht.2.1⟩, hday⟩
    rw [InRange, hday]
    exact ⟨hd.1, hd.2.1⟩
  · rintro ⟨hrange, ⟨-, rfl, rfl, hwhole⟩, hdate⟩
    obtain ⟨hvalid, hnumber⟩ := civilFromDays_spec (dayNumber t)
    have hcivil : civilFromDays (dayNumber t) = ⟨year, month, day⟩ := hdate
    rw [InRange, hdate] at hrange
    rw [hcivil] at hvalid hnumber
    have hymd : fromYmdOpt year month day = some (dayNumber t) := by
      rw [fromYmdOpt, if_pos ⟨hrange.1, hrange.2, hvalid⟩, hnumber]
    have hhms : fromHmsOpt (Chrono.hour t) (Chrono.minute t) 0 =
        some (Chrono.hour t * 3600 + Chrono.minute t * 60) := by
      rw [fromHmsOpt, if_pos ⟨hour_lt t, minute_lt t, by omega⟩, Nat.add_zero]
    rw [buildCandidate, hymd, hhms]
    exact congrArg some (eq_utc hwhole).symm

/-! ## The candidates -/

/-- The month of an instant, and its place in its year. -/
theorem index_monthNumber (t : DateTime) :
    indexYear (monthNumber t) = (date t).year ∧ indexMonth (monthNumber t) = (date t).month := by
  have hmonth := civilFromDays_month (dayNumber t)
  exact ⟨indexYear_monthIndex hmonth, indexMonth_monthIndex hmonth⟩

/-- The months around are the one before and the one behind. -/
theorem surroundingMonths_eq (hmonth : 1 ≤ month ∧ month ≤ 12) :
    surroundingMonths year month = [monthIndex year month - 1, monthIndex year month,
      monthIndex year month + 1].map fun k => (indexYear k, indexMonth k) := by
  simp only [surroundingMonths, List.map_cons, List.map_nil, indexYear_monthIndex hmonth,
    indexMonth_monthIndex hmonth]
  have hprevious : (indexYear (monthIndex year month - 1), indexMonth (monthIndex year month - 1)) =
      if month = 1 then (year - 1, 12) else (year, month - 1) := by
    simp only [indexYear, indexMonth, monthIndex]
    split_ifs
    · exact Prod.ext (by dsimp only; omega) (by dsimp only; omega)
    · exact Prod.ext (by dsimp only; omega) (by dsimp only; omega)
  have hnext : (indexYear (monthIndex year month + 1), indexMonth (monthIndex year month + 1)) =
      if month = 12 then (year + 1, 1) else (year, month + 1) := by
    simp only [indexYear, indexMonth, monthIndex]
    split_ifs
    · exact Prod.ext (by dsimp only; omega) (by dsimp only; omega)
    · exact Prod.ext (by dsimp only; omega) (by dsimp only; omega)
  rw [hprevious, hnext]

/-- **Candidates.**  The candidates are the instants with the fields in the months around the
reference. -/
theorem mem_candidates_iff (r : DateTime) :
    t ∈ ((surroundingMonths (date r).year (date r).month).filterMap
        fun (year, month) => buildCandidate year month day hour minute) ↔
      InRange t ∧ HasFields t day hour minute ∧ |monthNumber t - monthNumber r| ≤ 1 := by
  have hmonths : ∀ k, buildCandidate (indexYear k) (indexMonth k) day hour minute = some t ↔
      InRange t ∧ HasFields t day hour minute ∧ monthNumber t = k := by
    intro k
    rw [buildCandidate_eq_some_iff]
    refine and_congr_right fun _ => and_congr_right fun hfields => ?_
    obtain ⟨hyear, hmonth⟩ := index_monthNumber t
    constructor
    · intro hdate
      rw [hdate] at hyear hmonth
      rw [← monthIndex_index (monthNumber t), hyear, hmonth, monthIndex_index]
    · rintro rfl
      rw [hyear, hmonth, ← hfields.1]
  have hmonth : 1 ≤ (date r).month ∧ (date r).month ≤ 12 := civilFromDays_month (dayNumber r)
  rw [surroundingMonths_eq hmonth, List.filterMap_map]
  show t ∈ List.filterMap (fun k => buildCandidate (indexYear k) (indexMonth k) day hour minute)
    [monthNumber r - 1, monthNumber r, monthNumber r + 1] ↔ _
  simp only [List.mem_filterMap, hmonths]
  constructor
  · rintro ⟨k, hk, hrange, hfields, rfl⟩
    refine ⟨hrange, hfields, ?_⟩
    simp only [List.mem_cons, List.not_mem_nil, or_false] at hk
    rw [abs_le]
    omega
  · rintro ⟨hrange, hfields, hnear⟩
    refine ⟨monthNumber t, ?_, hrange, hfields, rfl⟩
    rw [abs_le] at hnear
    simp only [List.mem_cons, List.not_mem_nil, or_false]
    omega

/-- `candidate_datetimes` gives the candidates where there are some. -/
theorem candidateDatetimes_of_mem (hday : 1 ≤ day ∧ day ≤ 31) (hhour : hour ≤ 23)
    (hminute : minute ≤ 59) (hrange : InRange t) (hfields : HasFields t day hour minute)
    (hnear : |monthNumber t - monthNumber r| ≤ 1) :
    ∃ candidates, candidateDatetimes r day hour minute = some candidates ∧
      ∀ x, x ∈ candidates ↔
        InRange x ∧ HasFields x day hour minute ∧ |monthNumber x - monthNumber r| ≤ 1 := by
  have hmem := (mem_candidates_iff r).mpr ⟨hrange, hfields, hnear⟩
  refine ⟨_, ?_, fun x => mem_candidates_iff r⟩
  rw [candidateDatetimes, if_neg (by omega)]
  split
  · next hnil =>
      rw [hnil] at hmem
      cases hmem
  · rfl

/-! ## Instants with the same fields -/

/-- Within its month, an instant is at the place its fields say. -/
theorem eq_of_fields {t : ℤ} (h : HasFields t day hour minute) :
    t = (monthStart (monthNumber t) + (day - 1)) * 86400000000000 +
      ((hour * 3600 + minute * 60 : ℕ) : ℤ) * 1000000000 := by
  obtain ⟨hday, rfl, rfl, hwhole⟩ := h
  have hnumber := eq_monthStart_add (dayNumber t)
  rw [show (civilFromDays (dayNumber t)).day = day from hday] at hnumber
  rw [monthNumber, ← hnumber, ← utc_eq]
  exact eq_utc hwhole

/-- In one month the fields belong to one instant. -/
theorem eq_of_monthNumber_eq (ht : HasFields t day hour minute)
    (hx : HasFields x day hour minute) (h : monthNumber t = monthNumber x) : t = x := by
  rw [eq_of_fields ht, eq_of_fields hx, h]

/-- Instants with the same fields are 28 days apart for each month between them. -/
theorem add_le_of_monthNumber_lt {t x : ℤ} (ht : HasFields t day hour minute)
    (hx : HasFields x day hour minute) (h : monthNumber t < monthNumber x) :
    t + 28 * 86400000000000 ≤ x := by
  have hstart := monthStart_le h.le
  have htimes := eq_of_fields ht
  have hlater := eq_of_fields hx
  omega

theorem apart_of_ne {t x : ℤ} (ht : HasFields t day hour minute)
    (hx : HasFields x day hour minute) (hne : x ≠ t) :
    t + 28 * 86400000000000 ≤ x ∨ x + 28 * 86400000000000 ≤ t := by
  rcases lt_trichotomy (monthNumber t) (monthNumber x) with hlt | heq | hgt
  · exact Or.inl (add_le_of_monthNumber_lt ht hx hlt)
  · exact absurd (eq_of_monthNumber_eq ht hx heq).symm hne
  · exact Or.inr (add_le_of_monthNumber_lt hx ht hgt)

/-- An instant lies in its month. -/
theorem monthNumber_spec (t : ℤ) :
    monthStart (monthNumber t) * 86400000000000 ≤ t ∧
      t < monthStart (monthNumber t + 1) * 86400000000000 := by
  have hday : dayNumber t = t / 86400000000000 := rfl
  have hmonth : monthStart (monthNumber t) ≤ dayNumber t ∧
      dayNumber t < monthStart (monthNumber t + 1) := monthOf_spec (dayNumber t)
  omega

/-- Instants less than 28 days apart lie in the same month or in adjacent ones. -/
theorem adjacent_of_near {r t : ℤ} (h : |t - r| < 28 * 86400000000000) :
    |monthNumber t - monthNumber r| ≤ 1 := by
  have hr := monthNumber_spec r
  have ht := monthNumber_spec t
  rw [abs_lt] at h
  rw [abs_le]
  by_contra hfar
  rcases lt_or_ge (monthNumber r + 1) (monthNumber t) with hlt | hge
  · have := monthStart_le hlt.le
    omega
  · have := monthStart_le (show monthNumber t + 1 ≤ monthNumber r by omega)
    omega

/-! ## Choosing among candidates -/

/-- The distance in whole seconds. -/
theorem secondsFrom_eq (r t : ℤ) : secondsFrom r t = (t - r).natAbs / 1000000000 := by
  rw [secondsFrom, numSeconds, Int.natAbs_tdiv]
  rfl

/-- What comes before all others under a measure is chosen. -/
theorem argmin_eq_some {α : Type*} {f : α → ℕ} {l : List α} {a : α} (ha : a ∈ l)
    (hless : ∀ b ∈ l, b ≠ a → f a < f b) : l.argmin f = some a := by
  cases hmin : l.argmin f with
  | none =>
      rw [List.argmin_eq_none.mp hmin] at ha
      exact absurd ha List.not_mem_nil
  | some b =>
      refine congrArg some ?_
      by_contra hne
      exact absurd (List.le_of_mem_argmin ha hmin)
        (not_le.mpr (hless b (List.argmin_mem hmin) hne))

/-- **Nearest.**  An instant less than fourteen days from the reference is found. -/
theorem resolveDayTimeNearest_eq {r t : ℤ} (hrange : InRange t) (hwhole : WholeMinute t)
    (hnear : |t - r| < 14 * DAY) :
    resolveDayTimeNearest r (date t).day (Chrono.hour t) (Chrono.minute t) = some t := by
  have hnear' : |t - r| < 14 * 86400000000000 := hnear
  have hfields : HasFields t (date t).day (Chrono.hour t) (Chrono.minute t) :=
    ⟨rfl, rfl, rfl, hwhole⟩
  obtain ⟨-, -, hd1, hd⟩ := (civilFromDays_spec (dayNumber t)).1
  have hday : 1 ≤ (date t).day ∧ (date t).day ≤ 31 :=
    ⟨hd1, hd.trans (daysInMonth_bounds _ _).2⟩
  have hhour := hour_lt t
  have hminute := minute_lt t
  obtain ⟨candidates, hcandidates, hmem⟩ := candidateDatetimes_of_mem (r := r) hday
    (by omega) (by omega) hrange hfields (adjacent_of_near (hnear'.trans (by decide)))
  rw [resolveDayTimeNearest, hcandidates]
  refine argmin_eq_some
    ((hmem t).mpr ⟨hrange, hfields, adjacent_of_near (hnear'.trans (by decide))⟩) ?_
  intro x hx hne
  rw [secondsFrom_eq, secondsFrom_eq]
  rw [abs_lt] at hnear'
  have happart := apart_of_ne hfields ((hmem x).mp hx).2.1 hne
  omega

/-- **Not before.**  An instant less than 28 days behind the reference is found. -/
theorem resolveDayTimeNotBefore_eq {r t : ℤ} (hrange : InRange t) (hwhole : WholeMinute t)
    (hlow : r ≤ t) (hhigh : t < r + 28 * DAY) :
    resolveDayTimeNotBefore r (date t).day (Chrono.hour t) (Chrono.minute t) = some t := by
  have hhigh' : t < r + 28 * 86400000000000 := hhigh
  have hfields : HasFields t (date t).day (Chrono.hour t) (Chrono.minute t) :=
    ⟨rfl, rfl, rfl, hwhole⟩
  obtain ⟨-, -, hd1, hd⟩ := (civilFromDays_spec (dayNumber t)).1
  have hday : 1 ≤ (date t).day ∧ (date t).day ≤ 31 :=
    ⟨hd1, hd.trans (daysInMonth_bounds _ _).2⟩
  have hhour := hour_lt t
  have hminute := minute_lt t
  have hadjacent : |monthNumber t - monthNumber r| ≤ 1 :=
    adjacent_of_near (abs_lt.mpr ⟨by omega, by omega⟩)
  obtain ⟨candidates, hcandidates, hmem⟩ := candidateDatetimes_of_mem (r := r) hday
    (by omega) (by omega) hrange hfields hadjacent
  have hmin : (candidates.filter (r ≤ ·)).min? = some t := by
    refine List.min?_eq_some_iff.mpr ⟨?_, ?_⟩
    · exact List.mem_filter.mpr ⟨(hmem t).mpr ⟨hrange, hfields, hadjacent⟩, by simpa using hlow⟩
    · intro x hx
      obtain ⟨hx, hlater⟩ := List.mem_filter.mp hx
      have hlater' : r ≤ x := by simpa using hlater
      by_contra hless
      have happart := apart_of_ne hfields ((hmem x).mp hx).2.1 (by rintro rfl; exact hless le_rfl)
      omega
  rw [resolveDayTimeNotBefore, hcandidates]
  show ((candidates.filter (r ≤ ·)).min?).or candidates.max? = some t
  rw [hmin]
  rfl

/-- The candidates of a time of day, where the days around the reference are dates. -/
theorem resolveClockTimeNearest_of_inRange {r : ℤ} (hhour : hour ≤ 23) (hminute : minute ≤ 59)
    (hrange : InRange r) (hbefore : InRange (r - DAY)) (hbehind : InRange (r + DAY)) :
    resolveClockTimeNearest r hour minute =
      ([-1, 0, 1].map fun offset : ℤ =>
        (dayNumber r + offset) * 86400000000000 +
          ((hour * 3600 + minute * 60 : ℕ) : ℤ) * 1000000000).argmin (secondsFrom r) := by
  have hday : ∀ offset : ℤ, InRange (r + offset * DAY) →
      checkedAdd (utc (dayNumber r) 0) (offset * DAY) =
        some ((dayNumber r + offset) * 86400000000000 : ℤ) := by
    intro offset hoffset
    have hsum : utc (dayNumber r) 0 + offset * DAY =
        ((dayNumber r + offset) * 86400000000000 : ℤ) := by
      rw [utc_eq]
      show (_ : ℤ) = _
      simp only [DAY, SECOND]
      omega
    have hdate : date ((dayNumber r + offset) * 86400000000000 : ℤ) = date (r + offset * DAY) := by
      have hnumber : dayNumber ((dayNumber r + offset) * 86400000000000 : ℤ) =
          dayNumber (r + offset * DAY) := by
        show ((r / 86400000000000 + offset) * 86400000000000 : ℤ) / 86400000000000 =
          (r + offset * 86400000000000 : ℤ) / 86400000000000
        omega
      rw [date, date, hnumber]
    rw [checkedAdd, hsum, if_pos]
    rwa [InRange, hdate]
  have hm1 := hday (-1) (by rwa [neg_one_mul, ← sub_eq_add_neg])
  have h0 := hday 0 (by rwa [zero_mul, add_zero])
  have hp1 := hday 1 (by rwa [one_mul])
  have htime : (((hour * 3600 + minute * 60 : ℕ) : ℤ) * SECOND) =
      ((hour * 3600 + minute * 60 : ℕ) : ℤ) * 1000000000 := rfl
  rw [resolveClockTimeNearest, if_neg (by omega), fromHmsOpt, if_pos (by omega), Nat.add_zero]
  simp only [Option.bind_eq_bind, Option.bind_some, List.mapM_cons, List.mapM_nil, hm1, h0, hp1,
    Option.pure_def, List.map_cons, List.map_nil, htime]

/-- **Clock.**  An instant less than twelve hours from the reference is found. -/
theorem resolveClockTimeNearest_eq {r t : ℤ} (hrange : InRange r) (hbefore : InRange (r - DAY))
    (hbehind : InRange (r + DAY)) (hwhole : WholeMinute t) (hnear : |t - r| < 12 * HOUR) :
    resolveClockTimeNearest r (Chrono.hour t) (Chrono.minute t) = some t := by
  have hnear' : |t - r| < 12 * 3600000000000 := hnear
  have hhour := hour_lt t
  have hminute := minute_lt t
  have htime := eq_utc hwhole
  rw [utc_eq] at htime
  have ht : dayNumber t = t / 86400000000000 := rfl
  have hr : dayNumber r = r / 86400000000000 := rfl
  rw [abs_lt] at hnear'
  rw [resolveClockTimeNearest_of_inRange (by omega) (by omega) hrange hbefore hbehind]
  refine argmin_eq_some (List.mem_map.mpr ⟨dayNumber t - dayNumber r, ?_, ?_⟩) ?_
  · simp only [List.mem_cons, List.not_mem_nil, or_false]
    omega
  · show (dayNumber r + (dayNumber t - dayNumber r)) * 86400000000000 +
      ((Chrono.hour t * 3600 + Chrono.minute t * 60 : ℕ) : ℤ) * 1000000000 = t
    omega
  · intro x hx hne
    obtain ⟨offset, -, rfl⟩ := List.mem_map.mp hx
    have hother : (dayNumber r + offset) * 86400000000000 +
        ((Chrono.hour t * 3600 + Chrono.minute t * 60 : ℕ) : ℤ) * 1000000000 ≠ t := hne
    rw [secondsFrom_eq, secondsFrom_eq]
    omega

/-! ## The nearest of all -/

/-- The instant of a month with some fields. -/
def instantIn (k : ℤ) (day hour minute : ℕ) : DateTime :=
  utc (monthStart k + (day - 1)) (hour * 3600 + minute * 60)

/-- Whether a nearer instant is skipped: the day is missing in the month before that of the
reference, and in the month before that one it is nearer than in the month of the reference. -/
def Skips (r : DateTime) (day hour minute : ℕ) : Prop :=
  monthLength (monthNumber r - 1) < day ∧
    secondsFrom r (instantIn (monthNumber r - 2) day hour minute) <
      secondsFrom r (instantIn (monthNumber r) day hour minute)

instance (r : DateTime) (day hour minute : ℕ) : Decidable (Skips r day hour minute) :=
  inferInstanceAs (Decidable (_ ∧ _))

theorem instantIn_eq (k : ℤ) (day hour minute : ℕ) :
    instantIn k day hour minute = ((monthStart k + (day - 1)) * 86400000000000 +
      ((hour * 3600 + minute * 60 : ℕ) : ℤ) * 1000000000 : ℤ) := rfl

/-- The instant with the fields is in its month, if the month has the day. -/
theorem hasFields_instantIn {k : ℤ} (hyear : MIN_YEAR ≤ indexYear k ∧ indexYear k ≤ MAX_YEAR)
    (hday : 1 ≤ day) (hlast : day ≤ monthLength k) (hhour : hour ≤ 23) (hminute : minute ≤ 59) :
    InRange (instantIn k day hour minute) ∧
      HasFields (instantIn k day hour minute) day hour minute ∧
      monthNumber (instantIn k day hour minute) = k := by
  obtain ⟨hm1, hm12⟩ := indexMonth_bounds k
  have hvalid : Date.Valid ⟨indexYear k, indexMonth k, day⟩ := ⟨hm1, hm12, hday, hlast⟩
  have hnumber : daysFromCivil ⟨indexYear k, indexMonth k, day⟩ = monthStart k + (day - 1) := by
    rw [daysFromCivil_eq hvalid, monthIndex_index]
  have hcandidate : buildCandidate (indexYear k) (indexMonth k) day hour minute =
      some (instantIn k day hour minute) := by
    rw [buildCandidate, fromYmdOpt, if_pos ⟨hyear.1, hyear.2, hvalid⟩, fromHmsOpt,
      if_pos (by omega), Nat.add_zero, hnumber]
    rfl
  obtain ⟨hrange, hfields, hdate⟩ := buildCandidate_eq_some_iff.mp hcandidate
  refine ⟨hrange, hfields, ?_⟩
  obtain ⟨hy, hm⟩ := index_monthNumber (instantIn k day hour minute)
  rw [hdate] at hy hm
  rw [← monthIndex_index (monthNumber _), hy, hm, monthIndex_index]

/-- The year of a month that has an instant. -/
theorem indexYear_of_inRange (h : InRange t) :
    MIN_YEAR ≤ indexYear (monthNumber t) ∧ indexYear (monthNumber t) ≤ MAX_YEAR := by
  rw [(index_monthNumber t).1]
  exact h

/-- Of the instants with the fields in the months around the reference a nearest one is found. -/
theorem resolveDayTimeNearest_minimal {r : ℤ} (hrange : InRange r) (hday : 1 ≤ day ∧ day ≤ 31)
    (hhour : hour ≤ 23) (hminute : minute ≤ 59) :
    ∃ t, resolveDayTimeNearest r day hour minute = some t ∧ InRange t ∧
      HasFields t day hour minute ∧ |monthNumber t - monthNumber r| ≤ 1 ∧
      ∀ x, InRange x → HasFields x day hour minute → |monthNumber x - monthNumber r| ≤ 1 →
        secondsFrom r t ≤ secondsFrom r x := by
  -- the month of the reference or the one before has the day
  obtain ⟨t₀, ht₀⟩ : ∃ t, InRange t ∧ HasFields t day hour minute ∧
      |monthNumber t - monthNumber r| ≤ 1 := by
    have hyear := indexYear_of_inRange hrange
    rcases lt_or_ge (monthLength (monthNumber r)) 31 with hshort | hlong
    · obtain ⟨hlong, -, hsame, -⟩ := monthLength_around hshort
      obtain ⟨hr, hfields, hmonth⟩ := hasFields_instantIn (k := monthNumber r - 1)
        (by rwa [hsame]) hday.1 (by omega) hhour hminute
      exact ⟨_, hr, hfields, by rw [hmonth, abs_le]; omega⟩
    · obtain ⟨hr, hfields, hmonth⟩ := hasFields_instantIn hyear hday.1 (by omega) hhour hminute
      exact ⟨_, hr, hfields, by rw [hmonth, abs_le]; omega⟩
  obtain ⟨candidates, hcandidates, hmem⟩ :=
    candidateDatetimes_of_mem hday hhour hminute ht₀.1 ht₀.2.1 ht₀.2.2
  obtain ⟨t, ht⟩ : ∃ t, candidates.argmin (secondsFrom r) = some t := by
    refine Option.ne_none_iff_exists'.mp ?_
    rw [Ne, List.argmin_eq_none]
    rintro rfl
    exact absurd ((hmem t₀).mpr ht₀) List.not_mem_nil
  obtain ⟨htrange, htfields, htnear⟩ := (hmem t).mp (List.argmin_mem ht)
  refine ⟨t, by rw [resolveDayTimeNearest, hcandidates]; exact ht, htrange, htfields, htnear, ?_⟩
  intro x hx hfields hnear
  exact List.le_of_mem_argmin ((hmem x).mpr ⟨hx, hfields, hnear⟩) ht

/-- The time of day of an instant. -/
theorem HasFields.clock_le {x : ℤ} (h : HasFields x day hour minute) : hour ≤ 23 ∧ minute ≤ 59 := by
  have hhour := hour_lt x
  have hminute := minute_lt x
  rw [h.2.1] at hhour
  rw [h.2.2.1] at hminute
  omega

/-- If nothing is skipped, an instant of the months around is at least as near as an earlier one. -/
theorem exists_near_le_of_earlier {r x : ℤ} (hrange : InRange r) (hx : InRange x)
    (hday : 1 ≤ day ∧ day ≤ 31) (hfields : HasFields x day hour minute)
    (hskips : ¬ Skips r day hour minute) (hearlier : monthNumber x + 1 < monthNumber r) :
    ∃ y, InRange y ∧ HasFields y day hour minute ∧ |monthNumber y - monthNumber r| ≤ 1 ∧
      secondsFrom r y ≤ secondsFrom r x := by
  obtain ⟨hhour, hminute⟩ := hfields.clock_le
  have hyear := indexYear_of_inRange hrange
  have hxyear := indexYear_of_inRange hx
  have hspec := monthNumber_spec r
  by_cases hprevious : day ≤ monthLength (monthNumber r - 1)
  · obtain ⟨hy, hyfields, hymonth⟩ := hasFields_instantIn (k := monthNumber r - 1)
      (by unfold indexYear at hyear hxyear ⊢; omega) hday.1 hprevious hhour hminute
    refine ⟨_, hy, hyfields, by rw [hymonth, abs_le]; omega, ?_⟩
    have happart := add_le_of_monthNumber_lt hfields hyfields (by omega)
    have hyspec := monthNumber_spec (instantIn (monthNumber r - 1) day hour minute)
    rw [hymonth, sub_add_cancel] at hyspec
    rw [secondsFrom_eq, secondsFrom_eq]
    omega
  · -- the month before is short, so the reference's month and the one before that are long
    obtain ⟨hbefore, hbehind, hsame, hsame'⟩ :=
      monthLength_around (k := monthNumber r - 1) (by omega)
    rw [sub_add_cancel] at hbehind hsame'
    rw [show monthNumber r - 1 - 1 = monthNumber r - 2 by omega] at hbefore hsame
    obtain ⟨hy, hyfields, hymonth⟩ :=
      hasFields_instantIn hyear hday.1 (by omega) hhour hminute
    obtain ⟨hz, hzfields, hzmonth⟩ := hasFields_instantIn (k := monthNumber r - 2)
      (by rwa [hsame, ← hsame']) hday.1 (by omega) hhour hminute
    refine ⟨_, hy, hyfields, by rw [hymonth, abs_le]; omega,
      (not_lt.mp fun h => hskips ⟨by omega, h⟩).trans ?_⟩
    rcases eq_or_ne (monthNumber x) (monthNumber r - 2) with heq | hne
    · rw [eq_of_monthNumber_eq hzfields hfields (hzmonth.trans heq.symm)]
    · have happart := add_le_of_monthNumber_lt hfields hzfields (by omega)
      have hzspec := monthNumber_spec (instantIn (monthNumber r - 2) day hour minute)
      have hstart := monthStart_le (show monthNumber r - 2 + 1 ≤ monthNumber r by omega)
      rw [hzmonth] at hzspec
      rw [secondsFrom_eq, secondsFrom_eq]
      omega

/-- An instant of the months around is at least as near as a later one. -/
theorem exists_near_le_of_later {r x : ℤ} (hrange : InRange r) (hx : InRange x)
    (hday : 1 ≤ day ∧ day ≤ 31) (hfields : HasFields x day hour minute)
    (hlater : monthNumber r + 1 < monthNumber x) :
    ∃ y, InRange y ∧ HasFields y day hour minute ∧ |monthNumber y - monthNumber r| ≤ 1 ∧
      secondsFrom r y ≤ secondsFrom r x := by
  obtain ⟨hhour, hminute⟩ := hfields.clock_le
  have hyear := indexYear_of_inRange hrange
  have hxyear := indexYear_of_inRange hx
  have hspec := monthNumber_spec r
  by_cases hnext : day ≤ monthLength (monthNumber r + 1)
  · obtain ⟨hy, hyfields, hymonth⟩ := hasFields_instantIn (k := monthNumber r + 1)
      (by unfold indexYear at hyear hxyear ⊢; omega) hday.1 hnext hhour hminute
    refine ⟨_, hy, hyfields, by rw [hymonth, abs_le]; omega, ?_⟩
    have happart := add_le_of_monthNumber_lt hyfields hfields (by omega)
    have hyspec := monthNumber_spec (instantIn (monthNumber r + 1) day hour minute)
    rw [hymonth] at hyspec
    rw [secondsFrom_eq, secondsFrom_eq]
    omega
  · -- the next month is short, so the reference's month is long, and the day is late in it
    obtain ⟨hlong, -, -, -⟩ := monthLength_around (k := monthNumber r + 1) (by omega)
    rw [add_sub_cancel_right] at hlong
    obtain ⟨hy, hyfields, hymonth⟩ :=
      hasFields_instantIn hyear hday.1 (by omega) hhour hminute
    refine ⟨_, hy, hyfields, by rw [hymonth, abs_le]; omega, ?_⟩
    have hyspec := monthNumber_spec (instantIn (monthNumber r) day hour minute)
    have hsucc := monthStart_succ (monthNumber r)
    have hlength := (daysInMonth_bounds (indexYear (monthNumber r + 1))
      (indexMonth (monthNumber r + 1))).1
    have hstart := monthStart_le (show monthNumber r + 2 ≤ monthNumber x by omega)
    have hsucc' := monthStart_succ (monthNumber r + 1)
    have htimes := eq_of_fields hfields
    rw [hymonth] at hyspec
    rw [← monthLength] at hlength
    rw [show monthNumber r + 1 + 1 = monthNumber r + 2 by omega] at hsucc'
    rw [secondsFrom_eq, secondsFrom_eq]
    omega

/-- If nothing is skipped, an instant of the months around is at least as near as any other. -/
theorem exists_near_le {r x : ℤ} (hrange : InRange r) (hx : InRange x)
    (hday : 1 ≤ day ∧ day ≤ 31) (hfields : HasFields x day hour minute)
    (hskips : ¬ Skips r day hour minute) :
    ∃ y, InRange y ∧ HasFields y day hour minute ∧ |monthNumber y - monthNumber r| ≤ 1 ∧
      secondsFrom r y ≤ secondsFrom r x := by
  by_cases hnear : |monthNumber x - monthNumber r| ≤ 1
  · exact ⟨x, hx, hfields, hnear, le_rfl⟩
  · rw [abs_le] at hnear
    rcases lt_or_ge (monthNumber x) (monthNumber r) with hlt | hge
    · exact exists_near_le_of_earlier hrange hx hday hfields hskips (by omega)
    · exact exists_near_le_of_later hrange hx hday hfields (by omega)

/-- A month with an instant has its day. -/
theorem day_le_monthLength (h : HasFields t day hour minute) :
    day ≤ monthLength (monthNumber t) := by
  obtain ⟨-, -, -, hlast⟩ := (civilFromDays_spec (dayNumber t)).1
  obtain ⟨hyear, hmonth⟩ := index_monthNumber t
  rw [monthLength, hyear, hmonth, ← h.1]
  exact hlast

/-- What is skipped is nearer than all instants of the months around. -/
theorem lt_of_skips {r t : ℤ} (hrange : InRange r) (hday : 1 ≤ day ∧ day ≤ 31)
    (hfields : HasFields t day hour minute) (hnear : |monthNumber t - monthNumber r| ≤ 1)
    (hskips : Skips r day hour minute) :
    InRange (instantIn (monthNumber r - 2) day hour minute) ∧
      HasFields (instantIn (monthNumber r - 2) day hour minute) day hour minute ∧
      secondsFrom r (instantIn (monthNumber r - 2) day hour minute) < secondsFrom r t := by
  obtain ⟨hshort, hless⟩ := hskips
  obtain ⟨hhour, hminute⟩ := hfields.clock_le
  have hyear := indexYear_of_inRange hrange
  obtain ⟨hbefore, -, hsame, hsame'⟩ := monthLength_around (k := monthNumber r - 1) (by omega)
  rw [sub_add_cancel] at hsame'
  rw [show monthNumber r - 1 - 1 = monthNumber r - 2 by omega] at hbefore hsame
  obtain ⟨hz, hzfields, hzmonth⟩ := hasFields_instantIn (k := monthNumber r - 2)
    (by rwa [hsame, ← hsame']) hday.1 (by omega) hhour hminute
  refine ⟨hz, hzfields, ?_⟩
  rw [abs_le] at hnear
  have hmonths : monthNumber t = monthNumber r - 1 ∨ monthNumber t = monthNumber r ∨
      monthNumber t = monthNumber r + 1 := by
    omega
  rcases hmonths with hprevious | hsame | hnext
  · have hlast := day_le_monthLength hfields
    rw [hprevious] at hlast
    omega
  · have ht : t = instantIn (monthNumber t) day hour minute := eq_of_fields hfields
    rwa [ht, hsame]
  · -- the instant of the reference's month is behind the reference, so this one is further away
    have hstart := monthStart_le (show monthNumber r ≤ monthNumber t by omega)
    have htimes := eq_of_fields hfields
    have hspec := monthNumber_spec r
    have hzspec := monthNumber_spec (instantIn (monthNumber r - 2) day hour minute)
    have hstart' := monthStart_le (show monthNumber r - 2 + 1 ≤ monthNumber r by omega)
    rw [hzmonth] at hzspec
    rw [secondsFrom_eq, secondsFrom_eq, instantIn_eq (monthNumber r)] at hless
    rw [secondsFrom_eq, secondsFrom_eq]
    omega

/-- Only the last days of a month are skipped, on the first days of the month of the reference. -/
theorem Skips.late {r : ℤ} (hday : day ≤ 31) (hhour : hour ≤ 23) (hminute : minute ≤ 59)
    (hskips : Skips r day hour minute) : 30 ≤ day ∧ (date r).day ≤ 2 := by
  obtain ⟨hshort, hless⟩ := hskips
  obtain ⟨hbefore, -, -, -⟩ := monthLength_around (k := monthNumber r - 1) (by omega)
  have hlength := (daysInMonth_bounds (indexYear (monthNumber r - 1))
    (indexMonth (monthNumber r - 1))).1
  rw [← monthLength] at hlength
  have hsucc := monthStart_succ (monthNumber r - 2)
  have hsucc' := monthStart_succ (monthNumber r - 1)
  rw [show monthNumber r - 1 - 1 = monthNumber r - 2 by omega] at hbefore
  rw [show monthNumber r - 2 + 1 = monthNumber r - 1 by omega] at hsucc
  rw [sub_add_cancel] at hsucc'
  have hnumber : dayNumber r = monthStart (monthNumber r) + ((date r).day - 1) :=
    eq_monthStart_add (dayNumber r)
  have hdays : dayNumber r = r / 86400000000000 := rfl
  have hfirst : 1 ≤ (date r).day := (civilFromDays_spec (dayNumber r)).1.2.2.1
  rw [secondsFrom_eq, secondsFrom_eq, instantIn_eq, instantIn_eq] at hless
  omega

/-- **Nearest of all.**  An instant is found that is nearest among the months around, and nearest
of all exactly if nothing is skipped. -/
theorem resolveDayTimeNearest_nearest_iff {r : ℤ} (hrange : InRange r)
    (hday : 1 ≤ day ∧ day ≤ 31) (hhour : hour ≤ 23) (hminute : minute ≤ 59) :
    ∃ t, resolveDayTimeNearest r day hour minute = some t ∧ InRange t ∧
      HasFields t day hour minute ∧
      (∀ x, InRange x → HasFields x day hour minute → |monthNumber x - monthNumber r| ≤ 1 →
        secondsFrom r t ≤ secondsFrom r x) ∧
      ((∀ x, InRange x → HasFields x day hour minute → secondsFrom r t ≤ secondsFrom r x) ↔
        ¬ Skips r day hour minute) := by
  obtain ⟨t, ht, htrange, htfields, htnear, hleast⟩ :=
    resolveDayTimeNearest_minimal hrange hday hhour hminute
  refine ⟨t, ht, htrange, htfields, hleast, ?_⟩
  constructor
  · intro hall hskips
    obtain ⟨hz, hzfields, hless⟩ := lt_of_skips hrange hday htfields htnear hskips
    exact absurd (hall _ hz hzfields) (not_le.mpr hless)
  · intro hskips x hx hfields
    obtain ⟨y, hy, hyfields, hynear, hle⟩ := exists_near_le hrange hx hday hfields hskips
    exact (hleast y hy hyfields hynear).trans hle

/-- **Partial timestamps.**  What is near enough to the reference is resolved to the instant that
was encoded, and every day and time of day to one that is nearest in the months around.  It is
nearest of all unless a nearer one is skipped, which needs a late day and an early reference. -/
theorem partial_times_resolve (r : DateTime) (hrange : InRange r) :
    (∀ t, InRange t → WholeMinute t → |t - r| < 14 * DAY →
      resolveDayTimeNearest r (date t).day (Chrono.hour t) (Chrono.minute t) = some t) ∧
    (∀ t, InRange t → WholeMinute t → r ≤ t → t < r + 28 * DAY →
      resolveDayTimeNotBefore r (date t).day (Chrono.hour t) (Chrono.minute t) = some t) ∧
    (InRange (r - DAY) → InRange (r + DAY) → ∀ t, WholeMinute t → |t - r| < 12 * HOUR →
      resolveClockTimeNearest r (Chrono.hour t) (Chrono.minute t) = some t) ∧
    (∀ day hour minute, 1 ≤ day → day ≤ 31 → hour ≤ 23 → minute ≤ 59 →
      (∃ t, resolveDayTimeNearest r day hour minute = some t ∧ InRange t ∧
        HasFields t day hour minute ∧
        (∀ x, InRange x → HasFields x day hour minute → |monthNumber x - monthNumber r| ≤ 1 →
          secondsFrom r t ≤ secondsFrom r x) ∧
        ((∀ x, InRange x → HasFields x day hour minute → secondsFrom r t ≤ secondsFrom r x) ↔
          ¬ Skips r day hour minute)) ∧
      (Skips r day hour minute → 30 ≤ day ∧ (date r).day ≤ 2)) := by
  refine ⟨fun t => resolveDayTimeNearest_eq, fun t => resolveDayTimeNotBefore_eq, ?_, ?_⟩
  · intro hbefore hbehind t
    exact resolveClockTimeNearest_eq hrange hbefore hbehind
  · intro day hour minute hfirst hlast hhour hminute
    exact ⟨resolveDayTimeNearest_nearest_iff hrange ⟨hfirst, hlast⟩ hhour hminute,
      Skips.late hlast hhour hminute⟩

/-- The last minute of January, read in February. -/
theorem partial_times_resolve_february :
    resolveDayTimeNearest (utc (daysFromCivil ⟨2025, 2, 1⟩) 30) 31 23 59 =
      some (utc (daysFromCivil ⟨2025, 1, 31⟩) 86340) :=
  (partial_times_resolve (utc (daysFromCivil ⟨2025, 2, 1⟩) 30) (by decide)).1
    (utc (daysFromCivil ⟨2025, 1, 31⟩) 86340) (by decide) (by decide) (by decide)

/-- On the first of May the 31st of March is nearer than that of May, but April is between; and
on the last day with a date the clock is not read. -/
theorem partial_times_misses :
    (¬ ∀ r, InRange r → ∀ day hour minute, 1 ≤ day → day ≤ 31 → hour ≤ 23 → minute ≤ 59 →
      ∃ t, resolveDayTimeNearest r day hour minute = some t ∧ HasFields t day hour minute ∧
        ∀ x, InRange x → HasFields x day hour minute → secondsFrom r t ≤ secondsFrom r x) ∧
    ¬ ∀ r t, InRange r → InRange t → WholeMinute t → |t - r| < 12 * HOUR →
      resolveClockTimeNearest r (Chrono.hour t) (Chrono.minute t) = some t := by
  constructor
  · intro h
    obtain ⟨t, ht, -, hleast⟩ := h (utc (daysFromCivil ⟨2025, 5, 1⟩) 0) (by decide) 31 23 59
      (by decide) (by decide) (by decide) (by decide)
    have hfound : resolveDayTimeNearest (utc (daysFromCivil ⟨2025, 5, 1⟩) 0) 31 23 59 =
        some (utc (daysFromCivil ⟨2025, 5, 31⟩) 86340) := by decide
    rw [hfound] at ht
    obtain rfl := Option.some.inj ht
    exact absurd (hleast (utc (daysFromCivil ⟨2025, 3, 31⟩) 86340) (by decide) (by decide))
      (by decide)
  · intro h
    exact absurd (h (utc (daysFromCivil ⟨262142, 12, 31⟩) 0)
      (utc (daysFromCivil ⟨262142, 12, 31⟩) 0)
      (by decide) (by decide) (by decide) (by decide)) (by decide)

end Parser
