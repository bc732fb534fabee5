/-
# The hours of a section of model guidance

Where the hours are those of the clock, they are read as hours of the day of the run, and a day
is added to one that is not behind the hour before it; an hour 00 begins the day behind the hour
before it.  The instants that are found lie at most 48 hours behind the midnight in front of the
run (`pushTime_clock`), and they are the ones that were printed exactly if these do
(`hour_axis_iff`).
-/
import Emwin.Lib.ClockHours
import Emwin.Lib.PaddedDigits
import Emwin.Parser.Mos
import Mathlib.Data.List.Chain

namespace Parser.Mos

open Calendar Chrono

/-! ## The time of the run -/

theorem eq_of_scanNumber {width n : ℕ} {s rest : Str} (h : scanNumber width s = some (n, rest)) :
    ∃ digits, s = digits ++ rest ∧ digits.length = width ∧ n = Str.digitsValue digits ∧
      ∀ c ∈ digits, c.isDigit = true := by
  unfold scanNumber at h
  dsimp only at h
  split at h
  · next hdigits =>
      obtain ⟨rfl, rfl⟩ := Prod.mk.inj (Option.some.inj h)
      exact ⟨s.take width, (List.take_append_drop width s).symm, hdigits.1, rfl,
        List.all_eq_true.mp hdigits.2⟩
  · cases h

theorem eq_of_scanChar {c : Char} {s rest : Str} (h : scanChar c s = some rest) :
    s = c :: rest := by
  unfold scanChar at h
  split at h
  · next hhead =>
      obtain rfl := Option.some.inj h
      exact (List.eq_cons_of_mem_head? (by simp [hhead]))
  · cases h

/-- What a text says that is read as a time. -/
theorem eq_of_parseFromRfc3339 {s : Str} {t : DateTime} (h : parseFromRfc3339 s = some t) :
    ∃ front minute second : Str, ∃ year month day hour : ℕ, year < 10000 ∧
      s = front ++ (':' :: minute ++ ':' :: second ++ ['Z']) ∧
      minute.length = 2 ∧ second.length = 2 ∧
      ∃ n time, fromYmdOpt year month day = some n ∧
        fromHmsOpt hour (Str.digitsValue minute) (Str.digitsValue second) = some time ∧
        t = utc n time := by
  unfold parseFromRfc3339 at h
  obtain ⟨⟨year, s1⟩, hyear, h⟩ := Option.bind_eq_some_iff.mp h
  obtain ⟨s2, hs1, h⟩ := Option.bind_eq_some_iff.mp h
  obtain ⟨⟨month, s3⟩, hmonth, h⟩ := Option.bind_eq_some_iff.mp h
  obtain ⟨s4, hs3, h⟩ := Option.bind_eq_some_iff.mp h
  obtain ⟨⟨day, s5⟩, hday, h⟩ := Option.bind_eq_some_iff.mp h
  obtain ⟨s6, hs5, h⟩ := Option.bind_eq_some_iff.mp h
  obtain ⟨⟨hour, s7⟩, hhour, h⟩ := Option.bind_eq_some_iff.mp h
  obtain ⟨s8, hs7, h⟩ := Option.bind_eq_some_iff.mp h
  obtain ⟨⟨minute, s9⟩, hminute, h⟩ := Option.bind_eq_some_iff.mp h
  obtain ⟨s10, hs9, h⟩ := Option.bind_eq_some_iff.mp h
  obtain ⟨⟨second, s11⟩, hsecond, h⟩ := Option.bind_eq_some_iff.mp h
  obtain ⟨s12, hs11, h⟩ := Option.bind_eq_some_iff.mp h
  split_ifs at h with hend
  obtain ⟨n, hn, time, htime, ht⟩ : ∃ n, fromYmdOpt year month day = some n ∧
      ∃ time, fromHmsOpt hour minute second = some time ∧ utc n time = t := by
    simpa [Option.bind_eq_some_iff] using h
  obtain ⟨yearDigits, rfl, hfour, rfl, hdigits⟩ := eq_of_scanNumber hyear
  obtain ⟨monthDigits, rfl, -⟩ := eq_of_scanNumber hmonth
  obtain ⟨dayDigits, rfl, -⟩ := eq_of_scanNumber hday
  obtain ⟨hourDigits, rfl, -⟩ := eq_of_scanNumber hhour
  obtain ⟨minuteDigits, rfl, htwo, rfl, -⟩ := eq_of_scanNumber hminute
  obtain ⟨secondDigits, rfl, htwo', rfl, -⟩ := eq_of_scanNumber hsecond
  subst hend
  rw [eq_of_scanChar hs1, eq_of_scanChar hs3, eq_of_scanChar hs5, eq_of_scanChar hs7,
    eq_of_scanChar hs9, eq_of_scanChar hs11]
  have hbound := Str.digitsValue_lt hdigits
  rw [hfour] at hbound
  refine ⟨yearDigits ++ '-' :: monthDigits ++ '-' :: dayDigits ++ 'T' :: hourDigits, minuteDigits,
    secondDigits, Str.digitsValue yearDigits, month, day, hour, hbound, ?_, htwo, htwo', n,
      time, hn,
    htime, ht.symm⟩
  simp

/-- The days of the years that are printed in four digits. -/
theorem day_of_fromYmdOpt {year month day : ℕ} {n : ℤ} (hyear : year < 10000)
    (h : fromYmdOpt year month day = some n) : -719528 ≤ n ∧ n < 2932897 := by
  unfold fromYmdOpt at h
  split_ifs at h with hvalid
  obtain rfl := Option.some.inj h
  have hdate := civilFromDays_daysFromCivil (d := ⟨year, month, day⟩) hvalid.2.2
  have hdays := (year_iff (daysFromCivil ⟨year, month, day⟩) 0 9999).mp
      (by rw [hdate]; dsimp only; omega)
  rw [show daysBeforeYear 0 = -366 by decide, show daysBeforeYear (9999 + 1) = 3652059 by decide,
    EPOCH] at hdays
  omega

/-- A model is run on the hour, in a year of four digits. -/
theorem onHour_of_sectionRuntime {header : SectionHeader} {runtime : Str} {init : DateTime}
    (hruntime : sectionRuntime header = some runtime)
    (hinit : parseFromRfc3339 runtime = some init) :
    ∃ day hour, init = onHour day hour ∧ hour < 24 ∧ -719528 ≤ day ∧ day < 2932897 := by
  obtain ⟨hh, -, rfl⟩ := Option.map_eq_some_iff.mp hruntime
  obtain ⟨front, minute, second, year, month, day, hour, hyear, hs, hminute, hsecond, n, time, hn,
    htime, rfl⟩ := eq_of_parseFromRfc3339 hinit
  have hsuffix := (List.append_inj' hs (by simp [hminute, hsecond])).2
  obtain ⟨a, b, rfl⟩ : ∃ a b, minute = [a, b] := List.length_eq_two.mp hminute
  obtain ⟨c, d, rfl⟩ : ∃ a b, second = [a, b] := List.length_eq_two.mp hsecond
  obtain ⟨rfl, rfl, rfl, rfl⟩ : a = '0' ∧ b = '0' ∧ c = '0' ∧ d = '0' := by
    simpa [eq_comm] using hsuffix
  have htime' : hour < 24 ∧ hour * 3600 = time := by
    simpa [fromHmsOpt, Str.digitsValue, Str.digitValue] using htime
  refine ⟨n, hour, ?_, htime'.1, day_of_fromYmdOpt hyear hn⟩
  rw [onHour, htime'.2]

/-! ## Hours of the clock -/

/-- The hour that is read for a printed one behind the last, counted from the midnight in front
of the run. -/
def clockHour (last : Option ℕ) (printed : Str) : Option ℕ :=
  if printed = "00".toList then some (last.elim 0 fun k => k + (24 - k % 24) % 24)
  else
    match Str.parseUnsigned (2 ^ 32 - 1) printed with
    | none => none
    | some h =>
        if h < 24 then some (if last.any fun k => h ≤ k then h + 24 else h) else none

/-- The hours that are read for printed ones. -/
def clockHours (ks : List ℕ) : List Str → Option (List ℕ)
  | [] => some ks
  | printed :: hours =>
      match clockHour ks.getLast? printed with
      | none => none
      | some k => clockHours (ks ++ [k]) hours

/-- No hour is read that lies more than two days behind. -/
theorem clockHour_le {last : Option ℕ} {printed : Str} {k : ℕ} (hlast : ∀ j ∈ last, j ≤ 48)
    (h : clockHour last printed = some k) : k ≤ 48 := by
  unfold clockHour at h
  split_ifs at h
  · obtain rfl := Option.some.inj h
    cases last with
    | none => exact Nat.zero_le _
    | some j =>
        have hj : j ≤ 48 := hlast j rfl
        show j + (24 - j % 24) % 24 ≤ 48
        omega
  · split at h
    · cases h
    · split_ifs at h
      · obtain rfl := Option.some.inj h
        omega
      · obtain rfl := Option.some.inj h
        omega

section

variable {day : ℤ} {runHour : ℕ} {ks : List ℕ}

/-- A day in a year of four digits is representable, and so are the days behind it. -/
theorem inRange_onHour (hday : -719528 ≤ day ∧ day < 2932897) {k : ℕ} (hk : k ≤ 72) :
    InRange (onHour day k) := by
  rw [inRange_iff, dayNumber_onHour]
  omega

theorem withHour_onHour (hrun : runHour < 24) (h : ℕ) :
    withHour (onHour day runHour) h = if h < 24 then some (onHour day h) else none := by
  have hshift : onHour day runHour + ((h : ℤ) - Chrono.hour (onHour day runHour)) * HOUR =
      onHour day h := by
    rw [hour_onHour, Nat.mod_eq_of_lt hrun, onHour_eq, onHour_eq]
    show (_ + _ * 3600000000000 : ℤ) = _
    omega
  rw [withHour, hshift]

/-- A round of the loop reads the hour of the clock. -/
theorem pushTime_clock (hday : -719528 ≤ day ∧ day < 2932897) (hrun : runHour < 24)
    (hks : ∀ k ∈ ks, k ≤ 48) (printed : Str) :
    pushTime false (onHour day runHour) (ks.map (onHour day)) printed =
      some ((clockHour ks.getLast? printed).map fun k => (ks ++ [k]).map (onHour day)) := by
  have hlast : ∀ k, ks.getLast? = some k → k ≤ 48 := fun k hk =>
    hks k (List.mem_of_getLast? hk)
  rw [pushTime, if_neg Bool.false_ne_true, List.getLast?_map, clockHour]
  rcases hempty : ks.getLast? with _ | k
  · -- the first hour is that of the day of the run
    obtain rfl := List.getLast?_eq_none_iff.mp hempty
    rw [if_neg (by simp)]
    have hzero : Str.parseUnsigned (2 ^ 32 - 1) "00".toList = some 0 := by decide
    by_cases hprinted : printed = "00".toList
    · rw [if_pos hprinted, hprinted, hzero, Option.bind_some, withHour_onHour hrun]
      rfl
    · rw [if_neg hprinted]
      cases Str.parseUnsigned (2 ^ 32 - 1) printed with
      | none => rfl
      | some h =>
          dsimp only
          rw [Option.bind_some, withHour_onHour hrun]
          by_cases hh : h < 24
          · simp [hh]
          · simp [hh]
  · have hk : k ≤ 48 := hlast k hempty
    have hne : ks.map (onHour day) ≠ [] := by
      intro h
      obtain rfl := List.map_eq_nil_iff.mp h
      cases hempty
    by_cases hprinted : printed = "00".toList
    · rw [if_pos ⟨hprinted, hne⟩, if_pos hprinted, Option.map_some]
      dsimp only
      rw [hour_onHour, checkedAdd, onHour_add, if_pos (inRange_onHour hday (by omega))]
      simp
    · rw [if_neg fun h => hprinted h.1, if_neg hprinted]
      cases Str.parseUnsigned (2 ^ 32 - 1) printed with
      | none => rfl
      | some h =>
          dsimp only
          rw [Option.bind_some, withHour_onHour hrun]
          by_cases hh : h < 24
          · rw [if_pos hh, if_pos hh]
            dsimp only
            rw [Option.map_some, Option.any_some, Option.any_some,
              decide_eq_decide.mpr onHour_le_iff]
            by_cases hle : h ≤ k
            · rw [if_pos (decide_eq_true hle), if_pos (decide_eq_true hle), checkedAdd,
                onHour_add_day, if_pos (inRange_onHour hday (by omega))]
              simp
            · rw [if_neg (by simpa using hle), if_neg (by simpa using hle)]
              simp
          · rw [if_neg hh, if_neg hh]
            rfl

/-- The loop reads the hours of the clock. -/
theorem readTimes_clock (hday : -719528 ≤ day ∧ day < 2932897) (hrun : runHour < 24)
    (hks : ∀ k ∈ ks, k ≤ 48) (hours : List Str) :
    readTimes false (onHour day runHour) (ks.map (onHour day)) hours =
      some ((clockHours ks hours).map (List.map (onHour day))) := by
  induction hours generalizing ks with
  | nil => rfl
  | cons printed hours ih =>
      rw [readTimes, pushTime_clock hday hrun hks, clockHours]
      cases hk : clockHour ks.getLast? printed with
      | none => rfl
      | some k =>
          refine ih fun j hj => ?_
          rcases List.mem_append.mp hj with hj | hj
          · exact hks j hj
          · obtain rfl := List.mem_singleton.mp hj
            exact clockHour_le (fun k hk => hks k (List.mem_of_getLast? hk)) hk

end

/-! ## Printed hours -/

/-- An hour counted from midnight, as it is printed. -/
def printedHour (k : ℕ) : Str := padded 2 (k % 24)

/-- An hour is less than a day behind another. -/
def Follows (j k : ℕ) : Prop := j < k ∧ k < j + 24

instance : DecidableRel Follows := fun _ _ => inferInstanceAs (Decidable (_ ∧ _))

theorem printedHour_eq_iff (k : ℕ) : printedHour k = "00".toList ↔ k % 24 = 0 := by
  have hall : ∀ h < 24, padded 2 h = "00".toList ↔ h = 0 := by decide
  exact hall _ (Nat.mod_lt k (by decide))

/-- What is read for a printed hour. -/
theorem clockHour_printedHour (last : Option ℕ) (k : ℕ) :
    clockHour last (printedHour k) = some (
      if k % 24 = 0 then last.elim 0 fun j => j + (24 - j % 24) % 24
      else if last.any fun j => k % 24 ≤ j then k % 24 + 24 else k % 24) := by
  have hparse : Str.parseUnsigned (2 ^ 32 - 1) (printedHour k) = some (k % 24) :=
    Str.parseUnsigned_padded (by omega)
  unfold clockHour
  by_cases hzero : k % 24 = 0
  · rw [if_pos ((printedHour_eq_iff k).mpr hzero), if_pos hzero]
  · rw [if_neg (mt (printedHour_eq_iff k).mp hzero), if_neg hzero, hparse]
    exact if_pos (Nat.mod_lt k (by decide))

/-- The first hour is read as an hour of the day of the run. -/
theorem clockHour_first {k : ℕ} (hk : k < 24) : clockHour none (printedHour k) = some k := by
  rw [clockHour_printedHour, Nat.mod_eq_of_lt hk, Option.any_none, if_neg Bool.false_ne_true]
  split_ifs with hzero
  · rw [hzero]
    rfl
  · rfl

/-- A further hour is read as it was meant exactly if it is not more than two days behind. -/
theorem clockHour_follows {j k : ℕ} (hj : j ≤ 48) (h : Follows j k) :
    clockHour (some j) (printedHour k) = some k ↔ k ≤ 48 := by
  obtain ⟨hlow, hhigh⟩ := h
  rw [clockHour_printedHour, Option.some.injEq, Option.any_some]
  simp only [Option.elim_some, decide_eq_true_eq]
  split_ifs <;> omega

/-- The hours that have been read stay. -/
theorem prefix_of_clockHours {ks out : List ℕ} {hours : List Str}
    (h : clockHours ks hours = some out) :
    ks <+: out := by
  induction hours generalizing ks with
  | nil =>
      obtain rfl := Option.some.inj h
      exact List.prefix_refl _
  | cons printed hours ih =>
      rw [clockHours] at h
      split at h
      · cases h
      · exact (List.prefix_append ks _).trans (ih h)

/-- The hours are read as they were meant exactly if none is more than two days behind. -/
theorem clockHours_printedHour {ks js : List ℕ} (hks : ∀ k ∈ ks, k ≤ 48)
    (hfirst : ks = [] → ∀ j ∈ js.head?, j < 24)
    (hchain : (ks.getLast?.toList ++ js).IsChain Follows) :
    clockHours ks (js.map printedHour) = some (ks ++ js) ↔ ∀ j ∈ js, j ≤ 48 := by
  induction js generalizing ks with
  | nil => simp [clockHours]
  | cons j js ih =>
      have hread : clockHour ks.getLast? (printedHour j) = some j ↔ j ≤ 48 := by
        rcases hlast : ks.getLast? with _ | k
        · have hj : j < 24 := hfirst (List.getLast?_eq_none_iff.mp hlast) j rfl
          exact iff_of_true (clockHour_first hj) (by omega)
        · rw [hlast] at hchain
          have hfollows : Follows k j := (List.isChain_cons_cons.mp hchain).1
          exact clockHour_follows (hks k (List.mem_of_getLast? hlast)) hfollows
      rw [List.map_cons, clockHours, List.forall_mem_cons]
      rcases hk : clockHour ks.getLast? (printedHour j) with _ | k
      · refine iff_of_false nofun fun h => ?_
        rw [hread.mpr h.1] at hk
        cases hk
      dsimp only
      by_cases hj : j ≤ 48
      · obtain rfl : j = k := by
          rw [hread.mpr hj] at hk
          exact Option.some.inj hk
        have hks' : ∀ k ∈ ks ++ [j], k ≤ 48 :=
          List.forall_mem_append.mpr ⟨hks, by simpa using hj⟩
        have hchain' : ((ks ++ [j]).getLast?.toList ++ js).IsChain Follows := by
          rw [List.getLast?_concat]
          exact hchain.right_of_append
        have hnext := ih hks' (fun h => absurd h (by simp)) hchain'
        rw [List.append_assoc, List.singleton_append] at hnext
        rw [hnext, and_iff_right hj]
      · refine iff_of_false (fun h => ?_) fun h => hj h.1
        have hprefix : ks ++ [k] <+: ks ++ j :: js := prefix_of_clockHours h
        obtain rfl : k = j := by simpa using hprefix
        exact hj (hread.mp hk)

/-- **Axis.**  Where the hours are those of the clock, and are printed of instants that begin on
the day of the run and follow each other within a day, these are the instants that are read,
exactly if none of them lies more than 48 hours behind the midnight in front of the run. -/
theorem hour_axis_iff (header : SectionHeader) (axis : HourAxis) (ks : List ℕ) {runtime : Str}
    {init : DateTime} {lines : List Str}
    (hruntime : sectionRuntime header = some runtime) (hinit : parseFromRfc3339 runtime = some init)
    (haxis : findAxis lines = some axis)
    (hclock : countsFromRun axis.label (sectionModel header) = false)
    (hprinted : axisHours axis.line = ks.map printedHour) (hfirst : ∀ k ∈ ks.head?, k < 24)
    (hchain : ks.IsChain Follows) :
    parseHourAxis lines (sectionModel header) init =
        some (some (ks.map (onHour (dayNumber init)), axis.dataLines)) ↔ ∀ k ∈ ks, k ≤ 48 := by
  obtain ⟨day, runHour, rfl, hrun, hday⟩ := onHour_of_sectionRuntime hruntime hinit
  have hnumber : dayNumber (onHour day runHour) = day := by
    rw [dayNumber_onHour]
    omega
  have htimes : readTimes false (onHour day runHour) ([].map (onHour day)) (axisHours axis.line) =
      some ((clockHours [] (axisHours axis.line)).map (List.map (onHour day))) :=
    readTimes_clock hday hrun (by simp) _
  have hread : clockHours [] (ks.map printedHour) = some ks ↔ ∀ k ∈ ks, k ≤ 48 :=
    clockHours_printedHour (by simp) (fun _ => hfirst) hchain
  rw [parseHourAxis, haxis, hnumber, ← hread]
  dsimp only
  rw [hclock, ← List.map_nil, htimes, hprinted, Option.map_some, Option.some.injEq]
  cases clockHours [] (ks.map printedHour) with
  | none => simp
  | some js => simp [(onHour_injective day).list_map.eq_iff]

/-- Hours of one day. -/
theorem hour_axis_one_day :
    parseHourAxis ["KBCK NAM MET GUIDANCE 03/10/2026 0000 UTC".toList, "HR 00 03 06".toList]
        "NAM".toList (onHour 20522 0) =
      some (some ([0, 3, 6].map (onHour (dayNumber (onHour 20522 0))), [])) :=
  (hour_axis_iff ⟨"KBCK".toList, "NAM".toList, "MET".toList, 3, 10, 2026, "0000".toList⟩
    ⟨"HR".toList, "HR 00 03 06".toList, []⟩ [0, 3, 6] rfl (by decide) (by decide) (by decide)
    (by decide) (by decide) (by decide)).mpr (by decide)

/-- Hours of three days: behind the third midnight those of the day before are read. -/
theorem hour_axis_third_day :
    ¬ ∀ (header : SectionHeader) (runtime : Str) (init : DateTime) (lines : List Str)
      (axis : HourAxis) (ks : List ℕ), sectionRuntime header = some runtime →
      parseFromRfc3339 runtime = some init → findAxis lines = some axis →
      countsFromRun axis.label (sectionModel header) = false →
      axisHours axis.line = ks.map printedHour → (∀ k ∈ ks.head?, k < 24) → ks.IsChain Follows →
      parseHourAxis lines (sectionModel header) init =
        some (some (ks.map (onHour (dayNumber init)), axis.dataLines)) := by
  intro h
  have := h ⟨"KBCK".toList, "NAM".toList, "MET".toList, 3, 10, 2026, "0000".toList⟩ _
    (onHour 20522 0) ["HR 00 12 00 12 00 06".toList]
      ⟨"HR".toList, "HR 00 12 00 12 00 06".toList, []⟩
    [0, 12, 24, 36, 48, 54] rfl (by decide) rfl (by decide) (by decide) (by decide) (by decide)
  revert this
  decide

end Parser.Mos
