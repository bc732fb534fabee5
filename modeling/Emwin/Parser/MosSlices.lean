/-
# Where the parser of model guidance panics

The hour of a run is the first two bytes of four, and the name of a variable the first three of
its line; neither need be between characters.  Hours counted from the run may lead out of the
representable years, hours of the clock never do.
-/
import Emwin.Parser.MosTimes
import Emwin.Parser.Support

namespace Parser.Mos

open Calendar Chrono

/-! ## Hours -/

/-- Whether the hours counted from a run are representable, up to the first that is no number. -/
def offsetsInRange (init : DateTime) : List Str → Bool
  | [] => true
  | hour :: hours =>
      match Str.parseUnsigned (2 ^ 32 - 1) hour with
      | none => true
      | some h => decide (InRange (init + h * HOUR)) && offsetsInRange init hours

/-- Whether a printed hour can be read. -/
def readsHour (fromRun : Bool) (hour : Str) : Bool :=
  (Str.parseUnsigned (2 ^ 32 - 1) hour).any fun h => fromRun || decide (h < 24)

/-- Reading hours counted from a run panics exactly if one of them is not representable. -/
theorem readTimes_fromRun_eq_none_iff (init : DateTime) (times : List DateTime) (hours : List Str) :
    readTimes true init times hours = none ↔ offsetsInRange init hours = false := by
  induction hours generalizing times with
  | nil => simp [readTimes, offsetsInRange]
  | cons hour hours ih =>
      rw [readTimes, offsetsInRange, pushTime, if_pos rfl]
      cases Str.parseUnsigned (2 ^ 32 - 1) hour with
      | none => simp
      | some h =>
          dsimp only
          rw [checkedAdd]
          by_cases hrange : InRange (init + h * HOUR)
          · rw [if_pos hrange, Option.map_some, decide_eq_true hrange, Bool.true_and]
            exact ih _
          · rw [if_neg hrange, decide_eq_false hrange]
            simp

/-- Hours counted from a run are read if all of them are numbers. -/
theorem isSome_of_readTimes_fromRun {init : DateTime} {times : List DateTime} {hours : List Str}
    {read : Option (List DateTime)} (h : readTimes true init times hours = some read) :
    read.isSome = hours.all (readsHour true) := by
  induction hours generalizing times with
  | nil =>
      obtain rfl := Option.some.inj h
      rfl
  | cons hour hours ih =>
      rw [readTimes, pushTime, if_pos rfl] at h
      rw [List.all_cons, readsHour]
      rcases hparse : Str.parseUnsigned (2 ^ 32 - 1) hour with _ | k
      · rw [hparse] at h
        obtain rfl := Option.some.inj h
        rfl
      · rw [hparse] at h
        dsimp only at h
        rw [checkedAdd] at h
        split_ifs at h with hrange
        · rw [Option.any_some, Bool.true_or, Bool.true_and]
          exact ih h
        · cases h

/-- Which hours of the clock can be read. -/
theorem isSome_clockHour (last : Option ℕ) (printed : Str) :
    (clockHour last printed).isSome = readsHour false printed := by
  unfold clockHour readsHour
  by_cases hprinted : printed = "00".toList
  · rw [if_pos hprinted, hprinted, Option.isSome_some]
    decide
  · rw [if_neg hprinted]
    cases Str.parseUnsigned (2 ^ 32 - 1) printed with
    | none => rfl
    | some h => by_cases hh : h < 24 <;> simp [hh]

theorem isSome_clockHours (ks : List ℕ) (hours : List Str) :
    (clockHours ks hours).isSome = hours.all (readsHour false) := by
  induction hours generalizing ks with
  | nil => rfl
  | cons printed hours ih =>
      rw [clockHours, List.all_cons, ← isSome_clockHour ks.getLast?]
      cases clockHour ks.getLast? printed with
      | none => rfl
      | some k =>
          rw [Option.isSome_some, Bool.true_and]
          exact ih _

/-! ## Axes -/

/-- Whether the hours of a section lead to representable instants. -/
def axisInRange (lines : List Str) (model : Str) (init : DateTime) : Bool :=
  (findAxis lines).all fun axis =>
    !countsFromRun axis.label model || offsetsInRange init (axisHours axis.line)

/-- The lines with values, where the hours of the section can be read. -/
def valueLines (lines : List Str) (model : Str) : List Str :=
  match findAxis lines with
  | none => []
  | some axis =>
      if (axisHours axis.line).all (readsHour (countsFromRun axis.label model)) then axis.dataLines
      else []

section

variable {header : SectionHeader} {runtime : Str} {init : DateTime}

/-- Reading the hours panics exactly if one of them is not representable. -/
theorem parseHourAxis_eq_none_iff (hruntime : sectionRuntime header = some runtime)
    (hinit : parseFromRfc3339 runtime = some init) (lines : List Str) (model : Str) :
    parseHourAxis lines model init = none ↔ axisInRange lines model init = false := by
  obtain ⟨day, runHour, rfl, hrun, hday⟩ := onHour_of_sectionRuntime hruntime hinit
  unfold parseHourAxis axisInRange
  cases findAxis lines with
  | none => simp
  | some axis =>
      dsimp only
      rw [Option.map_eq_none_iff, Option.all_some]
      cases countsFromRun axis.label model with
      | true => simpa using readTimes_fromRun_eq_none_iff _ _ _
      | false =>
          have hread : readTimes false (onHour day runHour) ([].map (onHour day))
              (axisHours axis.line) = _ := readTimes_clock hday hrun (by simp) _
          rw [List.map_nil] at hread
          simp [hread]

/-- The lines with values that are read. -/
theorem dataLines_of_parseHourAxis (hruntime : sectionRuntime header = some runtime)
    (hinit : parseFromRfc3339 runtime = some init) {lines : List Str} {model : Str}
    {read : Option (List DateTime × List Str)} (h : parseHourAxis lines model init = some read) :
    valueLines lines model = (read.map Prod.snd).getD [] := by
  obtain ⟨day, runHour, rfl, hrun, hday⟩ := onHour_of_sectionRuntime hruntime hinit
  unfold parseHourAxis at h
  unfold valueLines
  rcases haxis : findAxis lines with _ | axis
  · rw [haxis] at h
    obtain rfl := Option.some.inj h
    rfl
  rw [haxis] at h
  obtain ⟨times, htimes, rfl⟩ := Option.map_eq_some_iff.mp h
  have hsome : times.isSome =
      (axisHours axis.line).all (readsHour (countsFromRun axis.label model)) := by
    cases hcounts : countsFromRun axis.label model with
    | true =>
        rw [hcounts] at htimes
        exact isSome_of_readTimes_fromRun htimes
    | false =>
        have hread : readTimes false (onHour day runHour) ([].map (onHour day))
            (axisHours axis.line) = _ := readTimes_clock hday hrun (by simp) _
        rw [hcounts, ← List.map_nil, hread] at htimes
        obtain rfl := Option.some.inj htimes
        rw [Option.isSome_map, isSome_clockHours]
  dsimp only
  rw [← hsome]
  cases times <;> rfl

end

/-! ## Lines with values -/

/-- Whether the name of a line is cut off between characters. -/
def nameOnBoundary (line : Str) : Bool := decide (Str.byteLen line < 3) || Str.isCharBoundary 3 line

theorem pushRow_eq_none_iff (forecasts : List MosForecastRow) (line : Str) :
    pushRow forecasts line = none ↔ nameOnBoundary line = false := by
  unfold pushRow nameOnBoundary Str.isCharBoundary
  by_cases hlen : Str.byteLen line < 3
  · simp [hlen]
  · simp [hlen]

theorem foldlM_pushRow_eq_none_iff (forecasts : List MosForecastRow) (lines : List Str) :
    lines.foldlM pushRow forecasts = none ↔ ∃ line ∈ lines, nameOnBoundary line = false :=
  foldlM_eq_none_iff pushRow_eq_none_iff forecasts lines

/-! ## Sections -/

/-- A section is read without a panic: the hour of the run is cut off between characters; and if
it can be read, the hours are representable, and the names of the lines are cut off between
characters. -/
def SectionOnBoundaries (text : Str) : Prop :=
  ∀ header ∈ (Str.lines text).head?.bind fun line => parseSectionHeader (sanitizeSectionLine line),
    ∃ runtime, sectionRuntime header = some runtime ∧
      ∀ init ∈ parseFromRfc3339 runtime,
        axisInRange (Str.lines text) (sectionModel header) init = true ∧
          ∀ line ∈ valueLines (Str.lines text) (sectionModel header), nameOnBoundary line = true

/-- Reading a section panics exactly if it is cut inside a character, or an hour is not
representable. -/
theorem parseSection_eq_none_iff (text : Str) :
    parseSection text = none ↔ ¬ SectionOnBoundaries text := by
  unfold parseSection SectionOnBoundaries
  dsimp only
  cases (Str.lines text).head?.bind fun line => parseSectionHeader (sanitizeSectionLine line) with
  | none => simp
  | some header =>
      simp only [Option.mem_def, Option.some.injEq, forall_eq']
      cases hruntime : sectionRuntime header with
      | none => simp
      | some runtime =>
          simp only [Option.some.injEq, exists_eq_left', Option.bind_eq_bind, Option.bind_some]
          cases hinit : parseFromRfc3339 runtime with
          | none => simp
          | some init =>
              have hnone := parseHourAxis_eq_none_iff hruntime hinit (Str.lines text)
                (sectionModel header)
              simp only [Option.some.injEq, forall_eq']
              rcases haxis : parseHourAxis (Str.lines text) (sectionModel header) init with
                _ | _ | ⟨times, dataLines⟩
              · simp [hnone.mp haxis]
              · have hlines := dataLines_of_parseHourAxis hruntime hinit haxis
                rw [haxis] at hnone
                simp_all
              · have hlines := dataLines_of_parseHourAxis hruntime hinit haxis
                have hrows := foldlM_pushRow_eq_none_iff
                  (times.map fun ts => ⟨toRfc3339 ts, .empty⟩) dataLines
                rw [haxis] at hnone
                have hrange : axisInRange (Str.lines text) (sectionModel header) init = true := by
                  simpa using hnone
                rw [Option.bind_some]
                dsimp only
                rw [hlines, Option.map_some, Option.getD_some, hrange]
                cases hread : dataLines.foldlM pushRow
                    (times.map fun ts => ⟨toRfc3339 ts, .empty⟩) with
                | none => simpa using hrows.mp hread
                | some forecasts =>
                    rw [hread] at hrows
                    simpa using hrows

/-! ## Bulletins -/

/-- The sections of a bulletin that is not one for exchange. -/
def guidanceSections (text : Str) : List Str :=
  let normalized := stripControlChars text
  if (Str.lines normalized).any fun line => Str.startsWith ".B ".toList (Str.trimStart line) then []
  else splitSections normalized

/-- The parser panics exactly if one of its sections does. -/
theorem parseMosBulletin_eq_none_iff (isDecimal : Char → Bool) (text : Str)
    (referenceTime : DateTime) : parseMosBulletin isDecimal text referenceTime = none ↔
      ∃ section' ∈ guidanceSections text, ¬ SectionOnBoundaries section' := by
  unfold parseMosBulletin guidanceSections
  dsimp only
  split
  · simp
  · rw [Option.map_eq_none_iff, mapM_eq_none_iff]
    simp only [parseSection_eq_none_iff]

end Parser.Mos
