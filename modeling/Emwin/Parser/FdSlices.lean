/-
# Where the parser of winds aloft slices inside a character

The fields of a time are sliced out of seven bytes that need not be digits.  A group is looked
at before it is sliced, so that it is ASCII.
-/
import Emwin.Parser.Fd

namespace Parser.Fd

open Chrono

/-! ## Times -/

/-- Whether the fields of a time are cut between characters; behind a day that cannot be read
nothing is cut. -/
def timeOnBoundaries (value : Str) : Bool :=
  Str.byteLen value ≠ 7 || value.getLast? ≠ some 'Z' ||
    (Str.isCharBoundary 2 value &&
      (((Str.sliceTo 2 value).bind (Str.parseUnsigned (2 ^ 32 - 1))).isNone ||
        Str.isCharBoundary 4 value))

/-- Whether a time is one of the days around the reference. -/
def readsTime (referenceTime : DateTime) (value : Str) : Bool :=
  (parseDdhhmmz referenceTime value).any Option.isSome

/-- Reading a time panics exactly if a field is cut inside a character. -/
theorem parseDdhhmmz_eq_none_iff (referenceTime : DateTime) (value : Str) :
    parseDdhhmmz referenceTime value = none ↔ timeOnBoundaries value = false := by
  unfold parseDdhhmmz timeOnBoundaries
  by_cases hlen : Str.byteLen value = 7
  swap
  · simp [hlen]
  by_cases hlast : value.getLast? = some 'Z'
  swap
  · simp [hlast]
  rw [if_neg (by simp [hlen, hlast]), decide_eq_false (not_not.mpr hlen),
    decide_eq_false (not_not.mpr hlast), Bool.false_or, Bool.false_or]
  have hend : Str.isCharBoundary 6 value = true := by
    rw [← Bool.not_eq_false, ← Str.sliceTo_eq_none_iff,
      Str.sliceTo_of_getLast (by decide) hlast hlen]
    exact nofun
  have hslice : Str.slice 0 2 value = Str.sliceTo 2 value := by
    unfold Str.slice Str.sliceFrom
    cases Str.sliceTo 2 value with
    | none => rfl
    | some front => cases front <;> rfl
  have hday : Str.slice 0 2 value = none ↔ Str.isCharBoundary 2 value = false := by
    rw [Str.slice_eq_none_iff (by omega), Str.isCharBoundary_zero]
    simp
  have hhour : Str.slice 2 4 value = none ↔
      Str.isCharBoundary 2 value = false ∨ Str.isCharBoundary 4 value = false :=
    Str.slice_eq_none_iff (by omega)
  have hminute : Str.slice 4 6 value = none ↔ Str.isCharBoundary 4 value = false := by
    rw [Str.slice_eq_none_iff (by omega), hend]
    simp
  rw [← hslice]
  unfold readUnsigned
  rcases hd : Str.slice 0 2 value with _ | day
  · simp [hday.mp hd, andThen]
  have htwo : Str.isCharBoundary 2 value = true := by simpa [hd] using hday
  rw [htwo, Bool.true_and, Option.map_some, Option.bind_some]
  rcases Str.parseUnsigned (2 ^ 32 - 1) day with _ | day
  · simp [andThen]
  rw [andThen, Option.isNone_some, Bool.false_or]
  rcases hh : Str.slice 2 4 value with _ | hour
  · have hfour : Str.isCharBoundary 4 value = false := by simpa [htwo] using hhour.mp hh
    simp [hfour, andThen]
  have hfour : Str.isCharBoundary 4 value = true := by
    rw [hh] at hhour
    simpa [htwo] using hhour
  obtain ⟨minute, hm⟩ : ∃ minute, Str.slice 4 6 value = some minute := by
    rw [← Option.ne_none_iff_exists', Ne, hminute, hfour]
    exact Bool.noConfusion
  rw [hfour, hm, Option.map_some, Option.map_some]
  cases Str.parseUnsigned (2 ^ 32 - 1) hour <;> cases Str.parseUnsigned (2 ^ 32 - 1) minute <;>
    simp [andThen]

/-! ## Headers -/

/-- The text behind the words that announce a time. -/
def announcedTime (line : Str) : Option Str :=
  (Str.stripPrefix "DATA BASED ON ".toList line).or (Str.stripPrefix "VALID ".toList line)

/-- The times of a header that are looked at: those up to the levels, and up to the first that
cannot be read. -/
def headerTimes (referenceTime : DateTime) : List Str → List Str
  | [] => []
  | line :: lines =>
      match announcedTime line with
      | some text =>
          match (Str.splitWhitespace text).head? with
          | none => []
          | some time =>
              time :: if readsTime referenceTime time then headerTimes referenceTime lines else []
      | none => if Str.startsWith "FT ".toList line then [] else headerTimes referenceTime lines

/-- Reading a header panics exactly if a field of one of its times is cut inside a character. -/
theorem parseFdHeader_eq_none_iff (referenceTime : DateTime) (basedOnTime validTime : Option Str)
    (lines : List Str) : parseFdHeader referenceTime basedOnTime validTime lines = none ↔
      ∃ time ∈ headerTimes referenceTime lines, timeOnBoundaries time = false := by
  induction lines generalizing basedOnTime validTime with
  | nil => simp [parseFdHeader, headerTimes]
  | cons line lines ih =>
      have htime : ∀ time basedOnTime validTime,
          andThen (parseDdhhmmz referenceTime time) (fun _ =>
            parseFdHeader referenceTime basedOnTime validTime lines) = none ↔
          ∃ t ∈ time ::
              if readsTime referenceTime time then headerTimes referenceTime lines else [],
            timeOnBoundaries t = false := by
        intro time basedOnTime validTime
        have hcut := parseDdhhmmz_eq_none_iff referenceTime time
        rw [List.exists_mem_cons_iff, ← hcut, readsTime]
        rcases parseDdhhmmz referenceTime time with _ | _ | resolved
        · simp [andThen]
        · simp [andThen]
        · simpa [andThen] using ih basedOnTime validTime
      rw [parseFdHeader, headerTimes, announcedTime]
      rcases Str.stripPrefix "DATA BASED ON ".toList line with _ | text
      · rcases Str.stripPrefix "VALID ".toList line with _ | text
        · dsimp only [Option.or]
          split
          · simp
          · exact ih basedOnTime validTime
        · dsimp only [Option.or]
          rcases (Str.splitWhitespace text).head? with _ | time
          · simp [andThen]
          · exact htime time basedOnTime (some time)
      · dsimp only [Option.or]
        rcases (Str.splitWhitespace text).head? with _ | time
        · simp [andThen]
        · exact htime time (some time) validTime

/-! ## Stations -/

/-- What is decoded is ASCII, so that it can be sliced anywhere. -/
theorem decodeGroup_ne_none (text : Str) : decodeGroup text ≠ none := by
  unfold decodeGroup
  split
  · exact nofun
  · next h =>
      obtain ⟨hlen, hchars⟩ := not_or.mp h
      have hascii : Str.IsAscii text := by
        intro c hc
        have hc' := List.all_eq_true.mp (Bool.eq_true_of_not_eq_false hchars) c hc
        simp only [Bool.or_eq_true, decide_eq_true_eq] at hc'
        rcases hc' with (hdigit | rfl) | rfl
        · exact Str.isAscii_of_isDigit (s := [c]) (by simpa using hdigit) c (by simp)
        · decide
        · decide
      have hbytes := Str.byteLen_of_ascii hascii
      rw [hbytes] at hlen ⊢
      have hfour : 4 ≤ text.length := by
        simp only [List.mem_cons, List.not_mem_nil, or_false, not_not] at hlen
        omega
      rw [Str.slice_of_ascii hascii (by omega) (by omega),
        Str.slice_of_ascii hascii (by omega) (by omega)]
      refine andThen_ne_none nofun fun direction => andThen_ne_none nofun fun speed => ?_
      dsimp only
      split
      · rw [decodeTemperature, hbytes, Str.sliceFrom_of_ascii hascii (by omega)]
        exact nofun
      · exact nofun

theorem parseGroups_ne_none (groups : List (ℕ × Str)) : parseGroups groups ≠ none := by
  induction groups with
  | nil => exact nofun
  | cons group groups ih =>
      exact andThen_ne_none (decodeGroup_ne_none _) fun _ => andThen_ne_none ih fun _ => nofun

theorem parseFdStationLine_ne_none (levels : List ℕ) (routingCode : Option Str) (line : Str) :
    parseFdStationLine levels routingCode line ≠ none := by
  unfold parseFdStationLine
  split
  · exact nofun
  · dsimp only
    split
    · exact nofun
    · exact andThen_ne_none (parseGroups_ne_none _) fun _ => nofun

/-- The parser panics exactly if a field of one of the times that it looks at is cut inside a
character. -/
theorem parseFdBulletin_eq_none_iff (text : Str) (routingCode : Option Str)
    (referenceTime : DateTime) : parseFdBulletin text routingCode referenceTime = none ↔
      ∃ time ∈ headerTimes referenceTime (iterNonemptyFdLines text),
        timeOnBoundaries time = false := by
  rw [← parseFdHeader_eq_none_iff referenceTime none none, parseFdBulletin]
  rcases parseFdHeader referenceTime none none (iterNonemptyFdLines text) with _ | _ | header
  · simp [andThen]
  · simp [andThen]
  · refine iff_of_false ?_ (Option.some_ne_none _)
    refine andThen_ne_none (Option.some_ne_none _) fun header => ?_
    refine andThen_ne_none (Option.some_ne_none _) fun levels => ?_
    rw [Ne, Option.map_eq_none_iff, mapM_eq_none_iff]
    rintro ⟨line, -, hnone⟩
    exact parseFdStationLine_ne_none levels routingCode line hnone

end Parser.Fd
