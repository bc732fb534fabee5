/-
# Where the parser of storm motions slices inside a character

Tokens of eight bytes are cut into halves, and coordinates into fields, whatever their
characters are.  The parser returns finite numbers made of digits exactly if the cuts that it
makes are between characters and no block has fields that are numbers without being digits
(`parse_time_mot_loc_safe_iff`).
-/
import Emwin.Parser.CoordinateFields

namespace Parser.TimeMotLoc

open Chrono Floats

/-! ## Times -/

/-- Four digits and a `Z`. -/
theorem exists_of_parseTimeShape {token : Str} (h : parseTimeShape token = true) :
    ∃ digits, token = digits ++ ['Z'] ∧ digits.length = 4 ∧ ∀ c ∈ digits, c.isDigit = true := by
  simp only [parseTimeShape, Bool.and_eq_true, decide_eq_true_eq, beq_iff_eq] at h
  obtain ⟨⟨hlen, hlast⟩, hdigits⟩ := h
  obtain ⟨digits, rfl⟩ := List.getLast?_eq_some_iff.mp hlast
  have hfour : Str.byteLen digits = 4 := by
    rw [Str.byteLen_append] at hlen
    exact Nat.add_right_cancel (m := 1) hlen
  rw [← hfour, Str.sliceTo_append, Option.any_some, List.all_eq_true] at hdigits
  refine ⟨digits, rfl, ?_, hdigits⟩
  rw [← Str.byteLen_of_ascii (Str.isAscii_of_isDigit hdigits), hfour]

/-- Reading a time does not panic. -/
theorem parseTimeToken_isSome (token : Str) (referenceTime : DateTime) :
    ∃ time, parseTimeToken token referenceTime = some time := by
  unfold parseTimeToken
  by_cases hshape : parseTimeShape token = true
  · obtain ⟨digits, rfl, hfour, hdigits⟩ := exists_of_parseTimeShape hshape
    have hascii : Str.IsAscii (digits ++ ['Z']) := by
      intro c hc
      rcases List.mem_append.mp hc with hc | hc
      · exact Str.isAscii_of_isDigit hdigits c hc
      · obtain rfl := List.mem_singleton.mp hc
        decide
    have hlen : (digits ++ ['Z']).length = 5 := by simp [hfour]
    rw [if_neg (by simp [hshape]), readUnsigned, readUnsigned,
      Str.slice_of_ascii hascii (by omega) (by omega),
        Str.slice_of_ascii hascii (by omega) (by omega),
      Option.map_some, Option.map_some]
    rcases Str.parseUnsigned _ _ with _ | hour
    · exact ⟨_, rfl⟩
    · rcases Str.parseUnsigned _ _ with _ | minute
      · exact ⟨_, rfl⟩
      · exact ⟨_, rfl⟩
  · exact ⟨none, by rw [if_pos (by simpa using hshape)]⟩

/-! ## Halves of tokens -/

/-- A token is cut into halves between characters, and so is each half that is read. -/
def HalvesOnBoundaries (token : Str) : Prop :=
  match Str.splitAtByte 4 token with
  | none => False
  | some (lat, lon) =>
      CoordinateOnBoundaries true lat ∧
        (readable true lat = true → CoordinateOnBoundaries false lon)

/-- Splitting a token of eight bytes panics exactly if it is cut inside a character. -/
theorem splitPackedCoordinatePair_eq_none_iff {normalized : List Str} {token : Str}
    (h : Str.byteLen token = 8 ∧ normalized.length % 2 = 0) :
    splitPackedCoordinatePair Number normalized token = none ↔ ¬ HalvesOnBoundaries token := by
  rw [splitPackedCoordinatePair, if_neg (by simp [h]), HalvesOnBoundaries, Str.sliceTo,
    Str.sliceFrom]
  cases Str.splitAtByte 4 token with
  | none => simp
  | some halves =>
      obtain ⟨lat, lon⟩ := halves
      simp only [Option.map_some, Option.bind_eq_bind, Option.bind_some,
        ← exists_parseCoordinate_iff]
      have hlat := parseCoordinate_eq_none_iff lat true
      have hlon := parseCoordinate_eq_none_iff lon false
      rcases hfirst : parseCoordinate (F := Number) lat true with _ | _ | x
      · rw [hfirst] at hlat
        simpa [andThen] using hlat
      · rw [hfirst] at hlat
        simpa [andThen] using hlat
      · rw [hfirst] at hlat
        rcases hsecond : parseCoordinate (F := Number) lon false with _ | _ | y
        all_goals
          rw [hsecond] at hlon
          simp_all [andThen]

/-- The tokens that are cut into halves while the tokens of a block are normalized. -/
def splitTokens (normalized tokens : List Str) : List Str :=
  match tokens with
  | [] => []
  | next :: others =>
      match _ : consumeCoordinateToken [] (next :: others) with
      | none => []
      | some (token, rest) =>
          (if Str.byteLen token = 8 ∧ normalized.length % 2 = 0 then [token] else []) ++
            match splitPackedCoordinatePair Number normalized token with
            | none => []
            | some none => splitTokens (normalized ++ [token]) rest
            | some (some (lat, lon)) => splitTokens (normalized ++ [lat, lon]) rest
termination_by tokens.length
decreasing_by all_goals exact length_lt_of_consumeCoordinateToken ‹_›

/-- What is cut behind a token. -/
theorem splitTokens_cons {normalized : List Str} {next token : Str} {others rest : List Str}
    (h : consumeCoordinateToken [] (next :: others) = some (token, rest)) :
    splitTokens normalized (next :: others) =
      (if Str.byteLen token = 8 ∧ normalized.length % 2 = 0 then [token] else []) ++
        match splitPackedCoordinatePair Number normalized token with
        | none => []
        | some none => splitTokens (normalized ++ [token]) rest
        | some (some (lat, lon)) => splitTokens (normalized ++ [lat, lon]) rest := by
  rw [splitTokens]
  split
  · next hnone =>
      rw [hnone] at h
      cases h
  · next token' rest' hsome =>
      obtain ⟨rfl, rfl⟩ : token' = token ∧ rest' = rest := by simpa [hsome] using h
      rfl

/-- Normalizing panics exactly if one of the tokens that are cut is cut inside a character. -/
theorem normalizeCoordinateTokens_eq_none_iff (normalized tokens : List Str) :
    normalizeCoordinateTokens Number normalized tokens = none ↔
      ∃ token ∈ splitTokens normalized tokens, ¬ HalvesOnBoundaries token := by
  induction hlen : tokens.length using Nat.strong_induction_on generalizing normalized tokens with
  | _ n ih =>
  subst hlen
  cases tokens with
  | nil => simp [normalizeCoordinateTokens, splitTokens]
  | cons next others =>
      rw [normalizeCoordinateTokens]
      split
      · next hnone =>
          have : splitTokens normalized (next :: others) = [] := by
            rw [splitTokens]
            split
            · rfl
            · next hsome =>
                rw [hnone] at hsome
                cases hsome
          simp [this]
      · next token rest hsome =>
          have ih := fun normalized =>
            ih _ (length_lt_of_consumeCoordinateToken hsome) normalized rest rfl
          rw [splitTokens_cons hsome]
          by_cases hpacked : Str.byteLen token = 8 ∧ normalized.length % 2 = 0
          · have hhalves := splitPackedCoordinatePair_eq_none_iff hpacked
            rw [if_pos hpacked]
            rcases hsplit : splitPackedCoordinatePair Number normalized token with
              _ | _ | ⟨lat, lon⟩
            · rw [hsplit] at hhalves
              simpa using hhalves
            all_goals
              rw [hsplit] at hhalves
              have hsafe : HalvesOnBoundaries token := by simpa using hhalves
              simp [ih, hsafe]
          · have hsplit : splitPackedCoordinatePair Number normalized token = some none := by
              rw [splitPackedCoordinatePair, if_pos (by tauto)]
            rw [if_neg hpacked, hsplit]
            exact ih _

/-! ## Pairs of coordinates -/

/-- The coordinates that are read from pairs, up to the first that cannot be, and whether each
is a latitude. -/
def readCoordinates : List Str → List (Bool × Str)
  | lat :: lon :: coords =>
      (true, lat) :: if readable true lat then
        (false, lon) :: if readable false lon then readCoordinates coords else []
      else []
  | _ => []

/-- All pairs can be read. -/
def allReadable : List Str → Bool
  | lat :: lon :: coords => readable true lat && readable false lon && allReadable coords
  | _ => true

/-- A coordinate is read, cannot be read, or panics. -/
theorem parseCoordinate_trichotomy (coord : Str) (isLat : Bool) :
    (parseCoordinate (F := Number) coord isLat = none ∧ ¬ CoordinateOnBoundaries isLat coord ∧
        readable isLat coord = false) ∨
      (parseCoordinate (F := Number) coord isLat = some none ∧ CoordinateOnBoundaries isLat coord ∧
        readable isLat coord = false) ∨
      ∃ value, parseCoordinate (F := Number) coord isLat = some (some value) ∧
        CoordinateOnBoundaries isLat coord ∧ readable isLat coord = true := by
  have hnone := parseCoordinate_eq_none_iff coord isLat
  have hsome := exists_parseCoordinate_iff coord isLat
  generalize parseCoordinate (F := Number) coord isLat = parsed at hnone hsome
  rcases parsed with _ | _ | value <;> simp_all

/-- Reading pairs panics exactly if a coordinate is cut inside a character. -/
theorem parsePoints_eq_none_iff (raw : Str) : ∀ coords : List Str,
    parsePoints (F := Number) raw coords = none ↔
      ∃ reading ∈ readCoordinates coords, ¬ CoordinateOnBoundaries reading.1 reading.2
  | [] | [_] => by simp [parsePoints, readCoordinates]
  | lat :: lon :: coords => by
      have ih := parsePoints_eq_none_iff raw coords
      rw [parsePoints, readCoordinates]
      rcases parseCoordinate_trichotomy lat true with ⟨h, hb, hr⟩ | ⟨h, hb, hr⟩ | ⟨x, h, hb, hr⟩
      · simp [h, hb]
      · simp [h, hb, hr]
      rcases parseCoordinate_trichotomy lon false with
        ⟨h', hb', hr'⟩ | ⟨h', hb', hr'⟩ | ⟨y, h', hb', hr'⟩
      · simp [h, hb, hr, h', hb']
      · simp [h, hb, hr, h', hb', hr']
      simp only [h, hb, hr, h', hb', hr', Option.bind_eq_bind, Option.bind_some, if_true,
        List.exists_mem_cons_iff, not_true_eq_false, false_or, ← ih]
      cases parsePoints (F := Number) raw coords <;> simp

/-- Pairs are read exactly if all can be. -/
theorem exists_parsePoints_iff (raw : Str) : ∀ coords : List Str,
    (∃ points, parsePoints (F := Number) raw coords = some (.ok points)) ↔ allReadable coords = true
  | [] | [_] => by simp [parsePoints, allReadable]
  | lat :: lon :: coords => by
      have ih := exists_parsePoints_iff raw coords
      rw [parsePoints, allReadable]
      rcases parseCoordinate_trichotomy lat true with ⟨h, -, hr⟩ | ⟨h, -, hr⟩ | ⟨x, h, -, hr⟩
      · simp [h, hr]
      · simp [h, hr]
      rcases parseCoordinate_trichotomy lon false with ⟨h', -, hr'⟩ | ⟨h', -, hr'⟩ | ⟨y, h', -, hr'⟩
      · simp [h, hr, h', hr']
      · simp [h, hr, h', hr']
      simp only [h, hr, h', hr', Option.bind_eq_bind, Option.bind_some, Bool.true_and, ← ih]
      rcases parsePoints (F := Number) raw coords with _ | issue | points <;> simp [Except.map]

/-- Pairs of digits are finite. -/
theorem isFinite_of_parsePoints {raw : Str} :
    ∀ {coords : List Str} {points : List (Number × Number)},
    parsePoints raw coords = some (.ok points) → (∀ coord ∈ coords, isNumeric coord = true) →
      ∀ point ∈ points, point.1.IsFinite ∧ point.2.IsFinite
  | [], points, h, _ | [_], points, h, _ => by
      obtain rfl : [] = points := by simpa [parsePoints] using h
      simp
  | lat :: lon :: coords, points, h, hnumeric => by
      rw [parsePoints] at h
      rcases parseCoordinate_trichotomy lat true with ⟨h', -⟩ | ⟨h', -⟩ | ⟨x, hx, -⟩
      · simp [h'] at h
      · simp [h'] at h
      rcases parseCoordinate_trichotomy lon false with ⟨h', -⟩ | ⟨h', -⟩ | ⟨y, hy, -⟩
      · simp [hx, h'] at h
      · simp [hx, h'] at h
      rcases hrest : parsePoints (F := Number) raw coords with _ | issue | found
      · simp [hx, hy, hrest] at h
      · simp [hx, hy, hrest, Except.map] at h
      obtain rfl : (x, y) :: found = points := by simpa [hx, hy, hrest, Except.map] using h
      refine List.forall_mem_cons.mpr ⟨⟨?_, ?_⟩, ?_⟩
      · exact isFinite_of_parseCoordinate hx (hnumeric lat (by simp))
      · exact isFinite_of_parseCoordinate hy (hnumeric lon (by simp))
      · exact isFinite_of_parsePoints hrest fun coord hcoord => hnumeric coord (by simp [hcoord])

/-! ## Blocks -/

/-- The tokens behind the speed of a block whose time, direction and speed are read. -/
def placeTokens (candidate : Str) (referenceTime : DateTime) : Option (List Str) :=
  match Str.splitWhitespace (Str.trim candidate) with
  | marker :: timeToken :: tokens =>
      if Str.eqIgnoreAsciiCase marker MARKER then
        match parseTimeToken timeToken referenceTime, parseDegreesToken tokens with
        | some (some _), (some _, tokens) =>
            match parseSpeedToken tokens with
            | (some _, tokens) => some tokens
            | _ => none
        | _, _ => none
      else none
  | _ => none

/-- The coordinates of a block: its tokens, normalized, without one that has no other half. -/
def blockCoordinates (tokens : List Str) : List Str :=
  match normalizeCoordinateTokens Number [] tokens with
  | some (some coords) => (dropDangling coords []).1
  | _ => []

/-- A block either ends in an issue before its places are read, or its places are read. -/
theorem parseTimeMotLocCandidate_cases (candidate : Str) (referenceTime : DateTime) :
    (placeTokens candidate referenceTime = none ∧ ∃ issue,
        parseTimeMotLocCandidate (F := Number) candidate referenceTime = some (.error issue)) ∨
      ∃ timeUtc directionDegrees speedKt tokens,
        placeTokens candidate referenceTime = some tokens ∧
        parseTimeMotLocCandidate (F := Number) candidate referenceTime =
          parsePlaces (Str.trim candidate) timeUtc directionDegrees speedKt tokens := by
  unfold placeTokens parseTimeMotLocCandidate
  dsimp only
  cases Str.splitWhitespace (Str.trim candidate) with
  | nil => exact .inl ⟨rfl, _, rfl⟩
  | cons marker tokens =>
      by_cases hmarker : Str.eqIgnoreAsciiCase marker MARKER = true
      · cases tokens with
        | nil => exact .inl ⟨rfl, by simp [hmarker]⟩
        | cons timeToken tokens =>
            obtain ⟨time, htime⟩ := parseTimeToken_isSome timeToken referenceTime
            cases time with
            | none => exact .inl ⟨by simp [htime], by simp [hmarker, htime]⟩
            | some timeUtc =>
                rcases hdegrees : parseDegreesToken tokens with ⟨_ | directionDegrees, behind⟩
                · exact .inl ⟨by simp [htime, hdegrees], by simp [hmarker, htime, hdegrees]⟩
                · rcases hspeed : parseSpeedToken behind with ⟨_ | speedKt, places⟩
                  · exact .inl ⟨by simp [htime, hdegrees, hspeed],
                      by simp [hmarker, htime, hdegrees, hspeed]⟩
                  · exact .inr ⟨timeUtc, directionDegrees, speedKt, places,
                      by simp [hmarker, htime, hdegrees, hspeed],
                      by simp [hmarker, htime, hdegrees, hspeed]⟩
      · refine .inl ⟨?_, by simp [hmarker]⟩
        cases tokens <;> simp [hmarker]

/-- Dropping a coordinate without its other half leaves pairs. -/
theorem length_dropDangling (coords : List Str) (raw : Str) :
    (dropDangling coords raw).1.length % 2 = 0 := by
  unfold dropDangling
  split
  · next hodd =>
      show coords.dropLast.length % 2 = 0
      rw [List.length_dropLast]
      omega
  · next heven =>
      show coords.length % 2 = 0
      omega

/-- Which coordinates are left does not depend on the text of the block. -/
theorem dropDangling_fst (coords : List Str) (raw : Str) :
    (dropDangling coords raw).1 = (dropDangling coords []).1 := by
  unfold dropDangling
  split <;> rfl

section

variable (raw : Str) (timeUtc : DateTime) (directionDegrees speedKt : ℕ) (tokens : List Str)

/-- What the places of a block are read from. -/
theorem parsePlaces_cases :
    (normalizeCoordinateTokens Number [] tokens = none ∧
        parsePlaces (F := Number) raw timeUtc directionDegrees speedKt tokens = none ∧
        blockCoordinates tokens = []) ∨
      (normalizeCoordinateTokens Number [] tokens ≠ none ∧ blockCoordinates tokens = [] ∧
        ∃ issue, parsePlaces (F := Number) raw timeUtc directionDegrees speedKt tokens =
          some (.error issue)) ∨
      (normalizeCoordinateTokens Number [] tokens ≠ none ∧ blockCoordinates tokens ≠ [] ∧
        ∃ issues, parsePlaces (F := Number) raw timeUtc directionDegrees speedKt tokens =
          (parsePoints raw (blockCoordinates tokens)).map fun result => result.map fun points =>
            (⟨timeUtc, directionDegrees, speedKt, points, formatLinestringWkt points⟩,
              issues)) := by
  unfold parsePlaces blockCoordinates
  rcases normalizeCoordinateTokens Number [] tokens with _ | _ | coords
  · exact .inl ⟨rfl, rfl, rfl⟩
  · exact .inr (.inl ⟨by simp, rfl, _, rfl⟩)
  · have heven := length_dropDangling coords raw
    have hfst := dropDangling_fst coords raw
    generalize hdropped : dropDangling coords raw = dropped at heven hfst
    obtain ⟨pairs, issues⟩ := dropped
    obtain rfl : pairs = (dropDangling coords []).1 := hfst
    right
    by_cases hnil : (dropDangling coords []).1 = []
    · left
      refine ⟨by simp, hnil, coordinateCountIssue raw, ?_⟩
      simp [hdropped, hnil]
    · right
      have htwo : ¬ (dropDangling coords []).1.length < 2 := by
        have := List.length_pos_iff.mpr hnil
        dsimp only at heven
        omega
      refine ⟨by simp, hnil, issues, ?_⟩
      simp only [Option.bind_eq_bind, Option.bind_some, hdropped, if_neg htwo]
      rcases parsePoints (F := Number) raw (dropDangling coords []).1 with
        _ | issue | points <;> rfl

/-- Reading places panics exactly if a token or a coordinate is cut inside a character. -/
theorem parsePlaces_eq_none_iff :
    parsePlaces (F := Number) raw timeUtc directionDegrees speedKt tokens = none ↔
      (∃ token ∈ splitTokens [] tokens, ¬ HalvesOnBoundaries token) ∨
        ∃ reading ∈ readCoordinates (blockCoordinates tokens),
          ¬ CoordinateOnBoundaries reading.1 reading.2 := by
  rw [← normalizeCoordinateTokens_eq_none_iff, ← parsePoints_eq_none_iff raw]
  rcases parsePlaces_cases raw timeUtc directionDegrees speedKt tokens with
    ⟨hnormalize, hplaces, -⟩ | ⟨hnormalize, hcoords, issue, hplaces⟩ |
      ⟨hnormalize, -, issues, hplaces⟩
  · simp [hnormalize, hplaces]
  · simp [hnormalize, hplaces, hcoords, parsePoints]
  · simp [hnormalize, hplaces]

/-- Places are read exactly if there are any and all their coordinates can be read. -/
theorem exists_parsePlaces_iff :
    (∃ found, parsePlaces (F := Number) raw timeUtc directionDegrees speedKt tokens =
        some (.ok found)) ↔
      blockCoordinates tokens ≠ [] ∧ allReadable (blockCoordinates tokens) = true := by
  rw [← exists_parsePoints_iff raw]
  rcases parsePlaces_cases raw timeUtc directionDegrees speedKt tokens with
    ⟨-, hplaces, hcoords⟩ | ⟨-, hcoords, issue, hplaces⟩ | ⟨-, hcoords, issues, hplaces⟩
  · simp [hplaces, hcoords]
  · simp [hplaces, hcoords]
  · rw [hplaces]
    rcases parsePoints (F := Number) raw (blockCoordinates tokens) with _ | issue | points <;>
      simp [hcoords, Except.map]

/-- The points of an entry are read from the coordinates of its block. -/
theorem points_of_parsePlaces {entry : TimeMotLocEntry Number} {issues : List ProductParseIssue}
    (h : parsePlaces raw timeUtc directionDegrees speedKt tokens = some (.ok (entry, issues))) :
    parsePoints raw (blockCoordinates tokens) = some (.ok entry.points) := by
  rcases parsePlaces_cases raw timeUtc directionDegrees speedKt tokens with
    ⟨-, hplaces, -⟩ | ⟨-, -, issue, hplaces⟩ | ⟨-, -, issues', hplaces⟩
  · simp [hplaces] at h
  · simp [hplaces] at h
  · rw [hplaces] at h
    rcases hpoints : parsePoints (F := Number) raw (blockCoordinates tokens) with _ | issue | points
    · simp [hpoints] at h
    · simp [hpoints, Except.map] at h
    · simp only [hpoints, Option.map_some, Except.map, Option.some.injEq, Except.ok.injEq,
        Prod.mk.injEq] at h
      rw [← h.1]

end

/-! ## Texts that are parsed -/

/-- Finding the blocks does not panic. -/
theorem findTimeMotLocCandidates_isSome (text : Str) :
    ∃ candidates, findTimeMotLocCandidates text = some candidates := by
  rw [← Option.isSome_iff_exists, Option.isSome_iff_ne_none, findTimeMotLocCandidates, Ne,
    Lines.scan_eq_none_iff]
  rintro ⟨⟨line, lines⟩, hblock, hnone⟩
  obtain ⟨behind, -, hcollect⟩ := rules.collect_isSome (Lines.starts_of_mem_scanned hblock) lines
  simp [collectTimeMotLocCandidate, hcollect] at hnone

/-- The texts of the blocks. -/
def candidateTexts (text : Str) : List Str :=
  ((findTimeMotLocCandidates text).getD []).map (·.raw)

/-- The tokens of the blocks of a text, behind their speeds. -/
def timeMotLocTokens (text : Str) (referenceTime : DateTime) : List (List Str) :=
  (candidateTexts text).filterMap fun candidate => placeTokens candidate referenceTime

/-- The parser returns; each entry it returns comes from coordinates that are digits behind
signs; and all its points are finite. -/
def ParsesSafely (text : Str) (referenceTime : DateTime) : Prop :=
  ∃ entries issues,
    parseTimeMotLocEntriesWithIssues (F := Number) text referenceTime = some (entries, issues) ∧
    (∀ candidate ∈ candidateTexts text, ∀ entry repairs,
      parseTimeMotLocCandidate (F := Number) candidate referenceTime = some (.ok (entry, repairs)) →
        ∀ tokens ∈ placeTokens candidate referenceTime,
          ∀ coord ∈ blockCoordinates tokens, isNumeric coord = true) ∧
    ∀ entry ∈ entries, ∀ point ∈ entry.points, point.1.IsFinite ∧ point.2.IsFinite

/-- What is read of the texts of the blocks. -/
theorem parseTimeMotLocEntriesWithIssues_eq_some_iff (text : Str) (referenceTime : DateTime)
    (entries : List (TimeMotLocEntry Number)) :
    (∃ issues, parseTimeMotLocEntriesWithIssues text referenceTime = some (entries, issues)) ↔
      ∃ results, (candidateTexts text).mapM (fun candidate =>
        parseTimeMotLocCandidate (F := Number) candidate referenceTime) = some results ∧
          entriesOf results = entries := by
  obtain ⟨count, hcount⟩ := Option.isSome_iff_exists.mp (countMarkers_isSome text)
  obtain ⟨candidates, hcandidates⟩ := findTimeMotLocCandidates_isSome text
  rw [parseTimeMotLocEntriesWithIssues, candidateTexts, hcount, hcandidates]
  simp only [Option.bind_eq_bind, Option.bind_some, Option.getD_some, List.mapM_map]
  cases h : candidates.mapM fun candidate =>
    parseTimeMotLocCandidate (F := Number) candidate.raw referenceTime <;>
  simp [h, Function.comp_def]

section

variable {text candidate : Str} {referenceTime : DateTime} {tokens : List Str}

/-- Reading a block panics exactly if a token or a coordinate is cut inside a character. -/
theorem parseTimeMotLocCandidate_eq_none_iff (candidate : Str) (referenceTime : DateTime) :
    parseTimeMotLocCandidate (F := Number) candidate referenceTime = none ↔
      ∃ tokens ∈ placeTokens candidate referenceTime,
        (∃ token ∈ splitTokens [] tokens, ¬ HalvesOnBoundaries token) ∨
          ∃ reading ∈ readCoordinates (blockCoordinates tokens),
            ¬ CoordinateOnBoundaries reading.1 reading.2 := by
  rcases parseTimeMotLocCandidate_cases candidate referenceTime with
    ⟨htokens, issue, hparse⟩ | ⟨timeUtc, directionDegrees, speedKt, tokens, htokens, hparse⟩
  · simp [htokens, hparse]
  · rw [hparse, parsePlaces_eq_none_iff]
    simp [htokens]

/-- The parser returns exactly if all cuts are between characters. -/
theorem exists_parseTimeMotLocEntries_iff (text : Str) (referenceTime : DateTime) :
    (∃ entries issues, parseTimeMotLocEntriesWithIssues (F := Number) text referenceTime =
        some (entries, issues)) ↔
      ∀ tokens ∈ timeMotLocTokens text referenceTime,
        (∀ token ∈ splitTokens [] tokens, HalvesOnBoundaries token) ∧
        ∀ reading ∈ readCoordinates (blockCoordinates tokens),
          CoordinateOnBoundaries reading.1 reading.2 := by
  simp only [parseTimeMotLocEntriesWithIssues_eq_some_iff]
  constructor
  · rintro ⟨entries, results, hresults, -⟩ tokens htokens
    obtain ⟨candidate, hcandidate, htokens⟩ := List.mem_filterMap.mp htokens
    have hreturns : parseTimeMotLocCandidate (F := Number) candidate referenceTime ≠ none := by
      intro h
      rw [mapM_eq_none_iff.mpr ⟨candidate, hcandidate, h⟩] at hresults
      cases hresults
    refine ⟨fun token htoken => ?_, fun reading hreading => ?_⟩
    · by_contra hcut
      exact hreturns ((parseTimeMotLocCandidate_eq_none_iff _ _).mpr
        ⟨tokens, htokens, .inl ⟨token, htoken, hcut⟩⟩)
    · by_contra hcut
      exact hreturns ((parseTimeMotLocCandidate_eq_none_iff _ _).mpr
        ⟨tokens, htokens, .inr ⟨reading, hreading, hcut⟩⟩)
  · intro hsafe
    cases hresults : (candidateTexts text).mapM fun candidate =>
        parseTimeMotLocCandidate (F := Number) candidate referenceTime with
    | some results => exact ⟨entriesOf results, results, rfl, rfl⟩
    | none =>
        obtain ⟨candidate, hcandidate, hpanic⟩ := mapM_eq_none_iff.mp hresults
        obtain ⟨tokens, htokens, hcut⟩ := (parseTimeMotLocCandidate_eq_none_iff _ _).mp hpanic
        obtain ⟨hhalves, hfields⟩ :=
          hsafe tokens (List.mem_filterMap.mpr ⟨candidate, hcandidate, htokens⟩)
        rcases hcut with ⟨token, htoken, hcut⟩ | ⟨reading, hreading, hcut⟩
        · exact absurd (hhalves token htoken) hcut
        · exact absurd (hfields reading hreading) hcut

/-- The entries are those of the blocks. -/
theorem mem_entries_iff {entries : List (TimeMotLocEntry Number)} {issues : List ProductParseIssue}
    (h : parseTimeMotLocEntriesWithIssues text referenceTime = some (entries, issues))
    (entry : TimeMotLocEntry Number) :
    entry ∈ entries ↔ ∃ candidate ∈ candidateTexts text, ∃ repairs,
      parseTimeMotLocCandidate candidate referenceTime = some (.ok (entry, repairs)) := by
  obtain ⟨results, hresults, rfl⟩ :=
    (parseTimeMotLocEntriesWithIssues_eq_some_iff text referenceTime entries).mp ⟨issues, h⟩
  rw [entriesOf, List.mem_filterMap]
  refine ⟨fun ⟨result, hresult, hfound⟩ => ?_, fun ⟨candidate, hcandidate, repairs, hparsed⟩ => ?_⟩
  · obtain ⟨candidate, hcandidate, hparsed⟩ := exists_of_mem_mapM hresults hresult
    cases result with
    | error issue => cases hfound
    | ok found =>
        obtain ⟨entry', repairs⟩ := found
        obtain rfl : entry' = entry := by simpa [Except.toOption] using hfound
        exact ⟨candidate, hcandidate, repairs, hparsed⟩
  · obtain ⟨result, hresult, hfound⟩ := exists_mem_mapM hresults hcandidate
    rw [hparsed, Option.some.injEq] at hfound
    exact ⟨result, hresult, by rw [← hfound]; rfl⟩

/-- A block whose coordinates can all be read makes an entry. -/
theorem exists_entry (htokens : tokens ∈ placeTokens candidate referenceTime)
    (hne : blockCoordinates tokens ≠ []) (hall : allReadable (blockCoordinates tokens) = true) :
    ∃ entry repairs,
      parseTimeMotLocCandidate (F := Number) candidate referenceTime =
        some (.ok (entry, repairs)) := by
  rcases parseTimeMotLocCandidate_cases candidate referenceTime with
    ⟨hno, -⟩ | ⟨timeUtc, directionDegrees, speedKt, tokens', htokens', hplaces⟩
  · rw [hno] at htokens
    cases htokens
  · obtain rfl : tokens' = tokens := Option.some.inj (htokens'.symm.trans htokens)
    obtain ⟨⟨entry, repairs⟩, hentry⟩ :=
      (exists_parsePlaces_iff (Str.trim candidate) timeUtc directionDegrees speedKt tokens').mpr
        ⟨hne, hall⟩
    exact ⟨entry, repairs, hplaces.trans hentry⟩

/-- The points of an entry are read from the coordinates of its block, all of which can be. -/
theorem points_of_entry {entry : TimeMotLocEntry Number} {repairs : List ProductParseIssue}
    (h : parseTimeMotLocCandidate candidate referenceTime = some (.ok (entry, repairs))) :
    ∃ tokens ∈ placeTokens candidate referenceTime, allReadable (blockCoordinates tokens) = true ∧
      parsePoints (Str.trim candidate) (blockCoordinates tokens) = some (.ok entry.points) := by
  rcases parseTimeMotLocCandidate_cases candidate referenceTime with
    ⟨-, issue, hissue⟩ | ⟨timeUtc, directionDegrees, speedKt, tokens, htokens, hplaces⟩
  · rw [hissue] at h
    cases h
  · rw [hplaces] at h
    exact ⟨tokens, htokens, ((exists_parsePlaces_iff _ _ _ _ _).mp ⟨_, h⟩).2,
      points_of_parsePlaces _ _ _ _ _ h⟩

end

/-- The parser returns, and each entry it returns has finite points that come from digits, if
and only if every token that is cut into halves and every coordinate that is cut into fields is
cut between characters, and every block whose fields are all numbers is made of digits behind
signs. -/
theorem parse_time_mot_loc_safe_iff (text : Str) (referenceTime : DateTime) :
    ParsesSafely text referenceTime ↔
      ∀ tokens ∈ timeMotLocTokens text referenceTime,
        (∀ token ∈ splitTokens [] tokens, HalvesOnBoundaries token) ∧
        (∀ reading ∈ readCoordinates (blockCoordinates tokens),
          CoordinateOnBoundaries reading.1 reading.2) ∧
        (allReadable (blockCoordinates tokens) = true →
          ∀ coord ∈ blockCoordinates tokens, isNumeric coord = true) := by
  constructor
  · rintro ⟨entries, issues, hparse, hnumeric, -⟩ tokens htokens
    obtain ⟨hhalves, hfields⟩ :=
      (exists_parseTimeMotLocEntries_iff text referenceTime).mp ⟨_, _, hparse⟩ tokens htokens
    refine ⟨hhalves, hfields, fun hall coord hcoord => ?_⟩
    obtain ⟨candidate, hcandidate, htokens⟩ := List.mem_filterMap.mp htokens
    obtain ⟨entry, repairs, hentry⟩ := exists_entry htokens (List.ne_nil_of_mem hcoord) hall
    exact hnumeric candidate hcandidate entry repairs hentry tokens htokens coord hcoord
  · intro hsafe
    have hnumeric : ∀ candidate ∈ candidateTexts text,
        ∀ tokens ∈ placeTokens candidate referenceTime,
        allReadable (blockCoordinates tokens) = true →
          ∀ coord ∈ blockCoordinates tokens, isNumeric coord = true :=
      fun candidate hcandidate tokens htokens =>
        (hsafe tokens (List.mem_filterMap.mpr ⟨candidate, hcandidate, htokens⟩)).2.2
    obtain ⟨entries, issues, hparse⟩ := (exists_parseTimeMotLocEntries_iff text referenceTime).mpr
      fun tokens htokens => ⟨(hsafe tokens htokens).1, (hsafe tokens htokens).2.1⟩
    refine ⟨entries, issues, hparse, ?_, ?_⟩
    · intro candidate hcandidate entry repairs hentry tokens htokens
      obtain ⟨tokens', htokens', hall, -⟩ := points_of_entry hentry
      obtain rfl : tokens' = tokens :=
        Option.some.inj ((Option.mem_def.mp htokens').symm.trans (Option.mem_def.mp htokens))
      exact hnumeric candidate hcandidate tokens' htokens' hall
    · intro entry hentry
      obtain ⟨candidate, hcandidate, repairs, hparsed⟩ := (mem_entries_iff hparse entry).mp hentry
      obtain ⟨tokens, htokens, hall, hpoints⟩ := points_of_entry hparsed
      exact isFinite_of_parsePoints hpoints (hnumeric candidate hcandidate tokens htokens hall)

/-- A character of two bytes stands where a latitude is cut. -/
theorem parse_time_mot_loc_unsafe :
    ¬ ∀ (text : Str) (referenceTime : DateTime), ParsesSafely text referenceTime := by
  intro h
  have hpanic : parseTimeMotLocEntriesWithIssues (F := Number)
      "TIME...MOT...LOC 2310Z 238DEG 39KT 1é3 08853".toList 0 = none := by
    decide +kernel
  obtain ⟨entries, issues, hparse, -⟩ := h "TIME...MOT...LOC 2310Z 238DEG 39KT 1é3 08853".toList 0
  rw [hpanic] at hparse
  cases hparse

end Parser.TimeMotLoc
