/-
# Storm motion

`body/time_mot_loc.rs` reads `TIME...MOT...LOC 2310Z 238DEG 39KT 3221 08853`: a time, a direction,
a speed, and the places of a storm, wrapped over lines.

`none` is a panic.  A coordinate is cut at offsets that its length alone decides, and the
pieces go to the reader of floating-point numbers.
-/
import Emwin.Parser.MarkerBlocks

namespace Parser.TimeMotLoc

open Chrono Floats

variable {F : Type} [FloatArith F]

/-- The marker of an entry. -/
def MARKER : Str := "TIME...MOT...LOC".toList

/-- Where a storm was, and how it moved. -/
structure TimeMotLocEntry (F : Type) where
  timeUtc : DateTime
  directionDegrees : ℕ
  speedKt : ℕ
  /-- Latitude and longitude in degrees. -/
  points : List (F × F)
  wkt : Str

/-- `format_linestring_wkt`. -/
def formatLinestringWkt (points : List (F × F)) : Str :=
  let place := fun ((lat, lon) : F × F) => FloatArith.format 4 lon ++ [' '] ++
    FloatArith.format 4 lat
  match points with
  | [point] => "POINT(".toList ++ place point ++ [')']
  | points => "LINESTRING(".toList ++ List.intercalate ", ".toList (points.map place) ++ [')']

/-! ## Fields -/

/-- `parse_time_shape`.  The slice in front of the `Z` exists. -/
def parseTimeShape (token : Str) : Bool :=
  decide (Str.byteLen token = 5) && token.getLast? == some 'Z' &&
    (Str.sliceTo 4 token).any fun digits => digits.all Char.isDigit

/-- `parse_time_token`. -/
def parseTimeToken (token : Str) (referenceTime : DateTime) : Option (Option DateTime) :=
  if parseTimeShape token = false then some none
  else
    andThen (readUnsigned 0 2 token) fun hour =>
    andThen (readUnsigned 2 4 token) fun minute =>
    some (resolveClockTimeNearest referenceTime hour minute)

/-- A number with its unit behind it or in the next token; the tokens that are left. -/
def parseUnitToken (unit : Str) : List Str → Option ℕ × List Str
  | [] => (none, [])
  | token :: tokens =>
      match Str.stripSuffix unit token with
      | some value => (Str.parseUnsigned (2 ^ 16 - 1) value, tokens)
      | none =>
          if token.all Char.isDigit then
            match tokens with
            | [] => (none, [])
            | next :: tokens =>
                (if Str.eqIgnoreAsciiCase next unit then Str.parseUnsigned (2 ^ 16 - 1) token
                  else none, tokens)
          else (none, tokens)

/-- `parse_degrees_token`. -/
def parseDegreesToken (tokens : List Str) : Option ℕ × List Str :=
  parseUnitToken "DEG".toList tokens

/-- `parse_speed_token`. -/
def parseSpeedToken (tokens : List Str) : Option ℕ × List Str := parseUnitToken "KT".toList tokens

/-! ## Candidates -/

/-- `looks_like_coordinate_line`. -/
def looksLikeCoordinateLine (line : Str) : Bool :=
  (Str.splitWhitespace line).all fun token => token ≠ [] && token.all Char.isDigit

/-- `candidate_has_parseable_prefix`. -/
def candidateHasParseablePrefix (raw : Str) : Bool :=
  match Str.splitWhitespace raw with
  | marker :: time :: tokens =>
      let (direction, tokens) := parseDegreesToken tokens
      let (speed, _) := parseSpeedToken tokens
      direction.isSome && speed.isSome && Str.eqIgnoreAsciiCase marker MARKER && parseTimeShape time
  | _ => false

/-- `has_odd_coordinate_tail`. -/
def hasOddCoordinateTail (raw : Str) : Bool :=
  let tokens := (Str.splitWhitespace raw).drop 2
  let tokens := (parseSpeedToken (parseDegreesToken tokens).2).2
  decide (0 < tokens.length ∧ tokens.length % 2 ≠ 0)

/-- The blocks of this module. -/
def rules : MarkerRules where
  marker := MARKER
  marker_ne_nil := by decide
  marker_visible := by decide
  looksLikeCoordinateLine := looksLikeCoordinateLine
  mayEnd := fun raw => candidateHasParseablePrefix raw && !hasOddCoordinateTail raw

/-- A block with the line where it begins. -/
structure TimeMotLocCandidate where
  raw : Str
  sourceLine : Str
  markerWasEmbedded : Bool
  deriving DecidableEq, Repr

/-- `collect_time_mot_loc_candidate`. -/
def collectTimeMotLocCandidate (line : Str) (lines : List Str) : Option (Option Str × ℕ) :=
  (rules.collect line lines).map fun (raw, further) =>
    (if candidateHasParseablePrefix raw then some raw else none, further)

/-- The candidate of a block. -/
def candidateOf (line raw : Str) : TimeMotLocCandidate where
  raw := raw
  sourceLine := line
  markerWasEmbedded := decide (0 < (asciiFindCaseInsensitive line MARKER).getD 0)

/-- `find_time_mot_loc_candidates`. -/
def findTimeMotLocCandidates (text : Str) : Option (List TimeMotLocCandidate) :=
  Lines.scan rules.starts (fun line lines =>
    (collectTimeMotLocCandidate line lines).map fun (raw, further) =>
      (raw.map (candidateOf line), further)) (Str.lines text)

/-- The loop of `count_markers` within a line. -/
def countMarkersIn (search : Str) : Option ℕ :=
  match asciiFindCaseInsensitive search MARKER with
  | none => some 0
  | some position =>
      match h : Str.sliceFrom (position + Str.byteLen MARKER) search with
      | none => none
      | some search => (countMarkersIn search).map (· + 1)
termination_by search.length
decreasing_by exact Str.length_lt_of_sliceFrom (Nat.add_pos_right _ (by decide)) h

/-- `count_markers`. -/
def countMarkers (text : Str) : Option ℕ := ((Str.lines text).mapM countMarkersIn).map List.sum

/-- Counting the markers of a line does not panic. -/
theorem countMarkersIn_isSome (search : Str) : (countMarkersIn search).isSome := by
  induction search using countMarkersIn.induct with
  | case1 search hnone => simp [countMarkersIn, hnone]
  | case2 search position hfind hslice =>
      have hboundary : Str.isCharBoundary (position + Str.byteLen MARKER) search = true :=
        rules.isCharBoundary_behind hfind
      rw [Str.sliceFrom_eq_none_iff, hboundary] at hslice
      cases hslice
  | case3 search position hfind behind hslice ih =>
      rw [countMarkersIn, hfind]
      dsimp only
      split
      · next hnone =>
          rw [hslice] at hnone
          cases hnone
      · next behind' hbehind =>
          obtain rfl : behind = behind' := by simpa [hslice] using hbehind
          simpa using ih

/-- Counting the markers does not panic. -/
theorem countMarkers_isSome (text : Str) : (countMarkers text).isSome := by
  rw [countMarkers, Option.isSome_map, Option.isSome_iff_ne_none, Ne, mapM_eq_none_iff]
  rintro ⟨line, -, hline⟩
  have := countMarkersIn_isSome line
  rw [hline] at this
  cases this

/-! ## Coordinates -/

/-- How many digits of a coordinate are degrees, if five or more are given. -/
def degreesDigits (isLat : Bool) : ℕ := if isLat then 2 else 3

/-- `parse_coordinate`. -/
def parseCoordinate (text : Str) (isLat : Bool) : Option (Option F) :=
  let digits := (Str.trim text).dropWhile (· = '-')
  let d := degreesDigits isLat
  let value : Option (Option F) :=
    match Str.byteLen digits with
    | 4 =>
        andThen (readPiece 0 2 digits) fun degrees =>
        andThen (readPiece 2 4 digits) fun hundredths =>
        some (some (degrees + hundredths / const 100))
    | 5 =>
        andThen (readPiece 0 d digits) fun degrees =>
        andThen (readPiece d 5 digits) fun hundredths =>
        some (some (degrees + hundredths / const 100))
    | 6 =>
        andThen (readPiece 0 d digits) fun degrees =>
        andThen (readPiece d 6 digits) fun minutes =>
        some (some (degrees + minutes / const 60))
    | 8 =>
        andThen (readPiece 0 d digits) fun degrees =>
        andThen (readPiece d (d + 2) digits) fun wholeMinutes =>
        andThen (readPiece (d + 2) 8 digits) fun hundredths =>
        some (some (degrees + (wholeMinutes + hundredths / const 100) / const 60))
    | _ => some none
  andThen value fun value => some (some (if isLat then value else -value))

/-- The two halves of a token, if both are coordinates. -/
def splitPackedCoordinatePair (F : Type) [FloatArith F] (normalized : List Str) (token : Str) :
    Option (Option (Str × Str)) :=
  if Str.byteLen token ≠ 8 ∨ normalized.length % 2 ≠ 0 then some none
  else do
    let lat ← Str.sliceTo 4 token
    let lon ← Str.sliceFrom 4 token
    andThen (parseCoordinate lat true : Option (Option F)) fun _ =>
      andThen (parseCoordinate lon false : Option (Option F)) fun _ => some (some (lat, lon))

/-- The loop of `normalize_coordinate_tokens`. -/
def normalizeCoordinateTokens (F : Type) [FloatArith F] (normalized tokens : List Str) :
    Option (Option (List Str)) :=
  match tokens with
  | [] => some (some normalized)
  | next :: others =>
      match _ : consumeCoordinateToken [] (next :: others) with
      | none => some none
      | some (token, rest) => do
          match ← splitPackedCoordinatePair F normalized token with
          | some (lat, lon) => normalizeCoordinateTokens F (normalized ++ [lat, lon]) rest
          | none => normalizeCoordinateTokens F (normalized ++ [token]) rest
termination_by tokens.length
decreasing_by all_goals exact length_lt_of_consumeCoordinateToken ‹_›

/-! ## Entries -/

/-- An issue about a block. -/
def timeMotLocIssue (code message raw : Str) : ProductParseIssue where
  kind := "time_mot_loc_parse".toList
  code := code
  message := message ++ ": `".toList ++ raw ++ "`".toList
  line := some raw

/-- `invalid_format_issue`. -/
def invalidFormatIssue (raw : Str) : ProductParseIssue :=
  timeMotLocIssue "invalid_time_mot_loc_format".toList
    "could not parse TIME...MOT...LOC line".toList raw

/-- The issue of a time that cannot be read. -/
def invalidTimeIssue (raw : Str) : ProductParseIssue :=
  timeMotLocIssue "invalid_time_mot_loc_time".toList
    "could not parse TIME...MOT...LOC time from line".toList raw

/-- `invalid_direction_issue`. -/
def invalidDirectionIssue (raw : Str) : ProductParseIssue :=
  timeMotLocIssue "invalid_time_mot_loc_direction".toList
    "could not parse TIME...MOT...LOC direction from line".toList raw

/-- `invalid_speed_issue`. -/
def invalidSpeedIssue (raw : Str) : ProductParseIssue :=
  timeMotLocIssue "invalid_time_mot_loc_speed".toList
    "could not parse TIME...MOT...LOC speed from line".toList raw

/-- `invalid_coordinate_format_issue`. -/
def invalidCoordinateFormatIssue (raw : Str) : ProductParseIssue :=
  timeMotLocIssue "invalid_time_mot_loc_coordinate_format".toList
    "could not normalize TIME...MOT...LOC coordinates from line".toList raw

/-- The issue of a block without a pair of coordinates. -/
def coordinateCountIssue (raw : Str) : ProductParseIssue :=
  timeMotLocIssue "invalid_time_mot_loc_coordinate_count".toList
    "TIME...MOT...LOC line has an invalid coordinate count".toList raw

/-- The issue of a latitude that cannot be read. -/
def invalidLatitudeIssue (raw : Str) : ProductParseIssue :=
  timeMotLocIssue "invalid_time_mot_loc_latitude".toList
    "could not parse TIME...MOT...LOC latitude from line".toList raw

/-- The issue of a longitude that cannot be read. -/
def invalidLongitudeIssue (raw : Str) : ProductParseIssue :=
  timeMotLocIssue "invalid_time_mot_loc_longitude".toList
    "could not parse TIME...MOT...LOC longitude from line".toList raw

/-- The issue of a coordinate that has no other half. -/
def danglingIssue (dropped raw : Str) : ProductParseIssue where
  kind := "time_mot_loc_parse".toList
  code := "time_mot_loc_truncated_dangling_coordinate".toList
  message := "dropped dangling TIME...MOT...LOC coordinate token `".toList ++ dropped ++
    "` after source formatting loss".toList
  line := some raw

/-- Drop a coordinate that has no other half, and report it. -/
def dropDangling (coords : List Str) (raw : Str) : List Str × List ProductParseIssue :=
  if coords.length % 2 ≠ 0 then
    (coords.dropLast, [danglingIssue (coords.getLast?.getD []) raw])
  else (coords, [])

/-- The loop that reads pairs of coordinates. -/
def parsePoints (raw : Str) : List Str → Option (Except ProductParseIssue (List (F × F)))
  | first :: second :: coords => do
      match ← (parseCoordinate first true : Option (Option F)) with
      | none => some (.error (invalidLatitudeIssue raw))
      | some lat =>
          match ← (parseCoordinate second false : Option (Option F)) with
          | none => some (.error (invalidLongitudeIssue raw))
          | some lon => do
              let points ← parsePoints raw coords
              some (points.map ((lat, lon) :: ·))
  | _ => some (.ok [])

/-- An entry or the issue that prevents it; an entry comes with the issues of its repair. -/
abbrev EntryResult (F : Type) :=
  Except ProductParseIssue (TimeMotLocEntry F × List ProductParseIssue)

/-- Read the places behind the time, the direction and the speed. -/
def parsePlaces (raw : Str) (timeUtc : DateTime) (directionDegrees speedKt : ℕ)
    (tokens : List Str) : Option (EntryResult F) := do
  match ← normalizeCoordinateTokens F [] tokens with
  | none => some (.error (invalidCoordinateFormatIssue raw))
  | some coords =>
      let (coords, issues) := dropDangling coords raw
      if coords.length < 2 then some (.error (coordinateCountIssue raw))
      else do
        match ← (parsePoints raw coords : Option (Except ProductParseIssue (List (F × F)))) with
        | .error issue => some (.error issue)
        | .ok points =>
            some (.ok (⟨timeUtc, directionDegrees, speedKt, points, formatLinestringWkt points⟩,
              issues))

/-- The points of the tokens behind the speed, with the issues of their repair. -/
def tokenPoints (F : Type) [FloatArith F] (raw : Str) (tokens : List Str) :
    Option (Except ProductParseIssue (List (F × F) × List ProductParseIssue)) := do
  match ← normalizeCoordinateTokens F [] tokens with
  | none => some (.error (invalidCoordinateFormatIssue raw))
  | some coords =>
      let (coords, issues) := dropDangling coords raw
      if coords.length < 2 then some (.error (coordinateCountIssue raw))
      else do
        let points ← parsePoints raw coords
        some (points.map (·, issues))

/-- An entry has the points of its tokens. -/
theorem parsePlaces_eq (raw : Str) (timeUtc : DateTime) (directionDegrees speedKt : ℕ)
    (tokens : List Str) :
    parsePlaces raw timeUtc directionDegrees speedKt tokens =
      (tokenPoints F raw tokens).map fun found => found.map fun (points, issues) =>
        (⟨timeUtc, directionDegrees, speedKt, points, formatLinestringWkt points⟩, issues) := by
  unfold parsePlaces tokenPoints
  simp only [Option.bind_eq_bind]
  rcases normalizeCoordinateTokens F [] tokens with _ | _ | coords
  · rfl
  · rfl
  · simp only [Option.bind_some]
    split_ifs
    · rfl
    · rcases (parsePoints raw (dropDangling coords raw).1 :
        Option (Except ProductParseIssue (List (F × F)))) with _ | issue | points <;> rfl

/-- `parse_time_mot_loc_candidate`. -/
def parseTimeMotLocCandidate (candidate : Str) (referenceTime : DateTime) :
    Option (EntryResult F) :=
  let raw := Str.trim candidate
  match Str.splitWhitespace raw with
  | [] => some (.error (invalidFormatIssue raw))
  | marker :: tokens =>
      if Str.eqIgnoreAsciiCase marker MARKER = false then some (.error (invalidFormatIssue raw))
      else
        match tokens with
        | [] => some (.error (invalidFormatIssue raw))
        | timeToken :: tokens => do
            match ← parseTimeToken timeToken referenceTime with
            | none => some (.error (invalidTimeIssue raw))
            | some timeUtc =>
                match parseDegreesToken tokens with
                | (none, _) => some (.error (invalidDirectionIssue raw))
                | (some directionDegrees, tokens) =>
                    match parseSpeedToken tokens with
                    | (none, _) => some (.error (invalidSpeedIssue raw))
                    | (some speedKt, tokens) =>
                        parsePlaces raw timeUtc directionDegrees speedKt tokens

/-- The issues of a candidate. -/
def candidateIssues (candidate : TimeMotLocCandidate) (result : EntryResult F) :
    List ProductParseIssue :=
  (if candidate.markerWasEmbedded then
    [{ kind := "time_mot_loc_parse".toList
       code := "time_mot_loc_poorly_formatted".toList
       message := "TIME...MOT...LOC marker was not line-aligned in the source text".toList
       line := some candidate.sourceLine }]
  else []) ++
    match result with
    | .ok (_, issues) => issues
    | .error issue => [issue]

/-- The issue of a marker without a candidate. -/
def markerIssue : ProductParseIssue where
  kind := "time_mot_loc_parse".toList
  code := "time_mot_loc_regex_failed_after_marker".toList
  message := "found TIME...MOT...LOC marker but could not match the expected field layout".toList
  line := none

/-- The entries among some results. -/
def entriesOf (results : List (EntryResult F)) : List (TimeMotLocEntry F) :=
  results.filterMap fun result => result.toOption.map Prod.fst

/-- `parse_time_mot_loc_entries_with_issues`. -/
def parseTimeMotLocEntriesWithIssues (text : Str) (referenceTime : DateTime) :
    Option (List (TimeMotLocEntry F) × List ProductParseIssue) := do
  let markerCount ← countMarkers text
  let candidates ← findTimeMotLocCandidates text
  let results : List (EntryResult F) ←
    candidates.mapM fun candidate => parseTimeMotLocCandidate candidate.raw referenceTime
  some (entriesOf results,
    (candidates.zip results).flatMap
      (fun (candidate, result) => candidateIssues candidate result) ++
      if candidates.length < markerCount then [markerIssue] else [])

/-- `parse_time_mot_loc_entries`. -/
def parseTimeMotLocEntries (text : Str) (referenceTime : DateTime) :
    Option (List (TimeMotLocEntry F)) :=
  (parseTimeMotLocEntriesWithIssues text referenceTime).map Prod.fst

end Parser.TimeMotLoc
