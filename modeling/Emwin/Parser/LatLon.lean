/-
# Polygons

`body/latlon.rs` reads the polygons behind `LAT...LON`: pairs of latitudes and longitudes that
are packed in several ways, wrapped over lines, and sometimes damaged.

`none` is a panic.  The arithmetic on coordinates is that of a class, so it can be rounded in
any way.
-/
import Emwin.Parser.Support

namespace Parser.LatLon

open Floats

variable {F : Type} [FloatArith F]

/-- The marker of a polygon. -/
def MARKER : Str := "LAT...LON".toList

/-- A polygon with its points and their text. -/
structure LatLonPolygon (F : Type) where
  /-- Latitude and longitude in degrees. -/
  points : List (F × F)
  wkt : Str

/-- `format_polygon_wkt`. -/
def formatPolygonWkt (points : List (F × F)) : Str :=
  "POLYGON((".toList ++
    List.intercalate ", ".toList (points.map fun (lat, lon) =>
      FloatArith.format 6 lon ++ [' '] ++ FloatArith.format 6 lat) ++ "))".toList

/-! ## Candidates -/

/-- `looks_like_coordinate_line`. -/
def looksLikeCoordinateLine (line : Str) : Bool :=
  (Str.splitWhitespace line).all fun token =>
    let digits := token.dropWhile (· = '-')
    digits ≠ [] && digits.all Char.isDigit

/-- `marker_has_coordinates`. -/
def markerHasCoordinates (raw : Str) : Bool :=
  match Str.splitWhitespace raw with
  | marker :: token :: _ =>
      Str.eqIgnoreAsciiCase marker MARKER && (token.dropWhile (· = '-')).all Char.isDigit
  | _ => false

/-- The blocks of this module. -/
def rules : MarkerRules where
  marker := MARKER
  marker_ne_nil := by decide
  marker_visible := by decide
  looksLikeCoordinateLine := looksLikeCoordinateLine
  mayEnd := markerHasCoordinates

/-- `collect_latlon_candidate`. -/
def collectLatlonCandidate (line : Str) (lines : List Str) : Option (Option Str × ℕ) :=
  (rules.collect line lines).map fun (raw, further) => (some raw, further)

/-- `find_latlon_candidates`. -/
def findLatlonCandidates (text : Str) : Option (List Str) :=
  Lines.scan rules.starts collectLatlonCandidate (Str.lines text)

/-! ## Coordinates -/

/-- A longitude without its leading `10` is completed. -/
def completeLongitude (value : F) : F :=
  if FloatArith.lt value (const 40) then value + const 100 else value

/-- `parse_coordinate`. -/
def parseCoordinate (coord : Str) (isLatitude : Bool) : Option (Option F) :=
  let coord := Str.trim coord
  if coord.head? = some '-' then some (parse coord)
  else
    let value : Option (Option F) :=
      match Str.byteLen coord with
      | 4 | 5 => some ((parse coord).map (· / const 100))
      | 6 =>
          andThen (readPiece 0 2 coord) fun degrees =>
          andThen (readPiece 2 4 coord) fun minutes =>
          andThen (readPiece 4 6 coord) fun seconds =>
          some (some (degrees + minutes / const 60 + seconds / const 3600))
      | 7 =>
          andThen (readPiece 0 2 coord) fun degrees =>
          andThen (readPiece 2 7 coord) fun decimal =>
          some (some (degrees + decimal / const 100000))
      | 8 =>
          andThen (readPiece 0 2 coord) fun degrees =>
          andThen (readPiece 2 4 coord) fun minutes =>
          andThen (readPiece 4 6 coord) fun seconds =>
          andThen (readPiece 6 8 coord) fun hundredths =>
          some (some (degrees + minutes / const 60 +
            (seconds + hundredths / const 100) / const 3600))
      | _ => some (parse coord)
    andThen value fun value =>
      some (some (if isLatitude then value else -completeLongitude value))

/-- `consume_coordinate_token`: only digits are accepted, behind signs. -/
def consumeLatlonToken (tokens : List Str) : Option (Str × List Str) := do
  let (token, rest) ← consumeCoordinateToken [] tokens
  if (token.dropWhile (· = '-')).all Char.isDigit then some (token, rest) else none

/-- Consuming a token leaves fewer. -/
theorem length_lt_of_consumeLatlonToken {token : Str} {tokens rest : List Str}
    (h : consumeLatlonToken tokens = some (token, rest)) : rest.length < tokens.length := by
  unfold consumeLatlonToken at h
  cases hconsume : consumeCoordinateToken [] tokens with
  | none => simp [hconsume] at h
  | some found =>
      obtain ⟨joined, rest'⟩ := found
      simp only [hconsume, Option.bind_eq_bind, Option.bind_some] at h
      split at h
      · obtain ⟨rfl, rfl⟩ : joined = token ∧ rest' = rest := by simpa using h
        exact length_lt_of_consumeCoordinateToken hconsume
      · cases h

/-- The two halves of a token, if both are coordinates. -/
def splitHalves (F : Type) [FloatArith F] (first second : Bool) (token : Str) :
    Option (Option (Str × Str)) := do
  let front ← Str.sliceTo 4 token
  let back ← Str.sliceFrom 4 token
  andThen (parseCoordinate front first : Option (Option F)) fun _ =>
    andThen (parseCoordinate back second : Option (Option F)) fun _ => some (some (front, back))

/-- `split_packed_coordinate_pair`. -/
def splitPackedCoordinatePair (F : Type) [FloatArith F] (normalized : List Str) (token : Str) :
    Option (Option (Str × Str)) :=
  if token.head? = some '-' ∨ Str.byteLen token ≠ 8 ∨ normalized.length % 2 ≠ 0 then some none
  else splitHalves F true false token

/-- `split_fused_coordinate_token`. -/
def splitFusedCoordinateToken (F : Type) [FloatArith F] (normalized : List Str) (token : Str) :
    Option (Option (Str × Str)) :=
  if token.head? = some '-' ∨ Str.byteLen token ≠ 8 ∨ normalized.length % 2 = 0 then some none
  else if normalized.any fun coord => coord.head? = some '-' || decide (5 < Str.byteLen coord) then
    some none
  else do
    let lon ← Str.sliceTo 4 token
    let lat ← Str.sliceFrom 4 token
    match normalized.getLast? with
    | none => some none
    | some pendingLatitude =>
        andThen (parseCoordinate pendingLatitude true : Option (Option F)) fun _ =>
        andThen (parseCoordinate lon false : Option (Option F)) fun _ =>
        andThen (parseCoordinate lat true : Option (Option F)) fun _ => some (some (lon, lat))

/-- `is_latlon_terminator`. -/
def isLatlonTerminator (token : Str) : Bool :=
  Str.trim token = "$$".toList || Str.trim token = "&&".toList

/-- An issue of this module. -/
def latlonIssue (code message : String) (raw : Str) : ProductParseIssue where
  kind := "latlon_parse".toList
  code := code.toList
  message := message.toList ++ raw ++ "`".toList
  line := some raw

/-- The issue of a token that was taken apart. -/
def fusedIssue (token lon lat : Str) : ProductParseIssue where
  kind := "latlon_parse".toList
  code := "latlon_fused_token_repaired".toList
  message := "repaired fused LAT...LON coordinate token `".toList ++ token ++ "` into `".toList ++
    lon ++ "` `".toList ++ lat ++ "`".toList
  line := some token

/-- The loop of `normalize_coordinate_tokens`. -/
def normalizeCoordinateTokens (F : Type) [FloatArith F] (normalized : List Str)
    (issues : List ProductParseIssue) (tokens : List Str) :
    Option (Option (List Str × List ProductParseIssue)) :=
  match tokens with
  | [] => some (some (normalized, issues))
  | next :: others =>
      if isLatlonTerminator next then some (some (normalized, issues))
      else
        match _ : consumeLatlonToken (next :: others) with
        | none => some none
        | some (token, rest) => do
            match ← splitPackedCoordinatePair F normalized token with
            | some (lat, lon) => normalizeCoordinateTokens F (normalized ++ [lat, lon]) issues rest
            | none =>
                match ← splitFusedCoordinateToken F normalized token with
                | some (lon, lat) =>
                    normalizeCoordinateTokens F (normalized ++ [lon, lat])
                      (issues ++ [fusedIssue token lon lat]) rest
                | none => normalizeCoordinateTokens F (normalized ++ [token]) issues rest
termination_by tokens.length
decreasing_by all_goals exact length_lt_of_consumeLatlonToken ‹_›

/-! ## Polygons -/

/-- A latitude or a longitude that cannot be read. -/
def coordinateIssue (isLatitude : Bool) (raw : Str) : ProductParseIssue :=
  if isLatitude then
    latlonIssue "invalid_latlon_latitude" "could not parse LAT...LON latitude from block: `" raw
  else
    latlonIssue "invalid_latlon_longitude" "could not parse LAT...LON longitude from block: `" raw

/-- The issue of a block with too few coordinates, or with half a pair. -/
def countIssue (raw : Str) : ProductParseIssue :=
  latlonIssue "invalid_latlon_coordinate_count"
    "LAT...LON block has an invalid coordinate count: `" raw

/-- Read a coordinate, or report it. -/
def readCoordinate (coord : Str) (isLatitude : Bool) (raw : Str) :
    Option (Except ProductParseIssue F) :=
  (parseCoordinate coord isLatitude).map fun value =>
    match value with
    | none => .error (coordinateIssue isLatitude raw)
    | some value => .ok value

/-- The loop of `parse_points`. -/
def pointsFrom (raw : Str) (pendingLatitude : Option F) (points : List (F × F)) :
    List Str → Option (Except ProductParseIssue (List (F × F)))
  | [] =>
      some (if pendingLatitude.isSome || points.length < 3 then .error (countIssue raw)
        else .ok points)
  | coord :: coords =>
      if Str.byteLen coord = 8 ∧ coord.head? ≠ some '-' then
        if pendingLatitude.isSome then some (.error (countIssue raw))
        else do
          let front ← Str.sliceTo 4 coord
          match ← (readCoordinate front true raw : Option (Except ProductParseIssue F)) with
          | .error issue => some (.error issue)
          | .ok lat =>
              let back ← Str.sliceFrom 4 coord
              match ← (readCoordinate back false raw : Option (Except ProductParseIssue F)) with
              | .error issue => some (.error issue)
              | .ok lon => pointsFrom raw pendingLatitude (points ++ [(lat, lon)]) coords
      else do
        match ← (readCoordinate coord pendingLatitude.isNone raw :
            Option (Except ProductParseIssue F)) with
        | .error issue => some (.error issue)
        | .ok value =>
            match pendingLatitude with
            | some lat => pointsFrom raw none (points ++ [(lat, value)]) coords
            | none => pointsFrom raw (some value) points coords

/-- `parse_points`. -/
def parsePoints (coords : List Str) (raw : Str) :
    Option (Except ProductParseIssue (List (F × F))) :=
  pointsFrom raw none [] coords

/-- `orientation`, of points with longitude first. -/
def orientation (first second third : F × F) : F :=
  (second.2 - first.2) * (third.1 - second.1) - (second.1 - first.1) * (third.2 - second.2)

/-- `segments_intersect`. -/
def segmentsIntersect (firstStart firstEnd secondStart secondEnd : F × F) : Bool :=
  FloatArith.lt (orientation firstStart firstEnd secondStart *
    orientation firstStart firstEnd secondEnd) (const 0) &&
  FloatArith.lt (orientation secondStart secondEnd firstStart *
    orientation secondStart secondEnd firstEnd) (const 0)

/-- `has_self_intersection`. -/
def hasSelfIntersection (points : List (F × F)) : Bool :=
  let segments := ((points.map Prod.swap).zip (points.map Prod.swap).tail).zipIdx
  segments.any fun (first, i) => segments.any fun (second, j) =>
    decide (i < j) && j != i + 1 && !(i == 0 && j + 1 == segments.length) &&
      segmentsIntersect first.1 first.2 second.1 second.2

/-- `!=` on points. -/
def pointsDiffer (first last : F × F) : Bool :=
  !(FloatArith.eq first.1 last.1 && FloatArith.eq first.2 last.2)

/-- `validate_polygon`. -/
def validatePolygon (points : List (F × F)) (raw : Str) :
    Except ProductParseIssue (List (F × F)) :=
  if points.length < 3 then .error (countIssue raw)
  else
    let points := match points.head?, points.getLast? with
      | some first, some last => if pointsDiffer first last then points ++ [first] else points
      | _, _ => points
    if 4 < points.length && hasSelfIntersection points then
      .error (latlonIssue "latlon_geometry_invalid"
        "LAT...LON block produced a self-intersecting polygon: `" raw)
    else .ok points

/-- `parse_latlon_candidate`. -/
def parseLatlonCandidate (candidate : Str) :
    Option (Option (LatLonPolygon F) × List ProductParseIssue) :=
  let raw := Str.trim candidate
  let invalidFormat :=
    latlonIssue "invalid_latlon_format" "could not parse LAT...LON block: `" raw
  match Str.splitWhitespace raw with
  | [] => some (none, [invalidFormat])
  | marker :: rawCoords =>
      if Str.eqIgnoreAsciiCase marker MARKER = false then some (none, [invalidFormat])
      else do
        match ← normalizeCoordinateTokens F [] [] rawCoords with
        | none =>
            some (none, [latlonIssue "invalid_latlon_coordinate_format"
              "could not normalize LAT...LON coordinates from block: `" raw])
        | some (coords, issues) =>
            match ← parsePoints (F := F) coords raw with
            | .error issue => some (none, issues ++ [issue])
            | .ok points =>
                match validatePolygon points raw with
                | .error issue => some (none, issues ++ [issue])
                | .ok points => some (some ⟨points, formatPolygonWkt points⟩, issues)

/-- `parse_latlon_polygons_with_issues`. -/
def parseLatlonPolygonsWithIssues (text : Str) :
    Option (List (LatLonPolygon F) × List ProductParseIssue) := do
  let candidates ← findLatlonCandidates text
  let results ← candidates.mapM (parseLatlonCandidate (F := F))
  some (results.filterMap Prod.fst, results.flatMap Prod.snd)

/-! ## From tokens to rings -/

/-- The points of the tokens behind a marker, before the ring is closed, with the issues of
their repair. -/
def tokenPoints (F : Type) [FloatArith F] (raw : Str) (tokens : List Str) :
    Option (Except ProductParseIssue (List (F × F)) × List ProductParseIssue) := do
  match ← normalizeCoordinateTokens F [] [] tokens with
  | none =>
      some (.error (latlonIssue "invalid_latlon_coordinate_format"
        "could not normalize LAT...LON coordinates from block: `" raw), [])
  | some (coords, issues) =>
      let points ← parsePoints coords raw
      some (points, issues)

/-- The polygon of points, or the issue that prevents it. -/
def polygonOf (raw : Str)
    (found : Except ProductParseIssue (List (F × F)) × List ProductParseIssue) :
    Option (LatLonPolygon F) × List ProductParseIssue :=
  match found.1.bind fun points => validatePolygon points raw with
  | .error issue => (none, found.2 ++ [issue])
  | .ok points => (some ⟨points, formatPolygonWkt points⟩, found.2)

/-- Points with the first at the end, if the last is another one. -/
def closed (points : List (F × F)) : List (F × F) :=
  match points.head?, points.getLast? with
  | some first, some last => if pointsDiffer first last then points ++ [first] else points
  | _, _ => points

theorem closed_eq {points : List (F × F)} {first last : F × F} (hhead : points.head? = some first)
    (hlast : points.getLast? = some last) :
    closed points = if pointsDiffer first last then points ++ [first] else points := by
  rw [closed, hhead, hlast]

/-- A polygon is closed after its points are counted. -/
theorem validatePolygon_eq (points : List (F × F)) (raw : Str) :
    validatePolygon points raw =
      if points.length < 3 then .error (countIssue raw)
      else if 4 < (closed points).length && hasSelfIntersection (closed points) then
        .error (latlonIssue "latlon_geometry_invalid"
          "LAT...LON block produced a self-intersecting polygon: `" raw)
      else .ok (closed points) := rfl

/-- A block makes a polygon of the points of its tokens. -/
theorem parseLatlonCandidate_eq {candidate marker : Str} {tokens : List Str}
    (hwords : Str.splitWhitespace (Str.trim candidate) = marker :: tokens)
    (hmarker : Str.eqIgnoreAsciiCase marker MARKER = true) :
    parseLatlonCandidate (F := F) candidate =
      (tokenPoints F (Str.trim candidate) tokens).map (polygonOf (Str.trim candidate)) := by
  unfold parseLatlonCandidate
  dsimp only
  rw [hwords]
  dsimp only
  rw [if_neg (by rw [hmarker]; decide), tokenPoints]
  simp only [Option.bind_eq_bind]
  rcases normalizeCoordinateTokens F [] [] tokens with _ | _ | ⟨coords, issues⟩
  · rfl
  · rfl
  · simp only [Option.bind_some]
    rcases parsePoints coords (Str.trim candidate) with _ | issue | points
    · rfl
    · rfl
    · simp only [Option.bind_some, Option.map_some, polygonOf, Except.bind]
      rcases validatePolygon points (Str.trim candidate) with issue | ring <;> rfl

end Parser.LatLon
