/-
# Segments of a warning

`body/vtec_events.rs` cuts the text of a product into segments, so that each VTEC code stays
with the areas, the polygons and the tags that belong to it, and parses each segment.

`none` is a panic of one of the parsers.
-/
import Emwin.Parser.LatLon
import Emwin.Parser.SlashCodes
import Emwin.Parser.TimeMotLoc
import Emwin.Parser.Ugc
import Emwin.Parser.WindHail

namespace Parser.VtecEvents

open Chrono Floats

variable {F : Type} [FloatArith F]

/-- What the parser takes from elsewhere: the catalogs, chrono's reader of times in the format
`%y%m%dT%H%MZ`, and the matches of the regular expression for legacy tags. -/
structure Outside where
  catalog : UgcCatalog
  nwslidEntry : Str → Option NwslidEntry
  parseFromStr : Str → Option DateTime
  legacyCaptures : Str → List LegacyCapture

/-! ## Lines -/

/-- `is_ugc_start`, the same as that of `ugc.rs`. -/
def isUgcStart (line : Str) : Bool := Parser.isUgcStart line

/-- The codes of a text. -/
def vtecCodes (o : Outside) (text : Str) : List VtecCode := parseVtecCodes o.parseFromStr text

/-- `line_has_vtec`. -/
def lineHasVtec (o : Outside) (line : Str) : Bool := vtecCodes o line ≠ []

/-- Whether a line begins with one of some words, in any case. -/
def lineBeginsWith (words : List Str) (line : Str) : Bool :=
  let upper := Str.toAsciiUppercase (Str.trimStart line)
  words.any fun word => word.isPrefixOf upper

/-- `line_has_geography`. -/
def lineHasGeography (line : Str) : Bool :=
  lineBeginsWith ["LAT...LON".toList, "TIME...MOT...LOC".toList] line

/-- `line_has_time_mot_loc`. -/
def lineHasTimeMotLoc (line : Str) : Bool := lineBeginsWith ["TIME...MOT...LOC".toList] line

/-- `line_has_wind_hail`. -/
def lineHasWindHail (line : Str) : Bool :=
  lineBeginsWith ["HAILTHREAT".toList, "MAXHAILSIZE".toList, "WINDTHREAT".toList,
    "MAXWINDGUST".toList] line

/-- `looks_like_event_content`. -/
def looksLikeEventContent (o : Outside) (line : Str) : Bool :=
  isUgcStart line || lineHasVtec o line || lineHasGeography line || lineHasWindHail line ||
    (parseHvtecCodesWithIssues o.nwslidEntry o.parseFromStr line).1 ≠ []

/-! ## Segments -/

/-- The variables of the loop of `split_vtec_segments`. -/
structure SplitState where
  segments : List Str
  current : List Str
  currentHasVtec : Bool
  currentHasGeography : Bool

/-- `current.join("\n")`. -/
def joinLines (lines : List Str) : Str := List.intercalate ['\n'] lines

/-- `push_vtec_segment`: a segment without codes is dropped. -/
def pushVtecSegment (o : Outside) (segments current : List Str) : List Str :=
  if current = [] then segments
  else if vtecCodes o (joinLines current) ≠ [] then segments ++ [joinLines current]
  else segments

/-- Push the current segment and begin another. -/
def SplitState.restart (o : Outside) (s : SplitState) : SplitState where
  segments := pushVtecSegment o s.segments s.current
  current := []
  currentHasVtec := false
  currentHasGeography := false

/-- Whether a line begins another segment. -/
def SplitState.boundary (o : Outside) (s : SplitState) (trimmed : Str) : Bool :=
  s.current ≠ [] && s.currentHasVtec &&
    (isUgcStart trimmed || (lineHasVtec o trimmed && s.currentHasGeography))

/-- Take a line into the current segment, which does not begin with noise. -/
def SplitState.take (o : Outside) (s : SplitState) (trimmed : Str) : SplitState :=
  if s.current = [] && !looksLikeEventContent o trimmed then s
  else if Str.trim trimmed = [] && s.current = [] then s
  else
    { s with
      current := s.current ++ [trimmed]
      currentHasVtec := s.currentHasVtec || lineHasVtec o trimmed
      currentHasGeography := s.currentHasGeography || lineHasGeography trimmed }

/-- One round of the loop of `split_vtec_segments`. -/
def SplitState.line (o : Outside) (s : SplitState) (line : Str) : SplitState :=
  let trimmed := Str.trimEnd line
  if Str.trim trimmed = "$$".toList then s.restart o
  else (if s.boundary o trimmed then s.restart o else s).take o trimmed

/-- The lines that are split: carriage returns are removed first. -/
def normalizedLines (text : Str) : List Str := Str.lines (text.filter (· ≠ '\r'))

/-- `split_vtec_segments`. -/
def splitVtecSegments (o : Outside) (text : Str) : List Str :=
  let s := (normalizedLines text).foldl (SplitState.line o) ⟨[], [], false, false⟩
  pushVtecSegment o s.segments s.current

/-! ## Quality control -/

/-- Codes with the areas, the polygons and the tags that belong to them. -/
structure VtecEventSegment (F : Type) where
  segmentIndex : ℕ
  vtec : List VtecCode
  ugcSections : List UgcSection
  hvtec : List HvtecCode
  polygons : List (LatLon.LatLonPolygon F)
  timeMotLoc : List (TimeMotLoc.TimeMotLocEntry F)
  windHail : List (WindHailEntry F)

/-- An issue of quality control about a segment. -/
def qcIssue (code message : String) (segmentIndex : ℕ) : ProductParseIssue where
  kind := "body_qc".toList
  code := code.toList
  message := "segment ".toList ++ Str.ofNat segmentIndex ++ message.toList
  line := none

/-- `collect_duplicate_ugc_codes`: the codes seen so far, and those seen twice. -/
def collectDuplicateUgcCodes (groups : OrderedMap Str (List UgcArea)) (classCode : Char)
    (found : OrderedMap Str Unit × OrderedMap Str Unit) :
      OrderedMap Str Unit × OrderedMap Str Unit :=
  (groups.entries.flatMap fun (state, areas) => areas.map fun area =>
    spell state classCode area.id).foldl (fun (seen, duplicates) canonical =>
      if (seen.lookup canonical).isSome then (seen, duplicates.insert canonical ())
      else (seen.insert canonical (), duplicates)) found

/-- `find_segment_duplicate_ugc_codes`. -/
def findSegmentDuplicateUgcCodes (sections : List UgcSection) : List Str :=
  (sections.foldl (fun found s =>
    collectDuplicateUgcCodes s.marineZones 'M' (collectDuplicateUgcCodes s.fireZones 'F'
      (collectDuplicateUgcCodes s.zones 'Z' (collectDuplicateUgcCodes s.counties 'C' found))))
    (.empty, .empty)).2.keys

/-- `segment_has_marine_only_ugc`. -/
def segmentHasMarineOnlyUgc (segment : VtecEventSegment F) : Bool :=
  !segment.ugcSections.isEmpty && segment.ugcSections.all fun s =>
    s.counties.entries.isEmpty && s.zones.entries.isEmpty && s.fireZones.entries.isEmpty &&
      !s.marineZones.entries.isEmpty

/-- `segment_has_polygon_required_ugc`. -/
def segmentHasPolygonRequiredUgc (segment : VtecEventSegment F) : Bool :=
  segment.ugcSections.any fun s => !s.counties.entries.isEmpty || !s.fireZones.entries.isEmpty

/-- `segment_is_watch_only`. -/
def segmentIsWatchOnly (segment : VtecEventSegment F) : Bool :=
  !segment.vtec.isEmpty && segment.vtec.all (·.significance = 'A')

/-- `validate_vtec_segment`. -/
def validateVtecSegment (segment : VtecEventSegment F) (ugcBlockedByMissingReferenceTime : Bool) :
    List ProductParseIssue :=
  (if segment.ugcSections.isEmpty && !ugcBlockedByMissingReferenceTime then
    [qcIssue "vtec_segment_missing_ugc"
      " parsed VTEC content but did not recover UGC sections from the source text"
      segment.segmentIndex]
  else []) ++
  (if segment.polygons.isEmpty && segmentHasPolygonRequiredUgc segment &&
      !segmentHasMarineOnlyUgc segment && !segmentIsWatchOnly segment then
    [qcIssue "vtec_segment_missing_required_polygon"
      " parsed VTEC content but did not recover a LAT...LON polygon from the source text"
      segment.segmentIndex]
  else []) ++
  match findSegmentDuplicateUgcCodes segment.ugcSections with
  | [] => []
  | duplicates =>
      let issue := qcIssue "vtec_segment_duplicate_ugc_code" " encountered duplicated UGC codes: "
        segment.segmentIndex
      [{ issue with message := issue.message ++ List.intercalate ", ".toList duplicates }]

/-! ## Bodies -/

/-- The issue of a segment that cannot be read completely without a reference time. -/
def missingReferenceTime (kind message : String) (segmentIndex : ℕ) : ProductParseIssue where
  kind := kind.toList
  code := "missing_reference_time".toList
  message := "segment ".toList ++ Str.ofNat segmentIndex ++ message.toList
  line := none

/-- Parse with the reference time, or report that it is missing if it is needed. -/
def withReferenceTime {α : Type} (referenceTime : Option DateTime)
    (parse : DateTime → Option (List α × List ProductParseIssue)) (isNeeded : Bool)
    (missing : ProductParseIssue) : Option (List α × List ProductParseIssue) :=
  match referenceTime with
  | some referenceTime => parse referenceTime
  | none => some ([], if isNeeded then [missing] else [])

/-- One round of the loop of `parse_vtec_event_body_with_issues`. -/
def parseSegment (o : Outside) (referenceTime : Option DateTime) (rawSegment : Str)
    (segmentIndex : ℕ) : Option (Option (VtecEventSegment F) × List ProductParseIssue) :=
  let (vtec, vtecIssues) := parseVtecCodesWithIssues o.parseFromStr rawSegment
  if vtec = [] then some (none, vtecIssues)
  else do
    let hasUgcStart := (Str.lines rawSegment).any isUgcStart
    let (ugcSections, ugcIssues) ← withReferenceTime referenceTime
      (parseUgcSectionsWithIssues o.catalog rawSegment) hasUgcStart
      (missingReferenceTime "ugc_parse"
        " could not parse UGC sections because the header timestamp could not be resolved"
        segmentIndex)
    let (hvtec, hvtecIssues) := parseHvtecCodesWithIssues o.nwslidEntry o.parseFromStr rawSegment
    let (polygons, polygonIssues) ← LatLon.parseLatlonPolygonsWithIssues rawSegment
    let (timeMotLoc, timeMotLocIssues) ← withReferenceTime referenceTime
      (TimeMotLoc.parseTimeMotLocEntriesWithIssues rawSegment)
      ((Str.lines rawSegment).any lineHasTimeMotLoc)
      (missingReferenceTime "time_mot_loc_parse"
        " could not parse TIME...MOT...LOC entries because the header timestamp could not be resolved"
        segmentIndex)
    let (windHail, windHailIssues) := parseWindHailEntriesWithIssues o.legacyCaptures rawSegment
    let segment : VtecEventSegment F :=
      { segmentIndex, vtec, ugcSections, hvtec, polygons, timeMotLoc, windHail }
    some (some segment, vtecIssues ++ ugcIssues ++ hvtecIssues ++ polygonIssues ++
      timeMotLocIssues ++ windHailIssues ++
        validateVtecSegment segment (referenceTime.isNone && hasUgcStart))

/-- `parse_vtec_event_body_with_issues`. -/
def parseVtecEventBodyWithIssues (o : Outside) (text : Str) (referenceTime : Option DateTime) :
    Option (Option (List (VtecEventSegment F)) × List ProductParseIssue) := do
  let results : List (Option (VtecEventSegment F) × List ProductParseIssue) ←
    (splitVtecSegments o text).zipIdx.mapM fun (rawSegment, segmentIndex) =>
      parseSegment o referenceTime rawSegment segmentIndex
  let segments := results.filterMap Prod.fst
  some (if segments.isEmpty then none else some segments, results.flatMap Prod.snd)

end Parser.VtecEvents
