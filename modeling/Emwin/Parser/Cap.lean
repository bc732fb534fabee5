/-
# CAP alerts

`body/cap.rs` cuts the XML of an alert out of a text, and projects what stands in the alert to the
shapes that other bodies have: segments of a warning, or areas, polygons, tracks and tags.

`none` is a panic.  The XML is cut between two markers that are looked for apart, and an area code
is cut at offsets that its length in bytes alone decides.  The reader of XML is a parameter, and so
is chrono's reader of RFC 3339.
-/
import Emwin.Parser.ProductBody

namespace Parser.Cap

open Chrono Floats

variable {F : Type} [FloatArith F]

/-! ## Alerts -/

/-- A name with its value; `CapValuePairXml` has the same fields. -/
structure CapValuePair where
  name : Str
  value : Str
  deriving DecidableEq, Repr

/-- An area as the reader of XML returns it. -/
structure CapAreaXml where
  polygon : Option Str
  geocodes : List CapValuePair
  deriving DecidableEq, Repr

/-- An information block as the reader of XML returns it. -/
structure CapInfoXml where
  expires : Option Str
  parameters : List CapValuePair
  areas : List CapAreaXml
  deriving DecidableEq, Repr

/-- An alert as the reader of XML returns it. -/
structure CapAlertXml where
  infos : List CapInfoXml
  deriving DecidableEq, Repr

/-- An area of an alert; its polygon is trimmed and not empty. -/
structure CapArea where
  polygon : Option Str
  geocodes : List CapValuePair
  deriving DecidableEq, Repr

/-- An information block of an alert. -/
structure CapInfo where
  expires : Option DateTime
  parameters : List CapValuePair
  areas : List CapArea
  deriving DecidableEq, Repr

/-- An alert. -/
structure CapAlert where
  infos : List CapInfo
  deriving DecidableEq, Repr

/-- What the parser takes from elsewhere: the reader of XML, chrono's readers of RFC 3339 and of
times in the format `%y%m%dT%H%MZ`, and the catalogs. -/
structure Outside where
  fromStr : Str → Except Str CapAlertXml
  /-- An empty text has no root element. -/
  fromStr_nil : ∀ alert, fromStr [] ≠ .ok alert
  parseFromRfc3339 : Str → Option DateTime
  parseFromStr : Str → Option DateTime
  catalog : UgcCatalog

/-- `BodyExtractorId`. -/
inductive BodyExtractorId where
  | vtecEvents
  | ugc
  | latLon
  | timeMotLoc
  | windHail
  deriving DecidableEq, Repr

/-- `BodyExtractionOutcome`. -/
structure BodyExtractionOutcome (F : Type) where
  body : Option (ProductBody F)
  issues : List ProductParseIssue

/-- `ProductParseIssue::new`. -/
def issueOf (kind code : String) (message : Str) (line : Option Str) : ProductParseIssue where
  kind := kind.toList
  code := code.toList
  message := message
  line := line

/-- A message with a text in backquotes behind it. -/
def quoting (message : String) (text : Str) : Str := message.toList ++ '`' :: text ++ ['`']

/-! ## The XML of an alert -/

/-- The offset of the first marker of a beginning: of `<?xml`, or else of `<alert`. -/
def openingOffset (text : Str) : Option ℕ :=
  (asciiFindCaseInsensitive text "<?xml".toList).or
    (asciiFindCaseInsensitive text "<alert".toList)

/-- The offset behind the last closing tag. -/
def closingOffset (text : Str) : Option ℕ := (Str.rfind "</alert>".toList text).map (· + 8)

/-- `extract_cap_xml`. -/
def extractCapXml (text : Str) : Option (Option Str) :=
  match openingOffset text, closingOffset text with
  | some start, some stop => (Str.slice start stop text).map fun xml => some (Str.trim xml)
  | _, _ => some none

/-- `parse_cap_time`. -/
def parseCapTime (o : Outside) (value : Str) : Option DateTime := o.parseFromRfc3339 value

/-- The area that is made of one of the XML. -/
def areaOfXml (area : CapAreaXml) : CapArea where
  polygon := area.polygon.bind fun polygon =>
    if Str.trim polygon = [] then none else some (Str.trim polygon)
  geocodes := area.geocodes

/-- The block that is made of one of the XML. -/
def infoOfXml (o : Outside) (info : CapInfoXml) : CapInfo where
  expires := info.expires.bind (parseCapTime o)
  parameters := info.parameters
  areas := info.areas.map areaOfXml

/-- The alert that is made of one of the XML. -/
def alertOfXml (o : Outside) (alert : CapAlertXml) : CapAlert where
  infos := alert.infos.map (infoOfXml o)

/-- `parse_cap_alert`. -/
def parseCapAlert (o : Outside) (xml : Str) : Except ProductParseIssue CapAlert :=
  match o.fromStr xml with
  | .error error =>
      .error (issueOf "cap_parse" "invalid_cap_xml"
        ("could not parse CAP XML payload: ".toList ++ error) none)
  | .ok alertXml =>
      if (alertOfXml o alertXml).infos = [] then
        .error (issueOf "cap_parse" "missing_cap_info"
          "CAP XML did not contain any info blocks".toList none)
      else .ok (alertOfXml o alertXml)

/-! ## Parameters -/

/-- `parameter_value`. -/
def parameterValue (info : CapInfo) (name : String) : Option Str :=
  (info.parameters.find? fun pair => pair.name = name.toList).map (·.value)

/-- `preferred_expiry`. -/
def preferredExpiry (o : Outside) (info : CapInfo) : Option DateTime :=
  ((parameterValue info "eventEndingTime").bind (parseCapTime o)).or info.expires

/-- `project_vtec`. -/
def projectVtec (o : Outside) (info : CapInfo) : List VtecCode × List ProductParseIssue :=
  let results := (info.parameters.filter fun pair => pair.name = "VTEC".toList).map fun pair =>
    parseVtecCodesWithIssues o.parseFromStr pair.value
  (results.flatMap Prod.fst, results.flatMap Prod.snd)

/-- The pieces of a text between the occurrences of a pattern, from left to right. -/
def piecesFrom (pattern piece : Str) : ℕ → Str → List Str
  | _, [] => [piece]
  | skip + 1, _ :: text => piecesFrom pattern piece skip text
  | 0, c :: text =>
      if pattern <+: c :: text then piece :: piecesFrom pattern [] (pattern.length - 1) text
      else piecesFrom pattern (piece ++ [c]) 0 text

/-- An issue about the motion of a storm. -/
def motionIssue (code message : String) (quoted raw : Str) : ProductParseIssue :=
  issueOf "time_mot_loc_parse" code (quoting message quoted) (some raw)

/-- A number with its unit behind it. -/
def parseWithUnit (unit : String) (token : Str) : Option ℕ :=
  (Str.stripSuffix unit.toList token).bind (Str.parseUnsigned (2 ^ 16 - 1))

/-- The loop of `parse_cap_event_motion`. -/
def parseMotionPoints (raw : Str) : List Str → Except ProductParseIssue (List (F × F))
  | [] => .ok []
  | token :: tokens =>
      match Str.splitOnce ',' token with
      | none =>
          .error (motionIssue "invalid_time_mot_loc_coordinate_count"
            "could not parse CAP event motion coordinate " token raw)
      | some (lat, lon) =>
          match parse lat, parse lon with
          | none, _ =>
              .error (motionIssue "invalid_time_mot_loc_latitude"
                "could not parse CAP event motion latitude " lat raw)
          | some _, none =>
              .error (motionIssue "invalid_time_mot_loc_longitude"
                "could not parse CAP event motion longitude " lon raw)
          | some lat, some lon => (parseMotionPoints raw tokens).map ((lat, lon) :: ·)

/-- `parse_cap_event_motion`. -/
def parseCapEventMotion (o : Outside) (raw : Str) :
    Except ProductParseIssue (TimeMotLoc.TimeMotLocEntry F) :=
  match piecesFrom "...".toList [] 0 raw with
  | time :: _ :: direction :: speed :: places :: _ =>
      match parseCapTime o time, parseWithUnit "DEG" direction, parseWithUnit "KT" speed with
      | none, _, _ =>
          .error (motionIssue "invalid_time_mot_loc_time"
            "could not parse CAP event motion time from " raw raw)
      | some _, none, _ =>
          .error (motionIssue "invalid_time_mot_loc_direction"
            "could not parse CAP event motion direction from " raw raw)
      | some _, some _, none =>
          .error (motionIssue "invalid_time_mot_loc_speed"
            "could not parse CAP event motion speed from " raw raw)
      | some timeUtc, some directionDegrees, some speedKt =>
          (parseMotionPoints raw (Str.splitWhitespace places)).map fun points =>
            ⟨timeUtc, directionDegrees, speedKt, points, TimeMotLoc.formatLinestringWkt points⟩
  | _ =>
      .error (motionIssue "invalid_time_mot_loc_format"
        "could not parse CAP eventMotionDescription " raw raw)

/-- `project_time_mot_loc`. -/
def projectTimeMotLoc (o : Outside) (info : CapInfo) :
    List (TimeMotLoc.TimeMotLocEntry F) × List ProductParseIssue :=
  match parameterValue info "eventMotionDescription" with
  | none => ([], [])
  | some raw =>
      match parseCapEventMotion o raw with
      | .ok entry => ([entry], [])
      | .error issue => ([], [issue])

/-- `parse_numeric_parameter`. -/
def parseNumericParameter (value : Str) (defaultUnits : Option Str) : Option (F × Str) :=
  match Str.splitWhitespace value with
  | [] => none
  | first :: parts => do
      let numeric ← parse first
      let units ← (parts.head?.map Str.toAsciiUppercase).or defaultUnits
      some (numeric, units)

/-- A threat that is named, without a value. -/
def projectThreat (info : CapInfo) (name : String) (kind : WindHailKind) : List (WindHailEntry F) :=
  if (parameterValue info name).isSome then [⟨kind, none, none, none⟩] else []

/-- A tag with a value, or the issue of a value that cannot be read. -/
def projectNumeric (info : CapInfo) (name units : String) (kind : WindHailKind)
    (code message : String) : List (WindHailEntry F) × List ProductParseIssue :=
  match parameterValue info name with
  | none => ([], [])
  | some value =>
      match parseNumericParameter value (some units.toList) with
      | some (numeric, units) => ([⟨kind, some numeric, some units, none⟩], [])
      | none => ([], [issueOf "wind_hail_parse" code (quoting message value) (some value)])

/-- `project_wind_hail`. -/
def projectWindHail (info : CapInfo) : List (WindHailEntry F) × List ProductParseIssue :=
  let (gust, gustIssues) := projectNumeric info "maxWindGust" "MPH" .maxWindGust
    "invalid_wind_hail_wind_value" "could not parse CAP maxWindGust value "
  let (hail, hailIssues) := projectNumeric info "maxHailSize" "IN" .maxHailSize
    "invalid_wind_hail_hail_value" "could not parse CAP maxHailSize value "
  (projectThreat info "windThreat" .windThreat ++ gust ++
    projectThreat info "hailThreat" .hailThreat ++ hail, gustIssues ++ hailIssues)

/-! ## Areas -/

/-- `parse_cap_ugc_code`.  The offsets are those of a code in ASCII. -/
def parseCapUgcCode (value : Str) : Option (Option UgcCode) :=
  if Str.byteLen value ≠ 6 then some none
  else
    andThen ((Str.sliceTo 2 value).map some) fun state =>
    andThen (some value[2]?) fun geoclass =>
    andThen ((Str.sliceFrom 3 value).map (Str.parseUnsigned (2 ^ 16 - 1))) fun number =>
    some (some ⟨state, .fromChar geoclass, number⟩)

/-- The values of an area that are area codes. -/
def CapArea.ugcValues (area : CapArea) : List Str :=
  (area.geocodes.filter fun pair => pair.name = "UGC".toList).map fun pair => Str.trim pair.value

/-- The issue of area codes that cannot be given a time. -/
def missingReferenceTime : ProductParseIssue :=
  issueOf "ugc_parse" "missing_reference_time"
    "could not project CAP UGC values because no expiry or reference time was available".toList none

/-- The issue of an area code that cannot be read. -/
def invalidUgcCodes (value : Str) : ProductParseIssue :=
  issueOf "ugc_parse" "invalid_ugc_codes" (quoting "could not parse CAP UGC value " value)
    (some value)

/-- One round of the loop of `project_ugc`. -/
def readUgcValue (value : Str) : Option (Option UgcCode × List ProductParseIssue) :=
  (parseCapUgcCode value).map fun code =>
    (code, if code.isSome then [] else [invalidUgcCodes value])

/-- `project_ugc`. -/
def projectUgc (o : Outside) (area : CapArea) (expires referenceTime : Option DateTime) :
    Option (List UgcSection × List ProductParseIssue) :=
  match expires.or referenceTime with
  | none =>
      let isListed := area.geocodes.any fun pair => pair.name = "UGC".toList
      some ([], if isListed then [missingReferenceTime] else [])
  | some expires => do
      let results ← area.ugcValues.mapM readUgcValue
      let codes := results.filterMap Prod.fst
      some (if codes = [] then [] else [.fromCodes o.catalog codes expires],
        results.flatMap Prod.snd)

/-- An issue about a polygon. -/
def polygonIssue (code message : String) (quoted raw : Str) : ProductParseIssue :=
  issueOf "latlon_parse" code (quoting message quoted) (some raw)

/-- The loop of `project_polygons`. -/
def parsePolygonPoints (raw : Str) : List Str → Except ProductParseIssue (List (F × F))
  | [] => .ok []
  | token :: tokens =>
      match Str.splitOnce ',' token with
      | none =>
          .error (polygonIssue "invalid_latlon_coordinate_format"
            "could not parse CAP polygon coordinate " token raw)
      | some (lat, lon) =>
          match parse (Str.trim lat), parse (Str.trim lon) with
          | none, _ =>
              .error (polygonIssue "invalid_latlon_latitude"
                "could not parse CAP polygon latitude " lat raw)
          | some _, none =>
              .error (polygonIssue "invalid_latlon_longitude"
                "could not parse CAP polygon longitude " lon raw)
          | some lat, some lon => (parsePolygonPoints raw tokens).map ((lat, lon) :: ·)

/-- `LatLonPolygon::from_points`. -/
def polygonFromPoints (points : List (F × F)) :
    Except ProductParseIssue (LatLon.LatLonPolygon F) :=
  (LatLon.validatePolygon points "CAP polygon".toList).map fun points =>
    ⟨points, LatLon.formatPolygonWkt points⟩

/-- `project_polygons`. -/
def projectPolygons (area : CapArea) : List (LatLon.LatLonPolygon F) × List ProductParseIssue :=
  match area.polygon with
  | none => ([], [])
  | some raw =>
      match (parsePolygonPoints raw (Str.splitWhitespace raw)).bind polygonFromPoints with
      | .ok polygon => ([polygon], [])
      | .error issue => ([], [issue])

/-! ## Projection -/

/-- The variables of the loops of `project_cap_alert`. -/
structure Projection (F : Type) where
  issues : List ProductParseIssue
  vtecSegments : List (VtecEvents.VtecEventSegment F)
  generic : GenericBody F

/-- The variables in front of the loops. -/
def Projection.empty : Projection F := ⟨[], [], ⟨none, none, none, none⟩⟩

/-- What a block says about each of its areas. -/
structure InfoProjection (F : Type) where
  vtecCodes : List VtecCode
  timeMotLoc : List (TimeMotLoc.TimeMotLocEntry F)
  windHail : List (WindHailEntry F)
  expires : Option DateTime

/-- Extend a part of a body, if it is wanted and there is something to add. -/
def extendPart {α : Type} (isWanted : Bool) (part : Option (List α)) (found : List α) :
    Option (List α) :=
  if !found.isEmpty && isWanted then some (part.getD [] ++ found) else part

/-- One round of the inner loop of `project_cap_alert`. -/
def Projection.addArea (o : Outside) (extractors : List BodyExtractorId)
    (referenceTime : Option DateTime) (info : InfoProjection F) (s : Projection F)
    (area : CapArea) : Option (Projection F) := do
  let (ugcSections, ugcIssues) ← projectUgc o area info.expires referenceTime
  let (polygons, polygonIssues) := projectPolygons (F := F) area
  let issues := s.issues ++ ugcIssues ++ polygonIssues
  if info.vtecCodes ≠ [] ∧ .vtecEvents ∈ extractors then
    some
      { s with
        issues := issues
        vtecSegments := s.vtecSegments ++
          [⟨s.vtecSegments.length, info.vtecCodes, ugcSections, [], polygons, info.timeMotLoc,
            info.windHail⟩] }
  else
    some
      { s with
        issues := issues
        generic :=
          { ugc := extendPart (.ugc ∈ extractors) s.generic.ugc ugcSections
            latlon := extendPart (.latLon ∈ extractors) s.generic.latlon polygons
            timeMotLoc := extendPart (.timeMotLoc ∈ extractors) s.generic.timeMotLoc info.timeMotLoc
            windHail := extendPart (.windHail ∈ extractors) s.generic.windHail info.windHail } }

/-- The areas of a block; a block without areas has one that is empty. -/
def CapInfo.areasOrDefault (info : CapInfo) : List CapArea :=
  if info.areas = [] then [⟨none, []⟩] else info.areas

/-- One round of the outer loop of `project_cap_alert`. -/
def Projection.addInfo (o : Outside) (extractors : List BodyExtractorId)
    (referenceTime : Option DateTime) (s : Projection F) (info : CapInfo) :
    Option (Projection F) :=
  let (vtecCodes, vtecIssues) := projectVtec o info
  let (timeMotLoc, timeMotLocIssues) := projectTimeMotLoc (F := F) o info
  let (windHail, windHailIssues) := projectWindHail (F := F) info
  let projected : InfoProjection F :=
    { vtecCodes, timeMotLoc, windHail, expires := preferredExpiry o info }
  info.areasOrDefault.foldlM (Projection.addArea o extractors referenceTime projected)
    { s with issues := s.issues ++ vtecIssues ++ timeMotLocIssues ++ windHailIssues }

/-- Whether a body has a part. -/
def hasContent (generic : GenericBody F) : Bool :=
  generic.ugc.isSome || generic.latlon.isSome || generic.timeMotLoc.isSome ||
    generic.windHail.isSome

/-- The issue of what is left out beside the segments of a warning. -/
def mixedProjectionOmitted : ProductParseIssue :=
  issueOf "cap_parse" "cap_mixed_projection_omitted"
    ("CAP payload contained both VTEC and non-VTEC projected content; " ++
      "non-VTEC generic content was omitted to preserve the existing body contract").toList none

/-- The body and the issues behind the loops. -/
def Projection.finish (s : Projection F) : BodyExtractionOutcome F :=
  if s.vtecSegments.isEmpty then
    ⟨if hasContent s.generic then some (.generic s.generic) else none, s.issues⟩
  else
    ⟨some (.vtecEvent s.vtecSegments),
      s.issues ++ (if hasContent s.generic then [mixedProjectionOmitted] else []) ++
        s.vtecSegments.flatMap fun segment => VtecEvents.validateVtecSegment segment false⟩

/-- `project_cap_alert`. -/
def projectCapAlert (o : Outside) (alert : CapAlert) (extractors : List BodyExtractorId)
    (referenceTime : Option DateTime) : Option (BodyExtractionOutcome F) :=
  (alert.infos.foldlM (Projection.addInfo o extractors referenceTime) .empty).map Projection.finish

/-- `parse_cap_body_with_issues`. -/
def parseCapBodyWithIssues (o : Outside) (text : Str) (extractors : List BodyExtractorId)
    (referenceTime : Option DateTime) : Option (BodyExtractionOutcome F) := do
  match ← extractCapXml text with
  | none =>
      some ⟨none, [issueOf "cap_parse" "missing_cap_xml"
        "could not locate CAP XML payload in the body text".toList none]⟩
  | some xml =>
      match parseCapAlert o xml with
      | .error issue => some ⟨none, [issue]⟩
      | .ok alert => projectCapAlert o alert extractors referenceTime

end Parser.Cap
