/-
# Requests to the archive

The inputs that the adapters collect, and the requests for products, features and aggregates
that are built from them.  A request is checked when it is built; what is refused is an error
about the request.
-/
import Emwin.Query.Features
import Emwin.Lib.Chrono

open Sql Chrono Incident

namespace Query

/-! ## Inputs -/

/-- The filters as they are given; truth values are texts. -/
structure ArchiveFilterInput where
  filename : Option Str := none
  sourceReceiver : Option Str := none
  source : Option Str := none
  pil : Option Str := none
  family : Option Str := none
  artifactKind : Option Str := none
  container : Option Str := none
  wmoPrefix : Option Str := none
  office : Option Str := none
  officeCity : Option Str := none
  officeState : Option Str := none
  bbbKind : Option Str := none
  cccc : Option Str := none
  ttaaii : Option Str := none
  afos : Option Str := none
  bbb : Option Str := none
  hasIssues : Option Str := none
  issueKind : Option Str := none
  issueCode : Option Str := none
  hasVtec : Option Str := none
  hasUgc : Option Str := none
  hasHvtec : Option Str := none
  hasLatlon : Option Str := none
  hasTimeMotLoc : Option Str := none
  hasWindHail : Option Str := none
  state : Option Str := none
  county : Option Str := none
  zone : Option Str := none
  fireZone : Option Str := none
  marineZone : Option Str := none
  vtecPhenomena : Option Str := none
  vtecSignificance : Option Str := none
  vtecAction : Option Str := none
  vtecOffice : Option Str := none
  etn : Option Str := none
  hvtecNwslid : Option Str := none
  hvtecSeverity : Option Str := none
  hvtecCause : Option Str := none
  hvtecRecord : Option Str := none
  windHailKind : Option Str := none
  lat : Option Float := none
  lon : Option Float := none
  distanceMiles : Option Float := none
  minLat : Option Float := none
  maxLat : Option Float := none
  minLon : Option Float := none
  maxLon : Option Float := none
  minWindMph : Option Float := none
  minHailInches : Option Float := none
  minSize : Option ℕ := none
  maxSize : Option ℕ := none
  sourceTimestampAfter : Option ℤ := none
  sourceTimestampBefore : Option ℤ := none
  ingestedAfter : Option Time := none
  ingestedBefore : Option Time := none

/-- `parse_archive_bool`. -/
def parseArchiveBool (name : String) (raw : Option Str) : Except QueryError (Option Bool) :=
  match (raw.map Str.trim).filter fun value => value ≠ [] with
  | none => .ok none
  | some value =>
      if Str.eqIgnoreAsciiCase value "true".toList || value = ['1'] then .ok (some true)
      else if Str.eqIgnoreAsciiCase value "false".toList || value = ['0'] then .ok (some false)
      else .error (.invalidRequest
        ((name ++ " must be one of: true, false, 1, 0; got `").toList ++ value ++ ['`']))

/-- `into_product_list_query`. -/
def ArchiveFilterInput.intoProductListQuery (input : ArchiveFilterInput) (defaultLimit : ℕ)
    (limit : Option ℕ) (cursor : Option Str) : Except QueryError ProductListQuery := do
  let hasIssues ← parseArchiveBool "has_issues" input.hasIssues
  let hasVtec ← parseArchiveBool "has_vtec" input.hasVtec
  let hasUgc ← parseArchiveBool "has_ugc" input.hasUgc
  let hasHvtec ← parseArchiveBool "has_hvtec" input.hasHvtec
  let hasLatlon ← parseArchiveBool "has_latlon" input.hasLatlon
  let hasTimeMotLoc ← parseArchiveBool "has_time_mot_loc" input.hasTimeMotLoc
  let hasWindHail ← parseArchiveBool "has_wind_hail" input.hasWindHail
  let query : ProductListQuery :=
    { filename := input.filename
      sourceReceiver := input.sourceReceiver
      source := input.source
      pil := input.pil
      family := input.family
      artifactKind := input.artifactKind
      container := input.container
      wmoPrefix := input.wmoPrefix
      office := input.office
      officeCity := input.officeCity
      officeState := input.officeState
      bbbKind := input.bbbKind
      cccc := input.cccc
      ttaaii := input.ttaaii
      afos := input.afos
      bbb := input.bbb
      hasIssues := hasIssues
      issueKind := input.issueKind
      issueCode := input.issueCode
      hasVtec := hasVtec
      hasUgc := hasUgc
      hasHvtec := hasHvtec
      hasLatlon := hasLatlon
      hasTimeMotLoc := hasTimeMotLoc
      hasWindHail := hasWindHail
      state := input.state
      county := input.county
      zone := input.zone
      fireZone := input.fireZone
      marineZone := input.marineZone
      vtecPhenomena := input.vtecPhenomena
      vtecSignificance := input.vtecSignificance
      vtecAction := input.vtecAction
      vtecOffice := input.vtecOffice
      etn := input.etn
      hvtecNwslid := input.hvtecNwslid
      hvtecSeverity := input.hvtecSeverity
      hvtecCause := input.hvtecCause
      hvtecRecord := input.hvtecRecord
      windHailKind := input.windHailKind
      lat := input.lat
      lon := input.lon
      distanceMiles := input.distanceMiles
      minLat := input.minLat
      maxLat := input.maxLat
      minLon := input.minLon
      maxLon := input.maxLon
      minWindMph := input.minWindMph
      minHailInches := input.minHailInches
      minSize := input.minSize
      maxSize := input.maxSize
      sourceTimestampAfter := input.sourceTimestampAfter
      sourceTimestampBefore := input.sourceTimestampBefore
      ingestedAfter := input.ingestedAfter
      ingestedBefore := input.ingestedBefore
      limit := limit.getD defaultLimit
      cursor := cursor }
  query.validate
  .ok query

/-! ## Names -/

/-- The value that a text names. -/
def parseNamed {T : Type} (values : List T) (asStr : T → Str) (what : String) (value : Str) :
    Except QueryError T :=
  match values.find? fun named => asStr named = Str.trim value with
  | some named => .ok named
  | none => .error (.invalidRequest (("invalid " ++ what ++ " `").toList ++ value ++ ['`']))

/-- `parse_required_enum_arg`: an error names the argument. -/
def parseRequiredEnumArg {T : Type} (fromStr : Str → Except QueryError T) (name : String)
    (raw : Str) : Except QueryError T :=
  (fromStr (Str.trim raw)).mapError fun error =>
    match error with
    | .invalidRequest message => .invalidRequest (("invalid " ++ name ++ ": ").toList ++ message)
    | other => other

/-- `parse_optional_enum_arg`: an empty argument is none. -/
def parseOptionalEnumArg {T : Type} (fromStr : Str → Except QueryError T) (name : String)
    (raw : Option Str) : Except QueryError (Option T) :=
  match (raw.map Str.trim).filter fun value => value ≠ [] with
  | none => .ok none
  | some value => (parseRequiredEnumArg fromStr name value).map some

/-- What products are counted by. -/
inductive FacetDimension where
  | office
  | family
  | artifactKind
  | phenomena
  | significance
  | status
  | issueKind
  | issueCode
  deriving DecidableEq, Repr

/-- The text of a dimension. -/
def FacetDimension.asStr : FacetDimension → Str
  | .office => "office".toList
  | .family => "family".toList
  | .artifactKind => "artifact_kind".toList
  | .phenomena => "phenomena".toList
  | .significance => "significance".toList
  | .status => "status".toList
  | .issueKind => "issue_kind".toList
  | .issueCode => "issue_code".toList

/-- The dimension that a text names. -/
def FacetDimension.fromStr (value : Str) : Except QueryError FacetDimension :=
  parseNamed [.office, .family, .artifactKind, .phenomena, .significance, .status, .issueKind,
    .issueCode] asStr "facet dimension" value

/-- What is counted in the buckets of a timeseries. -/
inductive TimeseriesMeasure where
  | productCount
  | issueCount
  | incidentCount
  deriving DecidableEq, Repr

/-- The text of a measure. -/
def TimeseriesMeasure.asStr : TimeseriesMeasure → Str
  | .productCount => "product_count".toList
  | .issueCount => "issue_count".toList
  | .incidentCount => "incident_count".toList

/-- The measure that a text names. -/
def TimeseriesMeasure.fromStr (value : Str) : Except QueryError TimeseriesMeasure :=
  parseNamed [.productCount, .issueCount, .incidentCount] asStr "timeseries measure" value

/-- How long the buckets of a timeseries are. -/
inductive TimeseriesBucket where
  | hour
  | day
  | week
  deriving DecidableEq, Repr

/-- The text of a length. -/
def TimeseriesBucket.asStr : TimeseriesBucket → Str
  | .hour => "hour".toList
  | .day => "day".toList
  | .week => "week".toList

/-- The length as a duration. -/
def TimeseriesBucket.duration : TimeseriesBucket → ℤ
  | .hour => HOUR
  | .day => DAY
  | .week => 7 * DAY

/-- The length as an interval of the database. -/
def TimeseriesBucket.postgresInterval : TimeseriesBucket → String
  | .hour => "1 hour"
  | .day => "1 day"
  | .week => "7 days"

/-- The length that a text names. -/
def TimeseriesBucket.fromStr (value : Str) : Except QueryError TimeseriesBucket :=
  parseNamed [.hour, .day, .week] asStr "timeseries bucket" value

/-- What is counted in cells. -/
inductive CellMeasure where
  | productCount
  deriving DecidableEq, Repr

/-- The text of a measure. -/
def CellMeasure.asStr : CellMeasure → Str
  | .productCount => "product_count".toList

/-- The measure that a text names. -/
def CellMeasure.fromStr (value : Str) : Except QueryError CellMeasure :=
  parseNamed [.productCount] asStr "cell measure" value

/-! ## Requests -/

/-- A request for the numbers of products by a dimension. -/
structure FacetAggregateQuery where
  filters : ProductListQuery
  dimension : FacetDimension
  limit : ℕ

/-- A request for numbers over time. -/
structure TimeseriesAggregateQuery where
  filters : ProductListQuery
  measure : TimeseriesMeasure
  start : DateTime
  /-- `end`. -/
  stop : DateTime
  bucket : TimeseriesBucket

/-- A request for the numbers of products by place. -/
structure CellAggregateQuery where
  filters : ProductListQuery
  measure : CellMeasure
  precision : ℕ
  limit : ℕ

/-- `validate_required_bbox_for_cells`. -/
def validateRequiredBboxForCells (filters : ProductListQuery) : Except QueryError Unit :=
  match filters.minLat, filters.maxLat, filters.minLon, filters.maxLon with
  | some _, some _, some _, some _ => .ok ()
  | _, _, _, _ => invalid "cell aggregates require min_lat, max_lat, min_lon, and max_lon"

/-- The checks on a request for the numbers of products by place. -/
def CellAggregateQuery.validate (query : CellAggregateQuery) : Except QueryError Unit := do
  query.filters.validate
  validateRequiredBboxForCells query.filters
  if 1 ≤ query.precision ∧ query.precision ≤ 6 then .ok ()
  else invalid "cell aggregate precision must be between 1 and 6"

/-- `build_feature_list_query`. -/
def buildFeatureListQuery (filters : ArchiveFilterInput) (kind : Option Str) (defaultLimit : ℕ)
    (limit : Option ℕ) (cursor : Option Str) : Except QueryError FeatureListQuery := do
  let products ← filters.intoProductListQuery defaultLimit limit cursor
  let featureKind ← parseOptionalEnumArg FeatureKind.fromStr "feature kind" kind
  products.validate
  .ok ⟨products, featureKind⟩

/-- `build_facet_aggregate_query`. -/
def buildFacetAggregateQuery (filters : ArchiveFilterInput) (dimension : Str) (limit : Option ℕ) :
    Except QueryError FacetAggregateQuery := do
  let products ← filters.intoProductListQuery 100 (some 100) none
  let facet ← parseRequiredEnumArg FacetDimension.fromStr "facet dimension" dimension
  products.validate
  .ok ⟨products, facet, limit.getD 20⟩

/-- `build_timeseries_aggregate_query`. -/
def buildTimeseriesAggregateQuery (filters : ArchiveFilterInput) (measure : Str)
    (start stop : DateTime) (bucket : Str) : Except QueryError TimeseriesAggregateQuery := do
  let products ← filters.intoProductListQuery 100 (some 100) none
  let counted ← parseRequiredEnumArg TimeseriesMeasure.fromStr "timeseries measure" measure
  let length ← parseRequiredEnumArg TimeseriesBucket.fromStr "timeseries bucket" bucket
  products.validate
  .ok ⟨products, counted, start, stop, length⟩

/-- `build_cell_aggregate_query`. -/
def buildCellAggregateQuery (filters : ArchiveFilterInput) (measure : Str) (precision : ℕ)
    (limit : Option ℕ) : Except QueryError CellAggregateQuery := do
  let products ← filters.intoProductListQuery 100 (some 100) none
  let counted ← parseRequiredEnumArg CellMeasure.fromStr "cell measure" measure
  let query : CellAggregateQuery := ⟨products, counted, precision, limit.getD 100⟩
  query.validate
  .ok query

end Query
