/-
# Archive queries

The requests that list products, issues, features and incidents, the cursors between their
pages, and the checks on the inputs.  A request is answered by one SQL query that is assembled
from the filters and the cursor.

Cursors travel as text; that they are decoded to what was encoded is part of a `Codec`.
-/
import Emwin.Incident.Model
import Emwin.Lib.SqlEval
import Emwin.Lib.Keyset

open Incident Sql

namespace Query

/-- A bound value. -/
inductive SqlValue where
  | int (n : ℤ)
  | text (s : Str)
  | bool (b : Bool)
  | float (x : Float)
  | time (t : Time)

/-- What a request can end with other than a page. -/
inductive QueryError where
  | invalidRequest (message : Str)
  | database
  | panicked (message : Str)
deriving DecidableEq, Repr

/-- A page of a list and the cursor of the next one. -/
abbrev PaginatedResponse (I : Type) := Keyset.Page I Str

/-- The encoding of a cursor as text. -/
structure Codec (C : Type) where
  encodeCursor : C → Str
  decodeCursor : Str → Except QueryError C
  decode_encode : ∀ c, decodeCursor (encodeCursor c) = .ok c

/-- The cursor of a request. -/
def Codec.decodeOptionalCursor {C : Type} (codec : Codec C) (cursor : Option Str) :
    Except QueryError (Option C) :=
  match cursor with
  | none => .ok none
  | some raw => (codec.decodeCursor raw).map some

theorem Codec.decodeOptionalCursor_encodeCursor {C : Type} (codec : Codec C) (c : C) :
    codec.decodeOptionalCursor (some (codec.encodeCursor c)) = .ok (some c) := by
  show (codec.decodeCursor _).map some = _
  rw [codec.decode_encode]
  rfl

/-- The page sizes are 1 to 500. -/
def normalizePageLimit (limit : ℕ) : ℕ := max 1 (min limit 500)

theorem normalizePageLimit_pos (limit : ℕ) : 0 < normalizePageLimit limit :=
  lt_of_lt_of_le Nat.one_pos (le_max_left _ _)

/-! ## Requests -/

/-- The cursor of the product list. -/
structure ProductCursor where
  sourceTimestampUtc : ℤ
  productId : ℤ
deriving DecidableEq, Repr

/-- The cursor of the product list of an incident. -/
structure IncidentProductsCursor where
  sourceTimestampUtc : ℤ
  productId : ℤ
deriving DecidableEq, Repr

/-- The cursor of the issue list. -/
structure ArchivedIssueCursor where
  sourceTimestampUtc : ℤ
  productId : ℤ
  issueId : ℤ
deriving DecidableEq, Repr

/-- The cursor of the incident list. -/
structure IncidentCursor where
  latestProductTimestampUtc : Time
  office : Str
  phenomena : Str
  significance : Str
  etn : ℤ
deriving DecidableEq, Repr

/-- The kinds of features. -/
inductive FeatureKind where
  | polygon
  | timeMotLocPath
  | ugcPoint
  | hvtecPoint
  | searchPoint
deriving DecidableEq, Repr

/-- The text of a kind. -/
def FeatureKind.asStr : FeatureKind → Str
  | .polygon => "polygon".toList
  | .timeMotLocPath => "time_mot_loc_path".toList
  | .ugcPoint => "ugc_point".toList
  | .hvtecPoint => "hvtec_point".toList
  | .searchPoint => "search_point".toList

/-- The rank of a kind. -/
def FeatureKind.ordinal : FeatureKind → ℤ
  | .polygon => 1
  | .timeMotLocPath => 2
  | .ugcPoint => 3
  | .hvtecPoint => 4
  | .searchPoint => 5

/-- The cursor of the feature list. -/
structure FeatureCursor where
  sourceTimestampUtc : ℤ
  productId : ℤ
  featureKind : FeatureKind
  featureRowId : ℤ
deriving DecidableEq, Repr

/-- A request for products. -/
structure ProductListQuery where
  filename : Option Str := none
  sourceReceiver : Option Str := none
  source : Option Str := none
  pil : Option Str := none
  family : Option Str := none
  artifactKind : Option Str := none
  container : Option Str := none
  wmoPrefix : Option Str := none
  office : Option Str := none
  officeCity : Option Str := none
  officeState : Option Str := none
  bbbKind : Option Str := none
  cccc : Option Str := none
  ttaaii : Option Str := none
  afos : Option Str := none
  bbb : Option Str := none
  hasIssues : Option Bool := none
  issueKind : Option Str := none
  issueCode : Option Str := none
  hasVtec : Option Bool := none
  hasUgc : Option Bool := none
  hasHvtec : Option Bool := none
  hasLatlon : Option Bool := none
  hasTimeMotLoc : Option Bool := none
  hasWindHail : Option Bool := none
  state : Option Str := none
  county : Option Str := none
  zone : Option Str := none
  fireZone : Option Str := none
  marineZone : Option Str := none
  vtecPhenomena : Option Str := none
  vtecSignificance : Option Str := none
  vtecAction : Option Str := none
  vtecOffice : Option Str := none
  etn : Option Str := none
  hvtecNwslid : Option Str := none
  hvtecSeverity : Option Str := none
  hvtecCause : Option Str := none
  hvtecRecord : Option Str := none
  windHailKind : Option Str := none
  lat : Option Float := none
  lon : Option Float := none
  distanceMiles : Option Float := none
  minLat : Option Float := none
  maxLat : Option Float := none
  minLon : Option Float := none
  maxLon : Option Float := none
  minWindMph : Option Float := none
  minHailInches : Option Float := none
  minSize : Option ℕ := none
  maxSize : Option ℕ := none
  sourceTimestampAfter : Option ℤ := none
  sourceTimestampBefore : Option ℤ := none
  ingestedAfter : Option Time := none
  ingestedBefore : Option Time := none
  limit : ℕ := 100
  cursor : Option Str := none

/-- A request for features. -/
structure FeatureListQuery where
  filters : ProductListQuery := {}
  kind : Option FeatureKind := none

/-- A request for issues. -/
structure ArchivedIssueListQuery where
  productId : Option ℤ := none
  kind : Option Str := none
  code : Option Str := none
  limit : ℕ := 100
  cursor : Option Str := none

/-- A request for incidents. -/
structure IncidentListQuery where
  office : Option Str := none
  phenomena : Option Str := none
  significance : Option Str := none
  etn : Option ℤ := none
  status : Option Str := none
  updatedAfter : Option Time := none
  updatedBefore : Option Time := none
  activeAt : Option Time := none
  limit : ℕ := 100
  cursor : Option Str := none

/-- A request for the products of an incident. -/
structure IncidentProductsQuery where
  limit : ℕ := 100
  cursor : Option Str := none

/-! ## Inputs -/

/-- Without white space around it, in upper case. -/
def normalizeUpper (value : Str) : Str := Str.toAsciiUppercase (Str.trim value)

/-- Without white space around it, in lower case. -/
def normalizeLower (value : Str) : Str := Str.toAsciiLowercase (Str.trim value)

/-- The values of a list with commas; `none` if there are none. -/
def splitCsvValues (rawValues : Option Str) (normalize : Str → Str) : Option (List Str) :=
  let values := (((rawValues.toList.flatMap (List.splitOn ',')).map Str.trim).filter
    fun value => value ≠ []).map normalize
  if values = [] then none else some values

/-- The integers among values of a list. -/
def parseEtns : List Str → Except QueryError (List ℤ)
  | [] => .ok []
  | raw :: rest =>
      let rawValue := Str.trim raw
      if rawValue = [] then parseEtns rest
      else
        match Str.parseI64 rawValue with
        | .error err => .error (.invalidRequest
            ("invalid etn value `".toList ++ rawValue ++ "`: ".toList ++ err))
        | .ok value => (parseEtns rest).map fun values => value :: values

/-- The integers of a list with commas; `none` if there are none. -/
def splitCsvI64 (rawValues : Option Str) : Except QueryError (Option (List ℤ)) :=
  (parseEtns (rawValues.toList.flatMap (List.splitOn ','))).map fun values =>
    if values = [] then none else some values

/-- An error about the request. -/
def invalid {α : Type} (message : String) : Except QueryError α :=
  .error (.invalidRequest message.toList)

/-- A number within bounds. -/
def validateRange (bound : Float) (message : String) (value : Float) : Except QueryError Unit :=
  if !value.isFinite || !(decide (-bound ≤ value) && decide (value ≤ bound)) then invalid message
  else .ok ()

/-- A latitude. -/
def validateLat (name : String) (value : Float) : Except QueryError Unit :=
  validateRange 90.0 (name ++ " must be a finite latitude between -90 and 90") value

/-- A longitude. -/
def validateLon (name : String) (value : Float) : Except QueryError Unit :=
  validateRange 180.0 (name ++ " must be a finite longitude between -180 and 180") value

/-- The sizes of a request. -/
def validateArchiveSizeInputs (minSize maxSize : Option ℕ) : Except QueryError Unit :=
  match minSize, maxSize with
  | some low, some high =>
      if high < low then invalid "min_size must be less than or equal to max_size" else .ok ()
  | _, _ => .ok ()

/-- The box of a request. -/
def validateBox (minLat maxLat minLon maxLon : Option Float) : Except QueryError Unit :=
  match minLat, maxLat, minLon, maxLon with
  | none, none, none, none => .ok ()
  | some minLat, some maxLat, some minLon, some maxLon => do
      validateLat "min_lat" minLat
      validateLat "max_lat" maxLat
      validateLon "min_lon" minLon
      validateLon "max_lon" maxLon
      if decide (minLat > maxLat) then invalid "min_lat must be less than or equal to max_lat"
      if decide (minLon > maxLon) then invalid "min_lon must be less than or equal to max_lon"
  | _, _, _, _ => invalid "min_lat, max_lat, min_lon, and max_lon must be provided together"

/-- The point of a request. -/
def validatePoint (lat lon : Option Float) : Except QueryError Unit :=
  match lat, lon with
  | none, none => .ok ()
  | some lat, some lon => do
      validateLat "lat" lat
      validateLon "lon" lon
  | _, _ => invalid "lat and lon must be provided together"

/-- The distance of a request. -/
def validateDistance (lat lon distanceMiles : Option Float) : Except QueryError Unit :=
  match distanceMiles with
  | none => .ok ()
  | some distanceMiles =>
      if lat.isNone || lon.isNone then invalid "distance_miles requires both lat and lon"
      else if !distanceMiles.isFinite || decide (distanceMiles < 0.0) then
        invalid "distance_miles must be a non-negative finite number"
      else .ok ()

/-- The checks on a request for products. -/
def ProductListQuery.validate (query : ProductListQuery) : Except QueryError Unit := do
  validateArchiveSizeInputs query.minSize query.maxSize
  validateBox query.minLat query.maxLat query.minLon query.maxLon
  validatePoint query.lat query.lon
  validateDistance query.lat query.lon query.distanceMiles

/-- The box of a request that passes the checks. -/
def validateBbox (query : ProductListQuery) :
    Except QueryError (Option (Float × Float × Float × Float)) := do
  query.validate
  match query.minLat, query.maxLat, query.minLon, query.maxLon with
  | none, none, none, none => .ok none
  | some minLat, some maxLat, some minLon, some maxLon =>
      .ok (some (minLat, maxLat, minLon, maxLon))
  | _, _, _, _ => .error (.panicked
      "validated product queries must provide complete bbox inputs".toList)

/-- The point of a request that passes the checks, and the distance in metres. -/
def validatePointDistance (query : ProductListQuery) :
    Except QueryError (Option (Float × Float × Float)) := do
  query.validate
  let distanceMiles := query.distanceMiles.getD 5.0
  match query.lat, query.lon with
  | some lat, some lon => .ok (some (lat, lon, distanceMiles * 1609.344))
  | none, none => .ok none
  | _, _ => .error (.panicked "validated product queries must provide lat/lon together".toList)

end Query
