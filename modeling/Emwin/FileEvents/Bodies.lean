/-
# Filters of what is in a body

The filters for VTEC and HVTEC codes, for tags of wind and hail, and for the presence of each
kind of content.  A body that is absent has none of it.
-/
import Emwin.FileEvents.Model

namespace FileEvents

open Parser Query Floats Live

variable {F : Type}

/-! ## Contents -/

/-- `body_vtec_codes`. -/
def bodyVtecCodes : ProductBody F → List VtecCode
  | .vtecEvent segments => segments.flatMap (·.vtec)
  | .generic _ => []

/-- `body_hvtec_codes`. -/
def bodyHvtecCodes : ProductBody F → List HvtecCode
  | .vtecEvent segments => segments.flatMap (·.hvtec)
  | .generic _ => []

/-- `body_vtec_codes_len`. -/
def bodyVtecCodesLen : ProductBody F → ℕ
  | .vtecEvent segments => (segments.map (·.vtec.length)).sum
  | .generic _ => 0

/-- `body_ugc_sections_len`. -/
def bodyUgcSectionsLen : ProductBody F → ℕ
  | .vtecEvent segments => (segments.map (·.ugcSections.length)).sum
  | .generic body => body.ugc.elim 0 List.length

/-- `body_hvtec_codes_len`. -/
def bodyHvtecCodesLen : ProductBody F → ℕ
  | .vtecEvent segments => (segments.map (·.hvtec.length)).sum
  | .generic _ => 0

/-- `body_latlon_len`. -/
def bodyLatlonLen : ProductBody F → ℕ
  | .vtecEvent segments => (segments.map (·.polygons.length)).sum
  | .generic body => body.latlon.elim 0 List.length

/-- `body_time_mot_loc_len`. -/
def bodyTimeMotLocLen : ProductBody F → ℕ
  | .vtecEvent segments => (segments.map (·.timeMotLoc.length)).sum
  | .generic body => body.timeMotLoc.elim 0 List.length

/-- `body_wind_hail_len`. -/
def bodyWindHailLen : ProductBody F → ℕ
  | .vtecEvent segments => (segments.map (·.windHail.length)).sum
  | .generic body => body.windHail.elim 0 List.length

/-! ## Presence -/

/-- `BodyPresenceFilter`. -/
structure BodyPresenceFilter where
  hasVtec : Option Bool
  hasUgc : Option Bool
  hasHvtec : Option Bool
  hasLatlon : Option Bool
  hasTimeMotLoc : Option Bool
  hasWindHail : Option Bool

/-- `BodyPresenceFilter::has_constraints`. -/
def BodyPresenceFilter.hasConstraints (f : BodyPresenceFilter) : Bool :=
  f.hasVtec.isSome || f.hasUgc.isSome || f.hasHvtec.isSome || f.hasLatlon.isSome ||
    f.hasTimeMotLoc.isSome || f.hasWindHail.isSome

/-- `BodyPresenceFilter::matches`. -/
def BodyPresenceFilter.accepts (f : BodyPresenceFilter) (body : Option (ProductBody F)) : Bool :=
  matchesOptionalPresence f.hasVtec (body.elim 0 bodyVtecCodesLen) &&
    matchesOptionalPresence f.hasUgc (body.elim 0 bodyUgcSectionsLen) &&
    matchesOptionalPresence f.hasHvtec (body.elim 0 bodyHvtecCodesLen) &&
    matchesOptionalPresence f.hasLatlon (body.elim 0 bodyLatlonLen) &&
    matchesOptionalPresence f.hasTimeMotLoc (body.elim 0 bodyTimeMotLocLen) &&
    matchesOptionalPresence f.hasWindHail (body.elim 0 bodyWindHailLen)

/-! ## VTEC codes -/

/-- `VtecFilter`. -/
structure VtecFilter where
  phenomena : Option (Finset Str)
  significance : Option (Finset Str)
  action : Option (Finset Str)
  office : Option (Finset Str)
  etn : Option (Finset ℕ)

/-- `VtecFilter::has_constraints`. -/
def VtecFilter.hasConstraints (f : VtecFilter) : Bool :=
  f.phenomena.isSome || f.significance.isSome || f.action.isSome || f.office.isSome ||
    f.etn.isSome

/-- `VtecFilter::matches_code`. -/
def VtecFilter.matchesCode (f : VtecFilter) (code : VtecCode) : Bool :=
  matchesOptionSet f.phenomena (some code.phenomena) normalizeUpper &&
    matchesCharSet f.significance code.significance &&
    matchesOptionSet f.action (some code.action) normalizeUpper &&
    matchesOptionSet f.office (some code.office) normalizeUpper &&
    matchesNumberSet f.etn code.etn

/-- `VtecFilter::matches`. -/
def VtecFilter.accepts (f : VtecFilter) (body : Option (ProductBody F)) : Bool :=
  if f.hasConstraints = false then true
  else
    match body with
    | none => false
    | some body =>
        let vtecCodes := bodyVtecCodes body
        if vtecCodes = [] then false
        else vtecCodes.any f.matchesCode

/-! ## HVTEC codes -/

/-- `hvtec_severity_name`. -/
def hvtecSeverityName : HvtecSeverity → Str
  | .none => "none".toList
  | .minor => "minor".toList
  | .moderate => "moderate".toList
  | .major => "major".toList
  | .unknown => "unknown".toList

/-- `hvtec_cause_name`. -/
def hvtecCauseName : HvtecCause → Str
  | .excessiveRainfall => "excessive_rainfall".toList
  | .snowmelt => "snowmelt".toList
  | .rainAndSnowmelt => "rain_and_snowmelt".toList
  | .damFailure => "dam_failure".toList
  | .glacierOutburst => "glacier_outburst".toList
  | .iceJam => "ice_jam".toList
  | .rainSnowmeltIceJam => "rain_snowmelt_ice_jam".toList
  | .upstreamFloodingStormSurge => "upstream_flooding_storm_surge".toList
  | .upstreamFloodingTidalEffects => "upstream_flooding_tidal_effects".toList
  | .elevatedUpstreamFlowTidalEffects => "elevated_upstream_flow_tidal_effects".toList
  | .windTidalEffects => "wind_tidal_effects".toList
  | .upstreamDamRelease => "upstream_dam_release".toList
  | .multipleCauses => "multiple_causes".toList
  | .otherEffects => "other_effects".toList
  | .unknown => "unknown".toList
  | .other => "other".toList

/-- `hvtec_record_name`. -/
def hvtecRecordName : HvtecRecord → Str
  | .noRecord => "no_record".toList
  | .nearRecord => "near_record".toList
  | .notApplicable => "not_applicable".toList
  | .unavailable => "unavailable".toList
  | .unknown => "unknown".toList

/-- `HvtecFilter`. -/
structure HvtecFilter where
  present : Option Bool
  nwslid : Option (Finset Str)
  severity : Option (Finset Str)
  cause : Option (Finset Str)
  record : Option (Finset Str)

/-- `HvtecFilter::has_constraints`. -/
def HvtecFilter.hasConstraints (f : HvtecFilter) : Bool :=
  f.present.isSome || f.nwslid.isSome || f.severity.isSome || f.cause.isSome || f.record.isSome

/-- `HvtecFilter::matches_code`. -/
def HvtecFilter.matchesCode (f : HvtecFilter) (code : HvtecCode) : Bool :=
  matchesOptionSet f.nwslid (some code.nwslid) normalizeUpper &&
    matchesSerializedOption f.severity (some code.severity) hvtecSeverityName &&
    matchesSerializedOption f.cause (some code.cause) hvtecCauseName &&
    matchesSerializedOption f.record (some code.record) hvtecRecordName

/-- `HvtecFilter::matches`. -/
def HvtecFilter.accepts (f : HvtecFilter) (body : Option (ProductBody F)) : Bool :=
  if f.hasConstraints = false then true
  else
    let codes := (body.map bodyHvtecCodes).getD []
    if f.present.any fun present => present == codes.isEmpty then false
    else if f.nwslid.isNone && f.severity.isNone && f.cause.isNone && f.record.isNone then true
    else if codes = [] then false
    else codes.any f.matchesCode

/-! ## Wind and hail -/

variable [FloatArith F]

/-- `is_wind_entry`. -/
def isWindEntry (entry : WindHailEntry F) : Bool :=
  entry.kind = .legacyWind || entry.kind = .maxWindGust

/-- `is_hail_entry`. -/
def isHailEntry (entry : WindHailEntry F) : Bool :=
  entry.kind = .legacyHail || entry.kind = .maxHailSize

/-- `wind_speed_mph`. -/
def windSpeedMph (value : F) (units : Str) : F :=
  if normalizeUpper units = "KTS".toList ∨ normalizeUpper units = "KT".toList then
    value * FloatArith.ofLiteral (.finite false 115078 (-5))
  else value

/-- Whether an entry is a wind of at least some speed. -/
def meetsWind (minWindMph : F) (entry : WindHailEntry F) : Bool :=
  isWindEntry entry &&
    match entry.numericValue, entry.units with
    | some value, some units => ge (windSpeedMph value units) minWindMph
    | _, _ => false

/-- Whether an entry is hail of at least some size. -/
def meetsHail (minHailInches : F) (entry : WindHailEntry F) : Bool :=
  isHailEntry entry && entry.numericValue.any fun value => ge value minHailInches

/-- `WindHailFilter`. -/
structure WindHailFilter (F : Type) where
  present : Option Bool
  kinds : Option (Finset Str)
  minWindMph : Option F
  minHailInches : Option F

omit [FloatArith F] in
/-- `WindHailFilter::has_constraints`. -/
def WindHailFilter.hasConstraints (f : WindHailFilter F) : Bool :=
  f.present.isSome || f.kinds.isSome || f.minWindMph.isSome || f.minHailInches.isSome

/-- `WindHailFilter::matches`. -/
def WindHailFilter.accepts (f : WindHailFilter F) (body : Option (ProductBody F)) : Bool :=
  if f.hasConstraints = false then true
  else
    let entries := (body.map bodyWindHailEntries).getD []
    if f.present.any fun present => present == entries.isEmpty then false
    else if entries = [] then
      f.kinds.isNone && f.minWindMph.isNone && f.minHailInches.isNone
    else if f.kinds.any fun kinds =>
        !entries.any fun entry => (windHailKindName entry.kind).toList ∈ kinds then false
    else if f.minWindMph.any fun minimum => !entries.any (meetsWind minimum) then false
    else if f.minHailInches.any fun minimum => !entries.any (meetsHail minimum) then false
    else true

end FileEvents
