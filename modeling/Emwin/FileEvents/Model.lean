/-
# Filters of completed files

`emwin-service` compiles the fields of a request into a filter of completed files, which is
made of filters for parts of a file.  `filter/shared.rs` and the parts for products, headers
and sizes are here; those for bodies are in `FileEvents.Bodies`, for places in
`FileEvents.Location`.

Floating-point numbers are those of any `FloatArith`, so nothing depends on rounding.
-/
import Emwin.Live.FileFilter

namespace FileEvents

open Parser Query Floats Live

/-! ## Requests -/

/-- `FileFilterInput`. -/
structure FileFilterInput (F : Type) where
  filename : Option Str := none
  source : Option Str := none
  pil : Option Str := none
  family : Option Str := none
  container : Option Str := none
  wmoPrefix : Option Str := none
  office : Option Str := none
  officeCity : Option Str := none
  officeState : Option Str := none
  bbbKind : Option Str := none
  cccc : Option Str := none
  ttaaii : Option Str := none
  afos : Option Str := none
  bbb : Option Str := none
  hasIssues : Option Str := none
  issueKind : Option Str := none
  issueCode : Option Str := none
  hasVtec : Option Str := none
  hasUgc : Option Str := none
  hasHvtec : Option Str := none
  hasLatlon : Option Str := none
  hasTimeMotLoc : Option Str := none
  hasWindHail : Option Str := none
  state : Option Str := none
  county : Option Str := none
  zone : Option Str := none
  fireZone : Option Str := none
  marineZone : Option Str := none
  vtecPhenomena : Option Str := none
  vtecSignificance : Option Str := none
  vtecAction : Option Str := none
  vtecOffice : Option Str := none
  etn : Option Str := none
  hvtecNwslid : Option Str := none
  hvtecSeverity : Option Str := none
  hvtecCause : Option Str := none
  hvtecRecord : Option Str := none
  windHailKind : Option Str := none
  lat : Option F := none
  lon : Option F := none
  distanceMiles : Option F := none
  minLat : Option F := none
  maxLat : Option F := none
  minLon : Option F := none
  maxLon : Option F := none
  minWindMph : Option F := none
  minHailInches : Option F := none
  minSize : Option ℕ := none
  maxSize : Option ℕ := none

/-! ## Files -/

/-- `ProductEnrichmentSource`. -/
inductive ProductEnrichmentSource where
  | textHeader
  | wmoBulletin
  | filenameNonText
  | unknown
  deriving DecidableEq, Repr

/-- `BbbKind`. -/
inductive BbbKind where
  | amendment
  | correction
  | delayedRepeat
  | other
  deriving DecidableEq, Repr

/-- What the filters read of an office. -/
structure WmoOfficeEntry where
  code : Str
  city : Str
  state : Str

/-- What the filters read of a WMO header. -/
structure WmoHeader where
  ttaaii : Str
  cccc : Str
  bbb : Option Str

/-- What the filters read of the header of a text product. -/
structure TextProductHeader extends WmoHeader where
  afos : Str

/-- What the filters read of a parsed product. -/
structure ProductEnrichment (F : Type) extends Parser.ProductEnrichment F where
  source : ProductEnrichmentSource
  family : Option Str
  container : Str
  pil : Option Str
  wmoPrefix : Option Str
  office : Option WmoOfficeEntry
  header : Option TextProductHeader
  wmoHeader : Option WmoHeader
  bbbKind : Option BbbKind

/-- What the filters read of a completed file. -/
structure CompletedFileMetadata (F : Type) where
  filename : Str
  size : ℕ
  product : ProductEnrichment F

/-! ## Texts, numbers and presence -/

/-- `csv_numbers`. -/
def csvNumbers (raw : Option Str) : Option (Finset ℕ) :=
  let values := (((raw.toList.flatMap (List.splitOn ',')).map Str.trim).filter
    fun value => value ≠ []).filterMap (Str.parseUnsigned (2 ^ 32 - 1))
  if values = [] then none else some values.toFinset

/-- `matches_serialized_option`. -/
def matchesSerializedOption {α : Type*} (allowed : Option (Finset Str)) (value : Option α)
    (serialize : α → Str) : Bool :=
  match allowed with
  | some allowed => (value.map serialize).any fun serialized => serialized ∈ allowed
  | none => true

/-- `matches_option_set`. -/
def matchesOptionSet (allowed : Option (Finset Str)) (value : Option Str)
    (normalize : Str → Str) : Bool :=
  match allowed with
  | some allowed => (value.map normalize).any fun normalized => normalized ∈ allowed
  | none => true

/-- `matches_number_set`. -/
def matchesNumberSet (allowed : Option (Finset ℕ)) (value : ℕ) : Bool :=
  match allowed with
  | some allowed => value ∈ allowed
  | none => true

/-- `matches_char_set`. -/
def matchesCharSet (allowed : Option (Finset Str)) (value : Char) : Bool :=
  match allowed with
  | some allowed => [value.toUpper] ∈ allowed
  | none => true

/-- `matches_optional_presence`. -/
def matchesOptionalPresence (expected : Option Bool) (valueCount : ℕ) : Bool :=
  match expected with
  | some expected => expected == decide (0 < valueCount)
  | none => true

/-! ## Sizes -/

/-- `SizeRange`. -/
structure SizeRange where
  min : Option ℕ
  max : Option ℕ

/-- `SizeRange::has_constraints`. -/
def SizeRange.hasConstraints (r : SizeRange) : Bool := r.min.isSome || r.max.isSome

/-- `SizeRange::matches`. -/
def SizeRange.accepts (r : SizeRange) (size : ℕ) : Bool :=
  if r.min.any fun min => size < min then false
  else if r.max.any fun max => max < size then false
  else true

/-! ## Products -/

/-- `product_source_name`. -/
def productSourceName : ProductEnrichmentSource → Str
  | .textHeader => "text_header".toList
  | .wmoBulletin => "wmo_bulletin".toList
  | .filenameNonText => "filename_non_text".toList
  | .unknown => "unknown".toList

/-- `bbb_kind_name`. -/
def bbbKindName : BbbKind → Str
  | .amendment => "amendment".toList
  | .correction => "correction".toList
  | .delayedRepeat => "delayed_repeat".toList
  | .other => "other".toList

/-- `ProductFilter`. -/
structure ProductFilter where
  source : Option (Finset Str)
  pil : Option (Finset Str)
  family : Option (Finset Str)
  container : Option (Finset Str)
  wmoPrefix : Option (Finset Str)
  office : Option (Finset Str)
  officeCity : Option (Finset Str)
  officeState : Option (Finset Str)
  bbbKind : Option (Finset Str)

/-- `ProductFilter::has_constraints`. -/
def ProductFilter.hasConstraints (f : ProductFilter) : Bool :=
  f.source.isSome || f.pil.isSome || f.family.isSome || f.container.isSome ||
    f.wmoPrefix.isSome || f.office.isSome || f.officeCity.isSome || f.officeState.isSome ||
    f.bbbKind.isSome

/-- `ProductFilter::matches`. -/
def ProductFilter.accepts {F : Type} (f : ProductFilter) (product : ProductEnrichment F) : Bool :=
  matchesSerializedOption f.source (some product.source) productSourceName &&
    matchesOptionSet f.pil product.pil normalizeUpper &&
    matchesOptionSet f.family product.family normalizeLower &&
    matchesOptionSet f.container (some product.container) normalizeLower &&
    matchesOptionSet f.wmoPrefix product.wmoPrefix normalizeUpper &&
    matchesOptionSet f.office (product.office.map (·.code)) normalizeUpper &&
    matchesOptionSet f.officeCity (product.office.map (·.city)) normalizeLower &&
    matchesOptionSet f.officeState (product.office.map (·.state)) normalizeUpper &&
    matchesSerializedOption f.bbbKind product.bbbKind bbbKindName

/-! ## Headers -/

/-- `HeaderFilter`. -/
structure HeaderFilter where
  cccc : Option (Finset Str)
  ttaaii : Option (Finset Str)
  afos : Option (Finset Str)
  bbb : Option (Finset Str)

/-- `HeaderFilter::has_constraints`. -/
def HeaderFilter.hasConstraints (f : HeaderFilter) : Bool :=
  f.cccc.isSome || f.ttaaii.isSome || f.afos.isSome || f.bbb.isSome

/-- `HeaderFilter::matches`. -/
def HeaderFilter.accepts {F : Type} (f : HeaderFilter) (product : ProductEnrichment F) : Bool :=
  if f.hasConstraints = false then true
  else
    let headerMatches := product.header.any fun header =>
      matchesOptionSet f.cccc (some header.cccc) normalizeUpper &&
        matchesOptionSet f.ttaaii (some header.ttaaii) normalizeUpper &&
        matchesOptionSet f.afos (some header.afos) normalizeUpper &&
        matchesOptionSet f.bbb header.bbb normalizeUpper
    let wmoHeaderMatches := product.wmoHeader.any fun header =>
      matchesOptionSet f.cccc (some header.cccc) normalizeUpper &&
        matchesOptionSet f.ttaaii (some header.ttaaii) normalizeUpper &&
        f.afos.isNone &&
        matchesOptionSet f.bbb header.bbb normalizeUpper
    headerMatches || wmoHeaderMatches

end FileEvents
