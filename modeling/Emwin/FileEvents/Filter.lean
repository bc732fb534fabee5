/-
# The filter of completed files

`filter/mod.rs` compiles a request into a filter for each part of a file.  A file passes when
every part does (`matchesMetadata_eq_true`).
-/
import Emwin.FileEvents.Location
import Emwin.Lib.Glob
import Emwin.Lib.Utf8

namespace FileEvents

open Parser Query Floats Live

variable {F : Type}

/-- `FileEventFilter`. -/
structure FileEventFilter (F : Type) where
  filenamePattern : Option Str
  size : SizeRange
  product : ProductFilter
  header : HeaderFilter
  issues : IssueFilter
  geo : GeoFilter
  vtec : VtecFilter
  hvtec : HvtecFilter
  windHail : WindHailFilter F
  location : LocationFilter F
  presence : BodyPresenceFilter

/-! ## From requests -/

/-- The size range of a request. -/
def readSize (input : FileFilterInput F) : SizeRange where
  min := input.minSize
  max := input.maxSize

/-- The filter for products of a request. -/
def readProduct (input : FileFilterInput F) : ProductFilter where
  source := csvValues input.source normalizeLower
  pil := csvValues input.pil normalizeUpper
  family := csvValues input.family normalizeLower
  container := csvValues input.container normalizeLower
  wmoPrefix := csvValues input.wmoPrefix normalizeUpper
  office := csvValues input.office normalizeUpper
  officeCity := csvValues input.officeCity normalizeLower
  officeState := csvValues input.officeState normalizeUpper
  bbbKind := csvValues input.bbbKind normalizeLower

/-- The filter for headers of a request. -/
def readHeader (input : FileFilterInput F) : HeaderFilter where
  cccc := csvValues input.cccc normalizeUpper
  ttaaii := csvValues input.ttaaii normalizeUpper
  afos := csvValues input.afos normalizeUpper
  bbb := csvValues input.bbb normalizeUpper

/-- The filter for issues of a request. -/
def readIssues (input : FileFilterInput F) : IssueFilter where
  hasIssues := parseOptionalBool input.hasIssues
  kinds := csvValues input.issueKind normalizeLower
  codes := csvValues input.issueCode normalizeLower

/-- The filter for areas of a request. -/
def readGeo (input : FileFilterInput F) : GeoFilter where
  states := csvValues input.state normalizeUpper
  counties := csvValues input.county normalizeUpper
  zones := csvValues input.zone normalizeUpper
  fireZones := csvValues input.fireZone normalizeUpper
  marineZones := csvValues input.marineZone normalizeUpper

/-- The filter for VTEC codes of a request. -/
def readVtec (input : FileFilterInput F) : VtecFilter where
  phenomena := csvValues input.vtecPhenomena normalizeUpper
  significance := csvValues input.vtecSignificance normalizeUpper
  action := csvValues input.vtecAction normalizeUpper
  office := csvValues input.vtecOffice normalizeUpper
  etn := csvNumbers input.etn

/-- The filter for HVTEC codes of a request. -/
def readHvtec (input : FileFilterInput F) : HvtecFilter where
  present := parseOptionalBool input.hasHvtec
  nwslid := csvValues input.hvtecNwslid normalizeUpper
  severity := csvValues input.hvtecSeverity normalizeLower
  cause := csvValues input.hvtecCause normalizeLower
  record := csvValues input.hvtecRecord normalizeLower

/-- The filter for tags of a request. -/
def readWindHail (input : FileFilterInput F) : WindHailFilter F where
  present := parseOptionalBool input.hasWindHail
  kinds := csvValues input.windHailKind normalizeLower
  minWindMph := input.minWindMph
  minHailInches := input.minHailInches

/-- The filter for presence of a request. -/
def readPresence (input : FileFilterInput F) : BodyPresenceFilter where
  hasVtec := parseOptionalBool input.hasVtec
  hasUgc := parseOptionalBool input.hasUgc
  hasHvtec := parseOptionalBool input.hasHvtec
  hasLatlon := parseOptionalBool input.hasLatlon
  hasTimeMotLoc := parseOptionalBool input.hasTimeMotLoc
  hasWindHail := parseOptionalBool input.hasWindHail

/-- `FileEventFilter::try_from_input`. -/
def FileEventFilter.tryFromInput [FloatArith F] (input : FileFilterInput F) :
    Except FileFilterInputError (FileEventFilter F) := do
  let location ← LocationFilter.tryFromInput input
  if input.minSize.any fun min => input.maxSize.any fun max => max < min then
    throw (.new "min_size must be less than or equal to max_size")
  return {
    filenamePattern := input.filename
    size := readSize input
    product := readProduct input
    header := readHeader input
    issues := readIssues input
    geo := readGeo input
    vtec := readVtec input
    hvtec := readHvtec input
    windHail := readWindHail input
    location := location
    presence := readPresence input }

/-! ## Matching -/

/-- The bytes of a text in lower case. -/
def lowerBytes (s : Str) : List UInt8 := Utf8.encode (Str.toAsciiLowercase s)

/-- The byte of a star. -/
def STAR : UInt8 := 42

/-- `wildcard_match`. -/
def wildcardMatch (pattern text : Str) : Bool :=
  Glob.fits STAR (lowerBytes pattern) (lowerBytes text)

/-- `FileEventFilter::has_constraints`. -/
def FileEventFilter.hasConstraints (f : FileEventFilter F) : Bool :=
  f.filenamePattern.isSome || f.size.hasConstraints || f.product.hasConstraints ||
    f.header.hasConstraints || f.issues.hasConstraints || f.geo.hasConstraints ||
    f.vtec.hasConstraints || f.hvtec.hasConstraints || f.windHail.hasConstraints ||
    f.location.hasConstraints || f.presence.hasConstraints

/-- `FileEventFilter::matches_metadata`. -/
def FileEventFilter.matchesMetadata [FloatMath F] (f : FileEventFilter F)
    (metadata : CompletedFileMetadata F) : Bool :=
  if f.filenamePattern.any fun pattern => !wildcardMatch pattern metadata.filename then false
  else if !f.size.accepts metadata.size then false
  else if !f.product.accepts metadata.product then false
  else if !f.header.accepts metadata.product then false
  else if !f.issues.accepts metadata.product.issues then false
  else if !f.location.accepts metadata.product.body then false
  else if !f.presence.accepts metadata.product.body then false
  else if !f.geo.accepts metadata.product.body then false
  else if !f.vtec.accepts metadata.product.body then false
  else if !f.hvtec.accepts metadata.product.body then false
  else f.windHail.accepts metadata.product.body

/-- What a file meets that passes a filter. -/
structure FileEventFilter.Accepts [FloatMath F] (f : FileEventFilter F)
    (metadata : CompletedFileMetadata F) : Prop where
  filename : ∀ pattern, f.filenamePattern = some pattern →
    wildcardMatch pattern metadata.filename = true
  size : f.size.accepts metadata.size = true
  product : f.product.accepts metadata.product = true
  header : f.header.accepts metadata.product = true
  issues : f.issues.accepts metadata.product.issues = true
  location : f.location.accepts metadata.product.body = true
  presence : f.presence.accepts metadata.product.body = true
  geo : f.geo.accepts metadata.product.body = true
  vtec : f.vtec.accepts metadata.product.body = true
  hvtec : f.hvtec.accepts metadata.product.body = true
  windHail : f.windHail.accepts metadata.product.body = true

/-- A test that ends in `false` when it fails. -/
theorem unless_eq_true {failed rest : Bool} :
    (if failed then false else rest) = true ↔ failed = false ∧ rest = true := by
  cases failed <;> simp

/-- **Parts.**  A file passes when every part does. -/
theorem matchesMetadata_eq_true [FloatMath F] {f : FileEventFilter F}
    {metadata : CompletedFileMetadata F} :
    f.matchesMetadata metadata = true ↔ f.Accepts metadata := by
  have hpattern : (f.filenamePattern.any fun pattern =>
      !wildcardMatch pattern metadata.filename) = false ↔
        ∀ pattern, f.filenamePattern = some pattern →
          wildcardMatch pattern metadata.filename = true := by
    cases f.filenamePattern <;> simp
  unfold FileEventFilter.matchesMetadata
  simp only [unless_eq_true, Bool.not_eq_false', hpattern]
  constructor
  · rintro ⟨h1, h2, h3, h4, h5, h6, h7, h8, h9, h10, h⟩
    exact ⟨h1, h2, h3, h4, h5, h6, h7, h8, h9, h10, h⟩
  · rintro ⟨h1, h2, h3, h4, h5, h6, h7, h8, h9, h10, h⟩
    exact ⟨h1, h2, h3, h4, h5, h6, h7, h8, h9, h10, h⟩

end FileEvents
