/-
# The criteria of a request

Each field of a request that holds a value names a property of files (`Named`).  The readers of
fields are lenient: what they cannot read they take for absent.  So a file that passes has the
property of a field exactly when the field can be read (`criterion_iff_readable`).
-/
import Emwin.FileEvents.Filter

namespace FileEvents

open Parser Query Floats Live

variable {F : Type}

/-! ## What a request says -/

/-- The elements of a list with commas that are not blank, without white space around them. -/
def elements (raw : Option Str) : List Str :=
  ((raw.toList.flatMap (List.splitOn ',')).map Str.trim).filter fun value => value ≠ []

/-- A value is listed. -/
def Listed (raw : Option Str) (normalize : Str → Str) (value : Str) : Prop :=
  ∃ element ∈ elements raw, normalize element = value

/-- A number is listed. -/
def ListedNumber (raw : Option Str) (number : ℕ) : Prop :=
  ∃ element ∈ elements raw, Str.parseUnsigned (2 ^ 32 - 1) element = some number

/-- The word of a boolean, in lower case. -/
def booleanWord (stated : Bool) : Str := if stated then "true".toList else "false".toList

/-- The digit of a boolean. -/
def booleanDigit (stated : Bool) : Char := if stated then '1' else '0'

/-- A text states a boolean, by its word in any case or by its digit. -/
def States (raw : Option Str) (stated : Bool) : Prop :=
  ∃ text, raw = some text ∧ (Str.toAsciiLowercase (Str.trim text) = booleanWord stated ∨
    Str.trim text = [booleanDigit stated])

/-- The fields of a request. -/
inductive Field where
  | filename
  | source
  | pil
  | family
  | container
  | wmoPrefix
  | office
  | officeCity
  | officeState
  | bbbKind
  | cccc
  | ttaaii
  | afos
  | bbb
  | hasIssues
  | issueKind
  | issueCode
  | hasVtec
  | hasUgc
  | hasHvtec
  | hasLatlon
  | hasTimeMotLoc
  | hasWindHail
  | state
  | county
  | zone
  | fireZone
  | marineZone
  | vtecPhenomena
  | vtecSignificance
  | vtecAction
  | vtecOffice
  | etn
  | hvtecNwslid
  | hvtecSeverity
  | hvtecCause
  | hvtecRecord
  | windHailKind
  | lat
  | lon
  | distanceMiles
  | minLat
  | maxLat
  | minLon
  | maxLon
  | minWindMph
  | minHailInches
  | minSize
  | maxSize
  deriving DecidableEq, Repr

/-- A field holds a value; a text does when an element of it is not blank. -/
def Holds (input : FileFilterInput F) : Field → Prop
  | .filename => elements input.filename ≠ []
  | .source => elements input.source ≠ []
  | .pil => elements input.pil ≠ []
  | .family => elements input.family ≠ []
  | .container => elements input.container ≠ []
  | .wmoPrefix => elements input.wmoPrefix ≠ []
  | .office => elements input.office ≠ []
  | .officeCity => elements input.officeCity ≠ []
  | .officeState => elements input.officeState ≠ []
  | .bbbKind => elements input.bbbKind ≠ []
  | .cccc => elements input.cccc ≠ []
  | .ttaaii => elements input.ttaaii ≠ []
  | .afos => elements input.afos ≠ []
  | .bbb => elements input.bbb ≠ []
  | .hasIssues => elements input.hasIssues ≠ []
  | .issueKind => elements input.issueKind ≠ []
  | .issueCode => elements input.issueCode ≠ []
  | .hasVtec => elements input.hasVtec ≠ []
  | .hasUgc => elements input.hasUgc ≠ []
  | .hasHvtec => elements input.hasHvtec ≠ []
  | .hasLatlon => elements input.hasLatlon ≠ []
  | .hasTimeMotLoc => elements input.hasTimeMotLoc ≠ []
  | .hasWindHail => elements input.hasWindHail ≠ []
  | .state => elements input.state ≠ []
  | .county => elements input.county ≠ []
  | .zone => elements input.zone ≠ []
  | .fireZone => elements input.fireZone ≠ []
  | .marineZone => elements input.marineZone ≠ []
  | .vtecPhenomena => elements input.vtecPhenomena ≠ []
  | .vtecSignificance => elements input.vtecSignificance ≠ []
  | .vtecAction => elements input.vtecAction ≠ []
  | .vtecOffice => elements input.vtecOffice ≠ []
  | .etn => elements input.etn ≠ []
  | .hvtecNwslid => elements input.hvtecNwslid ≠ []
  | .hvtecSeverity => elements input.hvtecSeverity ≠ []
  | .hvtecCause => elements input.hvtecCause ≠ []
  | .hvtecRecord => elements input.hvtecRecord ≠ []
  | .windHailKind => elements input.windHailKind ≠ []
  | .lat => input.lat.isSome
  | .lon => input.lon.isSome
  | .distanceMiles => input.distanceMiles.isSome
  | .minLat => input.minLat.isSome
  | .maxLat => input.maxLat.isSome
  | .minLon => input.minLon.isSome
  | .maxLon => input.maxLon.isSome
  | .minWindMph => input.minWindMph.isSome
  | .minHailInches => input.minHailInches.isSome
  | .minSize => input.minSize.isSome
  | .maxSize => input.maxSize.isSome

/-- A field can be read: one for presence states a boolean, one for event numbers lists a
number.  What is asked of the other fields is never unreadable. -/
def Readable (input : FileFilterInput F) : Field → Prop
  | .hasIssues => ∃ stated, States input.hasIssues stated
  | .hasVtec => ∃ stated, States input.hasVtec stated
  | .hasUgc => ∃ stated, States input.hasUgc stated
  | .hasHvtec => ∃ stated, States input.hasHvtec stated
  | .hasLatlon => ∃ stated, States input.hasLatlon stated
  | .hasTimeMotLoc => ∃ stated, States input.hasTimeMotLoc stated
  | .hasWindHail => ∃ stated, States input.hasWindHail stated
  | .etn => ∃ number, ListedNumber input.etn number
  | _ => True

/-! ## What a field names -/

/-- The headers of a product. -/
def ProductEnrichment.headers (product : ProductEnrichment F) : List WmoHeader :=
  product.header.toList.map (·.toWmoHeader) ++ product.wmoHeader.toList

/-- The VTEC codes of a product. -/
def ProductEnrichment.vtecCodes (product : ProductEnrichment F) : List VtecCode :=
  (product.body.map bodyVtecCodes).getD []

/-- The HVTEC codes of a product. -/
def ProductEnrichment.hvtecCodes (product : ProductEnrichment F) : List HvtecCode :=
  (product.body.map bodyHvtecCodes).getD []

/-- The polygons of a product. -/
def ProductEnrichment.polygons (product : ProductEnrichment F) : List (LatLon.LatLonPolygon F) :=
  (product.body.map bodyPolygons).getD []

/-- The paths of the tracks of a product. -/
def ProductEnrichment.paths (product : ProductEnrichment F) : List (List (F × F)) :=
  (product.body.map timeMotLocPaths).getD []

/-- A text states whether there are contents. -/
def StatesPresence {α : Type*} (raw : Option Str) (contents : List α) : Prop :=
  ∃ stated, States raw stated ∧ (stated = true ↔ contents ≠ [])

/-- An area of a product is listed. -/
def AreaListed (raw : Option Str) (product : ProductEnrichment F)
    (select : UgcSection → OrderedMap Str (List UgcArea)) (classCode : Char) : Prop :=
  ∃ s ∈ product.ugcSections, ∃ area ∈ areaNumbers (select s),
    Listed raw normalizeUpper (spell area.1 classCode area.2)

section Places

variable [FloatMath F]

/-- A product has a polygon around the point of a request, or a place near it. -/
def NearPoint (input : FileFilterInput F) (product : ProductEnrichment F) : Prop :=
  ∃ lat lon body, input.lat = some lat ∧ input.lon = some lon ∧ product.body = some body ∧
    ((∃ polygon ∈ iterPolygons body, (∃ bounds, polygon.bounds = some bounds ∧
        boundsContains bounds ⟨lat, lon⟩ = true) ∧
          pointInPolygon ⟨lat, lon⟩ polygon.points = true) ∨
      ∃ point ∈ iterLocationPoints body, ge (input.distanceMiles.getD DEFAULT_DISTANCE_MILES)
        (distanceMiles ⟨lat, lon⟩ point) = true)

/-- A product meets the box of a request. -/
def MeetsBox (input : FileFilterInput F) (product : ProductEnrichment F) : Prop :=
  ∃ minLat maxLat minLon maxLon body, input.minLat = some minLat ∧ input.maxLat = some maxLat ∧
    input.minLon = some minLon ∧ input.maxLon = some maxLon ∧ product.body = some body ∧
      matchesBbox body ⟨minLat, maxLat, minLon, maxLon⟩ = true

end Places

/-- The property of files that a field names. -/
def Named [FloatMath F] (input : FileFilterInput F) (metadata : CompletedFileMetadata F) :
    Field → Prop
  | .filename => ∃ pattern, input.filename = some pattern ∧
      Glob.Matches STAR (lowerBytes pattern) (lowerBytes metadata.filename)
  | .source => Listed input.source normalizeLower (productSourceName metadata.product.source)
  | .pil => ∃ pil, metadata.product.pil = some pil ∧
      Listed input.pil normalizeUpper (normalizeUpper pil)
  | .family => ∃ family, metadata.product.family = some family ∧
      Listed input.family normalizeLower (normalizeLower family)
  | .container =>
      Listed input.container normalizeLower (normalizeLower metadata.product.container)
  | .wmoPrefix => ∃ wmoPrefix, metadata.product.wmoPrefix = some wmoPrefix ∧
      Listed input.wmoPrefix normalizeUpper (normalizeUpper wmoPrefix)
  | .office => ∃ office, metadata.product.office = some office ∧
      Listed input.office normalizeUpper (normalizeUpper office.code)
  | .officeCity => ∃ office, metadata.product.office = some office ∧
      Listed input.officeCity normalizeLower (normalizeLower office.city)
  | .officeState => ∃ office, metadata.product.office = some office ∧
      Listed input.officeState normalizeUpper (normalizeUpper office.state)
  | .bbbKind => ∃ kind, metadata.product.bbbKind = some kind ∧
      Listed input.bbbKind normalizeLower (bbbKindName kind)
  | .cccc => ∃ header ∈ metadata.product.headers,
      Listed input.cccc normalizeUpper (normalizeUpper header.cccc)
  | .ttaaii => ∃ header ∈ metadata.product.headers,
      Listed input.ttaaii normalizeUpper (normalizeUpper header.ttaaii)
  | .afos => ∃ header, metadata.product.header = some header ∧
      Listed input.afos normalizeUpper (normalizeUpper header.afos)
  | .bbb => ∃ header ∈ metadata.product.headers, ∃ bbb, header.bbb = some bbb ∧
      Listed input.bbb normalizeUpper (normalizeUpper bbb)
  | .hasIssues => StatesPresence input.hasIssues metadata.product.issues
  | .issueKind => ∃ issue ∈ metadata.product.issues,
      Listed input.issueKind normalizeLower (normalizeLower issue.kind)
  | .issueCode => ∃ issue ∈ metadata.product.issues,
      Listed input.issueCode normalizeLower (normalizeLower issue.code)
  | .hasVtec => StatesPresence input.hasVtec metadata.product.vtecCodes
  | .hasUgc => StatesPresence input.hasUgc metadata.product.ugcSections
  | .hasHvtec => StatesPresence input.hasHvtec metadata.product.hvtecCodes
  | .hasLatlon => StatesPresence input.hasLatlon metadata.product.polygons
  | .hasTimeMotLoc => StatesPresence input.hasTimeMotLoc metadata.product.paths
  | .hasWindHail => StatesPresence input.hasWindHail metadata.product.windHailEntries
  | .state => ∃ s ∈ metadata.product.ugcSections, ∃ bucket, ∃ state ∈ (s.areas bucket).keys,
      Listed input.state normalizeUpper state
  | .county => AreaListed input.county metadata.product (·.counties) 'C'
  | .zone => AreaListed input.zone metadata.product (·.zones) 'Z'
  | .fireZone => AreaListed input.fireZone metadata.product (·.fireZones) 'F'
  | .marineZone => AreaListed input.marineZone metadata.product (·.marineZones) 'Z'
  | .vtecPhenomena => ∃ code ∈ metadata.product.vtecCodes,
      Listed input.vtecPhenomena normalizeUpper (normalizeUpper code.phenomena)
  | .vtecSignificance => ∃ code ∈ metadata.product.vtecCodes,
      Listed input.vtecSignificance normalizeUpper [code.significance.toUpper]
  | .vtecAction => ∃ code ∈ metadata.product.vtecCodes,
      Listed input.vtecAction normalizeUpper (normalizeUpper code.action)
  | .vtecOffice => ∃ code ∈ metadata.product.vtecCodes,
      Listed input.vtecOffice normalizeUpper (normalizeUpper code.office)
  | .etn => ∃ code ∈ metadata.product.vtecCodes, ListedNumber input.etn code.etn
  | .hvtecNwslid => ∃ code ∈ metadata.product.hvtecCodes,
      Listed input.hvtecNwslid normalizeUpper (normalizeUpper code.nwslid)
  | .hvtecSeverity => ∃ code ∈ metadata.product.hvtecCodes,
      Listed input.hvtecSeverity normalizeLower (hvtecSeverityName code.severity)
  | .hvtecCause => ∃ code ∈ metadata.product.hvtecCodes,
      Listed input.hvtecCause normalizeLower (hvtecCauseName code.cause)
  | .hvtecRecord => ∃ code ∈ metadata.product.hvtecCodes,
      Listed input.hvtecRecord normalizeLower (hvtecRecordName code.record)
  | .windHailKind => ∃ entry ∈ metadata.product.windHailEntries,
      Listed input.windHailKind normalizeLower (windHailKindName entry.kind).toList
  | .lat | .lon | .distanceMiles => NearPoint input metadata.product
  | .minLat | .maxLat | .minLon | .maxLon => MeetsBox input metadata.product
  | .minWindMph => ∃ minimum, input.minWindMph = some minimum ∧
      ∃ entry ∈ metadata.product.windHailEntries, isWindEntry entry = true ∧
        ∃ value units, entry.numericValue = some value ∧ entry.units = some units ∧
          ge (windSpeedMph value units) minimum = true
  | .minHailInches => ∃ minimum, input.minHailInches = some minimum ∧
      ∃ entry ∈ metadata.product.windHailEntries, isHailEntry entry = true ∧
        ∃ value, entry.numericValue = some value ∧ ge value minimum = true
  | .minSize => ∃ minimum, input.minSize = some minimum ∧ minimum ≤ metadata.size
  | .maxSize => ∃ maximum, input.maxSize = some maximum ∧ metadata.size ≤ maximum

/-! ## Readers -/

/-- A list with elements is read as the set of what it lists. -/
theorem csvValues_eq_some {raw : Option Str} (h : elements raw ≠ []) (normalize : Str → Str) :
    ∃ allowed, csvValues raw normalize = some allowed ∧
      ∀ value, value ∈ allowed ↔ Listed raw normalize value := by
  refine ⟨((elements raw).map normalize).toFinset, ?_, fun value => ?_⟩
  · exact if_neg fun hnil => h (List.map_eq_nil_iff.mp hnil)
  · rw [List.mem_toFinset, List.mem_map]
    rfl

/-- A list is read as the set of its numbers, and as absent if there are none. -/
theorem csvNumbers_eq (raw : Option Str) :
    (csvNumbers raw = none ∧ ∀ number, ¬ ListedNumber raw number) ∨
      ∃ allowed, csvNumbers raw = some allowed ∧ ∀ number, number ∈ allowed ↔
        ListedNumber raw number := by
  have hmem : ∀ number, number ∈ (elements raw).filterMap (Str.parseUnsigned (2 ^ 32 - 1)) ↔
      ListedNumber raw number := fun number => List.mem_filterMap
  by_cases hnil : (elements raw).filterMap (Str.parseUnsigned (2 ^ 32 - 1)) = []
  · refine Or.inl ⟨if_pos hnil, fun number hnumber => ?_⟩
    rw [← hmem, hnil] at hnumber
    cases hnumber
  · refine Or.inr ⟨_, if_neg hnil, fun number => ?_⟩
    exact List.mem_toFinset.trans (hmem number)

/-- The reader of booleans reads what is stated. -/
theorem parseOptionalBool_eq_some {raw : Option Str} {stated : Bool} :
    parseOptionalBool raw = some stated ↔ States raw stated := by
  cases raw with
  | none =>
      constructor
      · rintro ⟨⟩
      · rintro ⟨_, ⟨⟩, _⟩
  | some text =>
      have hstates : States (some text) stated ↔
          (Str.toAsciiLowercase (Str.trim text) = booleanWord stated ∨
            Str.trim text = [booleanDigit stated]) := by
        simp [States]
      rw [hstates]
      by_cases hblank : Str.trim text = []
      · rw [hblank]
        have hnone : parseOptionalBool (some text) = none := by
          simp [parseOptionalBool, hblank, Option.filter]
        rw [hnone]
        cases stated <;> decide
      · have hread : parseOptionalBool (some text) =
            if Str.toAsciiLowercase (Str.trim text) = booleanWord true ∨
              Str.trim text = [booleanDigit true] then some true
            else if Str.toAsciiLowercase (Str.trim text) = booleanWord false ∨
              Str.trim text = [booleanDigit false] then some false
            else none := by
          have hkept : ((some text).map Str.trim).filter (fun value => value ≠ []) =
              some (Str.trim text) := by
            rw [Option.map_some, Option.filter_some, if_pos (by simpa using hblank)]
          unfold parseOptionalBool
          rw [hkept]
          rfl
        rw [hread]
        generalize Str.trim text = value
        have htrue : ¬ ((Str.toAsciiLowercase value = booleanWord true ∨
              value = [booleanDigit true]) ∧
            (Str.toAsciiLowercase value = booleanWord false ∨ value = [booleanDigit false])) := by
          rintro ⟨h | rfl, h' | h'⟩
          · exact absurd (h.symm.trans h') (by decide)
          · subst h'
            exact absurd h (by decide)
          · exact absurd h' (by decide)
          · exact absurd h' (by decide)
        by_cases hyes : Str.toAsciiLowercase value = booleanWord true ∨
          value = [booleanDigit true]
        · rw [if_pos hyes]
          cases stated with
          | true => exact iff_of_true rfl hyes
          | false => exact iff_of_false (by decide) fun hno => htrue ⟨hyes, hno⟩
        · rw [if_neg hyes]
          split_ifs with hno
          · cases stated with
            | true => exact iff_of_false (by decide) hyes
            | false => exact iff_of_true rfl hno
          · cases stated with
            | true => exact iff_of_false (by decide) hyes
            | false => exact iff_of_false (by decide) hno

end FileEvents
