/-
# Which criteria are kept

A filter for a part of a file tests each of the part's fields that can be read.  For each part
there is a lemma that says which properties a file has that passes; they are put together in
`FileEvents.UnreadableCriteria`.
-/
import Emwin.FileEvents.Criteria

namespace FileEvents

open Parser Query Floats Live

variable {F : Type}

/-! ## Texts and presence -/

theorem csvValues_isSome {raw : Option Str} (h : elements raw ≠ []) (normalize : Str → Str) :
    (csvValues raw normalize).isSome = true := by
  obtain ⟨allowed, hread, -⟩ := csvValues_eq_some h normalize
  rw [hread]
  rfl

/-- A value that passes the set of a list is listed. -/
theorem listed_of_matchesSerializedOption {α : Type*} {raw : Option Str} {normalize : Str → Str}
    {value : Option α} {serialize : α → Str} (hholds : elements raw ≠ [])
    (h : matchesSerializedOption (csvValues raw normalize) value serialize = true) :
    ∃ v, value = some v ∧ Listed raw normalize (serialize v) := by
  obtain ⟨allowed, hread, hmem⟩ := csvValues_eq_some hholds normalize
  rw [hread] at h
  cases value with
  | none => cases h
  | some v => exact ⟨v, rfl, (hmem _).mp (of_decide_eq_true h)⟩

/-- As for values with a name. -/
theorem listed_of_matchesOptionSet {raw : Option Str} {normalize normalize' : Str → Str}
    {value : Option Str} (hholds : elements raw ≠ [])
    (h : matchesOptionSet (csvValues raw normalize) value normalize' = true) :
    ∃ v, value = some v ∧ Listed raw normalize (normalize' v) :=
  listed_of_matchesSerializedOption hholds h

/-- As for a value that is there. -/
theorem listed_of_matchesOptionSet_some {raw : Option Str} {normalize normalize' : Str → Str}
    {value : Str} (hholds : elements raw ≠ [])
    (h : matchesOptionSet (csvValues raw normalize) (some value) normalize' = true) :
    Listed raw normalize (normalize' value) := by
  obtain ⟨_, ⟨⟩, hlisted⟩ := listed_of_matchesOptionSet hholds h
  exact hlisted

/-- A test for presence that passes is for what is stated, if anything is. -/
theorem statesPresence_iff {α : Type*} {raw : Option Str} {contents : List α}
    (h : matchesOptionalPresence (parseOptionalBool raw) contents.length = true) :
    StatesPresence raw contents ↔ ∃ stated, States raw stated := by
  constructor
  · rintro ⟨stated, hstated, -⟩
    exact ⟨stated, hstated⟩
  · rintro ⟨stated, hstated⟩
    refine ⟨stated, hstated, ?_⟩
    rw [parseOptionalBool_eq_some.mpr hstated] at h
    have heq : stated = decide (0 < contents.length) := eq_of_beq h
    rw [heq, decide_eq_true_eq, List.length_pos_iff]

/-! ## Parts -/

/-- The parts of a filter. -/
inductive Part where
  | filename
  | size
  | product
  | header
  | issues
  | presence
  | geo
  | vtec
  | hvtec
  | windHail
  | location

/-- The part that tests a field. -/
def Field.part : Field → Part
  | .filename => .filename
  | .source | .pil | .family | .container | .wmoPrefix | .office | .officeCity | .officeState
  | .bbbKind => .product
  | .cccc | .ttaaii | .afos | .bbb => .header
  | .hasIssues | .issueKind | .issueCode => .issues
  | .hasVtec | .hasUgc | .hasHvtec | .hasLatlon | .hasTimeMotLoc | .hasWindHail => .presence
  | .state | .county | .zone | .fireZone | .marineZone => .geo
  | .vtecPhenomena | .vtecSignificance | .vtecAction | .vtecOffice | .etn => .vtec
  | .hvtecNwslid | .hvtecSeverity | .hvtecCause | .hvtecRecord => .hvtec
  | .windHailKind | .minWindMph | .minHailInches => .windHail
  | .lat | .lon | .distanceMiles | .minLat | .maxLat | .minLon | .maxLon => .location
  | .minSize | .maxSize => .size

/-- The parts with readers that take what they cannot read for absent. -/
def Part.lenient : Part → Bool
  | .issues | .presence | .vtec => true
  | _ => false

variable [FloatMath F] {input : FileFilterInput F} {metadata : CompletedFileMetadata F}
  {field : Field}

/-- Products. -/
theorem named_of_product (hpart : field.part = .product) (hholds : Holds input field)
    (h : (readProduct input).accepts metadata.product = true) : Named input metadata field := by
  unfold ProductFilter.accepts readProduct at h
  simp only [Bool.and_eq_true] at h
  obtain ⟨⟨⟨⟨⟨⟨⟨⟨hsource, hpil⟩, hfamily⟩, hcontainer⟩, hwmoPrefix⟩, hoffice⟩, hofficeCity⟩,
    hofficeState⟩, hbbbKind⟩ := h
  have hofficeField : ∀ {raw : Option Str} {normalize : Str → Str} {select : WmoOfficeEntry → Str},
      elements raw ≠ [] → matchesOptionSet (csvValues raw normalize)
        (metadata.product.office.map select) normalize = true →
      ∃ office, metadata.product.office = some office ∧
        Listed raw normalize (normalize (select office)) := by
    intro raw normalize select hholds h
    obtain ⟨_, hsome, hlisted⟩ := listed_of_matchesOptionSet hholds h
    obtain ⟨office, hoffice, rfl⟩ := Option.map_eq_some_iff.mp hsome
    exact ⟨office, hoffice, hlisted⟩
  cases field <;> cases hpart
  case source =>
    obtain ⟨_, ⟨⟩, hlisted⟩ := listed_of_matchesSerializedOption hholds hsource
    exact hlisted
  case pil => exact listed_of_matchesOptionSet hholds hpil
  case family => exact listed_of_matchesOptionSet hholds hfamily
  case container => exact listed_of_matchesOptionSet_some hholds hcontainer
  case wmoPrefix => exact listed_of_matchesOptionSet hholds hwmoPrefix
  case office => exact hofficeField hholds hoffice
  case officeCity => exact hofficeField hholds hofficeCity
  case officeState => exact hofficeField hholds hofficeState
  case bbbKind => exact listed_of_matchesSerializedOption hholds hbbbKind

omit [FloatMath F] in
/-- A header of the product passes all tests of headers. -/
theorem HeaderFilter.exists_header {f : HeaderFilter} {product : ProductEnrichment F}
    (hconstraints : f.hasConstraints = true) (h : f.accepts product = true) :
    ∃ header ∈ product.headers, matchesOptionSet f.cccc (some header.cccc) normalizeUpper = true ∧
      matchesOptionSet f.ttaaii (some header.ttaaii) normalizeUpper = true ∧
      matchesOptionSet f.bbb header.bbb normalizeUpper = true ∧
      (f.afos = none ∨ ∃ text, product.header = some text ∧
        matchesOptionSet f.afos (some text.afos) normalizeUpper = true) := by
  rw [HeaderFilter.accepts, if_neg (by rw [hconstraints]; decide)] at h
  rcases Bool.or_eq_true _ _ ▸ h with h | h
  · obtain ⟨header, hheader, h⟩ := (Option.any_eq_true _ _).mp h
    simp only [Bool.and_eq_true] at h
    obtain ⟨⟨⟨hcccc, httaaii⟩, hafos⟩, hbbb⟩ := h
    refine ⟨header.toWmoHeader, ?_, hcccc, httaaii, hbbb, Or.inr ⟨header, hheader, hafos⟩⟩
    rw [ProductEnrichment.headers, hheader]
    exact List.mem_cons_self
  · obtain ⟨header, hheader, h⟩ := (Option.any_eq_true _ _).mp h
    simp only [Bool.and_eq_true] at h
    obtain ⟨⟨⟨hcccc, httaaii⟩, hafos⟩, hbbb⟩ := h
    refine ⟨header, ?_, hcccc, httaaii, hbbb, Or.inl (Option.isNone_iff_eq_none.mp hafos)⟩
    rw [ProductEnrichment.headers, hheader]
    exact List.mem_append_right _ List.mem_cons_self

/-- Headers. -/
theorem named_of_header (hpart : field.part = .header) (hholds : Holds input field)
    (h : (readHeader input).accepts metadata.product = true) : Named input metadata field := by
  have hconstraints : (readHeader input).hasConstraints = true := by
    unfold HeaderFilter.hasConstraints readHeader
    cases field <;> cases hpart <;> simp [csvValues_isSome hholds]
  obtain ⟨header, hheader, hcccc, httaaii, hbbb, hafos⟩ := HeaderFilter.exists_header hconstraints h
  cases field <;> cases hpart
  case cccc => exact ⟨header, hheader, listed_of_matchesOptionSet_some hholds hcccc⟩
  case ttaaii => exact ⟨header, hheader, listed_of_matchesOptionSet_some hholds httaaii⟩
  case bbb => exact ⟨header, hheader, listed_of_matchesOptionSet hholds hbbb⟩
  case afos =>
    have hsome : (csvValues input.afos normalizeUpper).isSome = true := csvValues_isSome hholds _
    rcases hafos with hafos | ⟨text, htext, hafos⟩
    · rw [show csvValues input.afos normalizeUpper = none from hafos] at hsome
      cases hsome
    · exact ⟨text, htext, listed_of_matchesOptionSet_some hholds hafos⟩

/-- Issues. -/
theorem named_iff_of_issues (hpart : field.part = .issues) (hholds : Holds input field)
    (h : (readIssues input).accepts metadata.product.issues = true) :
    Named input metadata field ↔ Readable input field := by
  unfold IssueFilter.accepts readIssues at h
  simp only [Bool.and_eq_true] at h
  obtain ⟨⟨hpresent, hkinds⟩, hcodes⟩ := h
  have hissue : ∀ {raw : Option Str} {select : ProductParseIssue → Str}, elements raw ≠ [] →
      ((csvValues raw normalizeLower).all fun allowed => metadata.product.issues.any fun issue =>
        normalizeLower (select issue) ∈ allowed) = true →
      ∃ issue ∈ metadata.product.issues,
        Listed raw normalizeLower (normalizeLower (select issue)) := by
    intro raw select hholds h
    obtain ⟨allowed, hread, hmem⟩ := csvValues_eq_some hholds normalizeLower
    rw [hread, Option.all_some, List.any_eq_true] at h
    obtain ⟨issue, hissue, hallowed⟩ := h
    exact ⟨issue, hissue, (hmem _).mp (of_decide_eq_true hallowed)⟩
  cases field <;> cases hpart
  case hasIssues =>
    refine statesPresence_iff ?_
    cases hread : parseOptionalBool input.hasIssues with
    | none => rfl
    | some present =>
        rw [hread, Option.all_some] at hpresent
        rw [matchesOptionalPresence]
        cases hissues : metadata.product.issues <;> cases present <;> simp_all
  case issueKind => exact iff_of_true (hissue hholds hkinds) trivial
  case issueCode => exact iff_of_true (hissue hholds hcodes) trivial

/-- Contents of bodies. -/
theorem named_iff_of_presence (hpart : field.part = .presence)
    (h : (readPresence input).accepts metadata.product.body = true) :
    Named input metadata field ↔ Readable input field := by
  unfold BodyPresenceFilter.accepts readPresence at h
  simp only [Bool.and_eq_true] at h
  obtain ⟨⟨⟨⟨⟨hvtec, hugc⟩, hhvtec⟩, hlatlon⟩, htimeMotLoc⟩, hwindHail⟩ := h
  have hlength : ∀ {α : Type} {raw : Option Str} {count : ProductBody F → ℕ}
      {contents : ProductBody F → List α}, (∀ body, count body = (contents body).length) →
      matchesOptionalPresence (parseOptionalBool raw) (metadata.product.body.elim 0 count) = true →
      (StatesPresence raw ((metadata.product.body.map contents).getD []) ↔
        ∃ stated, States raw stated) := by
    intro α raw count contents hcount h
    refine statesPresence_iff ?_
    cases hbody : metadata.product.body with
    | none => rwa [hbody] at h
    | some body =>
        rw [hbody, Option.elim_some, hcount] at h
        exact h
  cases field <;> cases hpart
  case hasVtec =>
    refine hlength (fun body => ?_) hvtec
    cases body <;> simp [bodyVtecCodesLen, bodyVtecCodes, List.length_flatMap]
  case hasUgc =>
    refine hlength (fun body => ?_) hugc
    cases body with
    | vtecEvent => simp [bodyUgcSectionsLen, bodyUgcSections, List.length_flatMap]
    | generic body =>
        cases hugc : body.ugc <;> simp [bodyUgcSectionsLen, bodyUgcSections, hugc]
  case hasHvtec =>
    refine hlength (fun body => ?_) hhvtec
    cases body <;> simp [bodyHvtecCodesLen, bodyHvtecCodes, List.length_flatMap]
  case hasLatlon =>
    refine hlength (fun body => ?_) hlatlon
    cases body with
    | vtecEvent => simp [bodyLatlonLen, bodyPolygons, List.length_flatMap]
    | generic body => cases hlatlon : body.latlon <;> simp [bodyLatlonLen, bodyPolygons, hlatlon]
  case hasTimeMotLoc =>
    refine hlength (fun body => ?_) htimeMotLoc
    cases body with
    | vtecEvent => simp [bodyTimeMotLocLen, timeMotLocPaths, List.length_flatMap]
    | generic body =>
        cases hentries : body.timeMotLoc <;> simp [bodyTimeMotLocLen, timeMotLocPaths, hentries]
  case hasWindHail =>
    refine hlength (fun body => ?_) hwindHail
    cases body with
    | vtecEvent => simp [bodyWindHailLen, bodyWindHailEntries, List.length_flatMap]
    | generic body =>
        cases hentries : body.windHail <;> simp [bodyWindHailLen, bodyWindHailEntries, hentries]

omit [FloatMath F] in
/-- The sections of the product pass all tests of areas. -/
theorem geo_of_accepts {f : GeoFilter} {product : ProductEnrichment F}
    (hconstraints : f.hasConstraints = true) (h : f.accepts product.body = true) :
    matchesGeoStates f.states product.ugcSections = true ∧
      matchesEnrichedUgcCodes f.counties product.ugcSections (·.counties) 'C' = true ∧
      matchesEnrichedUgcCodes f.zones product.ugcSections (·.zones) 'Z' = true ∧
      matchesEnrichedUgcCodes f.fireZones product.ugcSections (·.fireZones) 'F' = true ∧
      matchesEnrichedUgcCodes f.marineZones product.ugcSections (·.marineZones) 'Z' = true := by
  unfold GeoFilter.accepts at h
  rw [if_neg (by rw [hconstraints]; decide)] at h
  cases hbody : product.body with
  | none => rw [hbody] at h; cases h
  | some body =>
      rw [hbody] at h
      dsimp only at h
      split_ifs at h
      rw [Parser.ProductEnrichment.ugcSections, hbody]
      simp only [Bool.and_eq_true, and_assoc] at h
      exact h

/-- Areas. -/
theorem named_of_geo (hpart : field.part = .geo) (hholds : Holds input field)
    (h : (readGeo input).accepts metadata.product.body = true) : Named input metadata field := by
  have hconstraints : (readGeo input).hasConstraints = true := by
    unfold GeoFilter.hasConstraints readGeo
    cases field <;> cases hpart <;> simp [csvValues_isSome hholds]
  obtain ⟨hstates, hcounties, hzones, hfireZones, hmarineZones⟩ := geo_of_accepts hconstraints h
  have harea : ∀ {raw : Option Str} {select : UgcSection → OrderedMap Str (List UgcArea)}
      {classCode : Char}, elements raw ≠ [] → matchesEnrichedUgcCodes
        (csvValues raw normalizeUpper) metadata.product.ugcSections select classCode = true →
      AreaListed raw metadata.product select classCode := by
    intro raw select classCode hholds h
    obtain ⟨allowed, hread, hmem⟩ := csvValues_eq_some hholds normalizeUpper
    rw [hread, matchesEnrichedUgcCodes_some] at h
    obtain ⟨s, hs, area, harea, hallowed⟩ := h
    exact ⟨s, hs, area, harea, (hmem _).mp hallowed⟩
  cases field <;> cases hpart
  case state =>
    obtain ⟨allowed, hread, hmem⟩ := csvValues_eq_some hholds normalizeUpper
    rw [show (readGeo input).states = some allowed from hread, matchesGeoStates] at hstates
    simp only [List.any_eq_true, Bool.or_eq_true, decide_eq_true_eq] at hstates
    obtain ⟨s, hs, h⟩ := hstates
    refine ⟨s, hs, ?_⟩
    rcases h with ((⟨state, hkey, h⟩ | ⟨state, hkey, h⟩) | ⟨state, hkey, h⟩) | ⟨state, hkey, h⟩
    · exact ⟨.counties, state, hkey, (hmem _).mp h⟩
    · exact ⟨.zones, state, hkey, (hmem _).mp h⟩
    · exact ⟨.fireZones, state, hkey, (hmem _).mp h⟩
    · exact ⟨.marineZones, state, hkey, (hmem _).mp h⟩
  case county => exact harea hholds hcounties
  case zone => exact harea hholds hzones
  case fireZone => exact harea hholds hfireZones
  case marineZone => exact harea hholds hmarineZones

omit [FloatMath F] in
/-- A VTEC code of the product passes all tests of codes. -/
theorem VtecFilter.exists_code {f : VtecFilter} {product : ProductEnrichment F}
    (hconstraints : f.hasConstraints = true) (h : f.accepts product.body = true) :
    ∃ code ∈ product.vtecCodes, f.matchesCode code = true := by
  unfold VtecFilter.accepts at h
  rw [if_neg (by rw [hconstraints]; decide)] at h
  cases hbody : product.body with
  | none => rw [hbody] at h; cases h
  | some body =>
      rw [hbody] at h
      dsimp only at h
      split_ifs at h
      rw [ProductEnrichment.vtecCodes, hbody]
      exact List.any_eq_true.mp h

/-- VTEC codes. -/
theorem named_iff_of_vtec (hpart : field.part = .vtec) (hholds : Holds input field)
    (h : (readVtec input).accepts metadata.product.body = true) :
    Named input metadata field ↔ Readable input field := by
  have hcode : (readVtec input).hasConstraints = true → ∃ code ∈ metadata.product.vtecCodes,
      matchesOptionSet (readVtec input).phenomena (some code.phenomena) normalizeUpper = true ∧
      matchesCharSet (readVtec input).significance code.significance = true ∧
      matchesOptionSet (readVtec input).action (some code.action) normalizeUpper = true ∧
      matchesOptionSet (readVtec input).office (some code.office) normalizeUpper = true ∧
      matchesNumberSet (readVtec input).etn code.etn = true := by
    intro hconstraints
    obtain ⟨code, hcode, hmatches⟩ := VtecFilter.exists_code hconstraints h
    simp only [VtecFilter.matchesCode, Bool.and_eq_true, and_assoc] at hmatches
    exact ⟨code, hcode, hmatches⟩
  have hsome : ∀ {raw : Option Str}, elements raw ≠ [] →
      (csvValues raw normalizeUpper).isSome = true := fun hholds => csvValues_isSome hholds _
  cases field <;> cases hpart
  case vtecPhenomena =>
    obtain ⟨code, hmem, h, -⟩ := hcode (by simp [VtecFilter.hasConstraints, readVtec, hsome hholds])
    exact iff_of_true ⟨code, hmem, listed_of_matchesOptionSet_some hholds h⟩ trivial
  case vtecSignificance =>
    obtain ⟨code, hmem, -, h, -⟩ :=
      hcode (by simp [VtecFilter.hasConstraints, readVtec, hsome hholds])
    obtain ⟨allowed, hread, hlisted⟩ := csvValues_eq_some hholds normalizeUpper
    rw [show (readVtec input).significance = some allowed from hread] at h
    exact iff_of_true ⟨code, hmem, (hlisted _).mp (of_decide_eq_true h)⟩ trivial
  case vtecAction =>
    obtain ⟨code, hmem, -, -, h, -⟩ :=
      hcode (by simp [VtecFilter.hasConstraints, readVtec, hsome hholds])
    exact iff_of_true ⟨code, hmem, listed_of_matchesOptionSet_some hholds h⟩ trivial
  case vtecOffice =>
    obtain ⟨code, hmem, -, -, -, h, -⟩ :=
      hcode (by simp [VtecFilter.hasConstraints, readVtec, hsome hholds])
    exact iff_of_true ⟨code, hmem, listed_of_matchesOptionSet_some hholds h⟩ trivial
  case etn =>
    rcases csvNumbers_eq input.etn with ⟨-, hnone⟩ | ⟨allowed, hread, hlisted⟩
    · -- nothing is listed, so there is nothing to be equal to
      refine iff_of_false ?_ ?_
      · rintro ⟨code, -, hnumber⟩
        exact hnone _ hnumber
      · rintro ⟨number, hnumber⟩
        exact hnone _ hnumber
    · obtain ⟨code, hmem, -, -, -, -, h⟩ :=
        hcode (by simp [VtecFilter.hasConstraints, readVtec, hread])
      rw [show (readVtec input).etn = some allowed from hread] at h
      have hnumber : ListedNumber input.etn code.etn := (hlisted _).mp (of_decide_eq_true h)
      exact iff_of_true ⟨code, hmem, hnumber⟩ ⟨_, hnumber⟩

omit [FloatMath F] in
/-- As for HVTEC codes, if there is a test of codes. -/
theorem HvtecFilter.exists_code {f : HvtecFilter} {product : ProductEnrichment F}
    (hconstraints : f.hasConstraints = true)
    (hcodes : (f.nwslid.isNone && f.severity.isNone && f.cause.isNone && f.record.isNone) = false)
    (h : f.accepts product.body = true) :
    ∃ code ∈ product.hvtecCodes, f.matchesCode code = true := by
  unfold HvtecFilter.accepts at h
  rw [if_neg (by rw [hconstraints]; decide)] at h
  dsimp only at h
  rw [hcodes, if_neg Bool.false_ne_true] at h
  split_ifs at h
  exact List.any_eq_true.mp h

/-- HVTEC codes. -/
theorem named_of_hvtec (hpart : field.part = .hvtec) (hholds : Holds input field)
    (h : (readHvtec input).accepts metadata.product.body = true) : Named input metadata field := by
  have hsome : ∀ {raw : Option Str} {normalize : Str → Str}, elements raw ≠ [] →
      (csvValues raw normalize).isSome = true := fun hholds => csvValues_isSome hholds _
  have hconstraints : (readHvtec input).hasConstraints = true := by
    unfold HvtecFilter.hasConstraints readHvtec
    cases field <;> cases hpart <;> simp [hsome hholds]
  have hcodes : ((readHvtec input).nwslid.isNone && (readHvtec input).severity.isNone &&
      (readHvtec input).cause.isNone && (readHvtec input).record.isNone) = false := by
    have hnone : ∀ {raw : Option Str} {normalize : Str → Str}, elements raw ≠ [] →
        (csvValues raw normalize).isNone = false := by
      intro raw normalize hholds
      rw [← Option.not_isSome, hsome hholds, Bool.not_true]
    unfold readHvtec
    cases field <;> cases hpart <;> simp [hnone hholds]
  obtain ⟨code, hcode, hmatches⟩ := HvtecFilter.exists_code hconstraints hcodes h
  simp only [HvtecFilter.matchesCode, Bool.and_eq_true] at hmatches
  obtain ⟨⟨⟨hnwslid, hseverity⟩, hcause⟩, hrecord⟩ := hmatches
  cases field <;> cases hpart
  case hvtecNwslid => exact ⟨code, hcode, listed_of_matchesOptionSet_some hholds hnwslid⟩
  case hvtecSeverity =>
    obtain ⟨_, ⟨⟩, hlisted⟩ := listed_of_matchesSerializedOption hholds hseverity
    exact ⟨code, hcode, hlisted⟩
  case hvtecCause =>
    obtain ⟨_, ⟨⟩, hlisted⟩ := listed_of_matchesSerializedOption hholds hcause
    exact ⟨code, hcode, hlisted⟩
  case hvtecRecord =>
    obtain ⟨_, ⟨⟩, hlisted⟩ := listed_of_matchesSerializedOption hholds hrecord
    exact ⟨code, hcode, hlisted⟩

/-- Entries of the product pass all tests of tags. -/
theorem WindHailFilter.exists_entries {f : WindHailFilter F} {product : ProductEnrichment F}
    (h : f.accepts product.body = true) :
    (∀ kinds, f.kinds = some kinds → ∃ entry ∈ product.windHailEntries,
      (windHailKindName entry.kind).toList ∈ kinds) ∧
    (∀ minimum, f.minWindMph = some minimum → ∃ entry ∈ product.windHailEntries,
      meetsWind minimum entry = true) ∧
    ∀ minimum, f.minHailInches = some minimum → ∃ entry ∈ product.windHailEntries,
      meetsHail minimum entry = true := by
  unfold WindHailFilter.accepts at h
  dsimp only at h
  rw [show (product.body.map bodyWindHailEntries).getD [] = product.windHailEntries from rfl] at h
  split_ifs at h with hconstraints hpresent hempty hkinds hwind hhail
  · -- nothing is tested
    simp only [WindHailFilter.hasConstraints, Bool.or_eq_false_iff] at hconstraints
    obtain ⟨⟨⟨-, hkinds⟩, hwind⟩, hhail⟩ := hconstraints
    refine ⟨?_, ?_, ?_⟩
    · rintro kinds hsome
      rw [hsome] at hkinds
      cases hkinds
    · rintro minimum hsome
      rw [hsome] at hwind
      cases hwind
    · rintro minimum hsome
      rw [hsome] at hhail
      cases hhail
  · -- there are no entries, so nothing may be asked of them
    simp only [Bool.and_eq_true, Option.isNone_iff_eq_none] at h
    obtain ⟨⟨hkinds, hwind⟩, hhail⟩ := h
    simp [hkinds, hwind, hhail]
  · refine ⟨?_, ?_, ?_⟩
    · rintro kinds hsome
      simpa [hsome] using hkinds
    · rintro minimum hsome
      simpa [hsome] using hwind
    · rintro minimum hsome
      simpa [hsome] using hhail

/-- Tags of wind and hail. -/
theorem named_of_windHail (hpart : field.part = .windHail) (hholds : Holds input field)
    (h : (readWindHail input).accepts metadata.product.body = true) :
    Named input metadata field := by
  obtain ⟨hkinds, hwind, hhail⟩ := WindHailFilter.exists_entries h
  cases field <;> cases hpart
  case windHailKind =>
    obtain ⟨allowed, hread, hmem⟩ := csvValues_eq_some hholds normalizeLower
    obtain ⟨entry, hentry, hallowed⟩ := hkinds allowed hread
    exact ⟨entry, hentry, (hmem _).mp hallowed⟩
  case minWindMph =>
    obtain ⟨minimum, hminimum⟩ := Option.isSome_iff_exists.mp hholds
    obtain ⟨entry, hentry, hmeets⟩ := hwind minimum hminimum
    obtain ⟨hkind, hspeed⟩ := Bool.and_eq_true_iff.mp hmeets
    refine ⟨minimum, hminimum, entry, hentry, hkind, ?_⟩
    split at hspeed
    · next value units hvalue hunits => exact ⟨value, units, hvalue, hunits, hspeed⟩
    · cases hspeed
  case minHailInches =>
    obtain ⟨minimum, hminimum⟩ := Option.isSome_iff_exists.mp hholds
    obtain ⟨entry, hentry, hmeets⟩ := hhail minimum hminimum
    obtain ⟨hkind, hsize⟩ := Bool.and_eq_true_iff.mp hmeets
    exact ⟨minimum, hminimum, entry, hentry, hkind, (Option.any_eq_true _ _).mp hsize⟩

/-! ## Places -/

omit [FloatMath F] in
/-- A point is read of both its coordinates. -/
theorem readCenter_eq_ok [FloatArith F] {lat lon : Option F} {center : Option (GeoPoint F)}
    (h : readCenter lat lon = .ok center) :
    (lat = none ∧ lon = none ∧ center = none) ∨
      ∃ x y, lat = some x ∧ lon = some y ∧ center = some ⟨x, y⟩ := by
  unfold readCenter at h
  cases lat with
  | none =>
      cases lon with
      | none => exact Or.inl ⟨rfl, rfl, (Except.ok.inj h).symm⟩
      | some y => cases h
  | some x =>
      cases lon with
      | none => cases h
      | some y =>
          refine Or.inr ⟨x, y, rfl, rfl, ?_⟩
          rw [if_neg (by simp)] at h
          dsimp only at h
          unfold validateLat validateLon at h
          split_ifs at h
          all_goals cases h
          rfl

omit [FloatMath F] in
/-- A distance is read for a point only. -/
theorem readDistance_eq_ok [FloatArith F] {distance : Option F} {center : Option (GeoPoint F)}
    {result : Option F} (h : readDistance distance center = .ok result) :
    (distance.isSome = true → center.isSome = true) ∧
      (center.isSome = true → result = some (distance.getD DEFAULT_DISTANCE_MILES)) := by
  unfold readDistance at h
  cases distance with
  | none =>
      refine ⟨by rintro ⟨⟩, fun hcenter => ?_⟩
      rw [← Except.ok.inj h, if_pos hcenter]
      rfl
  | some distance =>
      dsimp only at h
      split_ifs at h with hnone
      refine ⟨fun _ => ?_, fun _ => (Except.ok.inj h).symm⟩
      rw [← Option.not_isNone, Bool.not_eq_true', ← Bool.not_eq_true]
      exact hnone

omit [FloatMath F] in
/-- A box is read of all its bounds. -/
theorem readBbox_eq_ok [FloatArith F] {minLat maxLat minLon maxLon : Option F}
    {bbox : Option (LocationBoundingBox F)} (h : readBbox minLat maxLat minLon maxLon = .ok bbox) :
    (minLat = none ∧ maxLat = none ∧ minLon = none ∧ maxLon = none ∧ bbox = none) ∨
      ∃ a b c d, minLat = some a ∧ maxLat = some b ∧ minLon = some c ∧ maxLon = some d ∧
        bbox = some ⟨a, b, c, d⟩ := by
  unfold readBbox at h
  split at h
  · exact Or.inl ⟨rfl, rfl, rfl, rfl, (Except.ok.inj h).symm⟩
  · next a b c d =>
      refine Or.inr ⟨a, b, c, d, rfl, rfl, rfl, rfl, ?_⟩
      unfold validateLat validateLon at h
      split_ifs at h
      all_goals cases h
      rfl
  · cases h

omit [FloatMath F] in
/-- What the filter for places is compiled of. -/
theorem LocationFilter.tryFromInput_eq_ok [FloatArith F] {f : LocationFilter F}
    (h : LocationFilter.tryFromInput input = .ok f) :
    readCenter input.lat input.lon = .ok f.center ∧
      readDistance input.distanceMiles f.center = .ok f.distanceMiles ∧
      readBbox input.minLat input.maxLat input.minLon input.maxLon = .ok f.bbox := by
  unfold LocationFilter.tryFromInput at h
  cases hcenter : readCenter input.lat input.lon with
  | error e => rw [hcenter] at h; cases h
  | ok center =>
      rw [hcenter] at h
      change (readDistance input.distanceMiles center >>= _) = _ at h
      cases hdistance : readDistance input.distanceMiles center with
      | error e => rw [hdistance] at h; cases h
      | ok distance =>
          rw [hdistance] at h
          change (readBbox input.minLat input.maxLat input.minLon input.maxLon >>= _) = _ at h
          cases hbbox : readBbox input.minLat input.maxLat input.minLon input.maxLon with
          | error e => rw [hbbox] at h; cases h
          | ok bbox =>
              rw [hbbox] at h
              obtain rfl := Except.ok.inj h
              exact ⟨rfl, hdistance, rfl⟩

/-- A file that passes is near the point, and meets the box. -/
theorem LocationFilter.near_of_accepts {f : LocationFilter F} {body : Option (ProductBody F)}
    (h : f.accepts body = true) :
    (∀ bbox, f.bbox = some bbox → ∃ b, body = some b ∧ matchesBbox b bbox = true) ∧
      ∀ center, f.center = some center → ∃ b, body = some b ∧
        ((∃ polygon ∈ iterPolygons b, (∃ bounds, polygon.bounds = some bounds ∧
            boundsContains bounds center = true) ∧ pointInPolygon center polygon.points = true) ∨
          ∃ radius, f.distanceMiles = some radius ∧ ∃ point ∈ iterLocationPoints b,
            ge radius (FileEvents.distanceMiles center point) = true) := by
  unfold LocationFilter.accepts at h
  split_ifs at h with hconstraints
  · simp only [LocationFilter.hasConstraints, Bool.or_eq_false_iff] at hconstraints
    obtain ⟨hcenter, hbbox⟩ := hconstraints
    refine ⟨?_, ?_⟩
    · rintro bbox hsome
      rw [hsome] at hbbox
      cases hbbox
    · rintro center hsome
      rw [hsome] at hcenter
      cases hcenter
  · cases body with
    | none => cases h
    | some b =>
        dsimp only at h
        split_ifs at h with hbbox
        refine ⟨fun bbox hsome => ⟨b, rfl, by simpa [hsome] using hbbox⟩, ?_⟩
        rintro center hsome
        rw [hsome] at h
        dsimp only at h
        refine ⟨b, rfl, ?_⟩
        split_ifs at h with hpolygon
        · left
          obtain ⟨polygon, hmem, hinside⟩ := List.any_eq_true.mp hpolygon
          obtain ⟨hbounds, hinside⟩ := Bool.and_eq_true_iff.mp hinside
          exact ⟨polygon, hmem, (Option.any_eq_true _ _).mp hbounds, hinside⟩
        · right
          split at h
          · cases h
          · next radius hradius => exact ⟨radius, hradius, List.any_eq_true.mp h⟩

/-- Places. -/
theorem named_of_location (hpart : field.part = .location) (hholds : Holds input field)
    {f : LocationFilter F} (hread : LocationFilter.tryFromInput input = .ok f)
    (h : f.accepts metadata.product.body = true) : Named input metadata field := by
  obtain ⟨hcenter, hdistance, hbbox⟩ := LocationFilter.tryFromInput_eq_ok hread
  obtain ⟨hbox, hnear⟩ := LocationFilter.near_of_accepts h
  obtain ⟨hasked, hradius⟩ := readDistance_eq_ok hdistance
  -- a field of the point stands for the whole point, a field of the box for the whole box
  have hpoint : f.center.isSome = true → NearPoint input metadata.product := by
    intro hsome
    rcases readCenter_eq_ok hcenter with ⟨-, -, hnone⟩ | ⟨lat, lon, hlat, hlon, heq⟩
    · rw [hnone] at hsome
      cases hsome
    · obtain ⟨body, hbody, hplace⟩ := hnear _ heq
      refine ⟨lat, lon, body, hlat, hlon, hbody, hplace.imp_right ?_⟩
      rintro ⟨radius, hsome', hpoint⟩
      rw [hradius hsome, Option.some.injEq] at hsome'
      rwa [hsome']
  have hbounds : input.minLat.isSome = true ∨ input.maxLat.isSome = true ∨
      input.minLon.isSome = true ∨ input.maxLon.isSome = true →
        MeetsBox input metadata.product := by
    intro hsome
    rcases readBbox_eq_ok hbbox with ⟨h1, h2, h3, h4, -⟩ | ⟨a, b, c, d, h1, h2, h3, h4, heq⟩
    · rw [h1, h2, h3, h4] at hsome
      simp at hsome
    · obtain ⟨body, hbody, hmeets⟩ := hbox _ heq
      exact ⟨a, b, c, d, body, h1, h2, h3, h4, hbody, hmeets⟩
  have hcoordinate : input.lat.isSome = true ∨ input.lon.isSome = true →
      f.center.isSome = true := by
    intro hsome
    rcases readCenter_eq_ok hcenter with ⟨hlat, hlon, -⟩ | ⟨lat, lon, -, -, heq⟩
    · rw [hlat, hlon] at hsome
      simp at hsome
    · rw [heq]
      rfl
  cases field <;> cases hpart
  case lat => exact hpoint (hcoordinate (Or.inl hholds))
  case lon => exact hpoint (hcoordinate (Or.inr hholds))
  case distanceMiles => exact hpoint (hasked hholds)
  case minLat => exact hbounds (Or.inl hholds)
  case maxLat => exact hbounds (Or.inr (Or.inl hholds))
  case minLon => exact hbounds (Or.inr (Or.inr (Or.inl hholds)))
  case maxLon => exact hbounds (Or.inr (Or.inr (Or.inr hholds)))

/-! ## Whole filters -/

omit [FloatMath F] in
/-- What the filter of a request is compiled of. -/
theorem FileEventFilter.tryFromInput_eq_ok [FloatArith F] {f : FileEventFilter F}
    (h : FileEventFilter.tryFromInput input = .ok f) :
    LocationFilter.tryFromInput input = .ok f.location ∧
      f = { filenamePattern := input.filename
            size := readSize input
            product := readProduct input
            header := readHeader input
            issues := readIssues input
            geo := readGeo input
            vtec := readVtec input
            hvtec := readHvtec input
            windHail := readWindHail input
            location := f.location
            presence := readPresence input } := by
  unfold FileEventFilter.tryFromInput at h
  cases hlocation : LocationFilter.tryFromInput input with
  | error e => rw [hlocation] at h; cases h
  | ok location =>
      rw [hlocation] at h
      change (if _ then _ else _) = _ at h
      split_ifs at h
      · cases h
      · obtain rfl := Except.ok.inj h
        exact ⟨rfl, rfl⟩

omit [FloatMath F] in
/-- A field of another part is never unreadable. -/
theorem readable_of_part {part : Part} (hpart : field.part = part)
    (hlenient : part.lenient = false) :
    Readable input field := by
  subst hpart
  cases field <;> trivial

/-- File names. -/
theorem named_of_filename (hpart : field.part = .filename) (hholds : Holds input field)
    (h : ∀ pattern, input.filename = some pattern →
      wildcardMatch pattern metadata.filename = true) : Named input metadata field := by
  cases field <;> cases hpart
  case filename =>
    cases hpattern : input.filename with
    | none =>
        rw [Holds, hpattern] at hholds
        exact absurd rfl hholds
    | some pattern =>
        exact ⟨pattern, hpattern, Glob.matches_of_fits (h pattern hpattern)⟩

/-- A size that passes is in the range. -/
theorem SizeRange.accepts_eq_true {r : SizeRange} {size : ℕ} (h : r.accepts size = true) :
    (∀ minimum, r.min = some minimum → minimum ≤ size) ∧
      ∀ maximum, r.max = some maximum → size ≤ maximum := by
  unfold SizeRange.accepts at h
  split_ifs at h with hmin hmax
  refine ⟨fun minimum hminimum => ?_, fun maximum hmaximum => ?_⟩
  · simpa [hminimum] using hmin
  · simpa [hmaximum] using hmax

/-- Sizes. -/
theorem named_of_size (hpart : field.part = .size) (hholds : Holds input field)
    (h : (readSize input).accepts metadata.size = true) : Named input metadata field := by
  obtain ⟨hmin, hmax⟩ := SizeRange.accepts_eq_true h
  cases field <;> cases hpart
  case minSize =>
    obtain ⟨minimum, hminimum⟩ := Option.isSome_iff_exists.mp hholds
    exact ⟨minimum, hminimum, hmin minimum hminimum⟩
  case maxSize =>
    obtain ⟨maximum, hmaximum⟩ := Option.isSome_iff_exists.mp hholds
    exact ⟨maximum, hmaximum, hmax maximum hmaximum⟩

end FileEvents
