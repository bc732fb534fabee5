/-
# The filter of live files

`emwin-service` tests a completed file against the filter of a request: alert rules and event
streams use it.  The parts for areas, for issues and for wind and hail are here; a request
that constrains nothing else passes the others.

Numbers are exact.
-/
import Emwin.Parser.ProductBody
import Emwin.Query.Model
import Mathlib.Data.Finset.Dedup

namespace Live

open Parser Query

/-! ## Requests -/

/-- The fields of `FileFilterInput` that the parts here read. -/
structure FileFilterInput where
  hasIssues : Option Str := none
  issueKind : Option Str := none
  issueCode : Option Str := none
  hasWindHail : Option Str := none
  state : Option Str := none
  county : Option Str := none
  zone : Option Str := none
  fireZone : Option Str := none
  marineZone : Option Str := none
  windHailKind : Option Str := none
  minWindMph : Option ℚ := none
  minHailInches : Option ℚ := none

/-- `csv_values`. -/
def csvValues (raw : Option Str) (normalize : Str → Str) : Option (Finset Str) :=
  let values := (((raw.toList.flatMap (List.splitOn ',')).map Str.trim).filter
    fun value => value ≠ []).map normalize
  if values = [] then none else some values.toFinset

/-- The values are those the archive splits the same text into. -/
theorem csvValues_eq (raw : Option Str) (normalize : Str → Str) :
    csvValues raw normalize = (splitCsvValues raw normalize).map List.toFinset := by
  unfold csvValues splitCsvValues
  dsimp only
  split <;> rfl

/-- `parse_optional_bool`. -/
def parseOptionalBool (raw : Option Str) : Option Bool :=
  match (raw.map Str.trim).filter fun value => value ≠ [] with
  | none => none
  | some value =>
      if Str.toAsciiLowercase value = "true".toList ∨ value = ['1'] then some true
      else if Str.toAsciiLowercase value = "false".toList ∨ value = ['0'] then some false
      else none

/-! ## Areas -/

/-- `GeoFilter`. -/
structure GeoFilter where
  states : Option (Finset Str)
  counties : Option (Finset Str)
  zones : Option (Finset Str)
  fireZones : Option (Finset Str)
  marineZones : Option (Finset Str)

/-- `GeoFilter::has_constraints`. -/
def GeoFilter.hasConstraints (f : GeoFilter) : Bool :=
  f.states.isSome || f.counties.isSome || f.zones.isSome || f.fireZones.isSome ||
    f.marineZones.isSome

/-- `matches_geo_states`. -/
def matchesGeoStates (allowed : Option (Finset Str)) (sections : List UgcSection) : Bool :=
  match allowed with
  | none => true
  | some allowed => sections.any fun s =>
      s.counties.keys.any (· ∈ allowed) || s.zones.keys.any (· ∈ allowed) ||
        s.fireZones.keys.any (· ∈ allowed) || s.marineZones.keys.any (· ∈ allowed)

/-- `matches_enriched_ugc_codes`. -/
def matchesEnrichedUgcCodes (allowed : Option (Finset Str)) (sections : List UgcSection)
    (select : UgcSection → OrderedMap Str (List UgcArea)) (classCode : Char) : Bool :=
  match allowed with
  | none => true
  | some allowed => sections.any fun s =>
      (select s).entries.any fun (state, areas) =>
        areas.any fun area => spell state classCode area.id ∈ allowed

/-- `GeoFilter::matches`. -/
def GeoFilter.accepts {F : Type} (f : GeoFilter) (body : Option (ProductBody F)) : Bool :=
  if f.hasConstraints = false then true
  else
    match body with
    | none => false
    | some body =>
        let sections := bodyUgcSections body
        if sections = [] then false
        else
          matchesGeoStates f.states sections &&
            matchesEnrichedUgcCodes f.counties sections (·.counties) 'C' &&
            matchesEnrichedUgcCodes f.zones sections (·.zones) 'Z' &&
            matchesEnrichedUgcCodes f.fireZones sections (·.fireZones) 'F' &&
            matchesEnrichedUgcCodes f.marineZones sections (·.marineZones) 'Z'

/-! ## Issues -/

/-- `IssueFilter`. -/
structure IssueFilter where
  hasIssues : Option Bool
  kinds : Option (Finset Str)
  codes : Option (Finset Str)

/-- `IssueFilter::has_constraints`. -/
def IssueFilter.hasConstraints (f : IssueFilter) : Bool :=
  f.hasIssues.isSome || f.kinds.isSome || f.codes.isSome

/-- `IssueFilter::matches`. -/
def IssueFilter.accepts (f : IssueFilter) (issues : List ProductParseIssue) : Bool :=
  (f.hasIssues.all fun present => present != issues.isEmpty) &&
    (f.kinds.all fun kinds => issues.any fun issue => normalizeLower issue.kind ∈ kinds) &&
    (f.codes.all fun codes => issues.any fun issue => normalizeLower issue.code ∈ codes)

/-! ## Wind and hail -/

/-- `WindHailFilter`. -/
structure WindHailFilter where
  present : Option Bool
  kinds : Option (Finset Str)
  minWindMph : Option ℚ
  minHailInches : Option ℚ

/-- `WindHailFilter::has_constraints`. -/
def WindHailFilter.hasConstraints (f : WindHailFilter) : Bool :=
  f.present.isSome || f.kinds.isSome || f.minWindMph.isSome || f.minHailInches.isSome

/-- `wind_hail_kind_name`. -/
def windHailKindName : WindHailKind → String
  | .legacyWind => "legacy_wind"
  | .legacyHail => "legacy_hail"
  | .windThreat => "wind_threat"
  | .maxWindGust => "max_wind_gust"
  | .hailThreat => "hail_threat"
  | .maxHailSize => "max_hail_size"

/-- `is_wind_entry`. -/
def isWindEntry (entry : WindHailEntry ℚ) : Bool :=
  entry.kind = .legacyWind || entry.kind = .maxWindGust

/-- `is_hail_entry`. -/
def isHailEntry (entry : WindHailEntry ℚ) : Bool :=
  entry.kind = .legacyHail || entry.kind = .maxHailSize

/-- `wind_speed_mph`. -/
def windSpeedMph (value : ℚ) (units : Str) : ℚ :=
  if normalizeUpper units = "KTS".toList ∨ normalizeUpper units = "KT".toList then
    value * (115078 / 100000)
  else value

/-- Whether an entry is of one of some kinds. -/
def meetsKinds (kinds : Finset Str) (entry : WindHailEntry ℚ) : Bool :=
  (windHailKindName entry.kind).toList ∈ kinds

/-- Whether an entry is a wind of at least some speed. -/
def meetsWind (minWindMph : ℚ) (entry : WindHailEntry ℚ) : Bool :=
  isWindEntry entry &&
    match entry.numericValue, entry.units with
    | some value, some units => minWindMph ≤ windSpeedMph value units
    | _, _ => false

/-- Whether an entry is hail of at least some size. -/
def meetsHail (minHailInches : ℚ) (entry : WindHailEntry ℚ) : Bool :=
  isHailEntry entry && entry.numericValue.any fun value => minHailInches ≤ value

/-- `WindHailFilter::matches`. -/
def WindHailFilter.accepts (f : WindHailFilter) (body : Option (ProductBody ℚ)) : Bool :=
  if f.hasConstraints = false then true
  else
    let entries := (body.map bodyWindHailEntries).getD []
    if f.present.any fun present => present == entries.isEmpty then false
    else if entries = [] then
      f.kinds.isNone && f.minWindMph.isNone && f.minHailInches.isNone
    else
      (f.kinds.all fun kinds => entries.any (meetsKinds kinds)) &&
        (f.minWindMph.all fun minimum => entries.any (meetsWind minimum)) &&
        (f.minHailInches.all fun minimum => entries.any (meetsHail minimum))

/-! ## Files -/

/-- `FileEventFilter`. -/
structure FileEventFilter where
  issues : IssueFilter
  geo : GeoFilter
  windHail : WindHailFilter

/-- `FileEventFilter::try_from_input`; the parts here never fail. -/
def FileEventFilter.fromInput (input : FileFilterInput) : FileEventFilter where
  issues :=
    { hasIssues := parseOptionalBool input.hasIssues
      kinds := csvValues input.issueKind normalizeLower
      codes := csvValues input.issueCode normalizeLower }
  geo :=
    { states := csvValues input.state normalizeUpper
      counties := csvValues input.county normalizeUpper
      zones := csvValues input.zone normalizeUpper
      fireZones := csvValues input.fireZone normalizeUpper
      marineZones := csvValues input.marineZone normalizeUpper }
  windHail :=
    { present := parseOptionalBool input.hasWindHail
      kinds := csvValues input.windHailKind normalizeLower
      minWindMph := input.minWindMph
      minHailInches := input.minHailInches }

/-- `FileEventFilter::matches_metadata`. -/
def FileEventFilter.matchesMetadata (f : FileEventFilter) (product : ProductEnrichment ℚ) : Bool :=
  f.issues.accepts product.issues && f.geo.accepts product.body && f.windHail.accepts product.body

/-! ## What the parts accept -/

/-- The filter for codes accepts an area whose spelling is allowed. -/
theorem matchesEnrichedUgcCodes_some {allowed : Finset Str} {sections : List UgcSection}
    {select : UgcSection → OrderedMap Str (List UgcArea)} {classCode : Char} :
    matchesEnrichedUgcCodes (some allowed) sections select classCode = true ↔
      ∃ s ∈ sections, ∃ area ∈ areaNumbers (select s), spell area.1 classCode area.2 ∈ allowed := by
  unfold matchesEnrichedUgcCodes areaNumbers
  simp only [List.any_eq_true, decide_eq_true_eq]
  refine exists_congr fun s => and_congr_right fun _ => ?_
  constructor
  · rintro ⟨⟨state, areas⟩, hentry, area, harea, hallowed⟩
    exact ⟨(state, area.id),
      List.mem_flatMap.mpr ⟨_, hentry, List.mem_map.mpr ⟨area, harea, rfl⟩⟩, hallowed⟩
  · rintro ⟨_, hmem, hallowed⟩
    obtain ⟨⟨state, areas⟩, hentry, hmem⟩ := List.mem_flatMap.mp hmem
    obtain ⟨area, harea, rfl⟩ := List.mem_map.mp hmem
    exact ⟨_, hentry, area, harea, hallowed⟩

/-- The filter for states accepts a state with an area. -/
theorem matchesGeoStates_some {allowed : Finset Str} {sections : List UgcSection}
    (hinhabited : ∀ s ∈ sections, ∀ b, Inhabited (s.areas b)) :
    matchesGeoStates (some allowed) sections = true ↔
      ∃ s ∈ sections, ∃ b, ∃ area ∈ areaNumbers (s.areas b), area.1 ∈ allowed := by
  unfold matchesGeoStates
  simp only [List.any_eq_true, Bool.or_eq_true, decide_eq_true_eq]
  refine exists_congr fun s => and_congr_right fun hs => ?_
  have hbucket : ∀ b, (∃ state ∈ (s.areas b).keys, state ∈ allowed) ↔
      ∃ area ∈ areaNumbers (s.areas b), area.1 ∈ allowed := by
    intro b
    constructor
    · rintro ⟨state, hkey, hallowed⟩
      obtain ⟨number, harea⟩ := (mem_keys_iff (hinhabited s hs b)).mp hkey
      exact ⟨(state, number), harea, hallowed⟩
    · rintro ⟨⟨state, number⟩, harea, hallowed⟩
      exact ⟨state, (mem_keys_iff (hinhabited s hs b)).mpr ⟨number, harea⟩, hallowed⟩
  simp only [← hbucket]
  constructor
  · rintro (((h | h) | h) | h)
    · exact ⟨.counties, h⟩
    · exact ⟨.zones, h⟩
    · exact ⟨.fireZones, h⟩
    · exact ⟨.marineZones, h⟩
  · rintro ⟨b, h⟩
    cases b with
    | counties => exact Or.inl (Or.inl (Or.inl h))
    | zones => exact Or.inl (Or.inl (Or.inr h))
    | fireZones => exact Or.inl (Or.inr h)
    | marineZones => exact Or.inr h

end Live
