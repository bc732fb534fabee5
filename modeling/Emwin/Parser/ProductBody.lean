/-
# The body of a product

`body/enrich.rs` keeps what the parsers of bodies found: the segments of a warning, or the
areas, polygons, tracks and tags of any other product.

The areas of a section stand in four buckets.  Which bucket a code is in is a function of the
code (`UgcCode.bucket`), and a bucket holds the areas of its codes and no others
(`mem_areas_fromCodes`).
-/
import Emwin.Parser.VtecEvents

namespace Parser

open Chrono

/-- What is read of a product that is not a warning. -/
structure GenericBody (F : Type) where
  ugc : Option (List UgcSection)
  latlon : Option (List (LatLon.LatLonPolygon F))
  timeMotLoc : Option (List (TimeMotLoc.TimeMotLocEntry F))
  windHail : Option (List (WindHailEntry F))

/-- The body of a product. -/
inductive ProductBody (F : Type) where
  | vtecEvent (segments : List (VtecEvents.VtecEventSegment F))
  | generic (body : GenericBody F)

/-- `body_ugc_sections`. -/
def bodyUgcSections {F : Type} : ProductBody F → List UgcSection
  | .vtecEvent segments => segments.flatMap (·.ugcSections)
  | .generic body => body.ugc.getD []

/-- `body_wind_hail_entries`. -/
def bodyWindHailEntries {F : Type} : ProductBody F → List (WindHailEntry F)
  | .vtecEvent segments => segments.flatMap (·.windHail)
  | .generic body => body.windHail.getD []

/-- What the filters read of a parsed product. -/
structure ProductEnrichment (F : Type) where
  body : Option (ProductBody F)
  issues : List ProductParseIssue

/-- The sections of a product. -/
def ProductEnrichment.ugcSections {F : Type} (product : ProductEnrichment F) : List UgcSection :=
  (product.body.map bodyUgcSections).getD []

/-- The tags of a product. -/
def ProductEnrichment.windHailEntries {F : Type} (product : ProductEnrichment F) :
    List (WindHailEntry F) :=
  (product.body.map bodyWindHailEntries).getD []

/-! ## Buckets -/

/-- The buckets of a section. -/
inductive UgcBucket where
  | counties
  | zones
  | fireZones
  | marineZones
  deriving DecidableEq, Repr

/-- The areas in a bucket, by state. -/
def UgcSection.areas (s : UgcSection) : UgcBucket → OrderedMap Str (List UgcArea)
  | .counties => s.counties
  | .zones => s.zones
  | .fireZones => s.fireZones
  | .marineZones => s.marineZones

/-- The bucket of a code. -/
def UgcCode.bucket (code : UgcCode) : UgcBucket :=
  match code.geoclass with
  | .county => .counties
  | .zone | .unknown => if isMarineZoneState code.state then .marineZones else .zones
  | .fireZone => .fireZones
  | .marine => .marineZones

/-- A code as it is spelled in a product. -/
def UgcCode.spelled (code : UgcCode) : Str := spell code.state code.geoclass.asChar code.number

/-- The states and numbers of areas. -/
def areaNumbers (areas : OrderedMap Str (List UgcArea)) : List (Str × ℕ) :=
  areas.entries.flatMap fun (state, areas) => areas.map fun area => (state, area.id)

theorem mem_areaNumbers {areas : OrderedMap Str (List UgcArea)} {state : Str} {number : ℕ} :
    (state, number) ∈ areaNumbers areas ↔
      ∃ list, areas.lookup state = some list ∧ ∃ area ∈ list, area.id = number := by
  unfold areaNumbers
  simp only [List.mem_flatMap, List.mem_map, Prod.exists, Prod.mk.injEq]
  constructor
  · rintro ⟨s, list, hentry, area, harea, rfl, hid⟩
    exact ⟨list, OrderedMap.mem_entries_iff.mp hentry, area, harea, hid⟩
  · rintro ⟨list, hlookup, area, harea, hid⟩
    exact ⟨state, list, OrderedMap.mem_entries_iff.mpr hlookup, area, harea, rfl, hid⟩

theorem lookup_pushArea (areas : OrderedMap Str (List UgcArea)) (state : Str) (area : UgcArea)
    (state' : Str) :
    (pushArea areas state area).lookup state' =
      if state' = state then some ((areas.lookup state).getD [] ++ [area])
      else areas.lookup state' := by
  unfold pushArea
  split
  · next h => rw [h, OrderedMap.lookup_insert_self]
  · next h => rw [OrderedMap.lookup_insert_of_ne _ h]

theorem mem_areaNumbers_pushArea {areas : OrderedMap Str (List UgcArea)} {state : Str}
    {area : UgcArea} {state' : Str} {number : ℕ} :
    (state', number) ∈ areaNumbers (pushArea areas state area) ↔
      (state', number) ∈ areaNumbers areas ∨ (state' = state ∧ number = area.id) := by
  simp only [mem_areaNumbers, lookup_pushArea]
  by_cases h : state' = state
  · subst h
    cases areas.lookup state' <;> simp [eq_comm, or_and_right, exists_or]
  · simp [h]

/-- Every state in a bucket has an area. -/
def Inhabited (areas : OrderedMap Str (List UgcArea)) : Prop :=
  ∀ state list, areas.lookup state = some list → list ≠ []

theorem inhabited_pushArea {areas : OrderedMap Str (List UgcArea)} (h : Inhabited areas)
    (state : Str) (area : UgcArea) : Inhabited (pushArea areas state area) := by
  intro state' list hlookup
  rw [lookup_pushArea] at hlookup
  split at hlookup
  · rw [← Option.some.inj hlookup]
    simp
  · exact h _ _ hlookup

/-- The states of a bucket are those of its areas. -/
theorem mem_keys_iff {areas : OrderedMap Str (List UgcArea)} (h : Inhabited areas) {state : Str} :
    state ∈ areas.keys ↔ ∃ number, (state, number) ∈ areaNumbers areas := by
  have hkey : state ∈ areas.keys ↔ ∃ list, areas.lookup state = some list := by
    unfold OrderedMap.keys
    simp only [List.mem_map, Prod.exists, exists_and_right, exists_eq_right,
      OrderedMap.mem_entries_iff]
  rw [hkey]
  simp only [mem_areaNumbers]
  constructor
  · rintro ⟨list, hlookup⟩
    obtain ⟨area, harea⟩ := List.exists_mem_of_ne_nil _ (h _ _ hlookup)
    exact ⟨area.id, list, hlookup, area, harea, rfl⟩
  · rintro ⟨number, list, hlookup, -⟩
    exact ⟨list, hlookup⟩

/-! ## Codes -/

/-- A code adds an area to its bucket. -/
theorem areas_addCode (catalog : UgcCatalog) (s : UgcSection) (code : UgcCode) (b : UgcBucket) :
    ∃ area : UgcArea, area.id = code.number ∧ (s.addCode catalog code).areas b =
      if b = code.bucket then pushArea (s.areas b) code.state area else s.areas b := by
  obtain ⟨state, geoclass, number⟩ := code
  cases geoclass with
  | county => exact ⟨_, rfl, by cases b <;> rfl⟩
  | fireZone => exact ⟨_, rfl, by cases b <;> rfl⟩
  | marine => exact ⟨_, rfl, by cases b <;> rfl⟩
  | zone =>
      refine ⟨buildArea ⟨state, .zone, number⟩ (some catalog.ugcZoneEntry), rfl, ?_⟩
      unfold UgcSection.addCode UgcCode.bucket
      dsimp only
      split <;> cases b <;> rfl
  | unknown =>
      refine ⟨buildArea ⟨state, .unknown, number⟩ (some catalog.ugcZoneEntry), rfl, ?_⟩
      unfold UgcSection.addCode UgcCode.bucket
      dsimp only
      split <;> cases b <;> rfl

theorem mem_areas_foldl (catalog : UgcCatalog) (codes : List UgcCode) (s : UgcSection)
    {b : UgcBucket} {state : Str} {number : ℕ} :
    (state, number) ∈ areaNumbers ((codes.foldl (UgcSection.addCode catalog) s).areas b) ↔
      (state, number) ∈ areaNumbers (s.areas b) ∨
        ∃ code ∈ codes, code.bucket = b ∧ code.state = state ∧ code.number = number := by
  induction codes generalizing s with
  | nil => simp
  | cons code codes ih =>
      obtain ⟨area, hid, hareas⟩ := areas_addCode catalog s code b
      rw [List.foldl_cons, ih, hareas, List.exists_mem_cons_iff]
      by_cases hb : b = code.bucket
      · rw [if_pos hb, mem_areaNumbers_pushArea, hid, or_assoc]
        simp [hb, eq_comm]
      · rw [if_neg hb]
        simp [Ne.symm hb]

/-- A bucket of a section holds the areas of its codes. -/
theorem mem_areas_fromCodes {catalog : UgcCatalog} {codes : List UgcCode} {expires : DateTime}
    {b : UgcBucket} {state : Str} {number : ℕ} :
    (state, number) ∈ areaNumbers ((UgcSection.fromCodes catalog codes expires).areas b) ↔
      ∃ code ∈ codes, code.bucket = b ∧ code.state = state ∧ code.number = number := by
  unfold UgcSection.fromCodes
  rw [mem_areas_foldl]
  cases b <;> simp [UgcSection.areas, areaNumbers, OrderedMap.empty]

theorem inhabited_fromCodes (catalog : UgcCatalog) (codes : List UgcCode) (expires : DateTime)
    (b : UgcBucket) : Inhabited ((UgcSection.fromCodes catalog codes expires).areas b) := by
  suffices h : ∀ s : UgcSection, Inhabited (s.areas b) →
      Inhabited ((codes.foldl (UgcSection.addCode catalog) s).areas b) by
    refine h _ ?_
    intro state list hlookup
    cases b <;> cases hlookup
  induction codes with
  | nil => exact fun s hs => hs
  | cons code codes ih =>
      intro s hs
      apply ih
      obtain ⟨area, -, hareas⟩ := areas_addCode catalog s code b
      rw [hareas]
      split
      · exact inhabited_pushArea hs _ _
      · exact hs

/-! ## Sections -/

/-- The codes of a section as they stand in a product: a state is the first two bytes of a
code. -/
structure ListedSection where
  codes : List UgcCode
  expires : DateTime
  stateLen : ∀ code ∈ codes, Str.byteLen code.state = 2

/-- The section of listed codes. -/
def ListedSection.toSection (catalog : UgcCatalog) (s : ListedSection) : UgcSection :=
  UgcSection.fromCodes catalog s.codes s.expires

/-- The codes of sections. -/
def listedCodes (sections : List ListedSection) : List UgcCode := sections.flatMap (·.codes)

theorem byteLen_of_mem_listedCodes {sections : List ListedSection} {code : UgcCode}
    (h : code ∈ listedCodes sections) : Str.byteLen code.state = 2 := by
  obtain ⟨s, -, hcode⟩ := List.mem_flatMap.mp h
  exact s.stateLen code hcode

/-- The areas of sections are those of their codes. -/
theorem mem_areas_sections {catalog : UgcCatalog} {sections : List ListedSection} {b : UgcBucket}
    {state : Str} {number : ℕ} :
    (∃ s ∈ sections.map (ListedSection.toSection catalog), (state, number) ∈
      areaNumbers (s.areas b)) ↔
      ∃ code ∈ listedCodes sections,
        code.bucket = b ∧ code.state = state ∧ code.number = number := by
  constructor
  · rintro ⟨_, hmem, harea⟩
    obtain ⟨s, hs, rfl⟩ := List.mem_map.mp hmem
    obtain ⟨code, hcode, h⟩ := mem_areas_fromCodes.mp harea
    exact ⟨code, List.mem_flatMap.mpr ⟨s, hs, hcode⟩, h⟩
  · rintro ⟨code, hcode, h⟩
    obtain ⟨s, hs, hcode⟩ := List.mem_flatMap.mp hcode
    exact ⟨_, List.mem_map_of_mem hs, mem_areas_fromCodes.mpr ⟨code, hcode, h⟩⟩

end Parser
