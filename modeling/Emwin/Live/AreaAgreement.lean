/-
# Areas in the live filter and in the archive

The live filter compares the areas of a product with the values of a request as `SSCnnn`,
`SSZnnn`, `SSFnnn`, and marine areas as `SSZnnn`; the rows of the archive spell marine areas
`SSMnnn`.  So the two agree, and spell every area as the product does, exactly for the products
without marine areas (`areas_agree_iff`).
-/
import Emwin.Live.FileFilter
import Emwin.Parser.UgcRoundTrip
import Emwin.Query.ArchivedRows

open Parser Persist Query

namespace Live

variable {product : ProductEnrichment ℚ} {prepared : PreparedProduct ℚ}

/-! ## Requests -/

/-- The input of the live filter for the fields of a request to the archive. -/
def inputOf (q : RowCriteria ℚ) : FileFilterInput where
  issueKind := q.issueKind
  issueCode := q.issueCode
  state := q.state
  county := q.county
  zone := q.zone
  fireZone := q.fireZone
  marineZone := q.marineZone
  windHailKind := q.windHailKind
  minWindMph := q.minWindMph
  minHailInches := q.minHailInches

/-- Whether the live filter of a request accepts a product. -/
def liveAccepts (q : RowCriteria ℚ) (product : ProductEnrichment ℚ) : Bool :=
  (FileEventFilter.fromInput (inputOf q)).matchesMetadata product

/-- A request for areas. -/
def areaQuery (state county zone fireZone marineZone : Option Str) : RowCriteria ℚ where
  state := state
  county := county
  zone := zone
  fireZone := fireZone
  marineZone := marineZone

/-! ## The live filter -/

/-- The class with which the live filter spells the areas of a bucket. -/
def liveClass : UgcBucket → Char
  | .counties => 'C'
  | .zones => 'Z'
  | .fireZones => 'F'
  | .marineZones => 'Z'

/-- The values for a bucket. -/
def GeoFilter.values (f : GeoFilter) : UgcBucket → Option (Finset Str)
  | .counties => f.counties
  | .zones => f.zones
  | .fireZones => f.fireZones
  | .marineZones => f.marineZones

/-- The filter for areas accepts what each of its fields accepts. -/
theorem geo_accepts_iff (f : GeoFilter) :
    f.accepts product.body = true ↔ matchesGeoStates f.states product.ugcSections = true ∧
      ∀ b, matchesEnrichedUgcCodes (f.values b) product.ugcSections (UgcSection.areas · b)
        (liveClass b) = true := by
  have hall : (∀ b, matchesEnrichedUgcCodes (f.values b) product.ugcSections (UgcSection.areas · b)
      (liveClass b) = true) ↔
      matchesEnrichedUgcCodes f.counties product.ugcSections (·.counties) 'C' = true ∧
        matchesEnrichedUgcCodes f.zones product.ugcSections (·.zones) 'Z' = true ∧
        matchesEnrichedUgcCodes f.fireZones product.ugcSections (·.fireZones) 'F' = true ∧
        matchesEnrichedUgcCodes f.marineZones product.ugcSections (·.marineZones) 'Z' = true := by
    constructor
    · exact fun h => ⟨h .counties, h .zones, h .fireZones, h .marineZones⟩
    · rintro ⟨hcounties, hzones, hfire, hmarine⟩ b
      cases b with
      | counties => exact hcounties
      | zones => exact hzones
      | fireZones => exact hfire
      | marineZones => exact hmarine
  rw [hall]
  obtain ⟨body, issues⟩ := product
  obtain ⟨states, counties, zones, fireZones, marineZones⟩ := f
  unfold GeoFilter.accepts
  split
  · next hnone =>
      -- no field is given, so each accepts everything
      simp only [GeoFilter.hasConstraints, Bool.or_eq_false_iff, Option.isSome_eq_false_iff,
        Option.isNone_iff_eq_none] at hnone
      obtain ⟨⟨⟨⟨rfl, rfl⟩, rfl⟩, rfl⟩, rfl⟩ := hnone
      simp [matchesGeoStates, matchesEnrichedUgcCodes]
  · next hsome =>
      have hempty : ∀ sections : List UgcSection, sections = [] →
          ¬ (matchesGeoStates states sections = true ∧
            matchesEnrichedUgcCodes counties sections (·.counties) 'C' = true ∧
            matchesEnrichedUgcCodes zones sections (·.zones) 'Z' = true ∧
            matchesEnrichedUgcCodes fireZones sections (·.fireZones) 'F' = true ∧
            matchesEnrichedUgcCodes marineZones sections (·.marineZones) 'Z' = true) := by
        rintro _ rfl ⟨hstates, hcounties, hzones, hfire, hmarine⟩
        apply hsome
        cases states <;> cases counties <;> cases zones <;> cases fireZones <;>
          cases marineZones <;>
          simp_all [matchesGeoStates, matchesEnrichedUgcCodes, GeoFilter.hasConstraints]
      cases body with
      | none => exact iff_of_false Bool.false_ne_true (hempty _ rfl)
      | some body =>
          dsimp only
          split
          · next hnil => exact iff_of_false Bool.false_ne_true (hempty _ hnil)
          · simp only [Bool.and_eq_true, and_assoc]
            rfl

theorem matchesEnriched_csvValues (raw : Option Str) (sections : List UgcSection) (b : UgcBucket) :
    matchesEnrichedUgcCodes (csvValues raw normalizeUpper) sections (UgcSection.areas · b)
        (liveClass b) = true ↔
      ∀ values, splitCsvValues raw normalizeUpper = some values →
        ∃ s ∈ sections, ∃ area ∈ areaNumbers (s.areas b),
          spell area.1 (liveClass b) area.2 ∈ values := by
  rw [csvValues_eq]
  cases splitCsvValues raw normalizeUpper with
  | none => simp [matchesEnrichedUgcCodes]
  | some values =>
      rw [Option.map_some, matchesEnrichedUgcCodes_some]
      simp only [List.mem_toFinset, Option.some.injEq, forall_eq']

theorem matchesGeoStates_csvValues (raw : Option Str) {sections : List UgcSection}
    (hinhabited : ∀ s ∈ sections, ∀ b, Inhabited (s.areas b)) :
    matchesGeoStates (csvValues raw normalizeUpper) sections = true ↔
      ∀ values, splitCsvValues raw normalizeUpper = some values →
        ∃ s ∈ sections, ∃ b, ∃ area ∈ areaNumbers (s.areas b), area.1 ∈ values := by
  rw [csvValues_eq]
  cases splitCsvValues raw normalizeUpper with
  | none => simp [matchesGeoStates]
  | some values =>
      rw [Option.map_some, matchesGeoStates_some hinhabited]
      simp only [List.mem_toFinset, Option.some.injEq, forall_eq']

/-! ## Both -/

/-- The values of a request for a bucket. -/
def bucketValues (county zone fireZone marineZone : Option Str) : UgcBucket → Option Str
  | .counties => county
  | .zones => zone
  | .fireZones => fireZone
  | .marineZones => marineZone

/-- An area of a product whose spelling with a class is among the values of a field. -/
def AreaAmong (product : ProductEnrichment ℚ) (b : UgcBucket) (geoclass : Char)
    (raw : Option Str) : Prop :=
  ∀ values, splitCsvValues raw normalizeUpper = some values →
    ∃ s ∈ product.ugcSections, ∃ area ∈ areaNumbers (s.areas b),
      spell area.1 geoclass area.2 ∈ values

/-- A state of a product that is among the values of a field. -/
def StateAmong (product : ProductEnrichment ℚ) (raw : Option Str) : Prop :=
  ∀ values, splitCsvValues raw normalizeUpper = some values →
    ∃ s ∈ product.ugcSections, ∃ b, ∃ area ∈ areaNumbers (s.areas b), area.1 ∈ values

theorem liveAccepts_areaQuery (hinhabited : ∀ s ∈ product.ugcSections, ∀ b, Inhabited (s.areas b))
    (state county zone fireZone marineZone : Option Str) :
    liveAccepts (areaQuery state county zone fireZone marineZone) product = true ↔
      StateAmong product state ∧ ∀ b, AreaAmong product b (liveClass b)
        (bucketValues county zone fireZone marineZone b) := by
  have hgeo := @geo_accepts_iff product (FileEventFilter.fromInput
    (inputOf (areaQuery state county zone fireZone marineZone))).geo
  show (true && _ && true) = true ↔ _
  rw [Bool.true_and, Bool.and_true]
  refine hgeo.trans (and_congr (matchesGeoStates_csvValues state hinhabited) ?_)
  refine forall_congr' fun b => ?_
  have hvalues : (FileEventFilter.fromInput
      (inputOf (areaQuery state county zone fireZone marineZone))).geo.values b =
      csvValues (bucketValues county zone fireZone marineZone b) normalizeUpper := by
    cases b <;> rfl
  rw [hvalues]
  exact matchesEnriched_csvValues _ _ b

theorem acceptsRows_areaQuery (hprepare : prepare product = .ok prepared)
    (state county zone fireZone marineZone : Option Str) :
    acceptsRows (areaQuery state county zone fireZone marineZone) prepared = true ↔
      StateAmong product state ∧ ∀ b, AreaAmong product b (codeClass b)
        (bucketValues county zone fireZone marineZone b) := by
  have hall : (∀ b, AreaAmong product b (codeClass b)
      (bucketValues county zone fireZone marineZone b)) ↔
      AreaAmong product .counties 'C' county ∧ AreaAmong product .zones 'Z' zone ∧
        AreaAmong product .fireZones 'F' fireZone ∧
        AreaAmong product .marineZones 'M' marineZone := by
    constructor
    · exact fun h => ⟨h .counties, h .zones, h .fireZones, h .marineZones⟩
    · rintro ⟨hcounties, hzones, hfire, hmarine⟩ b
      cases b with
      | counties => exact hcounties
      | zones => exact hzones
      | fireZones => exact hfire
      | marineZones => exact hmarine
  rw [hall]
  show (acceptsAreas _ prepared && true && true) = true ↔ _
  rw [Bool.and_true, Bool.and_true]
  unfold acceptsAreas areaConditions
  simp only [List.all_append, Bool.and_eq_true, and_assoc]
  exact and_congr (accepts_stateCondition hprepare state)
    (and_congr (accepts_ugcCondition hprepare county .counties)
      (and_congr (accepts_ugcCondition hprepare zone .zones)
        (and_congr (accepts_ugcCondition hprepare fireZone .fireZones)
          (accepts_ugcCondition hprepare marineZone .marineZones))))

/-- The live filter accepts a product for a request for areas exactly when the archive accepts
its rows. -/
def AgreeOnAreas (product : ProductEnrichment ℚ) (prepared : PreparedProduct ℚ) : Prop :=
  ∀ state county zone fireZone marineZone,
    liveAccepts (areaQuery state county zone fireZone marineZone) product =
      acceptsRows (areaQuery state county zone fireZone marineZone) prepared

/-- The filter with one value for one bucket. -/
def singleFilter (b : UgcBucket) (value : Str) : GeoFilter where
  states := none
  counties := if b = .counties then some [value].toFinset else none
  zones := if b = .zones then some [value].toFinset else none
  fireZones := if b = .fireZones then some [value].toFinset else none
  marineZones := if b = .marineZones then some [value].toFinset else none

/-- Both spell an area as its code is spelled: the live filter accepts the product when it is
asked for that text in the field for the code's bucket, and a row of that kind has it. -/
def SpelledInBoth (product : ProductEnrichment ℚ) (prepared : PreparedProduct ℚ)
    (code : UgcCode) : Prop :=
  (singleFilter code.bucket code.spelled).accepts product.body = true ∧
    ∃ row ∈ prepared.ugcAreas,
      row.areaKind = (areaKind code.bucket).toList ∧ row.ugcCode = code.spelled

theorem singleFilter_accepts (b : UgcBucket) (value : Str) :
    (singleFilter b value).accepts product.body = true ↔
      ∃ s ∈ product.ugcSections, ∃ area ∈ areaNumbers (s.areas b),
        spell area.1 (liveClass b) area.2 = value := by
  rw [geo_accepts_iff]
  have hothers : (∀ b', matchesEnrichedUgcCodes ((singleFilter b value).values b')
      product.ugcSections (UgcSection.areas · b') (liveClass b') = true) ↔
      matchesEnrichedUgcCodes (some [value].toFinset) product.ugcSections (UgcSection.areas · b)
        (liveClass b) = true := by
    have hvalues : ∀ b', (singleFilter b value).values b' =
        if b' = b then some [value].toFinset else none := by
      intro b'
      cases b <;> cases b' <;> rfl
    constructor
    · intro h
      have hb := h b
      rwa [hvalues, if_pos rfl] at hb
    · intro h b'
      rw [hvalues]
      split
      · next hb => rwa [hb]
      · rfl
  rw [hothers, matchesEnrichedUgcCodes_some]
  simp only [List.mem_toFinset, List.mem_singleton]
  exact and_iff_right rfl

/-! ## Listed codes -/

section Listed

variable {catalog : UgcCatalog} {sections : List ListedSection}

theorem inhabited_sections (hsections : product.ugcSections = sections.map (·.toSection catalog)) :
    ∀ s ∈ product.ugcSections, ∀ b, Inhabited (s.areas b) := by
  rw [hsections]
  intro s hs b
  obtain ⟨listed, -, rfl⟩ := List.mem_map.mp hs
  exact inhabited_fromCodes _ _ _ b

/-- The areas of a product are those of its codes. -/
theorem exists_area_iff (hsections : product.ugcSections = sections.map (·.toSection catalog))
    {b : UgcBucket} {P : Str → ℕ → Prop} :
    (∃ s ∈ product.ugcSections, ∃ area ∈ areaNumbers (s.areas b), P area.1 area.2) ↔
      ∃ code ∈ listedCodes sections, code.bucket = b ∧ P code.state code.number := by
  rw [hsections]
  constructor
  · rintro ⟨s, hs, area, harea, hP⟩
    obtain ⟨code, hcode, hb, hstate, hnumber⟩ := mem_areas_sections.mp ⟨s, hs, harea⟩
    exact ⟨code, hcode, hb, by rwa [hstate, hnumber]⟩
  · rintro ⟨code, hcode, hb, hP⟩
    obtain ⟨s, hs, harea⟩ := mem_areas_sections.mpr ⟨code, hcode, hb, rfl, rfl⟩
    exact ⟨s, hs, _, harea, hP⟩

/-- A text spells one class behind a state of two bytes. -/
theorem class_of_spell {state state' : Str} {c c' : Char} {number number' : ℕ}
    (hlen : Str.byteLen state = Str.byteLen state')
    (h : spell state c number = spell state' c' number') : c = c' := by
  unfold spell at h
  rw [List.append_assoc, List.append_assoc] at h
  exact (List.cons.inj (Str.append_inj_of_byteLen h hlen).2).1

/-- Codes outside marine areas are spelled with the class of their bucket. -/
theorem class_of_bucket {code : UgcCode} (h : code.bucket ≠ .marineZones) :
    code.geoclass.asChar = liveClass code.bucket ∧
      code.geoclass.asChar = codeClass code.bucket := by
  obtain ⟨state, geoclass, number⟩ := code
  unfold UgcCode.bucket at h ⊢
  cases geoclass with
  | county => exact ⟨rfl, rfl⟩
  | fireZone => exact ⟨rfl, rfl⟩
  | marine => exact absurd rfl h
  | zone =>
      dsimp only at h ⊢
      split at h
      · exact absurd rfl h
      · next hstate => exact ⟨by rw [if_neg hstate]; rfl, by rw [if_neg hstate]; rfl⟩
  | unknown =>
      dsimp only at h ⊢
      split at h
      · exact absurd rfl h
      · next hstate => exact ⟨by rw [if_neg hstate]; rfl, by rw [if_neg hstate]; rfl⟩

/-- Outside marine areas both use the same class. -/
theorem liveClass_eq {b : UgcBucket} (h : b ≠ .marineZones) : liveClass b = codeClass b := by
  cases b with
  | marineZones => exact absurd rfl h
  | _ => rfl

/-- What both spell right is not a marine area. -/
theorem bucket_ne_of_spelled (hsections : product.ugcSections = sections.map (·.toSection catalog))
    (hprepare : prepare product = .ok prepared) {code : UgcCode}
    (h : SpelledInBoth product prepared code) : code.bucket ≠ .marineZones := by
  intro hmarine
  obtain ⟨hlive, harchive⟩ := h
  obtain ⟨live, hlive, -, hspell⟩ :=
    (exists_area_iff hsections
      (P := fun state number => spell state (liveClass code.bucket) number =
      code.spelled)).mp ((singleFilter_accepts _ _).mp hlive)
  have hrows := (describes_prepare hprepare).1.areas fun kind _ ugcCode =>
    kind = (areaKind code.bucket).toList ∧ ugcCode = code.spelled
  obtain ⟨s, hs, b, area, harea, hkind, hspelled⟩ := hrows.mp harchive
  obtain rfl := areaKind_injective hkind
  obtain ⟨archived, harchived, -, hspell'⟩ :=
    (exists_area_iff hsections
      (P := fun state number => spell state (codeClass code.bucket) number =
      code.spelled)).mp ⟨s, hs, area, harea, hspelled⟩
  -- one text cannot have both classes
  have hclass := class_of_spell ((byteLen_of_mem_listedCodes hlive).trans
    (byteLen_of_mem_listedCodes harchived).symm) (hspell.trans hspell'.symm)
  rw [hmarine] at hclass
  exact absurd hclass (by decide)

/-- Without marine areas the two agree. -/
theorem agree_of_bucket_ne (hsections : product.ugcSections = sections.map (·.toSection catalog))
    (hprepare : prepare product = .ok prepared)
    (hmarine : ∀ code ∈ listedCodes sections, code.bucket ≠ .marineZones) :
    AgreeOnAreas product prepared := by
  intro state county zone fireZone marineZone
  rw [Bool.eq_iff_iff, liveAccepts_areaQuery (inhabited_sections hsections),
    acceptsRows_areaQuery hprepare]
  refine and_congr_right fun _ => forall_congr' fun b => ?_
  by_cases hb : b = .marineZones
  · -- neither finds a marine area
    subst hb
    have hnone : ∀ P : Str → ℕ → Prop, ¬ ∃ s ∈ product.ugcSections,
        ∃ area ∈ areaNumbers (s.areas .marineZones), P area.1 area.2 := by
      intro P h
      obtain ⟨code, hcode, hbucket, -⟩ := (exists_area_iff hsections).mp h
      exact hmarine code hcode hbucket
    exact forall_congr' fun values => imp_congr_right fun _ => iff_of_false
      (hnone fun state number => spell state (liveClass .marineZones) number ∈ values)
      (hnone fun state number => spell state (codeClass .marineZones) number ∈ values)
  · rw [liveClass_eq hb]

/-- A text of the characters of codes is a list with one value. -/
theorem splitCsvValues_singleton {value : Str} (hne : value ≠ []) (hcomma : ',' ∉ value)
    (hvalue : ∀ c ∈ value, IsUgcChar c) :
    splitCsvValues (some value) normalizeUpper = some [value] := by
  have htrim : Str.trim value = value := trim_eq_self_of_ugcChars hvalue
  have hupper : Str.toAsciiUppercase value = value := by
    refine Str.toAsciiUppercase_eq_self fun c hc => ?_
    have hrange := (hvalue c hc).toNat
    omega
  have hnormal : normalizeUpper value = value := by
    unfold normalizeUpper
    rw [htrim, hupper]
  unfold splitCsvValues
  simp [List.splitOn_eq_singleton hcomma, htrim, hne, hnormal]

/-- The characters of a code with a state of capital letters. -/
theorem isUpper_or_isDigit_of_mem_spell {state : Str} {number : ℕ}
    (hstate : ∀ c ∈ state, c.isUpper = true) {geoclass : Char} (hclass : geoclass.isUpper = true)
    {c : Char} (h : c ∈ spell state geoclass number) : c.isUpper = true ∨ c.isDigit = true := by
  unfold spell Calendar.padded at h
  rcases List.mem_append.mp h with h | h
  · rcases List.mem_append.mp h with h | h
    · exact Or.inl (hstate c h)
    · rw [List.mem_singleton.mp h]
      exact Or.inl hclass
  · rcases List.mem_append.mp h with h | h
    · rw [List.eq_of_mem_replicate h]
      exact Or.inr (by decide)
    · exact Or.inr (Nat.isDigit_of_mem_toDigits (by decide) (by decide) h)

/-- A marine area of a state of capital letters is found by its spelling in the live filter
alone. -/
theorem disagree_of_marine (hsections : product.ugcSections = sections.map (·.toSection catalog))
    (hprepare : prepare product = .ok prepared) {code : UgcCode}
    (hcode : code ∈ listedCodes sections) (hmarine : code.bucket = .marineZones)
    (hupper : ∀ c ∈ code.state, c.isUpper = true) : ¬ AgreeOnAreas product prepared := by
  intro hagree
  have hchars : ∀ c ∈ spell code.state 'Z' code.number, c.isUpper = true ∨ c.isDigit = true :=
    fun c hc => isUpper_or_isDigit_of_mem_spell hupper (by decide) hc
  have hvalues : splitCsvValues (some (spell code.state 'Z' code.number)) normalizeUpper =
      some [spell code.state 'Z' code.number] := by
    refine splitCsvValues_singleton ?_ ?_ fun c hc => (hchars c hc).imp_right Or.inl
    · unfold spell
      simp
    · intro hcomma
      exact absurd (hchars ',' hcomma) (by decide)
  have hsame := hagree none none none none (some (spell code.state 'Z' code.number))
  rw [Bool.eq_iff_iff, liveAccepts_areaQuery (inhabited_sections hsections),
    acceptsRows_areaQuery hprepare] at hsame
  have hlive : ∀ b, AreaAmong product b (liveClass b)
      (bucketValues none none none (some (spell code.state 'Z' code.number)) b) := by
    intro b values hsplit
    cases b with
    | marineZones =>
        obtain rfl := Option.some.inj (hsplit.symm.trans hvalues)
        exact (exists_area_iff hsections (P := fun state number =>
          spell state 'Z' number ∈ [spell code.state 'Z' code.number])).mpr
            ⟨code, hcode, hmarine, List.mem_singleton.mpr rfl⟩
    | _ => cases hsplit
  have hstates : StateAmong product none := fun values hsplit => by cases hsplit
  obtain ⟨found, hfound, -, hspell⟩ := (exists_area_iff hsections (P := fun state number =>
    spell state 'M' number ∈ [spell code.state 'Z' code.number])).mp
      ((hsame.mp ⟨hstates, hlive⟩).2 .marineZones _ hvalues)
  have hclass := class_of_spell ((byteLen_of_mem_listedCodes hfound).trans
    (byteLen_of_mem_listedCodes hcode).symm) (List.mem_singleton.mp hspell)
  exact absurd hclass (by decide)

end Listed

/-- With states of capital letters, agreement alone excludes marine areas. -/
theorem agreeOnAreas_iff {catalog : UgcCatalog} {sections : List ListedSection}
    (hsections : product.ugcSections = sections.map (·.toSection catalog))
    (hprepare : prepare product = .ok prepared)
    (hupper : ∀ code ∈ listedCodes sections, ∀ c ∈ code.state, c.isUpper = true) :
    AgreeOnAreas product prepared ↔
      ∀ code ∈ listedCodes sections, code.bucket ≠ .marineZones := by
  constructor
  · intro hagree code hcode hmarine
    exact disagree_of_marine hsections hprepare hcode hmarine (hupper code hcode) hagree
  · exact agree_of_bucket_ne hsections hprepare

/-- The two agree, and spell every area as the product does, exactly for the products without
marine areas. -/
theorem areas_agree_iff {catalog : UgcCatalog} {sections : List ListedSection}
    (hsections : product.ugcSections = sections.map (·.toSection catalog))
    (hprepare : prepare product = .ok prepared) :
    (AgreeOnAreas product prepared ∧
        ∀ code ∈ listedCodes sections, SpelledInBoth product prepared code) ↔
      ∀ code ∈ listedCodes sections, code.bucket ≠ .marineZones := by
  constructor
  · rintro ⟨-, hspelled⟩ code hcode
    exact bucket_ne_of_spelled hsections hprepare (hspelled code hcode)
  · intro hmarine
    refine ⟨agree_of_bucket_ne hsections hprepare hmarine, ?_⟩
    intro code hcode
    obtain ⟨hlive, harchive⟩ := class_of_bucket (hmarine code hcode)
    constructor
    · rw [singleFilter_accepts]
      exact (exists_area_iff hsections (P := fun state number =>
        spell state (liveClass code.bucket) number = code.spelled)).mpr
          ⟨code, hcode, rfl, by rw [← hlive]; rfl⟩
    · have hrows := (describes_prepare hprepare).1.areas fun kind _ ugcCode =>
        kind = (areaKind code.bucket).toList ∧ ugcCode = code.spelled
      obtain ⟨s, hs, area, harea, hspell⟩ := (exists_area_iff hsections
        (P := fun state number => spell state (codeClass code.bucket) number = code.spelled)).mpr
          ⟨code, hcode, rfl, by rw [← harchive]; rfl⟩
      exact hrows.mpr ⟨s, hs, code.bucket, area, harea, rfl, hspell⟩

/-! ## A marine area -/

/-- A product with the areas of one section. -/
def areaProduct (catalog : UgcCatalog) (s : ListedSection) : ProductEnrichment ℚ where
  body := some (.generic ⟨some [s.toSection catalog], none, none, none⟩)
  issues := []

/-- The catalog without entries. -/
def emptyCatalog : UgcCatalog := ⟨fun _ => none, fun _ => none⟩

/-- The section `AMZ250`. -/
def marineSection : ListedSection where
  codes := [⟨"AM".toList, .zone, 250⟩]
  expires := 0
  stateLen := by decide

/-- A product with the area `AMZ250` is found by that code in the live filter, and not in the
archive. -/
theorem marine_areas_disagree :
    expandUgcBlock "AMZ250".toList = some (some marineSection.codes) ∧
      ∃ prepared, prepare (areaProduct emptyCatalog marineSection) = .ok prepared ∧
        liveAccepts (areaQuery none none none none (some "AMZ250".toList))
          (areaProduct emptyCatalog marineSection) = true ∧
        acceptsRows (areaQuery none none none none (some "AMZ250".toList)) prepared = false :=
  ⟨by decide +kernel, _, rfl, by decide +kernel, by decide +kernel⟩

/-- The section `IAC001`. -/
def countySection : ListedSection where
  codes := [⟨"IA".toList, .county, 1⟩]
  expires := 0
  stateLen := by decide

theorem areas_agree_iff_county :
    ∃ prepared, prepare (areaProduct emptyCatalog countySection) = .ok prepared ∧
      ((AgreeOnAreas (areaProduct emptyCatalog countySection) prepared ∧
          ∀ code ∈ listedCodes [countySection],
            SpelledInBoth (areaProduct emptyCatalog countySection) prepared code) ↔
        ∀ code ∈ listedCodes [countySection], code.bucket ≠ .marineZones) :=
  ⟨_, rfl, @areas_agree_iff _ _ emptyCatalog [countySection] rfl rfl⟩

end Live
