/-
# Wind, hail and issues in the live filter and in the archive

The live filter tests each criterion on its own: some entry of the product meets it.  The
archive looks for one row that meets all criteria for wind and hail together, and for one that
meets all criteria for issues.  The two agree exactly where criteria that are met one by one
are also met together (`criteria_agree_iff`).

Units and the labels of issues are as the parsers write them: without white space around them,
and the labels in lower case.
-/
import Emwin.Live.AreaAgreement

open Parser Persist Query

namespace Live

/-! ## Products and requests -/

/-- A product as the parsers build it; the units are known ones (`WindHailEntry.HasKnownUnits`). -/
structure ParsedProduct extends ProductEnrichment ℚ where
  trim_units : ∀ entry ∈ toProductEnrichment.windHailEntries, ∀ units ∈ entry.units,
    Str.trim units = units
  lower_kind : ∀ issue ∈ issues, normalizeLower issue.kind = issue.kind
  lower_code : ∀ issue ∈ issues, normalizeLower issue.code = issue.code

/-- A request for issues, wind and hail. -/
def criteriaQuery (issueKind issueCode windHailKind : Option Str)
    (minWindMph minHailInches : Option ℚ) : RowCriteria ℚ where
  issueKind := issueKind
  issueCode := issueCode
  windHailKind := windHailKind
  minWindMph := minWindMph
  minHailInches := minHailInches

/-- A field that is absent, or has a value that is not blank. -/
def HasValues (raw : Option Str) : Prop :=
  raw.isSome = true → (splitCsvValues raw normalizeLower).isSome = true

/-- Criteria for issues, wind and hail, whose fields have values. -/
structure Criteria where
  issueKind : Option Str
  issueCode : Option Str
  windHailKind : Option Str
  minWindMph : Option ℚ
  minHailInches : Option ℚ
  issueKind_values : HasValues issueKind
  issueCode_values : HasValues issueCode
  windHailKind_values : HasValues windHailKind

/-- The request with some criteria. -/
def Criteria.query (c : Criteria) : RowCriteria ℚ :=
  criteriaQuery c.issueKind c.issueCode c.windHailKind c.minWindMph c.minHailInches

/-! ## One entry and one criterion -/

/-- The label of an issue is among the values of a field. -/
def LabelAmong (raw : Option Str) (label : Str) : Prop :=
  ∀ values, splitCsvValues raw normalizeLower = some values → label ∈ values

/-- An entry is of the kinds asked for. -/
def MeetsKind (raw : Option Str) (entry : WindHailEntry ℚ) : Prop :=
  LabelAmong raw (windHailKindName entry.kind).toList

/-- An entry is a wind of the speed asked for. -/
def MeetsMinWind (minimum : Option ℚ) (entry : WindHailEntry ℚ) : Prop :=
  ∀ m, minimum = some m → meetsWind m entry = true

/-- An entry is hail of the size asked for. -/
def MeetsMinHail (minimum : Option ℚ) (entry : WindHailEntry ℚ) : Prop :=
  ∀ m, minimum = some m → meetsHail m entry = true

/-- A criterion that is given is met by some element. -/
def MetBySome {α : Type} (given : Bool) (elements : List α) (meets : α → Prop) : Prop :=
  given = true → ∃ x ∈ elements, meets x

theorem metBySome_congr {α : Type} {given : Bool} {elements : List α} {meets meets' : α → Prop}
    (h : ∀ x ∈ elements, meets x ↔ meets' x) :
    MetBySome given elements meets ↔ MetBySome given elements meets' :=
  imp_congr_right fun _ => exists_congr fun x => and_congr_right (h x)

/-- Every criterion that is given is met by some entry or issue. -/
structure MetSeparately (c : Criteria) (product : ProductEnrichment ℚ) : Prop where
  issueKind : MetBySome c.issueKind.isSome product.issues fun i => LabelAmong c.issueKind i.kind
  issueCode : MetBySome c.issueCode.isSome product.issues fun i => LabelAmong c.issueCode i.code
  windHailKind : MetBySome c.windHailKind.isSome product.windHailEntries (MeetsKind c.windHailKind)
  minWindMph : MetBySome c.minWindMph.isSome product.windHailEntries (MeetsMinWind c.minWindMph)
  minHailInches :
    MetBySome c.minHailInches.isSome product.windHailEntries (MeetsMinHail c.minHailInches)

/-- One issue meets all criteria for issues that are given, and one entry all those for wind and
hail. -/
structure MetTogether (c : Criteria) (product : ProductEnrichment ℚ) : Prop where
  issues : MetBySome (c.issueKind.isSome || c.issueCode.isSome) product.issues fun i =>
    LabelAmong c.issueKind i.kind ∧ LabelAmong c.issueCode i.code
  windHail : MetBySome (c.windHailKind.isSome || c.minWindMph.isSome || c.minHailInches.isSome)
    product.windHailEntries fun entry =>
      MeetsKind c.windHailKind entry ∧ MeetsMinWind c.minWindMph entry ∧
        MeetsMinHail c.minHailInches entry

/-- What is met together is met one by one. -/
theorem MetTogether.separately {c : Criteria} {product : ProductEnrichment ℚ}
    (h : MetTogether c product) : MetSeparately c product where
  issueKind := fun hgiven => by
    obtain ⟨issue, hissue, hkind, -⟩ := h.issues (by rw [hgiven]; rfl)
    exact ⟨issue, hissue, hkind⟩
  issueCode := fun hgiven => by
    obtain ⟨issue, hissue, -, hcode⟩ := h.issues (by rw [hgiven, Bool.or_true])
    exact ⟨issue, hissue, hcode⟩
  windHailKind := fun hgiven => by
    obtain ⟨entry, hentry, hkind, -⟩ := h.windHail (by rw [hgiven]; rfl)
    exact ⟨entry, hentry, hkind⟩
  minWindMph := fun hgiven => by
    obtain ⟨entry, hentry, -, hwind, -⟩ := h.windHail (by rw [hgiven, Bool.or_true]; rfl)
    exact ⟨entry, hentry, hwind⟩
  minHailInches := fun hgiven => by
    obtain ⟨entry, hentry, -, -, hhail⟩ := h.windHail (by rw [hgiven, Bool.or_true])
    exact ⟨entry, hentry, hhail⟩

/-! ## The live filter -/

/-- A field of labels in the live filter. -/
theorem all_csvValues_any {α : Type} {raw : Option Str} (hraw : HasValues raw) (elements : List α)
    (label : α → Str) :
    ((csvValues raw normalizeLower).all fun values =>
      elements.any fun x => decide (label x ∈ values)) = true ↔
      MetBySome raw.isSome elements fun x => LabelAmong raw (label x) := by
  rw [csvValues_eq]
  unfold MetBySome LabelAmong
  cases hsplit : splitCsvValues raw normalizeLower with
  | none =>
      have hnone : raw.isSome = false := by
        rw [Bool.eq_false_iff]
        intro hsome
        have hvalues := hraw hsome
        rw [hsplit] at hvalues
        cases hvalues
      rw [hnone]
      simp
  | some values =>
      have hsome : raw.isSome = true := by
        cases raw with
        | none => cases hsplit
        | some value => rfl
      rw [hsome]
      simp

/-- A threshold in the live filter. -/
theorem all_any_minimum {α : Type} (minimum : Option ℚ) (elements : List α)
    (meets : ℚ → α → Bool) :
    (minimum.all fun m => elements.any (meets m)) = true ↔
      MetBySome minimum.isSome elements fun x => ∀ m, minimum = some m → meets m x = true := by
  unfold MetBySome
  cases minimum <;> simp

theorem issueFilter_accepts (c : Criteria) (product : ParsedProduct) :
    (FileEventFilter.fromInput (inputOf c.query)).issues.accepts product.issues = true ↔
      MetBySome c.issueKind.isSome product.issues (fun i => LabelAmong c.issueKind i.kind) ∧
        MetBySome c.issueCode.isSome product.issues (fun i => LabelAmong c.issueCode i.code) := by
  show (true && _ && _) = true ↔ _
  rw [Bool.true_and, Bool.and_eq_true]
  refine (and_congr (all_csvValues_any c.issueKind_values product.issues
    fun issue => normalizeLower issue.kind) (all_csvValues_any c.issueCode_values product.issues
    fun issue => normalizeLower issue.code)).trans ?_
  refine and_congr (metBySome_congr fun issue hissue => ?_) (metBySome_congr fun issue hissue => ?_)
  · rw [product.lower_kind issue hissue]
  · rw [product.lower_code issue hissue]

theorem windHailFilter_accepts (c : Criteria) (product : ProductEnrichment ℚ) :
    (FileEventFilter.fromInput (inputOf c.query)).windHail.accepts product.body = true ↔
      MetBySome c.windHailKind.isSome product.windHailEntries (MeetsKind c.windHailKind) ∧
        MetBySome c.minWindMph.isSome product.windHailEntries (MeetsMinWind c.minWindMph) ∧
        MetBySome c.minHailInches.isSome product.windHailEntries
          (MeetsMinHail c.minHailInches) := by
  have hfields : ((csvValues c.windHailKind normalizeLower).all (fun kinds =>
      product.windHailEntries.any (meetsKinds kinds)) &&
      (c.minWindMph.all fun m => product.windHailEntries.any (meetsWind m)) &&
      (c.minHailInches.all fun m => product.windHailEntries.any (meetsHail m))) = true ↔
      MetBySome c.windHailKind.isSome product.windHailEntries (MeetsKind c.windHailKind) ∧
        MetBySome c.minWindMph.isSome product.windHailEntries (MeetsMinWind c.minWindMph) ∧
        MetBySome c.minHailInches.isSome product.windHailEntries
          (MeetsMinHail c.minHailInches) := by
    rw [Bool.and_eq_true, Bool.and_eq_true, and_assoc]
    exact and_congr (all_csvValues_any c.windHailKind_values _ _)
      (and_congr (all_any_minimum _ _ _) (all_any_minimum _ _ _))
  rw [← hfields]
  show (if (none.isSome || (csvValues c.windHailKind normalizeLower).isSome ||
      c.minWindMph.isSome || c.minHailInches.isSome) = false then true
    else if product.windHailEntries = [] then
      (csvValues c.windHailKind normalizeLower).isNone && c.minWindMph.isNone &&
        c.minHailInches.isNone
    else _) = true ↔ _
  split
  · next hnone =>
      simp only [Bool.or_eq_false_iff, Option.isSome_eq_false_iff,
        Option.isNone_iff_eq_none] at hnone
      obtain ⟨⟨⟨-, hkinds⟩, hwind⟩, hhail⟩ := hnone
      rw [hkinds, hwind, hhail]
      rfl
  · split
    · next hempty =>
        rw [hempty]
        cases csvValues c.windHailKind normalizeLower <;> cases c.minWindMph <;>
          cases c.minHailInches <;> simp
    · rfl

/-- The live filter accepts what meets every criterion one by one. -/
theorem liveAccepts_iff (c : Criteria) (product : ParsedProduct) :
    liveAccepts c.query product.toProductEnrichment = true ↔
      MetSeparately c product.toProductEnrichment := by
  show (_ && true && _) = true ↔ _
  rw [Bool.and_true, Bool.and_eq_true, issueFilter_accepts, windHailFilter_accepts]
  constructor
  · rintro ⟨⟨hkind, hcode⟩, hwindHail, hwind, hhail⟩
    exact ⟨hkind, hcode, hwindHail, hwind, hhail⟩
  · rintro ⟨hkind, hcode, hwindHail, hwind, hhail⟩
    exact ⟨⟨hkind, hcode⟩, hwindHail, hwind, hhail⟩

/-! ## The archive -/

/-- The labels in rows are the names that the live filter uses. -/
theorem windHailLabel_eq (kind : WindHailKind) : windHailLabel kind = windHailKindName kind := by
  cases kind <;> rfl

/-- The rows of wind are the entries of wind, if these have units. -/
theorem isWindRow_iff {m : ℚ} {entry : WindHailEntry ℚ}
    (hunits : isWindEntry entry = true → entry.units.isSome = true)
    (htrim : ∀ units ∈ entry.units, Str.trim units = units) :
    IsWindRow m (windHailLabel entry.kind).toList entry.numericValue entry.units ↔
      meetsWind m entry = true := by
  have hkind : ((windHailLabel entry.kind).toList = "legacy_wind".toList ∨
      (windHailLabel entry.kind).toList = "max_wind_gust".toList) ↔ isWindEntry entry = true := by
    unfold isWindEntry
    cases entry.kind <;> decide
  unfold IsWindRow meetsWind
  rw [hkind, Bool.and_eq_true]
  refine and_congr_right fun hwind => ?_
  obtain ⟨units, hsome⟩ := Option.isSome_iff_exists.mp (hunits hwind)
  have hspeed : ∀ x, rowWindSpeed x entry.units = windSpeedMph x units := by
    intro x
    unfold rowWindSpeed windSpeedMph normalizeUpper
    rw [hsome, Option.getD_some, htrim units hsome]
  simp only [hspeed]
  rw [hsome]
  cases entry.numericValue <;> simp

theorem isHailRow_iff {m : ℚ} {entry : WindHailEntry ℚ} :
    IsHailRow m (windHailLabel entry.kind).toList entry.numericValue ↔
      meetsHail m entry = true := by
  have hkind : ((windHailLabel entry.kind).toList = "legacy_hail".toList ∨
      (windHailLabel entry.kind).toList = "max_hail_size".toList) ↔ isHailEntry entry = true := by
    unfold isHailEntry
    cases entry.kind <;> decide
  unfold IsHailRow meetsHail
  rw [hkind, Bool.and_eq_true]
  refine and_congr_right fun _ => ?_
  cases entry.numericValue <;> simp

/-- The archive accepts what meets all criteria together. -/
theorem acceptsRows_iff (c : Criteria) {product : ParsedProduct} {prepared : PreparedProduct ℚ}
    (hprepare : prepare product.toProductEnrichment = .ok prepared)
    (hunits : ∀ entry ∈ product.windHailEntries, isWindEntry entry = true →
      entry.units.isSome = true) :
    acceptsRows c.query prepared = true ↔ MetTogether c product.toProductEnrichment := by
  show (true && _ && _) = true ↔ _
  rw [Bool.true_and, Bool.and_eq_true, accepts_issueConditions hprepare,
    accepts_windHailConditions hprepare]
  have htags : (TagOf product.windHailEntries fun kind value units =>
      (∀ values, splitCsvValues c.windHailKind normalizeLower = some values → kind ∈ values) ∧
      (∀ m, c.minWindMph = some m → IsWindRow m kind value units) ∧
      ∀ m, c.minHailInches = some m → IsHailRow m kind value) ↔
      ∃ entry ∈ product.windHailEntries, MeetsKind c.windHailKind entry ∧
        MeetsMinWind c.minWindMph entry ∧ MeetsMinHail c.minHailInches entry := by
    refine exists_congr fun entry => and_congr_right fun hentry => and_congr ?_ (and_congr ?_ ?_)
    · rw [windHailLabel_eq]
      rfl
    · exact forall_congr' fun m => imp_congr_right fun _ =>
        isWindRow_iff (hunits entry hentry) (product.trim_units entry hentry)
    · exact forall_congr' fun m => imp_congr_right fun _ => isHailRow_iff
  constructor
  · rintro ⟨hissues, hwindHail⟩
    refine ⟨fun hgiven => hissues (Bool.or_eq_true _ _ ▸ hgiven), fun hgiven => htags.mp ?_⟩
    rw [Bool.or_eq_true, Bool.or_eq_true, or_assoc] at hgiven
    exact hwindHail hgiven
  · rintro ⟨hissues, hwindHail⟩
    refine ⟨fun hgiven => hissues (by rwa [Bool.or_eq_true]), fun hgiven => htags.mpr ?_⟩
    exact hwindHail (by rwa [Bool.or_eq_true, Bool.or_eq_true, or_assoc])

/-! ## Both -/

/-- The live filter and the archive agree on a product exactly if criteria for it that are met
one by one are also met together. -/
theorem criteria_agree_iff (c : Criteria) {product : ParsedProduct} {prepared : PreparedProduct ℚ}
    (hprepare : prepare product.toProductEnrichment = .ok prepared)
    (hunits : ∀ entry ∈ product.windHailEntries, isWindEntry entry = true →
      entry.units.isSome = true) :
    liveAccepts c.query product.toProductEnrichment = acceptsRows c.query prepared ↔
      (MetSeparately c product.toProductEnrichment →
        MetTogether c product.toProductEnrichment) := by
  rw [Bool.eq_iff_iff, liveAccepts_iff, acceptsRows_iff c hprepare hunits]
  exact ⟨fun h => h.mp, fun h => ⟨h, MetTogether.separately⟩⟩

/-! ## What is met together -/

/-- No entry is both wind and hail, so thresholds for both are never met together. -/
theorem not_metTogether_of_thresholds {c : Criteria} {product : ProductEnrichment ℚ} {m m' : ℚ}
    (hwind : c.minWindMph = some m) (hhail : c.minHailInches = some m') :
    ¬ MetTogether c product := by
  intro h
  obtain ⟨entry, -, -, hmeetsWind, hmeetsHail⟩ := h.windHail (by rw [hwind, hhail]; simp)
  have hisWind := (Bool.and_eq_true _ _ ▸ hmeetsWind m hwind : isWindEntry entry = true ∧ _).1
  have hisHail := (Bool.and_eq_true _ _ ▸ hmeetsHail m' hhail : isHailEntry entry = true ∧ _).1
  unfold isWindEntry at hisWind
  unfold isHailEntry at hisHail
  revert hisWind hisHail
  cases entry.kind <;> decide

/-- Criteria on a product with one entry and one issue are met together if they are met. -/
theorem metTogether_of_single {c : Criteria} {product : ProductEnrichment ℚ}
    {entry : WindHailEntry ℚ} {issue : ProductParseIssue}
    (hentry : product.windHailEntries = [entry]) (hissue : product.issues = [issue])
    (h : MetSeparately c product) : MetTogether c product := by
  have habsent : ∀ raw : Option Str, raw.isSome = false → ∀ label, LabelAmong raw label := by
    intro raw hraw label values hvalues
    cases raw with
    | none => cases hvalues
    | some value => cases hraw
  obtain ⟨hkind, hcode, hwindHail, hwind, hhail⟩ := h
  simp only [hentry, hissue, MetBySome, List.mem_singleton, exists_eq_left]
    at hkind hcode hwindHail hwind hhail
  constructor
  · intro _
    rw [hissue]
    refine ⟨issue, List.mem_singleton.mpr rfl, ?_, ?_⟩
    · by_cases hgiven : c.issueKind.isSome = true
      · exact hkind hgiven
      · exact habsent _ (Bool.eq_false_iff.mpr hgiven) _
    · by_cases hgiven : c.issueCode.isSome = true
      · exact hcode hgiven
      · exact habsent _ (Bool.eq_false_iff.mpr hgiven) _
  · intro _
    rw [hentry]
    refine ⟨entry, List.mem_singleton.mpr rfl, ?_, ?_, ?_⟩
    · by_cases hgiven : c.windHailKind.isSome = true
      · exact hwindHail hgiven
      · exact habsent _ (Bool.eq_false_iff.mpr hgiven) _
    · intro m hm
      exact hwind (by rw [hm]; rfl) m hm
    · intro m hm
      exact hhail (by rw [hm]; rfl) m hm

/-! ## A storm with wind and hail -/

/-- A product with the tags of `WIND...60MPH HAIL...1.75IN`. -/
def stormProduct : ParsedProduct where
  body := some (.generic ⟨none, none, none,
    some [⟨.legacyWind, some 60, some "MPH".toList, none⟩,
      ⟨.legacyHail, some (7 / 4), some "IN".toList, none⟩]⟩)
  issues := []
  trim_units := by decide
  lower_kind := by simp
  lower_code := by simp

/-- Wind of 50 miles per hour and hail of one inch. -/
def stormCriteria : Criteria where
  issueKind := none
  issueCode := none
  windHailKind := none
  minWindMph := some 50
  minHailInches := some 1
  issueKind_values := fun h => by cases h
  issueCode_values := fun h => by cases h
  windHailKind_values := fun h => by cases h

/-- The storm is found in the live filter, and not in the archive. -/
theorem storm_disagrees :
    ∃ prepared, prepare stormProduct.toProductEnrichment = .ok prepared ∧
      liveAccepts stormCriteria.query stormProduct.toProductEnrichment = true ∧
      acceptsRows stormCriteria.query prepared = false :=
  ⟨_, rfl, by decide +kernel, by decide +kernel⟩

theorem criteria_agree_iff_storm :
    ∃ prepared, prepare stormProduct.toProductEnrichment = .ok prepared ∧
      (∀ entry ∈ stormProduct.windHailEntries, isWindEntry entry = true →
        entry.units.isSome = true) ∧
      (liveAccepts stormCriteria.query stormProduct.toProductEnrichment =
          acceptsRows stormCriteria.query prepared ↔
        (MetSeparately stormCriteria stormProduct.toProductEnrichment →
          MetTogether stormCriteria stormProduct.toProductEnrichment)) :=
  ⟨_, rfl, by decide +kernel, criteria_agree_iff stormCriteria rfl (by decide +kernel)⟩

end Live
