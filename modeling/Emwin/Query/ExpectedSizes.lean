/-
# Sizes that are expected to fit

The builder binds sizes and limits as numbers of 64 bits with a sign, and expects them to fit.
Limits are brought into a small range first, so they do.  Sizes come from the request as they
are; the checks compare the two with each other and with nothing else.  A request that is
accepted makes the builder panic exactly if one of its sizes has 64 bits
(`archive_requests_build_iff`).
-/
import Emwin.Lib.Results
import Emwin.Query.Aggregates

open Sql Chrono

namespace Query

/-! ## Panics -/

/-- A computation that ends in a panic. -/
def Panics {α : Type} (result : Except QueryError α) : Prop :=
  ∃ message, result = .error (.panicked message)

section

variable {α β : Type}

@[simp] theorem panics_ok (a : α) : ¬ Panics (.ok a : Except QueryError α) := by
  rintro ⟨_, ⟨⟩⟩

@[simp] theorem panics_invalidRequest (message : Str) :
    ¬ Panics (.error (.invalidRequest message) : Except QueryError α) := by
  rintro ⟨_, ⟨⟩⟩

@[simp] theorem panics_invalid (message : String) :
    ¬ Panics (invalid message : Except QueryError α) :=
  panics_invalidRequest _

@[simp] theorem panics_panicked (message : Str) :
    Panics (.error (.panicked message) : Except QueryError α) :=
  ⟨message, rfl⟩

@[simp] theorem panics_pure (a : α) : ¬ Panics (pure a : Except QueryError α) :=
  panics_ok a

@[simp] theorem panics_ite (c : Prop) [Decidable c] (x y : Except QueryError α) :
    Panics (if c then x else y) ↔ if c then Panics x else Panics y := by
  split <;> rfl

/-- A sequence panics where it panics first. -/
@[simp] theorem panics_bind (x : Except QueryError α) (f : α → Except QueryError β) :
    Panics (x >>= f) ↔ Panics x ∨ ∃ a, x = .ok a ∧ Panics (f a) := by
  cases x with
  | error e =>
      refine ⟨fun ⟨message, h⟩ => .inl ⟨message, ?_⟩, fun h => ?_⟩
      · obtain rfl := Except.error.inj h
        rfl
      · rcases h with ⟨message, h⟩ | ⟨a, ⟨⟩, _⟩
        obtain rfl := Except.error.inj h
        exact ⟨message, rfl⟩
  | ok a =>
      refine ⟨fun h => .inr ⟨a, rfl, h⟩, fun h => ?_⟩
      rcases h with h | ⟨a', ha, h⟩
      · exact absurd h (panics_ok a)
      · obtain rfl := Except.ok.inj ha
        exact h

/-- Two checks that may panic, and two steps that do not. -/
theorem panics_two_of_four {γ δ ε : Type} {x : Except QueryError α} {y : Except QueryError β}
    {z : Except QueryError γ} {w : Except QueryError δ} {f : α → β → γ → δ → ε}
    (hz : ¬ Panics z) (hw : ¬ Panics w) :
    Panics (x >>= fun a => y >>= fun b => z >>= fun c => w >>= fun d =>
      (.ok (f a b c d) : Except QueryError ε)) ↔ Panics x ∨ (∃ a, x = .ok a) ∧ Panics y := by
  simp [hz, hw]

@[simp] theorem invalid_ne_ok (message : String) (a : α) : invalid message ≠ .ok a := by
  rintro ⟨⟩

@[simp] theorem panics_map (f : α → β) (x : Except QueryError α) :
    Panics (x.map f) ↔ Panics x := by
  cases x with
  | error e => exact exists_congr fun message => by simp [Except.map]
  | ok a => exact iff_of_false (panics_ok _) (panics_ok _)

end

/-! ## Checks -/

@[simp] theorem not_panics_validateRange (bound : Float) (message : String) (value : Float) :
    ¬ Panics (validateRange bound message value) := by
  unfold validateRange
  split <;> simp

@[simp] theorem not_panics_validateArchiveSizeInputs (minSize maxSize : Option ℕ) :
    ¬ Panics (validateArchiveSizeInputs minSize maxSize) := by
  unfold validateArchiveSizeInputs
  repeat' split
  all_goals simp

@[simp] theorem not_panics_validateBox (minLat maxLat minLon maxLon : Option Float) :
    ¬ Panics (validateBox minLat maxLat minLon maxLon) := by
  unfold validateBox
  split <;> simp [validateLat, validateLon]

@[simp] theorem not_panics_validatePoint (lat lon : Option Float) :
    ¬ Panics (validatePoint lat lon) := by
  unfold validatePoint
  split <;> simp [validateLat, validateLon]

@[simp] theorem not_panics_validateDistance (lat lon distanceMiles : Option Float) :
    ¬ Panics (validateDistance lat lon distanceMiles) := by
  unfold validateDistance
  repeat' split
  all_goals simp

/-- The checks do not panic. -/
@[simp] theorem not_panics_validate (query : ProductListQuery) : ¬ Panics query.validate := by
  simp [ProductListQuery.validate]

/-- A box that passes the checks is complete or absent. -/
theorem validateBox_eq_ok {minLat maxLat minLon maxLon : Option Float}
    (h : validateBox minLat maxLat minLon maxLon = .ok ()) :
    (minLat = none ∧ maxLat = none ∧ minLon = none ∧ maxLon = none) ∨
      (minLat.isSome ∧ maxLat.isSome ∧ minLon.isSome ∧ maxLon.isSome) := by
  unfold validateBox at h
  split at h
  · exact .inl ⟨rfl, rfl, rfl, rfl⟩
  · exact .inr ⟨rfl, rfl, rfl, rfl⟩
  · cases h

/-- So is a point. -/
theorem validatePoint_eq_ok {lat lon : Option Float} (h : validatePoint lat lon = .ok ()) :
    (lat = none ∧ lon = none) ∨ (lat.isSome ∧ lon.isSome) := by
  unfold validatePoint at h
  split at h
  · exact .inl ⟨rfl, rfl⟩
  · exact .inr ⟨rfl, rfl⟩
  · cases h

/-- The parts of the checks. -/
theorem validate_eq_ok {query : ProductListQuery} (h : query.validate = .ok ()) :
    validateBox query.minLat query.maxLat query.minLon query.maxLon = .ok () ∧
      validatePoint query.lat query.lon = .ok () := by
  obtain ⟨_, -, h⟩ := Results.bind_eq_ok.mp h
  obtain ⟨_, hbox, h⟩ := Results.bind_eq_ok.mp h
  obtain ⟨_, hpoint, -⟩ := Results.bind_eq_ok.mp h
  exact ⟨hbox, hpoint⟩

/-- **Places.**  What follows the checks finds a complete box, or none. -/
@[simp] theorem not_panics_validateBbox (query : ProductListQuery) :
    ¬ Panics (validateBbox query) := by
  rw [validateBbox, panics_bind]
  rintro (h | ⟨_, hvalid, h⟩)
  · exact not_panics_validate query h
  · rcases validateBox_eq_ok (validate_eq_ok hvalid).1 with
      ⟨hminLat, hmaxLat, hminLon, hmaxLon⟩ | ⟨hminLat, hmaxLat, hminLon, hmaxLon⟩
    · simp [hminLat, hmaxLat, hminLon, hmaxLon] at h
    · obtain ⟨minLat, hminLat⟩ := Option.isSome_iff_exists.mp hminLat
      obtain ⟨maxLat, hmaxLat⟩ := Option.isSome_iff_exists.mp hmaxLat
      obtain ⟨minLon, hminLon⟩ := Option.isSome_iff_exists.mp hminLon
      obtain ⟨maxLon, hmaxLon⟩ := Option.isSome_iff_exists.mp hmaxLon
      simp [hminLat, hmaxLat, hminLon, hmaxLon] at h

@[simp] theorem not_panics_validatePointDistance (query : ProductListQuery) :
    ¬ Panics (validatePointDistance query) := by
  rw [validatePointDistance, panics_bind]
  rintro (h | ⟨_, hvalid, h⟩)
  · exact not_panics_validate query h
  · rcases validatePoint_eq_ok (validate_eq_ok hvalid).2 with ⟨hlat, hlon⟩ | ⟨hlat, hlon⟩
    · simp [hlat, hlon] at h
    · obtain ⟨lat, hlat⟩ := Option.isSome_iff_exists.mp hlat
      obtain ⟨lon, hlon⟩ := Option.isSome_iff_exists.mp hlon
      simp [hlat, hlon] at h

@[simp] theorem not_panics_appendSpatialFilter (query : ProductListQuery) :
    ¬ Panics (appendSpatialFilter query) := by
  simp [appendSpatialFilter]

@[simp] theorem not_panics_appendFeatureSpatialFilter (query : ProductListQuery) :
    ¬ Panics (appendFeatureSpatialFilter query) := by
  simp [appendFeatureSpatialFilter]

/-! ## Filters -/

theorem not_panics_parseEtns (values : List Str) : ¬ Panics (parseEtns values) := by
  fun_induction parseEtns values with
  | case1 => simp
  | case2 raw rest rawValue hempty ih => exact ih
  | case3 raw rest rawValue hne err herr => simp
  | case4 raw rest rawValue hne value hvalue ih => simpa using ih

@[simp] theorem not_panics_appendVtecAliasFilters (table : String) (query : ProductListQuery) :
    ¬ Panics (appendVtecAliasFilters table query) := by
  simp [appendVtecAliasFilters, splitCsvI64, not_panics_parseEtns]

@[simp] theorem not_panics_appendVtecExists (query : ProductListQuery) :
    ¬ Panics (appendVtecExists query) := by
  simp [appendVtecExists]

@[simp] theorem not_panics_appendFacetAliasFilters (dimension : FacetDimension)
    (query : ProductListQuery) : ¬ Panics (appendFacetAliasFilters dimension query) := by
  cases dimension <;> simp [appendFacetAliasFilters]

@[simp] theorem not_panics_appendTimeseriesMeasure (measure : TimeseriesMeasure)
    (query : ProductListQuery) : ¬ Panics (appendTimeseriesMeasure measure query) := by
  cases measure <;> simp [appendTimeseriesMeasure]

/-- Sizes that fit in 63 bits. -/
def SizesFit (minSize maxSize : Option ℕ) : Prop :=
  (∀ size ∈ minSize, size < 2 ^ 63) ∧ ∀ size ∈ maxSize, size < 2 ^ 63

instance (minSize maxSize : Option ℕ) : Decidable (SizesFit minSize maxSize) :=
  inferInstanceAs (Decidable (_ ∧ _))

theorem panics_bindSize_iff (size : Option ℕ) :
    Panics (bindSize size) ↔ ¬ ∀ n ∈ size, n < 2 ^ 63 := by
  cases size with
  | none => exact iff_of_false (panics_ok _) (not_not.mpr (by rintro _ ⟨⟩))
  | some size =>
      have hall : (∀ n ∈ some size, n < 2 ^ 63) ↔ size < 2 ^ 63 := by
        simp only [Option.mem_some_iff, forall_eq']
      rw [bindSize, hall]
      split
      · next hfits => exact iff_of_false (panics_ok _) (not_not.mpr hfits)
      · next hlarge => exact iff_of_true (panics_panicked _) hlarge

/-- A size that fits is bound. -/
theorem exists_bindSize {size : Option ℕ} (h : ∀ n ∈ size, n < 2 ^ 63) :
    ∃ bound, bindSize size = .ok bound := by
  cases size with
  | none => exact ⟨_, rfl⟩
  | some size => exact ⟨_, if_pos (h size rfl)⟩

/-- **Filters.**  The filters panic exactly if a size does not fit. -/
@[simp] theorem panics_appendProductFilters_iff (query : ProductListQuery) :
    Panics (appendProductFilters query) ↔ ¬ SizesFit query.minSize query.maxSize := by
  have hsteps : Panics (appendProductFilters query) ↔ Panics (bindSize query.minSize) ∨
      (∃ low, bindSize query.minSize = .ok low) ∧ Panics (bindSize query.maxSize) :=
    panics_two_of_four (not_panics_appendVtecExists query) (not_panics_appendSpatialFilter query)
  rw [hsteps, SizesFit, not_and_or, panics_bindSize_iff, panics_bindSize_iff]
  by_cases hmin : ∀ n ∈ query.minSize, n < 2 ^ 63
  · rw [and_iff_right (exists_bindSize hmin)]
  · exact iff_of_true (.inl hmin) (.inl hmin)

@[simp] theorem panics_appendFeatureFilters_iff (query : FeatureListQuery) :
    Panics (appendFeatureFilters query) ↔
      ¬ SizesFit query.filters.minSize query.filters.maxSize := by
  simp [appendFeatureFilters]

/-! ## Queries -/

theorem panics_archivedProductsSql_iff (query : ProductListQuery) (cursor : Option ProductCursor) :
    Panics (archivedProductsSql query cursor) ↔ ¬ SizesFit query.minSize query.maxSize := by
  rw [archivedProductsSql_eq, panics_map, panics_appendProductFilters_iff]

theorem panics_archivedFeaturesSql_iff (query : FeatureListQuery) (cursor : Option FeatureCursor) :
    Panics (archivedFeaturesSql query cursor) ↔
      ¬ SizesFit query.filters.minSize query.filters.maxSize := by
  rw [archivedFeaturesSql_eq, panics_map, panics_appendFeatureFilters_iff]

theorem panics_facetAggregateSql_iff (query : FacetAggregateQuery) :
    Panics (facetAggregateSql query) ↔ ¬ SizesFit query.filters.minSize query.filters.maxSize := by
  have hlimit : bindLimit (max 1 (min query.limit 100)) =
      .ok (.int (max 1 (min query.limit 100) : ℕ)) := bindLimit_of_le (by omega)
  simp [facetAggregateSql, hlimit]

/-- A timeseries that ends before it starts, or has too many buckets, is refused first. -/
theorem panics_timeseriesAggregateSql_iff (query : TimeseriesAggregateQuery) :
    Panics (timeseriesAggregateSql query) ↔
      query.start < query.stop ∧ query.bucketCount ≤ 1000 ∧
        ¬ SizesFit query.filters.minSize query.filters.maxSize := by
  rw [← not_le, ← not_lt (a := 1000)]
  by_cases hlate : query.stop ≤ query.start
  · simp [timeseriesAggregateSql, hlate]
  · by_cases hmany : 1000 < query.bucketCount
    · simp [timeseriesAggregateSql, hlate, hmany]
    · simp [timeseriesAggregateSql, hlate, hmany]

theorem panics_cellAggregateSql_iff (query : CellAggregateQuery) :
    Panics (cellAggregateSql query) ↔ 1 ≤ query.precision ∧ query.precision ≤ 6 ∧
      ¬ SizesFit query.filters.minSize query.filters.maxSize := by
  have hlimit : bindLimit (max 1 (min query.limit 1000)) =
      .ok (.int (max 1 (min query.limit 1000) : ℕ)) := bindLimit_of_le (by omega)
  by_cases hprecision : 1 ≤ query.precision ∧ query.precision ≤ 6
  · simp [cellAggregateSql, hlimit, hprecision]
  · simp [cellAggregateSql, hprecision]
    tauto

/-! ## Requests -/

@[simp] theorem not_panics_parseArchiveBool (name : String) (raw : Option Str) :
    ¬ Panics (parseArchiveBool name raw) := by
  unfold parseArchiveBool
  repeat' split
  all_goals simp

/-- Building a request does not panic. -/
@[simp] theorem not_panics_intoProductListQuery (input : ArchiveFilterInput) (defaultLimit : ℕ)
    (limit : Option ℕ) (cursor : Option Str) :
    ¬ Panics (input.intoProductListQuery defaultLimit limit cursor) := by
  simp [ArchiveFilterInput.intoProductListQuery]

/-- The sizes of a request are those that were given. -/
theorem sizes_of_intoProductListQuery {input : ArchiveFilterInput} {defaultLimit : ℕ}
    {limit : Option ℕ} {cursor : Option Str} {query : ProductListQuery}
    (h : input.intoProductListQuery defaultLimit limit cursor = .ok query) :
    query.minSize = input.minSize ∧ query.maxSize = input.maxSize := by
  unfold ArchiveFilterInput.intoProductListQuery at h
  iterate 7 obtain ⟨_, -, h⟩ := Results.bind_eq_ok.mp h
  obtain ⟨_, -, h⟩ := Results.bind_eq_ok.mp h
  obtain rfl := Except.ok.inj h
  exact ⟨rfl, rfl⟩

theorem not_panics_parseNamed {T : Type} (values : List T) (asStr : T → Str) (what : String)
    (value : Str) : ¬ Panics (parseNamed values asStr what value) := by
  unfold parseNamed
  split <;> simp

theorem not_panics_parseRequiredEnumArg {T : Type} {fromStr : Str → Except QueryError T}
    (h : ∀ value, ¬ Panics (fromStr value)) (name : String) (raw : Str) :
    ¬ Panics (parseRequiredEnumArg fromStr name raw) := by
  rintro ⟨message, hpanic⟩
  unfold parseRequiredEnumArg at hpanic
  cases hfound : fromStr (Str.trim raw) with
  | ok value =>
      rw [hfound] at hpanic
      cases hpanic
  | error e =>
      rw [hfound] at hpanic
      cases e with
      | invalidRequest _ => cases hpanic
      | database => cases hpanic
      | panicked text => exact h _ ⟨text, hfound⟩

theorem not_panics_parseOptionalEnumArg {T : Type} {fromStr : Str → Except QueryError T}
    (h : ∀ value, ¬ Panics (fromStr value)) (name : String) (raw : Option Str) :
    ¬ Panics (parseOptionalEnumArg fromStr name raw) := by
  unfold parseOptionalEnumArg
  split
  · simp
  · rw [panics_map]
    exact not_panics_parseRequiredEnumArg h name _

theorem not_panics_featureKind (value : Str) : ¬ Panics (FeatureKind.fromStr value) := by
  unfold FeatureKind.fromStr
  split <;> simp

theorem not_panics_facetDimension (value : Str) : ¬ Panics (FacetDimension.fromStr value) :=
  not_panics_parseNamed _ _ _ value

theorem not_panics_timeseriesMeasure (value : Str) : ¬ Panics (TimeseriesMeasure.fromStr value) :=
  not_panics_parseNamed _ _ _ value

theorem not_panics_timeseriesBucket (value : Str) : ¬ Panics (TimeseriesBucket.fromStr value) :=
  not_panics_parseNamed _ _ _ value

theorem not_panics_cellMeasure (value : Str) : ¬ Panics (CellMeasure.fromStr value) :=
  not_panics_parseNamed _ _ _ value

/-- A request that is built without a panic panics where its query does. -/
theorem not_panics_bind_iff {α β : Type} {x : Except QueryError α} {f : α → Except QueryError β}
    {P : α → Prop} (hx : ¬ Panics x) (hf : ∀ a, x = .ok a → (Panics (f a) ↔ ¬ P a)) :
    ¬ Panics (x >>= f) ↔ ∀ a, x = .ok a → P a := by
  rw [panics_bind, not_or, not_exists]
  exact ⟨fun h a ha => not_not.mp fun hP => h.2 a ⟨ha, (hf a ha).mpr hP⟩,
    fun h => ⟨hx, fun a ⟨ha, hpanic⟩ => (hf a ha).mp hpanic (h a ha)⟩⟩

section

variable (input : ArchiveFilterInput) (defaultLimit : ℕ) (limit : Option ℕ) (cursor : Option Str)

/-- **Products.**  A page of products can be built exactly if the sizes fit. -/
theorem products_build_iff (after : Option ProductCursor) :
    ¬ Panics (input.intoProductListQuery defaultLimit limit cursor >>= fun query =>
        archivedProductsSql query after) ↔
      ∀ query, input.intoProductListQuery defaultLimit limit cursor = .ok query →
        SizesFit input.minSize input.maxSize := by
  refine not_panics_bind_iff (not_panics_intoProductListQuery _ _ _ _) fun query hquery => ?_
  obtain ⟨hmin, hmax⟩ := sizes_of_intoProductListQuery hquery
  rw [panics_archivedProductsSql_iff, hmin, hmax]

/-- **Features.**  So can a page of features. -/
theorem features_build_iff (kind : Option Str) (after : Option FeatureCursor) :
    ¬ Panics (buildFeatureListQuery input kind defaultLimit limit cursor >>= fun query =>
        archivedFeaturesSql query after) ↔
      ∀ query, buildFeatureListQuery input kind defaultLimit limit cursor = .ok query →
        SizesFit input.minSize input.maxSize := by
  refine not_panics_bind_iff ?_ fun query hquery => ?_
  · simp [buildFeatureListQuery, not_panics_parseOptionalEnumArg not_panics_featureKind]
  · obtain ⟨products, hproducts, hquery⟩ := Results.bind_eq_ok.mp hquery
    obtain ⟨_, -, hquery⟩ := Results.bind_eq_ok.mp hquery
    obtain ⟨_, -, hquery⟩ := Results.bind_eq_ok.mp hquery
    obtain rfl := Except.ok.inj hquery
    obtain ⟨hmin, hmax⟩ := sizes_of_intoProductListQuery hproducts
    rw [panics_archivedFeaturesSql_iff, hmin, hmax]

/-- **Facets.** -/
theorem facets_build_iff (dimension : Str) :
    ¬ Panics (buildFacetAggregateQuery input dimension limit >>= facetAggregateSql) ↔
      ∀ query, buildFacetAggregateQuery input dimension limit = .ok query →
        SizesFit input.minSize input.maxSize := by
  refine not_panics_bind_iff ?_ fun query hquery => ?_
  · simp [buildFacetAggregateQuery, not_panics_parseRequiredEnumArg not_panics_facetDimension]
  · obtain ⟨products, hproducts, hquery⟩ := Results.bind_eq_ok.mp hquery
    obtain ⟨_, -, hquery⟩ := Results.bind_eq_ok.mp hquery
    obtain ⟨_, -, hquery⟩ := Results.bind_eq_ok.mp hquery
    obtain rfl := Except.ok.inj hquery
    obtain ⟨hmin, hmax⟩ := sizes_of_intoProductListQuery hproducts
    rw [panics_facetAggregateSql_iff, hmin, hmax]

/-- **Timeseries.**  One whose ends or buckets are refused has no query. -/
theorem timeseries_build_iff (measure : Str) (start stop : DateTime) (bucket : Str) :
    ¬ Panics (buildTimeseriesAggregateQuery input measure start stop bucket >>=
        timeseriesAggregateSql) ↔
      ∀ query, buildTimeseriesAggregateQuery input measure start stop bucket = .ok query →
        query.start < query.stop ∧ query.bucketCount ≤ 1000 →
          SizesFit input.minSize input.maxSize := by
  refine not_panics_bind_iff ?_ fun query hquery => ?_
  · simp [buildTimeseriesAggregateQuery,
      not_panics_parseRequiredEnumArg not_panics_timeseriesMeasure,
      not_panics_parseRequiredEnumArg not_panics_timeseriesBucket]
  · obtain ⟨products, hproducts, hquery⟩ := Results.bind_eq_ok.mp hquery
    obtain ⟨_, -, hquery⟩ := Results.bind_eq_ok.mp hquery
    obtain ⟨_, -, hquery⟩ := Results.bind_eq_ok.mp hquery
    obtain ⟨_, -, hquery⟩ := Results.bind_eq_ok.mp hquery
    obtain rfl := Except.ok.inj hquery
    obtain ⟨hmin, hmax⟩ := sizes_of_intoProductListQuery hproducts
    rw [panics_timeseriesAggregateSql_iff, hmin, hmax, Classical.not_imp, and_assoc]

/-- A request for cells that passes the checks has a precision of one to six. -/
theorem precision_of_validate {query : CellAggregateQuery} (h : query.validate = .ok ()) :
    1 ≤ query.precision ∧ query.precision ≤ 6 := by
  obtain ⟨_, -, h⟩ := Results.bind_eq_ok.mp h
  obtain ⟨_, -, h⟩ := Results.bind_eq_ok.mp h
  split at h
  · assumption
  · cases h

/-- **Cells.** -/
theorem cells_build_iff (measure : Str) (precision : ℕ) :
    ¬ Panics (buildCellAggregateQuery input measure precision limit >>= cellAggregateSql) ↔
      ∀ query, buildCellAggregateQuery input measure precision limit = .ok query →
        SizesFit input.minSize input.maxSize := by
  refine not_panics_bind_iff ?_ fun query hquery => ?_
  · have hbox : ∀ filters, ¬ Panics (validateRequiredBboxForCells filters) := by
      intro filters
      unfold validateRequiredBboxForCells
      split <;> simp
    simp [buildCellAggregateQuery, CellAggregateQuery.validate, hbox,
      not_panics_parseRequiredEnumArg not_panics_cellMeasure]
  · obtain ⟨products, hproducts, hquery⟩ := Results.bind_eq_ok.mp hquery
    obtain ⟨_, -, hquery⟩ := Results.bind_eq_ok.mp hquery
    obtain ⟨_, hvalid, hquery⟩ := Results.bind_eq_ok.mp hquery
    obtain ⟨hone, hsix⟩ := precision_of_validate hvalid
    obtain rfl := Except.ok.inj hquery
    obtain ⟨hmin, hmax⟩ := sizes_of_intoProductListQuery hproducts
    rw [panics_cellAggregateSql_iff, and_iff_right hone, and_iff_right hsix, hmin, hmax]

end

/-- **Requests.**  The queries for products, features and aggregates are built without a panic
exactly if the sizes of every request that is accepted, and for a timeseries not refused for its
ends or its buckets, fit in 63 bits. -/
theorem archive_requests_build_iff (input : ArchiveFilterInput) :
    (∀ defaultLimit limit cursor after,
      ¬ Panics (input.intoProductListQuery defaultLimit limit cursor >>= fun query =>
          archivedProductsSql query after) ↔
        ∀ query, input.intoProductListQuery defaultLimit limit cursor = .ok query →
          SizesFit input.minSize input.maxSize) ∧
    (∀ kind defaultLimit limit cursor after,
      ¬ Panics (buildFeatureListQuery input kind defaultLimit limit cursor >>= fun query =>
          archivedFeaturesSql query after) ↔
        ∀ query, buildFeatureListQuery input kind defaultLimit limit cursor = .ok query →
          SizesFit input.minSize input.maxSize) ∧
    (∀ dimension limit,
      ¬ Panics (buildFacetAggregateQuery input dimension limit >>= facetAggregateSql) ↔
        ∀ query, buildFacetAggregateQuery input dimension limit = .ok query →
          SizesFit input.minSize input.maxSize) ∧
    (∀ measure start stop bucket,
      ¬ Panics (buildTimeseriesAggregateQuery input measure start stop bucket >>=
          timeseriesAggregateSql) ↔
        ∀ query, buildTimeseriesAggregateQuery input measure start stop bucket = .ok query →
          query.start < query.stop ∧ query.bucketCount ≤ 1000 →
            SizesFit input.minSize input.maxSize) ∧
    ∀ measure precision limit,
      ¬ Panics (buildCellAggregateQuery input measure precision limit >>= cellAggregateSql) ↔
        ∀ query, buildCellAggregateQuery input measure precision limit = .ok query →
          SizesFit input.minSize input.maxSize :=
  ⟨fun defaultLimit limit cursor => products_build_iff input defaultLimit limit cursor,
    fun kind defaultLimit limit cursor => features_build_iff input defaultLimit limit cursor kind,
    fun dimension limit => facets_build_iff input limit dimension,
    timeseries_build_iff input,
    fun measure precision limit => cells_build_iff input limit measure precision⟩

/-- A size of 64 bits is accepted, and does not fit. -/
theorem large_size_panics : ¬ ∀ (input : ArchiveFilterInput) (query : ProductListQuery),
    input.intoProductListQuery 100 none none = .ok query →
      ¬ Panics (archivedProductsSql query none) := by
  intro h
  have haccepted : ({ minSize := some (2 ^ 63) } : ArchiveFilterInput).intoProductListQuery
      100 none none = .ok { minSize := some (2 ^ 63) } := rfl
  refine h _ _ haccepted ((panics_archivedProductsSql_iff _ _).mpr ?_)
  rintro ⟨hmin, -⟩
  exact absurd (hmin (2 ^ 63) rfl) (Nat.lt_irrefl _)

end Query
