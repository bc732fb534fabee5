/-
# Filters for the rows of a product

The filters of a request that look for rows of areas, of issues and of wind and hail, as
conditions.  Their texts are those that the builder appends (`render_areaConditions` and the
two behind it), and their truth is that of the conditions on the rows of a product.
-/
import Emwin.Lib.SqlRows
import Emwin.Query.Filters

open Sql

namespace Query

variable {K : Type}

/-- The filters for rows, with thresholds in some numbers. -/
structure RowCriteria (K : Type) where
  state : Option Str := none
  county : Option Str := none
  zone : Option Str := none
  fireZone : Option Str := none
  marineZone : Option Str := none
  issueKind : Option Str := none
  issueCode : Option Str := none
  windHailKind : Option Str := none
  minWindMph : Option K := none
  minHailInches : Option K := none

/-- The filters for rows of a request. -/
def ProductListQuery.rowCriteria (q : ProductListQuery) : RowCriteria Float where
  state := q.state
  county := q.county
  zone := q.zone
  fireZone := q.fireZone
  marineZone := q.marineZone
  issueKind := q.issueKind
  issueCode := q.issueCode
  windHailKind := q.windHailKind
  minWindMph := q.minWindMph
  minHailInches := q.minHailInches

/-! ## Columns -/

/-- The columns of `product_ugc_areas`. -/
inductive UgcColumn where
  | areaKind
  | state
  | ugcCode

/-- The name of a column of `product_ugc_areas`. -/
def UgcColumn.name : UgcColumn → String
  | .areaKind => "area_kind"
  | .state => "state"
  | .ugcCode => "ugc_code"

/-- The columns of `product_issues`. -/
inductive IssueColumn where
  | kind
  | code

/-- The name of a column of `product_issues`. -/
def IssueColumn.name : IssueColumn → String
  | .kind => "kind"
  | .code => "code"

/-- The columns of `product_wind_hail`. -/
inductive WindHailColumn where
  | kind
  | numericValue
  | units

/-- The name of a column of `product_wind_hail`. -/
def WindHailColumn.name : WindHailColumn → String
  | .kind => "kind"
  | .numericValue => "numeric_value"
  | .units => "units"

/-! ## Conditions -/

/-- The existence of a row of the product. -/
def rowOf {C : Type} (table : String) (tests : List (RowTest C K)) : ExistsRow C K where
  table := table
  key := "product_id"
  recordKey := "products.id"
  tests := tests

/-- A column in a list of texts. -/
def isInTexts {C : Type} (c : C) (values : List Str) : RowTest C K :=
  .isIn (.column c) (values.map .text)

/-- A column in the values of a field, if there are any. -/
def textSetTests {C : Type} (c : C) (raw : Option Str) (normalize : Str → Str) :
    List (RowTest C K) :=
  match splitCsvValues raw normalize with
  | none => []
  | some values => [isInTexts c values]

/-- The condition on the states of areas. -/
def stateCondition (raw : Option Str) : List (ExistsRow UgcColumn K) :=
  match splitCsvValues raw normalizeUpper with
  | none => []
  | some values => [rowOf "product_ugc_areas" [isInTexts .state values]]

/-- The condition on the areas of a kind. -/
def ugcCondition (raw : Option Str) (kind : String) : List (ExistsRow UgcColumn K) :=
  match splitCsvValues raw normalizeUpper with
  | none => []
  | some values =>
      [rowOf "product_ugc_areas"
        [.equals (.column .areaKind) (.text kind.toList), isInTexts .ugcCode values]]

/-- The conditions on areas. -/
def areaConditions (q : RowCriteria K) : List (ExistsRow UgcColumn K) :=
  stateCondition q.state ++ ugcCondition q.county "county" ++ ugcCondition q.zone "zone" ++
    ugcCondition q.fireZone "fire_zone" ++ ugcCondition q.marineZone "marine_zone"

/-- The condition on issues. -/
def issueConditions (q : RowCriteria K) : List (ExistsRow IssueColumn K) :=
  if q.issueKind.isSome || q.issueCode.isSome then
    [rowOf "product_issues"
      (textSetTests .kind q.issueKind normalizeLower ++
        textSetTests .code q.issueCode normalizeLower)]
  else []

/-- The wind speed in miles per hour. -/
def windSpeed : Scalar WindHailColumn :=
  .caseAmong (.upper (.coalesce (.column .units) "")) ["KTS", "KT"]
    (.times (.column .numericValue) ⟨115078, 5⟩) (.column .numericValue)

/-- The tests for wind of at least some speed. -/
def windTests (minimum : Option K) : List (RowTest WindHailColumn K) :=
  match minimum with
  | none => []
  | some minimum =>
      [.isAmong (.column .kind) ["legacy_wind", "max_wind_gust"],
        .atLeast windSpeed (.number minimum)]

/-- The tests for hail of at least some size. -/
def hailTests (minimum : Option K) : List (RowTest WindHailColumn K) :=
  match minimum with
  | none => []
  | some minimum =>
      [.isAmong (.column .kind) ["legacy_hail", "max_hail_size"],
        .atLeast (.column .numericValue) (.number minimum)]

/-- The condition on wind and hail. -/
def windHailConditions (q : RowCriteria K) : List (ExistsRow WindHailColumn K) :=
  if q.windHailKind.isSome || q.minWindMph.isSome || q.minHailInches.isSome then
    [rowOf "product_wind_hail"
      (textSetTests .kind q.windHailKind normalizeLower ++ windTests q.minWindMph ++
        hailTests q.minHailInches)]
  else []

/-! ## Texts -/

/-- A value as the builder binds it. -/
def bindDatum : Datum Float → SqlValue
  | .text s => .text s
  | .number x => .float x

/-- The text of conditions. -/
def renderConditions {C : Type} (name : C → String) (conditions : List (ExistsRow C Float)) :
    Text SqlValue :=
  conditions.flatMap (ExistsRow.render name bindDatum)

theorem commas_texts (values : List Str) :
    commas ((values.map Datum.text).map fun v => pushBind (bindDatum v)) =
      separated (values.map SqlValue.text) := by
  induction values with
  | nil => rfl
  | cons value values ih =>
      cases values with
      | nil => rfl
      | cons next values =>
          show pushBind _ ++ push ", " ++ commas (((next :: values).map Datum.text).map _) =
            pushBind _ ++ push ", " ++ separated _
          rw [ih]
          rfl

theorem render_isInTexts {C : Type} (table : String) (name : C → String) (c : C)
    (values : List Str) :
    (isInTexts c values).render table name bindDatum =
      push table ++ push "." ++ push (name c) ++ push " IN (" ++
        separated (values.map SqlValue.text) ++ push ")" := by
  show push table ++ push "." ++ push (name c) ++ push " IN (" ++ commas _ ++ push ")" = _
  rw [commas_texts]

theorem render_equals {C : Type} (table : String) (name : C → String) (c : C) (s : Str) :
    (RowTest.equals (.column c) (.text s)).render table name bindDatum =
      push table ++ push "." ++ push (name c) ++ push " = " ++ pushBind (.text s) := rfl

theorem render_stateCondition (raw : Option Str) :
    renderConditions UgcColumn.name (stateCondition raw) = appendStateExists raw := by
  unfold stateCondition appendStateExists
  cases splitCsvValues raw normalizeUpper with
  | none => rfl
  | some values =>
      unfold renderConditions rowOf ExistsRow.render appendInClause
      simp only [List.flatMap_cons, List.flatMap_nil, render_isInTexts, List.append_assoc,
        List.append_nil, UgcColumn.name, push_append_append]
      rfl

theorem render_ugcCondition (raw : Option Str) (kind : String) :
    renderConditions UgcColumn.name (ugcCondition raw kind) = appendUgcExists raw kind := by
  unfold ugcCondition appendUgcExists
  cases splitCsvValues raw normalizeUpper with
  | none => rfl
  | some values =>
      unfold renderConditions rowOf ExistsRow.render appendInClause
      simp only [List.flatMap_cons, List.flatMap_nil, render_isInTexts, render_equals,
        List.append_assoc, List.append_nil, UgcColumn.name, push_append_append]
      exact congrArg₂ (fun s rest => push s ++ rest) (by decide +kernel) rfl

/-- The conditions on areas are what the builder appends. -/
theorem render_areaConditions (q : ProductListQuery) :
    renderConditions UgcColumn.name (areaConditions q.rowCriteria) =
      appendStateExists q.state ++ appendUgcExists q.county "county" ++
        appendUgcExists q.zone "zone" ++ appendUgcExists q.fireZone "fire_zone" ++
        appendUgcExists q.marineZone "marine_zone" := by
  rw [← render_stateCondition, ← render_ugcCondition, ← render_ugcCondition,
    ← render_ugcCondition, ← render_ugcCondition]
  unfold renderConditions areaConditions
  simp only [List.flatMap_append]
  rfl

/-- The text of tests in front of which `AND` stands. -/
def renderTests {C : Type} (table : String) (name : C → String) (tests : List (RowTest C Float)) :
    Text SqlValue :=
  tests.flatMap fun test => push " AND " ++ test.render table name bindDatum

theorem renderTests_append {C : Type} (table : String) (name : C → String)
    (tests others : List (RowTest C Float)) :
    renderTests table name (tests ++ others) =
      renderTests table name tests ++ renderTests table name others := List.flatMap_append

theorem render_textSetTests {C : Type} (table : String) (name : C → String) (c : C)
    (raw : Option Str) (normalize : Str → Str) :
    renderTests table name (textSetTests c raw normalize) =
      appendTextSetFilter (table ++ "." ++ name c) raw normalize := by
  unfold textSetTests appendTextSetFilter
  cases splitCsvValues raw normalize with
  | none => rfl
  | some values =>
      unfold renderTests appendInClause
      simp only [List.flatMap_cons, List.flatMap_nil, render_isInTexts, List.append_assoc,
        List.append_nil, push_append]

/-- The condition on issues is what the builder appends. -/
theorem render_issueConditions (q : ProductListQuery) :
    renderConditions IssueColumn.name (issueConditions q.rowCriteria) = appendIssueExists q := by
  unfold issueConditions appendIssueExists appendIssueAliasFilters
  show renderConditions _ (if (q.issueKind.isSome || q.issueCode.isSome) = true then _ else _) = _
  split
  · unfold renderConditions rowOf ExistsRow.render
    rw [List.flatMap_singleton]
    show _ ++ renderTests "product_issues" _ _ ++ _ = _
    rw [renderTests_append, render_textSetTests, render_textSetTests]
    simp only [List.append_assoc, push_append_append]
    rfl
  · rfl

theorem render_windTests (minimum : Option Float) :
    renderTests "product_wind_hail" WindHailColumn.name (windTests minimum) =
      appendComparison " AND product_wind_hail.kind IN ('legacy_wind', 'max_wind_gust') AND CASE WHEN UPPER(COALESCE(product_wind_hail.units, '')) IN ('KTS', 'KT') THEN product_wind_hail.numeric_value * 1.15078 ELSE product_wind_hail.numeric_value END >= "
        (minimum.map SqlValue.float) := by
  cases minimum with
  | none => rfl
  | some minimum =>
      unfold windTests renderTests
      simp only [List.flatMap_cons, List.flatMap_nil, RowTest.render, windSpeed, Scalar.render,
        WindHailColumn.name, List.map_cons, List.map_nil, commas, quoted, List.append_assoc,
        List.append_nil, push_append_append]
      exact congrArg₂ (fun s rest => push s ++ rest) (by decide +kernel) rfl

theorem render_hailTests (minimum : Option Float) :
    renderTests "product_wind_hail" WindHailColumn.name (hailTests minimum) =
      appendComparison " AND product_wind_hail.kind IN ('legacy_hail', 'max_hail_size') AND product_wind_hail.numeric_value >= "
        (minimum.map SqlValue.float) := by
  cases minimum with
  | none => rfl
  | some minimum =>
      unfold hailTests renderTests
      simp only [List.flatMap_cons, List.flatMap_nil, RowTest.render, Scalar.render,
        WindHailColumn.name, List.map_cons, List.map_nil, commas, quoted, List.append_assoc,
        List.append_nil, push_append_append]
      exact congrArg₂ (fun s rest => push s ++ rest) (by decide +kernel) rfl

/-- The condition on wind and hail is what the builder appends. -/
theorem render_windHailConditions (q : ProductListQuery) :
    renderConditions WindHailColumn.name (windHailConditions q.rowCriteria) =
      appendWindHailExists q := by
  unfold windHailConditions appendWindHailExists
  show renderConditions _ (if (q.windHailKind.isSome || q.minWindMph.isSome ||
    q.minHailInches.isSome) = true then _ else _) = _
  split
  · unfold renderConditions rowOf ExistsRow.render
    rw [List.flatMap_singleton]
    show _ ++ renderTests "product_wind_hail" _ _ ++ _ = _
    rw [renderTests_append, renderTests_append, render_textSetTests, render_windTests,
      render_hailTests]
    simp only [List.append_assoc, push_append_append]
    exact congrArg₂ (fun s rest => push s ++ rest) (by decide +kernel) rfl
  · rfl

end Query
