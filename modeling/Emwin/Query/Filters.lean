/-
# The filters of a query

The SQL text that the filters of a request add to its query, piece by piece as the builder
appends it.  Every filter is ` AND ` and one operand: a comparison, an `IN` list, a condition
in parentheses, or `EXISTS` with a query of its own in parentheses.  So whatever filters are
present, the text continues a conjunction (`appendProductFilters_conjuncts`).
-/
import Emwin.Query.Model
import Emwin.Lib.Results
import Emwin.Lib.SqlClauses

open Sql

namespace Query

/-! ## Pieces -/

/-- Bound values with commas between them. -/
def separated : List SqlValue → Text SqlValue
  | [] => []
  | [value] => pushBind value
  | value :: values => pushBind value ++ push ", " ++ separated values

/-- A column in a list of values. -/
def appendInClause (column : String) (values : List SqlValue) : Text SqlValue :=
  push column ++ push " IN (" ++ separated values ++ push ")"

/-- A filter for a list of texts. -/
def appendTextSetFilter (column : String) (rawValues : Option Str) (normalize : Str → Str) :
    Text SqlValue :=
  match splitCsvValues rawValues normalize with
  | none => []
  | some values => push " AND " ++ appendInClause column (values.map SqlValue.text)

/-- A filter for a list of texts in any case. -/
def appendCaseInsensitiveTextSetFilter (column : String) (rawValues : Option Str) :
    Text SqlValue :=
  match splitCsvValues rawValues normalizeLower with
  | none => []
  | some values =>
      push " AND LOWER(" ++ push column ++ push ") IN (" ++ separated (values.map SqlValue.text) ++
        push ")"

/-- A filter with wildcards. -/
def appendLikeFilter (column : String) (rawValue : Option Str) : Text SqlValue :=
  match (rawValue.map Str.trim).filter fun value => value ≠ [] with
  | none => []
  | some rawValue =>
      push " AND " ++ push column ++ push " ILIKE " ++
        pushBind (SqlValue.text (rawValue.map fun c => if c = '*' then '%' else c))

/-- A filter for a truth value. -/
def appendBoolFilter (column : String) (value : Option Bool) : Text SqlValue :=
  match value with
  | none => []
  | some value => push " AND " ++ push column ++ push " = " ++ pushBind (SqlValue.bool value)

/-- A filter that compares a column with a value. -/
def appendComparison (text : String) (value : Option SqlValue) : Text SqlValue :=
  match value with
  | none => []
  | some value => push text ++ pushBind value

/-- A filter for areas of a kind. -/
def appendUgcExists (rawValues : Option Str) (normalizedKind : String) : Text SqlValue :=
  match splitCsvValues rawValues normalizeUpper with
  | none => []
  | some values =>
      push " AND EXISTS (SELECT 1 FROM product_ugc_areas WHERE product_ugc_areas.product_id = products.id AND product_ugc_areas.area_kind = " ++
        pushBind (SqlValue.text normalizedKind.toList) ++ push " AND " ++
        appendInClause "product_ugc_areas.ugc_code" (values.map SqlValue.text) ++ push ")"

/-- A filter for the states of areas. -/
def appendStateExists (rawValues : Option Str) : Text SqlValue :=
  match splitCsvValues rawValues normalizeUpper with
  | none => []
  | some values =>
      push " AND EXISTS (SELECT 1 FROM product_ugc_areas WHERE product_ugc_areas.product_id = products.id AND " ++
        appendInClause "product_ugc_areas.state" (values.map SqlValue.text) ++ push ")"

/-- The filters for issues. -/
def appendIssueAliasFilters (table : String) (query : ProductListQuery) : Text SqlValue :=
  appendTextSetFilter (table ++ ".kind") query.issueKind normalizeLower ++
    appendTextSetFilter (table ++ ".code") query.issueCode normalizeLower

/-- The filter for issues. -/
def appendIssueExists (query : ProductListQuery) : Text SqlValue :=
  if query.issueKind.isSome || query.issueCode.isSome then
    push " AND EXISTS (SELECT 1 FROM product_issues WHERE product_issues.product_id = products.id" ++
      appendIssueAliasFilters "product_issues" query ++ push ")"
  else []

/-- The filters for VTEC codes. -/
def appendVtecAliasFilters (table : String) (query : ProductListQuery) :
    Except QueryError (Text SqlValue) := do
  let etns ← splitCsvI64 query.etn
  .ok (appendTextSetFilter (table ++ ".phenomena") query.vtecPhenomena normalizeUpper ++
    appendTextSetFilter (table ++ ".significance") query.vtecSignificance normalizeUpper ++
    appendTextSetFilter (table ++ ".action") query.vtecAction normalizeUpper ++
    appendTextSetFilter (table ++ ".office") query.vtecOffice normalizeUpper ++
    match etns with
    | none => []
    | some values => push " AND " ++ appendInClause (table ++ ".etn") (values.map SqlValue.int))

/-- The filter for VTEC codes. -/
def appendVtecExists (query : ProductListQuery) : Except QueryError (Text SqlValue) :=
  if query.vtecPhenomena.isSome || query.vtecSignificance.isSome || query.vtecAction.isSome ||
      query.vtecOffice.isSome || query.etn.isSome then
    (appendVtecAliasFilters "product_vtec" query).map fun filters =>
      push " AND EXISTS (SELECT 1 FROM product_vtec WHERE product_vtec.product_id = products.id" ++
        filters ++ push ")"
  else .ok []

/-- The filter for hydrologic VTEC codes. -/
def appendHvtecExists (query : ProductListQuery) : Text SqlValue :=
  if query.hvtecNwslid.isSome || query.hvtecSeverity.isSome || query.hvtecCause.isSome ||
      query.hvtecRecord.isSome then
    push " AND EXISTS (SELECT 1 FROM product_hvtec WHERE product_hvtec.product_id = products.id" ++
      (appendTextSetFilter "product_hvtec.nwslid" query.hvtecNwslid normalizeUpper ++
        appendTextSetFilter "product_hvtec.severity" query.hvtecSeverity normalizeLower ++
        appendTextSetFilter "product_hvtec.cause" query.hvtecCause normalizeLower ++
        appendTextSetFilter "product_hvtec.record" query.hvtecRecord normalizeLower) ++
      push ")"
  else []

/-- The filter for wind and hail. -/
def appendWindHailExists (query : ProductListQuery) : Text SqlValue :=
  if query.windHailKind.isSome || query.minWindMph.isSome || query.minHailInches.isSome then
    push " AND EXISTS (SELECT 1 FROM product_wind_hail WHERE product_wind_hail.product_id = products.id" ++
      (appendTextSetFilter "product_wind_hail.kind" query.windHailKind normalizeLower ++
        appendComparison " AND product_wind_hail.kind IN ('legacy_wind', 'max_wind_gust') AND CASE WHEN UPPER(COALESCE(product_wind_hail.units, '')) IN ('KTS', 'KT') THEN product_wind_hail.numeric_value * 1.15078 ELSE product_wind_hail.numeric_value END >= "
          (query.minWindMph.map SqlValue.float) ++
        appendComparison " AND product_wind_hail.kind IN ('legacy_hail', 'max_hail_size') AND product_wind_hail.numeric_value >= "
          (query.minHailInches.map SqlValue.float)) ++
      push ")"
  else []

/-! ## Places -/

/-- The corners of a box. -/
def pushBox (minLat maxLat minLon maxLon : Float) : Text SqlValue :=
  pushBind (SqlValue.float minLon) ++ push ", " ++ pushBind (SqlValue.float minLat) ++ push ", " ++
    pushBind (SqlValue.float maxLon) ++ push ", " ++ pushBind (SqlValue.float maxLat)

/-- The coordinates of a point. -/
def pushPoint (lat lon : Float) : Text SqlValue :=
  pushBind (SqlValue.float lon) ++ push ", " ++ pushBind (SqlValue.float lat)

/-- The products with points in a table that lie in a box. -/
def appendBboxTable (minLat maxLat minLon maxLon : Float) (table : String) : Text SqlValue :=
  push " UNION ALL SELECT " ++ push table ++ push ".product_id FROM " ++ push table ++
    push " WHERE " ++ push table ++
    push ".point_geom IS NOT NULL AND ST_Covers(ST_MakeEnvelope(" ++
    pushBox minLat maxLat minLon maxLon ++ push ", 4326), " ++ push table ++ push ".point_geom)"

/-- The tables with points. -/
def pointTables : List String := ["product_ugc_areas", "product_hvtec", "product_search_points"]

/-- The products in a box. -/
def appendBboxSpatialCandidates (minLat maxLat minLon maxLon : Float) : Text SqlValue :=
  push "SELECT product_polygons.product_id FROM product_polygons WHERE ST_Intersects(product_polygons.polygon_geom, ST_MakeEnvelope(" ++
    pushBox minLat maxLat minLon maxLon ++ push ", 4326))" ++
    push " UNION ALL SELECT product_time_mot_loc.product_id FROM product_time_mot_loc WHERE ST_Intersects(product_time_mot_loc.path_geom, ST_MakeEnvelope(" ++
    pushBox minLat maxLat minLon maxLon ++ push ", 4326))" ++
    pointTables.flatMap (appendBboxTable minLat maxLat minLon maxLon)

/-- The products with points in a table that are near a point. -/
def appendDistanceTable (lat lon distanceMeters : Float) (table : String) : Text SqlValue :=
  push " UNION ALL SELECT " ++ push table ++ push ".product_id FROM " ++ push table ++
    push " WHERE " ++ push table ++ push ".point_geom IS NOT NULL AND ST_DWithin(" ++ push table ++
    push ".point_geom::geography, ST_SetSRID(ST_MakePoint(" ++ pushPoint lat lon ++
    push "), 4326)::geography, " ++ pushBind (SqlValue.float distanceMeters) ++ push ")"

/-- The products near a point. -/
def appendDistanceSpatialCandidates (lat lon distanceMeters : Float) : Text SqlValue :=
  push "SELECT product_polygons.product_id FROM product_polygons WHERE ST_Covers(product_polygons.polygon_geom, ST_SetSRID(ST_MakePoint(" ++
    pushPoint lat lon ++ push "), 4326))" ++
    push " UNION ALL SELECT product_time_mot_loc.product_id FROM product_time_mot_loc WHERE ST_DWithin(product_time_mot_loc.path_geom::geography, ST_SetSRID(ST_MakePoint(" ++
    pushPoint lat lon ++ push "), 4326)::geography, " ++ pushBind (SqlValue.float distanceMeters) ++
    push ")" ++
    pointTables.flatMap (appendDistanceTable lat lon distanceMeters)

/-- A filter for the products among candidates. -/
def appendSpatialCandidateFilter (candidates : Text SqlValue) : Text SqlValue :=
  push " AND products.id IN (SELECT DISTINCT spatial_candidates.product_id FROM (" ++
    candidates ++ push ") AS spatial_candidates)"

/-- The filters for the places of products. -/
def appendSpatialFilter (query : ProductListQuery) : Except QueryError (Text SqlValue) := do
  let box ← validateBbox query
  let inBox : Text SqlValue := match box with
    | none => []
    | some (minLat, maxLat, minLon, maxLon) =>
        appendSpatialCandidateFilter (appendBboxSpatialCandidates minLat maxLat minLon maxLon)
  let point ← validatePointDistance query
  let nearPoint : Text SqlValue := match point with
    | none => []
    | some (lat, lon, distanceMeters) =>
        appendSpatialCandidateFilter (appendDistanceSpatialCandidates lat lon distanceMeters)
  .ok (inBox ++ nearPoint)

/-- The filters for the places of features. -/
def appendFeatureSpatialFilter (query : ProductListQuery) : Except QueryError (Text SqlValue) := do
  let box ← validateBbox query
  let inBox : Text SqlValue := match box with
    | none => []
    | some (minLat, maxLat, minLon, maxLon) =>
        push " AND ST_Intersects(features.feature_geom, ST_MakeEnvelope(" ++
          pushBox minLat maxLat minLon maxLon ++ push ", 4326))"
  let point ← validatePointDistance query
  let nearPoint : Text SqlValue := match point with
    | none => []
    | some (lat, lon, distanceMeters) =>
        push " AND ((features.feature_kind = 'polygon' AND ST_Covers(features.feature_geom, ST_SetSRID(ST_MakePoint(" ++
          pushPoint lat lon ++
          push "), 4326))) OR (features.feature_kind <> 'polygon' AND ST_DWithin(features.feature_geom::geography, ST_SetSRID(ST_MakePoint(" ++
          pushPoint lat lon ++ push "), 4326)::geography, " ++
            pushBind (SqlValue.float distanceMeters) ++
          push ")))"
  .ok (inBox ++ nearPoint)

/-! ## All filters -/

/-- A size as a bound value. -/
def bindSize (size : Option ℕ) : Except QueryError (Option SqlValue) :=
  match size with
  | none => .ok none
  | some size =>
      if size < 2 ^ 63 then .ok (some (.int size))
      else .error (.panicked "size should fit in i64".toList)

/-- The filters of a request for products. -/
def appendProductFilters (query : ProductListQuery) : Except QueryError (Text SqlValue) := do
  let text : Text SqlValue :=
    appendLikeFilter "products.filename" query.filename ++
    appendTextSetFilter "products.source_receiver" query.sourceReceiver normalizeLower ++
    appendTextSetFilter "products.source" query.source normalizeLower ++
    appendTextSetFilter "products.pil" query.pil normalizeUpper ++
    appendTextSetFilter "products.family" query.family normalizeLower ++
    appendTextSetFilter "products.artifact_kind" query.artifactKind normalizeLower ++
    appendTextSetFilter "products.container" query.container normalizeLower ++
    appendTextSetFilter "products.wmo_prefix" query.wmoPrefix normalizeUpper ++
    appendTextSetFilter "products.office_code" query.office normalizeUpper ++
    appendCaseInsensitiveTextSetFilter "products.office_city" query.officeCity ++
    appendTextSetFilter "products.office_state" query.officeState normalizeUpper ++
    appendTextSetFilter "products.bbb_kind" query.bbbKind normalizeLower ++
    appendTextSetFilter "products.cccc" query.cccc normalizeUpper ++
    appendTextSetFilter "products.ttaaii" query.ttaaii normalizeUpper ++
    appendTextSetFilter "products.afos" query.afos normalizeUpper ++
    appendTextSetFilter "products.bbb" query.bbb normalizeUpper ++
    appendBoolFilter "products.has_issues" query.hasIssues ++
    appendBoolFilter "products.has_vtec" query.hasVtec ++
    appendBoolFilter "products.has_ugc" query.hasUgc ++
    appendBoolFilter "products.has_hvtec" query.hasHvtec ++
    appendBoolFilter "products.has_latlon" query.hasLatlon ++
    appendBoolFilter "products.has_time_mot_loc" query.hasTimeMotLoc ++
    appendBoolFilter "products.has_wind_hail" query.hasWindHail
  let minSize ← bindSize query.minSize
  let maxSize ← bindSize query.maxSize
  let ranges : Text SqlValue :=
    appendComparison " AND products.size_bytes >= " minSize ++
    appendComparison " AND products.size_bytes <= " maxSize ++
    appendComparison " AND products.source_timestamp_utc >= "
      (query.sourceTimestampAfter.map SqlValue.int) ++
    appendComparison " AND products.source_timestamp_utc <= "
      (query.sourceTimestampBefore.map SqlValue.int) ++
    appendComparison " AND products.ingested_at >= " (query.ingestedAfter.map SqlValue.time) ++
    appendComparison " AND products.ingested_at <= " (query.ingestedBefore.map SqlValue.time)
  let areas : Text SqlValue :=
    appendStateExists query.state ++
    appendUgcExists query.county "county" ++
    appendUgcExists query.zone "zone" ++
    appendUgcExists query.fireZone "fire_zone" ++
    appendUgcExists query.marineZone "marine_zone"
  let vtec ← appendVtecExists query
  let spatial ← appendSpatialFilter query
  .ok (text ++ ranges ++ areas ++ appendIssueExists query ++ vtec ++ appendHvtecExists query ++
    appendWindHailExists query ++ spatial)

/-! ## Every filter is a conjunct -/

theorem separated_nested (values : List SqlValue) : Nested (separated values) := by
  fun_induction separated values with
  | case1 => exact Nested.nil
  | case2 value => exact Nested.pushBind value
  | case3 value values _ ih =>
      exact ((Nested.pushBind value).append (Nested.of_chars (by decide))).append ih

/-- A list of values inside an atom. -/
theorem appendInClause_nested {column : String} (h : Nested (push column : Text SqlValue))
    (values : List SqlValue) : Nested (appendInClause column values) := by
  apply Nested.wrap
  · rw [nestLevel_append, h]
    rfl
  · exact separated_nested values

theorem appendTextSetFilter_nested {column : String} (h : Nested (push column : Text SqlValue))
    (rawValues : Option Str) (normalize : Str → Str) :
    Nested (appendTextSetFilter column rawValues normalize) := by
  unfold appendTextSetFilter
  split
  · exact Nested.nil
  · exact (Nested.of_chars (by decide)).append (appendInClause_nested h _)

theorem appendComparison_nested {text : String} (h : Nested (push text : Text SqlValue))
    (value : Option SqlValue) : Nested (appendComparison text value) := by
  cases value with
  | none => exact Nested.nil
  | some value => exact h.append (Nested.pushBind value)

/-- A filter for a list of texts. -/
theorem appendTextSetFilter_conjuncts {column : List Char} (h : isColumn column = true)
    (rawValues : Option Str) (normalize : Str → Str) :
    Conjuncts (appendTextSetFilter (String.ofList column) rawValues normalize) := by
  unfold appendTextSetFilter
  split
  · exact Conjuncts.nil
  · next values _ =>
      have hin : (push " IN (" : Text SqlValue) = push " " ++ push "IN (" := rfl
      have hclause := Conjuncts.inList h (separated_nested (values.map SqlValue.text))
      unfold appendInClause
      rw [hin]
      simpa only [List.append_assoc] using hclause

theorem appendCaseInsensitiveTextSetFilter_conjuncts (rawValues : Option Str) :
    Conjuncts (appendCaseInsensitiveTextSetFilter "products.office_city" rawValues) := by
  unfold appendCaseInsensitiveTextSetFilter
  split
  · exact Conjuncts.nil
  · next values _ =>
      apply Conjuncts.of_opens
      · simp only [holes_append, holes_push]
        rw [push_ofList, push_ofList, push_ofList]
        rfl
      · exact separated_nested (values.map SqlValue.text)

theorem appendLikeFilter_conjuncts {column : List Char} (h : isColumn column = true)
    (rawValue : Option Str) : Conjuncts (appendLikeFilter (String.ofList column) rawValue) := by
  unfold appendLikeFilter
  split
  · exact Conjuncts.nil
  · have hlike : (push " ILIKE " : Text SqlValue) = push " " ++ push "ILIKE " := rfl
    rw [hlike, ← List.append_assoc, List.append_assoc]
    exact Conjuncts.column h rfl rfl

theorem appendBoolFilter_conjuncts {column : List Char} (h : isColumn column = true)
    (value : Option Bool) : Conjuncts (appendBoolFilter (String.ofList column) value) := by
  unfold appendBoolFilter
  split
  · exact Conjuncts.nil
  · have hequal : (push " = " : Text SqlValue) = push " " ++ push "= " := rfl
    rw [hequal, ← List.append_assoc, List.append_assoc]
    exact Conjuncts.column h rfl rfl

theorem appendComparison_conjuncts {text : List Char}
    (h : leadsTo isComplete (text.map Sym.char ++ pushBind ()) = true) (value : Option SqlValue) :
    Conjuncts (appendComparison (String.ofList text) value) := by
  cases value with
  | none => exact Conjuncts.nil
  | some value =>
      apply Conjuncts.of_leadsTo
      show leadsTo isComplete (holes (push (String.ofList text) ++ pushBind value)) = true
      rw [holes_append, holes_push, push_ofList, holes_pushBind]
      exact h

theorem appendUgcExists_conjuncts (rawValues : Option Str) (kind : String) :
    Conjuncts (appendUgcExists rawValues kind) := by
  unfold appendUgcExists
  split
  · exact Conjuncts.nil
  · apply Conjuncts.of_opens
    · simp only [holes_append, holes_push, holes_pushBind]
      rw [push_ofList, push_ofList]
      rfl
    · exact appendInClause_nested (Nested.of_word rfl) _

theorem appendStateExists_conjuncts (rawValues : Option Str) :
    Conjuncts (appendStateExists rawValues) := by
  unfold appendStateExists
  split
  · exact Conjuncts.nil
  · apply Conjuncts.of_opens
    · rw [holes_push, push_ofList]
      rfl
    · exact appendInClause_nested (Nested.of_word rfl) _

/-- A column of a table. -/
theorem nested_column {table column : List Char} (ht : table.all isWordChar = true)
    (hc : column.all isWordChar = true) :
    Nested (push (String.ofList table ++ String.ofList column) : Text SqlValue) := by
  rw [push_append]
  exact (Nested.of_word ht).append (Nested.of_word hc)

theorem appendIssueExists_conjuncts (query : ProductListQuery) :
    Conjuncts (appendIssueExists query) := by
  unfold appendIssueExists appendIssueAliasFilters
  split
  · apply Conjuncts.of_opens
    · rw [holes_push, push_ofList]
      rfl
    · exact (appendTextSetFilter_nested (nested_column rfl rfl) _
        _).append (appendTextSetFilter_nested (nested_column rfl
        rfl) _ _)
  · exact Conjuncts.nil

theorem appendVtecAliasFilters_nested {query : ProductListQuery} {filters : Text SqlValue}
    (h : appendVtecAliasFilters "product_vtec" query = .ok filters) : Nested filters := by
  obtain ⟨etns, -, h⟩ := Results.bind_eq_ok.mp h
  obtain rfl := Except.ok.inj h
  have hcolumn : ∀ {column : List Char}, column.all isWordChar = true →
      Nested (push ("product_vtec" ++ String.ofList column) : Text SqlValue) :=
    fun hc => nested_column rfl hc
  refine Nested.append ?_ ?_
  · exact (((appendTextSetFilter_nested (hcolumn rfl) _ _).append
      (appendTextSetFilter_nested (hcolumn rfl) _ _)).append
      (appendTextSetFilter_nested (hcolumn rfl) _ _)).append
      (appendTextSetFilter_nested (hcolumn rfl) _ _)
  · cases etns with
    | none => exact Nested.nil
    | some values =>
        exact (Nested.of_chars (by decide)).append
          (appendInClause_nested (hcolumn rfl) _)

theorem appendVtecExists_conjuncts {query : ProductListQuery} {filters : Text SqlValue}
    (h : appendVtecExists query = .ok filters) : Conjuncts filters := by
  unfold appendVtecExists at h
  split at h
  · cases hinner : appendVtecAliasFilters "product_vtec" query with
    | error e =>
        rw [hinner] at h
        cases h
    | ok inner =>
        rw [hinner] at h
        obtain rfl := Except.ok.inj h
        apply Conjuncts.of_opens
        · rw [holes_push, push_ofList]
          rfl
        · exact appendVtecAliasFilters_nested hinner
  · obtain rfl := Except.ok.inj h
    exact Conjuncts.nil

theorem appendHvtecExists_conjuncts (query : ProductListQuery) :
    Conjuncts (appendHvtecExists query) := by
  unfold appendHvtecExists
  split
  · apply Conjuncts.of_opens
    · rw [holes_push, push_ofList]
      rfl
    · exact (((appendTextSetFilter_nested (Nested.of_word rfl) _ _).append
        (appendTextSetFilter_nested (Nested.of_word rfl) _ _)).append
        (appendTextSetFilter_nested (Nested.of_word rfl) _ _)).append
        (appendTextSetFilter_nested (Nested.of_word rfl) _ _)
  · exact Conjuncts.nil

set_option maxRecDepth 2000 in
theorem appendWindHailExists_conjuncts (query : ProductListQuery) :
    Conjuncts (appendWindHailExists query) := by
  unfold appendWindHailExists
  split
  · apply Conjuncts.of_opens
    · rw [holes_push, push_ofList]
      rfl
    · exact ((appendTextSetFilter_nested (Nested.of_word rfl) _ _).append
        (appendComparison_nested (Nested.of_chars (by decide)) _)).append
        (appendComparison_nested (Nested.of_chars (by decide)) _)
  · exact Conjuncts.nil

/-! ## Filters for places are conjuncts -/

theorem appendBboxTable_nested (minLat maxLat minLon maxLon : Float) :
    ∀ table ∈ pointTables, Nested (appendBboxTable minLat maxLat minLon maxLon table) := by
  intro table htable
  apply Nested.of_holes
  simp only [appendBboxTable, pushBox, holes_append, holes_push, holes_pushBind]
  simp only [pointTables, List.mem_cons, List.not_mem_nil, or_false] at htable
  obtain rfl | rfl | rfl := htable
  all_goals
    repeat rw [push_ofList]
    decide +kernel

theorem appendBboxSpatialCandidates_nested (minLat maxLat minLon maxLon : Float) :
    Nested (appendBboxSpatialCandidates minLat maxLat minLon maxLon) := by
  apply Nested.append
  · apply Nested.of_holes
    simp only [pushBox, holes_append, holes_push, holes_pushBind]
    repeat rw [push_ofList]
    decide +kernel
  · exact Nested.flatMap (appendBboxTable_nested minLat maxLat minLon maxLon)

theorem appendDistanceTable_nested (lat lon distanceMeters : Float) :
    ∀ table ∈ pointTables, Nested (appendDistanceTable lat lon distanceMeters table) := by
  intro table htable
  apply Nested.of_holes
  simp only [appendDistanceTable, pushPoint, holes_append, holes_push, holes_pushBind]
  simp only [pointTables, List.mem_cons, List.not_mem_nil, or_false] at htable
  obtain rfl | rfl | rfl := htable
  all_goals
    repeat rw [push_ofList]
    decide +kernel

theorem appendDistanceSpatialCandidates_nested (lat lon distanceMeters : Float) :
    Nested (appendDistanceSpatialCandidates lat lon distanceMeters) := by
  apply Nested.append
  · apply Nested.of_holes
    simp only [pushPoint, holes_append, holes_push, holes_pushBind]
    repeat rw [push_ofList]
    decide +kernel
  · exact Nested.flatMap (appendDistanceTable_nested lat lon distanceMeters)

theorem appendSpatialCandidateFilter_conjuncts {candidates : Text SqlValue}
    (h : Nested candidates) : Conjuncts (appendSpatialCandidateFilter candidates) := by
  -- the candidates stand in two parentheses; the inner ones are part of what the outer ones hold
  have hopen : (push " AND products.id IN (SELECT DISTINCT spatial_candidates.product_id FROM (" :
      Text SqlValue) = push " AND products.id IN (" ++
        push "SELECT DISTINCT spatial_candidates.product_id FROM (" := by
    repeat rw [push_ofList]
    rfl
  have hclose : (push ") AS spatial_candidates)" : Text SqlValue) =
      push ")" ++ push " AS spatial_candidates" ++ push ")" := by
    repeat rw [push_ofList]
    rfl
  have hinner : Nested (push "SELECT DISTINCT spatial_candidates.product_id FROM (" ++
      candidates ++ push ")" ++ push " AS spatial_candidates" : Text SqlValue) := by
    refine Nested.append (Nested.wrap ?_ h) (Nested.of_chars (by decide))
    rw [← nestLevel_holes, holes_push, push_ofList]
    rfl
  have hclause := Conjuncts.of_opens (t := (push " AND products.id IN (" : Text SqlValue))
    (by rw [holes_push, push_ofList]; rfl) hinner
  unfold appendSpatialCandidateFilter
  rw [hopen, hclose]
  simpa only [List.append_assoc] using hclause

theorem appendSpatialFilter_conjuncts {query : ProductListQuery} {filters : Text SqlValue}
    (h : appendSpatialFilter query = .ok filters) : Conjuncts filters := by
  obtain ⟨box, -, h⟩ := Results.bind_eq_ok.mp h
  obtain ⟨point, -, h⟩ := Results.bind_eq_ok.mp h
  obtain rfl := Except.ok.inj h
  apply Conjuncts.append
  · cases box with
    | none => exact Conjuncts.nil
    | some box =>
        exact appendSpatialCandidateFilter_conjuncts
          (appendBboxSpatialCandidates_nested box.1 box.2.1 box.2.2.1 box.2.2.2)
  · cases point with
    | none => exact Conjuncts.nil
    | some point =>
        exact appendSpatialCandidateFilter_conjuncts
          (appendDistanceSpatialCandidates_nested point.1 point.2.1 point.2.2)

theorem appendFeatureSpatialFilter_conjuncts {query : ProductListQuery} {filters : Text SqlValue}
    (h : appendFeatureSpatialFilter query = .ok filters) : Conjuncts filters := by
  obtain ⟨box, -, h⟩ := Results.bind_eq_ok.mp h
  obtain ⟨point, -, h⟩ := Results.bind_eq_ok.mp h
  obtain rfl := Except.ok.inj h
  apply Conjuncts.append
  · cases box with
    | none => exact Conjuncts.nil
    | some box =>
        apply Conjuncts.of_leadsTo
        simp only [pushBox, holes_append, holes_push, holes_pushBind]
        repeat rw [push_ofList]
        rfl
  · cases point with
    | none => exact Conjuncts.nil
    | some point =>
        apply Conjuncts.of_leadsTo
        simp only [pushPoint, holes_append, holes_push, holes_pushBind]
        repeat rw [push_ofList]
        decide +kernel

/-! ## All filters are conjuncts -/

/-- **Filters.**  The filters of every request that is accepted continue a conjunction. -/
theorem appendProductFilters_conjuncts {query : ProductListQuery} {filters : Text SqlValue}
    (h : appendProductFilters query = .ok filters) : Conjuncts filters := by
  obtain ⟨minSize, -, h⟩ := Results.bind_eq_ok.mp h
  obtain ⟨maxSize, -, h⟩ := Results.bind_eq_ok.mp h
  obtain ⟨vtec, hvtec, h⟩ := Results.bind_eq_ok.mp h
  obtain ⟨spatial, hspatial, h⟩ := Results.bind_eq_ok.mp h
  obtain rfl := Except.ok.inj h
  refine Conjuncts.append (Conjuncts.append (Conjuncts.append (Conjuncts.append (Conjuncts.append
    (Conjuncts.append (Conjuncts.append ?_ ?_) ?_) (appendIssueExists_conjuncts query))
    (appendVtecExists_conjuncts hvtec)) (appendHvtecExists_conjuncts query))
    (appendWindHailExists_conjuncts query)) (appendSpatialFilter_conjuncts hspatial)
  · repeat' apply Conjuncts.append
    all_goals
      first
      | exact appendTextSetFilter_conjuncts rfl _ _
      | exact appendBoolFilter_conjuncts rfl _
      | exact appendLikeFilter_conjuncts rfl _
      | exact appendCaseInsensitiveTextSetFilter_conjuncts _
  · repeat' apply Conjuncts.append
    all_goals exact appendComparison_conjuncts rfl _
  · exact ((((appendStateExists_conjuncts _).append (appendUgcExists_conjuncts _ _)).append
      (appendUgcExists_conjuncts _ _)).append (appendUgcExists_conjuncts _ _)).append
      (appendUgcExists_conjuncts _ _)

end Query
