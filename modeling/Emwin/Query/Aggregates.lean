/-
# The queries of archive requests

The text of the query of each request, up to the point where it is run.  Numbers of the
request are bound as numbers of 64 bits with a sign, and one that does not fit is a panic.
-/
import Emwin.Query.ArchiveRequests

open Sql Chrono Incident

namespace Query

/-- A limit as a bound value. -/
def bindLimit (limit : ℕ) : Except QueryError SqlValue :=
  if limit < 2 ^ 63 then .ok (.int limit) else .error (.panicked "limit should fit in i64".toList)

/-! ## Lists -/

/-- The query of `list_archived_products_query`, behind the cursor. -/
def archivedProductsSql (query : ProductListQuery) (cursor : Option ProductCursor) :
    Except QueryError (Text SqlValue) := do
  let limit := normalizePageLimit query.limit
  let filters ← appendProductFilters query
  let bound ← bindLimit (limit + 1)
  .ok (archivedProductSummarySelectSql ++ push " WHERE 1 = 1" ++ filters ++
    cursor.elim [] ProductCursor.text ++
    push " ORDER BY products.source_timestamp_utc DESC, products.id DESC LIMIT " ++ pushBind bound)

/-- The query of `list_archived_features_query`, behind the cursor. -/
def archivedFeaturesSql (query : FeatureListQuery) (cursor : Option FeatureCursor) :
    Except QueryError (Text SqlValue) := do
  let limit := normalizePageLimit query.filters.limit
  let filters ← appendFeatureFilters query
  let bound ← bindLimit (limit + 1)
  .ok (archivedFeatureSelectSql ++ push " WHERE 1 = 1" ++ filters ++
    cursor.elim [] FeatureCursor.text ++
    push " ORDER BY products.source_timestamp_utc DESC, products.id DESC, features.feature_kind_order ASC, features.feature_row_id DESC LIMIT " ++
    pushBind bound)

/-! ## Facets -/

/-- `facet_aggregate_select_sql`. -/
def facetAggregateSelectSql : FacetDimension → Text SqlValue
  | .office =>
      push "SELECT products.office_code AS value, COUNT(DISTINCT products.id) AS count
             FROM products"
  | .family =>
      push "SELECT products.family AS value, COUNT(DISTINCT products.id) AS count
             FROM products"
  | .artifactKind =>
      push "SELECT products.artifact_kind AS value, COUNT(DISTINCT products.id) AS count
             FROM products"
  | .phenomena =>
      push "SELECT facet.phenomena AS value, COUNT(DISTINCT products.id) AS count
             FROM products
             INNER JOIN product_vtec AS facet ON facet.product_id = products.id"
  | .significance =>
      push "SELECT facet.significance AS value, COUNT(DISTINCT products.id) AS count
             FROM products
             INNER JOIN product_vtec AS facet ON facet.product_id = products.id"
  | .status =>
      push "SELECT facet.current_status AS value, COUNT(DISTINCT products.id) AS count
             FROM products
             INNER JOIN product_vtec ON product_vtec.product_id = products.id
             INNER JOIN incidents AS facet
               ON facet.office = product_vtec.office
              AND facet.phenomena = product_vtec.phenomena
              AND facet.significance = product_vtec.significance
              AND facet.etn = product_vtec.etn"
  | .issueKind =>
      push "SELECT facet.kind AS value, COUNT(DISTINCT products.id) AS count
             FROM products
             INNER JOIN product_issues AS facet ON facet.product_id = products.id"
  | .issueCode =>
      push "SELECT facet.code AS value, COUNT(DISTINCT products.id) AS count
             FROM products
             INNER JOIN product_issues AS facet ON facet.product_id = products.id"

/-- `append_facet_non_null_filter`. -/
def appendFacetNonNullFilter : FacetDimension → Text SqlValue
  | .office => push " AND products.office_code IS NOT NULL"
  | .family => push " AND products.family IS NOT NULL"
  | .artifactKind => push " AND products.artifact_kind IS NOT NULL"
  | .phenomena => push " AND facet.phenomena IS NOT NULL"
  | .significance => push " AND facet.significance IS NOT NULL"
  | .status => push " AND facet.current_status IS NOT NULL"
  | .issueKind => push " AND facet.kind IS NOT NULL"
  | .issueCode => push " AND facet.code IS NOT NULL"

/-- The filters for the rows that a dimension counts. -/
def appendFacetAliasFilters (dimension : FacetDimension) (query : ProductListQuery) :
    Except QueryError (Text SqlValue) :=
  match dimension with
  | .phenomena | .significance => appendVtecAliasFilters "facet" query
  | .status => appendVtecAliasFilters "product_vtec" query
  | .issueKind | .issueCode => .ok (appendIssueAliasFilters "facet" query)
  | .office | .family | .artifactKind => .ok []

/-- The query of `list_facet_aggregate_query`. -/
def facetAggregateSql (query : FacetAggregateQuery) : Except QueryError (Text SqlValue) := do
  let limit := max 1 (min query.limit 100)
  let filters ← appendProductFilters query.filters
  let rows ← appendFacetAliasFilters query.dimension query.filters
  let bound ← bindLimit limit
  .ok (facetAggregateSelectSql query.dimension ++ push " WHERE 1 = 1" ++ filters ++ rows ++
    appendFacetNonNullFilter query.dimension ++
    push " GROUP BY value ORDER BY count DESC, value ASC LIMIT " ++ pushBind bound)

/-! ## Timeseries -/

/-- An instant as a bound value; the database counts microseconds. -/
def bindInstant (t : DateTime) : SqlValue := .time (t / 1000)

/-- How many buckets lie between the ends of a timeseries. -/
def TimeseriesAggregateQuery.bucketCount (query : TimeseriesAggregateQuery) : ℤ :=
  let bucketSeconds := numSeconds query.bucket.duration
  let spanSeconds := numSeconds (query.stop - query.start)
  (spanSeconds + bucketSeconds - 1).tdiv bucketSeconds

/-- What a measure counts, with the filters for its rows. -/
def appendTimeseriesMeasure (measure : TimeseriesMeasure) (query : ProductListQuery) :
    Except QueryError (Text SqlValue) :=
  match measure with
  | .productCount =>
      .ok (push "COUNT(DISTINCT matching_products.id) AS count FROM buckets LEFT JOIN matching_products ON matching_products.source_time >= buckets.bucket_start AND matching_products.source_time < buckets.bucket_end")
  | .issueCount =>
      .ok (push "COUNT(product_issues.id) AS count FROM buckets LEFT JOIN matching_products ON matching_products.source_time >= buckets.bucket_start AND matching_products.source_time < buckets.bucket_end LEFT JOIN product_issues ON product_issues.product_id = matching_products.id" ++
        appendIssueAliasFilters "product_issues" query)
  | .incidentCount =>
      (appendVtecAliasFilters "product_vtec" query).map fun rows =>
        push "COUNT(DISTINCT (product_vtec.office, product_vtec.phenomena, product_vtec.significance, product_vtec.etn)) AS count FROM buckets LEFT JOIN matching_products ON matching_products.source_time >= buckets.bucket_start AND matching_products.source_time < buckets.bucket_end LEFT JOIN product_vtec ON product_vtec.product_id = matching_products.id" ++
          rows

/-- The query of `list_timeseries_aggregate_query`. -/
def timeseriesAggregateSql (query : TimeseriesAggregateQuery) :
    Except QueryError (Text SqlValue) := do
  if query.stop ≤ query.start then invalid "end must be after start"
  if 1000 < query.bucketCount then
    invalid "timeseries request would produce more than 1000 buckets"
  let filters ← appendProductFilters query.filters
  let counted ← appendTimeseriesMeasure query.measure query.filters
  .ok (push "WITH matching_products AS (
            SELECT
                products.id,
                to_timestamp(products.source_timestamp_utc) AS source_time
            FROM products
            WHERE 1 = 1" ++ filters ++
    push "), buckets AS (SELECT bucket_start, LEAST(bucket_start + interval '" ++
    push query.bucket.postgresInterval ++ push "', " ++ pushBind (bindInstant query.stop) ++
    push ") AS bucket_end FROM generate_series(" ++ pushBind (bindInstant query.start) ++
    push ", " ++ pushBind (bindInstant query.stop) ++ push ", interval '" ++
    push query.bucket.postgresInterval ++ push "') AS bucket_start WHERE bucket_start < " ++
    pushBind (bindInstant query.stop) ++
    push ") SELECT buckets.bucket_start, buckets.bucket_end, " ++ counted ++
    push " GROUP BY buckets.bucket_start, buckets.bucket_end ORDER BY buckets.bucket_start ASC")

/-! ## Cells -/

/-- `geohash_alphabet_sql`. -/
def geohashAlphabetSql : Text SqlValue :=
  push "(VALUES
        ('0'), ('1'), ('2'), ('3'), ('4'), ('5'), ('6'), ('7'),
        ('8'), ('9'), ('b'), ('c'), ('d'), ('e'), ('f'), ('g'),
        ('h'), ('j'), ('k'), ('m'), ('n'), ('p'), ('q'), ('r'),
        ('s'), ('t'), ('u'), ('v'), ('w'), ('x'), ('y'), ('z')
    )"

/-- The query of `list_cell_aggregate_query`. -/
def cellAggregateSql (query : CellAggregateQuery) : Except QueryError (Text SqlValue) := do
  if query.measure ≠ .productCount then invalid "unsupported cell aggregate measure"
  if ¬ (1 ≤ query.precision ∧ query.precision ≤ 6) then
    invalid "precision must be between 1 and 6"
  let limit := max 1 (min query.limit 1000)
  let filters ← appendProductFilters query.filters
  let spatial ← appendFeatureSpatialFilter query.filters
  let bound ← bindLimit limit
  .ok (push "WITH RECURSIVE matching_features AS (
            SELECT DISTINCT
                features.product_id,
                features.feature_geom" ++ archivedFeatureSourceSql ++ push " WHERE 1 = 1" ++
    filters ++ spatial ++
    push "), geohash_prefixes(cell) AS (
            SELECT chars.ch
            FROM " ++ geohashAlphabetSql ++
    push " AS chars
            WHERE EXISTS (
                SELECT 1
                FROM matching_features
                WHERE ST_Intersects(
                    matching_features.feature_geom,
                    ST_SetSRID(ST_GeomFromGeoHash(chars.ch), 4326)
                )
            )
            UNION ALL
            SELECT geohash_prefixes.cell || chars.ch
            FROM geohash_prefixes
            CROSS JOIN " ++ geohashAlphabetSql ++
    push " AS chars WHERE char_length(geohash_prefixes.cell) < " ++
    pushBind (.int query.precision) ++
    push " AND EXISTS (
                SELECT 1
                FROM matching_features
                WHERE ST_Intersects(
                    matching_features.feature_geom,
                    ST_SetSRID(ST_GeomFromGeoHash(geohash_prefixes.cell || chars.ch), 4326)
                )
            )
        ), candidate_cells AS (
            SELECT cell
            FROM geohash_prefixes
            WHERE char_length(cell) = " ++ pushBind (.int query.precision) ++
    push ")
        SELECT
            candidate_cells.cell,
            COUNT(DISTINCT matching_features.product_id) AS count
        FROM candidate_cells
        INNER JOIN matching_features
            ON ST_Intersects(
                matching_features.feature_geom,
                ST_SetSRID(ST_GeomFromGeoHash(candidate_cells.cell), 4326)
            )" ++
    push " GROUP BY candidate_cells.cell ORDER BY count DESC, candidate_cells.cell ASC LIMIT " ++
    pushBind bound)

/-! ## Limits -/

/-- A limit of some thousands fits. -/
theorem bindLimit_of_le {limit : ℕ} (h : limit ≤ 1000) : bindLimit limit = .ok (.int limit) :=
  if_pos (h.trans_lt (by norm_num))

theorem normalizePageLimit_le (limit : ℕ) : normalizePageLimit limit ≤ 500 := by
  unfold normalizePageLimit
  omega

/-- The query of a page of products is the one that is run. -/
theorem archivedProductsSql_eq (query : ProductListQuery) (cursor : Option ProductCursor) :
    archivedProductsSql query cursor = (appendProductFilters query).map fun filters =>
      archivedProductsText filters cursor (normalizePageLimit query.limit) := by
  have hlimit := normalizePageLimit_le query.limit
  have hbound : bindLimit (normalizePageLimit query.limit + 1) =
      .ok (.int (normalizePageLimit query.limit + 1 : ℕ)) := bindLimit_of_le (by omega)
  unfold archivedProductsSql
  cases appendProductFilters query with
  | error e => rfl
  | ok filters =>
      show (bindLimit (normalizePageLimit query.limit + 1)).bind _ = _
      rw [hbound]
      rfl

/-- The query of a page of features is the one that is run. -/
theorem archivedFeaturesSql_eq (query : FeatureListQuery) (cursor : Option FeatureCursor) :
    archivedFeaturesSql query cursor = (appendFeatureFilters query).map fun filters =>
      archivedFeaturesText filters cursor (normalizePageLimit query.filters.limit) := by
  have hlimit := normalizePageLimit_le query.filters.limit
  have hbound : bindLimit (normalizePageLimit query.filters.limit + 1) =
      .ok (.int (normalizePageLimit query.filters.limit + 1 : ℕ)) := bindLimit_of_le (by omega)
  unfold archivedFeaturesSql
  cases appendFeatureFilters query with
  | error e => rfl
  | ok filters =>
      show (bindLimit (normalizePageLimit query.filters.limit + 1)).bind _ = _
      rw [hbound]
      rfl

end Query
