/-
# Incidents and features

The lists of incidents (latest first, then by key) and of the features of products (newest
product first).  Their cursors have more columns than those of the other lists.
-/
import Emwin.Query.Products

open Sql Keyset OrderDual Incident

namespace Query

variable {S G κ : Type} [LinearOrder κ]

/-! ## Incidents -/

/-- The rows of `incidents`; the key is the primary key. -/
structure IncidentTable where
  rows : List IncidentSummary
  nodup : (rows.map IncidentSummary.key).Nodup

/-- The names of the columns of the order of incidents. -/
def latestTimestampColumn : Str := "latest_product_timestamp_utc".toList

@[inherit_doc latestTimestampColumn]
def officeColumn : Str := "office".toList

@[inherit_doc latestTimestampColumn]
def phenomenaColumn : Str := "phenomena".toList

@[inherit_doc latestTimestampColumn]
def significanceColumn : Str := "significance".toList

@[inherit_doc latestTimestampColumn]
def etnColumn : Str := "etn".toList

/-- Incidents; `other` is the truth of conditions that are no comparison of these columns. -/
def incidentSchema (collation : Collation κ)
    (other : List (Lexeme SqlValue) → IncidentSummary → Option Bool) :
    Schema SqlValue IncidentSummary where
  term w :=
    if w = latestTimestampColumn then some fun row => .time row.latestProductTimestampUtc
    else if w = officeColumn then some fun row => .text row.key.office
    else if w = phenomenaColumn then some fun row => .text row.key.phenomena
    else if w = significanceColumn then some fun row => .text row.key.significance
    else if w = etnColumn then some fun row => .int row.key.etn
    else if w = ['1'] then some fun _ => .int 1
    else none
  compare := SqlValue.compare collation
  other := other
  count := SqlValue.count

/-- The columns of incidents. -/
def incidentSelectSql : Text SqlValue :=
  push "SELECT
            office,
            phenomena,
            significance,
            etn,
            current_status,
            latest_vtec_action,
            issued_at,
            start_utc,
            end_utc,
            last_updated_at,
            first_product_id,
            latest_product_id,
            latest_product_timestamp_utc
         FROM incidents"

/-- The incidents that are active at a time. -/
def appendActiveAt (activeAt : Option Time) : Text SqlValue :=
  match activeAt with
  | none => []
  | some activeAt =>
      push " AND issued_at <= " ++ pushBind (SqlValue.time activeAt) ++
        push " AND (start_utc IS NULL OR start_utc <= " ++ pushBind (SqlValue.time activeAt) ++
        push ")" ++
        push " AND (end_utc IS NULL OR end_utc >= " ++ pushBind (SqlValue.time activeAt) ++
        push ")"

/-- The filters for incidents. -/
def appendIncidentFilters (query : IncidentListQuery) : Text SqlValue :=
  appendComparison " AND office = " (query.office.map fun office => .text (normalizeUpper office)) ++
    appendComparison " AND phenomena = "
      (query.phenomena.map fun phenomena => .text (normalizeUpper phenomena)) ++
    appendComparison " AND significance = "
      (query.significance.map fun significance => .text (normalizeUpper significance)) ++
    appendComparison " AND etn = " (query.etn.map SqlValue.int) ++
    appendComparison " AND current_status = "
      (query.status.map fun status => .text (normalizeLower status)) ++
    appendComparison " AND last_updated_at >= " (query.updatedAfter.map SqlValue.time) ++
    appendComparison " AND last_updated_at <= " (query.updatedBefore.map SqlValue.time) ++
    appendActiveAt query.activeAt

/-- The condition of a cursor. -/
def IncidentCursor.text (cursor : IncidentCursor) : Text SqlValue :=
  push " AND (
                    latest_product_timestamp_utc < " ++
    (pushBind (SqlValue.time cursor.latestProductTimestampUtc) ++
    (push " OR (
                    latest_product_timestamp_utc = " ++
    (pushBind (SqlValue.time cursor.latestProductTimestampUtc) ++
    (push " AND (
                    office > " ++
    (pushBind (SqlValue.text cursor.office) ++
    (push " OR (
                    office = " ++
    (pushBind (SqlValue.text cursor.office) ++
    (push " AND phenomena > " ++
    (pushBind (SqlValue.text cursor.phenomena) ++
    (push ") OR (
                    office = " ++
    (pushBind (SqlValue.text cursor.office) ++
    (push " AND phenomena = " ++
    (pushBind (SqlValue.text cursor.phenomena) ++
    (push " AND significance > " ++
    (pushBind (SqlValue.text cursor.significance) ++
    (push ") OR (
                    office = " ++
    (pushBind (SqlValue.text cursor.office) ++
    (push " AND phenomena = " ++
    (pushBind (SqlValue.text cursor.phenomena) ++
    (push " AND significance = " ++
    (pushBind (SqlValue.text cursor.significance) ++
    (push " AND etn > " ++
    (pushBind (SqlValue.int cursor.etn) ++
    push ")))")))))))))))))))))))))))

/-- The query for a page of incidents. -/
def incidentsText (filters : Text SqlValue) (cursor : Option IncidentCursor) (limit : ℕ) :
    Text SqlValue :=
  assemble (incidentSelectSql ++ push " WHERE 1 = 1") filters
    (cursor.elim [] IncidentCursor.text)
    " ORDER BY latest_product_timestamp_utc DESC, office ASC, phenomena ASC, significance ASC, etn ASC LIMIT "
    limit

/-- The cursor of an incident. -/
def incidentCursorOf (incident : IncidentSummary) : IncidentCursor :=
  ⟨incident.latestProductTimestampUtc, incident.key.office, incident.key.phenomena,
    incident.key.significance, incident.key.etn⟩

/-- A page of incidents. -/
def listIncidentsQuery (schema : Schema SqlValue IncidentSummary) (codec : Codec IncidentCursor)
    (table : IncidentTable) (query : IncidentListQuery) :
    Except QueryError (PaginatedResponse IncidentSummary) := do
  let limit := normalizePageLimit query.limit
  let cursor ← codec.decodeOptionalCursor query.cursor
  fetchPage schema table.rows (incidentsText (appendIncidentFilters query) cursor limit) limit
    id fun tail => .ok (codec.encodeCursor (incidentCursorOf tail))

/-! ## Features -/

/-- A row of one of the tables of features; `G` are its geometry and properties. -/
structure FeatureSourceRow (G : Type) where
  id : ℤ
  productId : ℤ
  hasGeometry : Bool
  columns : G

/-- The tables of products and of features, one for each kind; ids are unique in each. -/
structure FeatureTables (S G : Type) where
  products : List (ProductRow S)
  source : FeatureKind → List (FeatureSourceRow G)
  products_nodup : (products.map ProductRow.id).Nodup
  source_nodup : ∀ kind, ((source kind).map FeatureSourceRow.id).Nodup

/-- A row of the union of the tables of features, and its product. -/
structure FeatureRow (S G : Type) where
  kind : FeatureKind
  source : FeatureSourceRow G
  product : ProductRow S

/-- Whether rows of a kind are left out if they have no geometry. -/
def FeatureKind.needsGeometry : FeatureKind → Bool
  | .ugcPoint | .hvtecPoint => true
  | _ => false

/-- The kinds in the order of the union. -/
def FeatureKind.all : List FeatureKind :=
  [.polygon, .timeMotLocPath, .ugcPoint, .hvtecPoint, .searchPoint]

/-- Features with their products. -/
def FeatureTables.featureRows (tables : FeatureTables S G) : List (FeatureRow S G) :=
  FeatureKind.all.flatMap fun kind =>
    ((tables.source kind).filter fun row => !kind.needsGeometry || row.hasGeometry).flatMap
      fun row => (tables.products.filter fun product => product.id = row.productId).map
        fun product => ⟨kind, row, product⟩

/-- A feature of a list. -/
structure ArchivedFeature (G : Type) where
  featureId : Str
  featureKind : FeatureKind
  productId : ℤ
  sourceTimestampUtc : ℤ
  columns : G

/-- The kind that a text names. -/
def FeatureKind.fromStr (value : Str) : Except QueryError FeatureKind :=
  match FeatureKind.all.find? fun kind => kind.asStr = Str.trim value with
  | some kind => .ok kind
  | none => .error (.invalidRequest ("invalid feature kind `".toList ++ value ++ ['`']))

/-- The feature of a row; the row has the text of its kind. -/
def archivedFeatureFromRow (row : FeatureRow S G) : Except QueryError (ArchivedFeature G) := do
  let featureKind ← FeatureKind.fromStr row.kind.asStr
  .ok ⟨featureKind.asStr ++ ':' :: Str.ofInt row.source.id, featureKind, row.product.id,
    row.product.sourceTimestampUtc, row.source.columns⟩

/-- The names of the columns of features that cursors look at. -/
def featureKindOrderColumn : Str := "features.feature_kind_order".toList

@[inherit_doc featureKindOrderColumn]
def featureRowIdColumn : Str := "features.feature_row_id".toList

/-- Features with their products. -/
def featureSchema (collation : Collation κ)
    (other : List (Lexeme SqlValue) → FeatureRow S G → Option Bool) :
    Schema SqlValue (FeatureRow S G) where
  term w :=
    if w = timestampColumn then some fun row => .int row.product.sourceTimestampUtc
    else if w = idColumn then some fun row => .int row.product.id
    else if w = featureKindOrderColumn then some fun row => .int row.kind.ordinal
    else if w = featureRowIdColumn then some fun row => .int row.source.id
    else if w = ['1'] then some fun _ => .int 1
    else none
  compare := SqlValue.compare collation
  other := other
  count := SqlValue.count

/-- The union of the tables of features. -/
def archivedFeatureSourceSql : Text SqlValue :=
  push " FROM (
            SELECT
                'polygon' AS feature_kind,
                1 AS feature_kind_order,
                product_polygons.id AS feature_row_id,
                product_polygons.product_id,
                product_polygons.polygon_geom AS feature_geom,
                ST_AsGeoJSON(product_polygons.polygon_geom)::json AS geometry,
                jsonb_build_object(
                    'segment_index', product_polygons.segment_index,
                    'polygon_index', product_polygons.polygon_index
                ) AS properties
            FROM product_polygons
            UNION ALL
" ++
  push "            SELECT
                'time_mot_loc_path' AS feature_kind,
                2 AS feature_kind_order,
                product_time_mot_loc.id AS feature_row_id,
                product_time_mot_loc.product_id,
                product_time_mot_loc.path_geom AS feature_geom,
                ST_AsGeoJSON(product_time_mot_loc.path_geom)::json AS geometry,
                jsonb_build_object(
                    'segment_index', product_time_mot_loc.segment_index,
                    'entry_index', product_time_mot_loc.entry_index,
                    'time_utc', product_time_mot_loc.time_utc,
                    'direction_degrees', product_time_mot_loc.direction_degrees,
                    'speed_kt', product_time_mot_loc.speed_kt
                ) AS properties
            FROM product_time_mot_loc
            UNION ALL
" ++
  push "            SELECT
                'ugc_point' AS feature_kind,
                3 AS feature_kind_order,
                product_ugc_areas.id AS feature_row_id,
                product_ugc_areas.product_id,
                product_ugc_areas.point_geom AS feature_geom,
                ST_AsGeoJSON(product_ugc_areas.point_geom)::json AS geometry,
                jsonb_build_object(
                    'segment_index', product_ugc_areas.segment_index,
                    'section_index', product_ugc_areas.section_index,
                    'area_kind', product_ugc_areas.area_kind,
                    'state', product_ugc_areas.state,
                    'ugc_code', product_ugc_areas.ugc_code,
                    'name', product_ugc_areas.name,
                    'expires_utc', product_ugc_areas.expires_utc
                ) AS properties
            FROM product_ugc_areas
            WHERE product_ugc_areas.point_geom IS NOT NULL
            UNION ALL
" ++
  push "            SELECT
                'hvtec_point' AS feature_kind,
                4 AS feature_kind_order,
                product_hvtec.id AS feature_row_id,
                product_hvtec.product_id,
                product_hvtec.point_geom AS feature_geom,
                ST_AsGeoJSON(product_hvtec.point_geom)::json AS geometry,
                jsonb_build_object(
                    'segment_index', product_hvtec.segment_index,
                    'hvtec_index', product_hvtec.hvtec_index,
                    'nwslid', product_hvtec.nwslid,
                    'location_name', product_hvtec.location_name,
                    'severity', product_hvtec.severity,
                    'cause', product_hvtec.cause,
                    'record', product_hvtec.record,
                    'begin_utc', product_hvtec.begin_utc,
                    'crest_utc', product_hvtec.crest_utc,
                    'end_utc', product_hvtec.end_utc
                ) AS properties
            FROM product_hvtec
            WHERE product_hvtec.point_geom IS NOT NULL
            UNION ALL
" ++
  push "            SELECT
                'search_point' AS feature_kind,
                5 AS feature_kind_order,
                product_search_points.id AS feature_row_id,
                product_search_points.product_id,
                product_search_points.point_geom AS feature_geom,
                ST_AsGeoJSON(product_search_points.point_geom)::json AS geometry,
                jsonb_build_object(
                    'source_kind', product_search_points.source_kind,
                    'source_index', product_search_points.source_index
                ) AS properties
            FROM product_search_points
        ) AS features
        INNER JOIN products ON products.id = features.product_id"

/-- The columns of features. -/
def archivedFeatureSelectSql : Text SqlValue :=
  push "SELECT
            features.feature_kind,
            features.feature_kind_order,
            features.feature_row_id,
            products.id AS product_id,
            products.source_timestamp_utc,
            features.feature_geom,
            features.geometry,
            features.properties" ++
  archivedFeatureSourceSql

/-- The filters for features. -/
def appendFeatureFilters (query : FeatureListQuery) : Except QueryError (Text SqlValue) := do
  let filters ← appendProductFilters query.filters
  let spatial ← appendFeatureSpatialFilter query.filters
  .ok (filters ++ spatial ++ appendComparison " AND features.feature_kind = "
    (query.kind.map fun kind => .text kind.asStr))

/-- The condition of a cursor. -/
def FeatureCursor.text (cursor : FeatureCursor) : Text SqlValue :=
  push " AND (products.source_timestamp_utc < " ++
    (pushBind (SqlValue.int cursor.sourceTimestampUtc) ++
    (push " OR (products.source_timestamp_utc = " ++
    (pushBind (SqlValue.int cursor.sourceTimestampUtc) ++
    (push " AND (products.id < " ++
    (pushBind (SqlValue.int cursor.productId) ++
    (push " OR (products.id = " ++
    (pushBind (SqlValue.int cursor.productId) ++
    (push " AND (features.feature_kind_order > " ++
    (pushBind (SqlValue.int cursor.featureKind.ordinal) ++
    (push " OR (features.feature_kind_order = " ++
    (pushBind (SqlValue.int cursor.featureKind.ordinal) ++
    (push " AND features.feature_row_id < " ++
    (pushBind (SqlValue.int cursor.featureRowId) ++
    push ")))))")))))))))))))

/-- The query for a page of features. -/
def archivedFeaturesText (filters : Text SqlValue) (cursor : Option FeatureCursor) (limit : ℕ) :
    Text SqlValue :=
  assemble (archivedFeatureSelectSql ++ push " WHERE 1 = 1") filters
    (cursor.elim [] FeatureCursor.text)
    " ORDER BY products.source_timestamp_utc DESC, products.id DESC, features.feature_kind_order ASC, features.feature_row_id DESC LIMIT "
    limit

/-- The cursor of a feature; the id of its row is read from its id. -/
def featureCursorOf (tail : ArchivedFeature G) : Except QueryError FeatureCursor :=
  match (Str.rsplitOnce ':' tail.featureId).bind fun parts =>
    (Str.parseI64 parts.2).toOption with
  | some featureRowId =>
      .ok ⟨tail.sourceTimestampUtc, tail.productId, tail.featureKind, featureRowId⟩
  | none => .error (.panicked "feature id should end with row id".toList)

/-- A page of features. -/
def listArchivedFeaturesQuery (schema : Schema SqlValue (FeatureRow S G))
    (codec : Codec FeatureCursor) (tables : FeatureTables S G) (query : FeatureListQuery) :
    Except QueryError (PaginatedResponse (ArchivedFeature G)) := do
  let limit := normalizePageLimit query.filters.limit
  let cursor ← codec.decodeOptionalCursor query.filters.cursor
  let filters ← appendFeatureFilters query
  match schema.execute tables.featureRows (archivedFeaturesText filters cursor limit) with
  | none => .error .database
  | some found => do
      let items ← found.mapM archivedFeatureFromRow
      paginate limit items fun tail => (featureCursorOf tail).map codec.encodeCursor

end Query
