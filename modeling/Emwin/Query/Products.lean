/-
# Products, issues and the products of an incident

The lists that can be paged through: products (newest first), issues of products (newest
product first) and the products of an incident (oldest first).  Their cursors spell out the
rows after the last one in exactly the order of `ORDER BY`.
-/
import Emwin.Query.Paging

open Sql Keyset OrderDual Incident

namespace Query

/-! ## Tables -/

/-- A row of `products`; `S` are the columns that neither cursors nor orders look at. -/
structure ProductRow (S : Type) where
  id : ℤ
  sourceTimestampUtc : ℤ
  columns : S

/-- A row of `product_issues`. -/
structure IssueRow where
  id : ℤ
  productId : ℤ
  kind : Str
  code : Str
  message : Str
  line : Option Str
deriving DecidableEq, Repr

/-- The tables; ids are unique. -/
structure Tables (S : Type) where
  products : List (ProductRow S)
  issues : List IssueRow
  products_nodup : (products.map ProductRow.id).Nodup
  issues_nodup : (issues.map IssueRow.id).Nodup

variable {S κ : Type} [LinearOrder κ]

/-- Issues with their products. -/
def Tables.issueRows (tables : Tables S) : List (IssueRow × ProductRow S) :=
  tables.issues.flatMap fun issue =>
    (tables.products.filter fun product => product.id = issue.productId).map fun product =>
      (issue, product)

/-- A product of a list. -/
structure ArchivedProductSummary (S : Type) where
  productId : ℤ
  sourceTimestampUtc : ℤ
  columns : S

/-- The product of a row. -/
def archivedProductSummaryFromRow (row : ProductRow S) : ArchivedProductSummary S :=
  ⟨row.id, row.sourceTimestampUtc, row.columns⟩

/-- An issue of a list. -/
structure ArchivedIssue where
  id : ℤ
  productId : ℤ
  kind : Str
  code : Str
  message : Str
  line : Option Str
deriving DecidableEq, Repr

/-- The issue of a row. -/
def archivedIssueFromRow (row : IssueRow × ProductRow S) : ArchivedIssue :=
  ⟨row.1.id, row.1.productId, row.1.kind, row.1.code, row.1.message, row.1.line⟩

/-! ## Columns -/

/-- The names of the columns that cursors look at. -/
def timestampColumn : Str := "products.source_timestamp_utc".toList

@[inherit_doc timestampColumn]
def idColumn : Str := "products.id".toList

@[inherit_doc timestampColumn]
def bareTimestampColumn : Str := "source_timestamp_utc".toList

@[inherit_doc timestampColumn]
def bareIdColumn : Str := "id".toList

@[inherit_doc timestampColumn]
def issueProductIdColumn : Str := "product_issues.product_id".toList

@[inherit_doc timestampColumn]
def issueIdColumn : Str := "product_issues.id".toList

/-- Products; `other` is the truth of conditions that are no comparison of these columns. -/
def productSchema (collation : Collation κ)
    (other : List (Lexeme SqlValue) → ProductRow S → Option Bool) :
    Schema SqlValue (ProductRow S) where
  term w :=
    if w = timestampColumn ∨ w = bareTimestampColumn then some fun row =>
      .int row.sourceTimestampUtc
    else if w = idColumn ∨ w = bareIdColumn then some fun row => .int row.id
    else if w = ['1'] then some fun _ => .int 1
    else none
  compare := SqlValue.compare collation
  other := other
  count := SqlValue.count

/-- Issues with their products. -/
def issueSchema (collation : Collation κ)
    (other : List (Lexeme SqlValue) → IssueRow × ProductRow S → Option Bool) :
    Schema SqlValue (IssueRow × ProductRow S) where
  term w :=
    if w = timestampColumn then some fun row => .int row.2.sourceTimestampUtc
    else if w = issueProductIdColumn then some fun row => .int row.1.productId
    else if w = issueIdColumn then some fun row => .int row.1.id
    else if w = ['1'] then some fun _ => .int 1
    else none
  compare := SqlValue.compare collation
  other := other
  count := SqlValue.count

/-! ## Products -/

/-- The columns of products. -/
def archivedProductSummarySelectSql : Text SqlValue :=
  push "SELECT
            id AS product_id,
            filename,
            source_timestamp_utc,
            ingested_at,
            source_receiver,
            source_message_id,
            size_bytes,
            (metadata_location IS NOT NULL) AS has_metadata_sidecar,
            source,
            family,
            artifact_kind,
            title,
            container,
            pil,
            wmo_prefix,
            bbb_kind,
            office_code,
            office_city,
            office_state,
            header_kind,
            ttaaii,
            cccc,
            ddhhmm,
            bbb,
            afos,
            has_body,
            has_artifact,
            has_issues,
            has_vtec,
            has_ugc,
            has_hvtec,
            has_latlon,
            has_time_mot_loc,
            has_wind_hail,
            vtec_count,
            ugc_count,
            hvtec_count,
            latlon_count,
            time_mot_loc_count,
            wind_hail_count,
            issue_count
         FROM products"

/-- The rows after a cursor. -/
def ProductCursor.text (cursor : ProductCursor) : Text SqlValue :=
  push " AND (products.source_timestamp_utc < " ++
    (pushBind (SqlValue.int cursor.sourceTimestampUtc) ++
    (push " OR (products.source_timestamp_utc = " ++
    (pushBind (SqlValue.int cursor.sourceTimestampUtc) ++
    (push " AND products.id < " ++
    (pushBind (SqlValue.int cursor.productId) ++
    push "))")))))

/-- The query for a page of products. -/
def archivedProductsText (filters : Text SqlValue) (cursor : Option ProductCursor) (limit : ℕ) :
    Text SqlValue :=
  assemble (archivedProductSummarySelectSql ++ push " WHERE 1 = 1") filters
    (cursor.elim [] ProductCursor.text)
    " ORDER BY products.source_timestamp_utc DESC, products.id DESC LIMIT " limit

/-- The cursor of a product. -/
def productCursorOf (product : ArchivedProductSummary S) : ProductCursor :=
  ⟨product.sourceTimestampUtc, product.productId⟩

/-- A page of products. -/
def listArchivedProductsQuery (schema : Schema SqlValue (ProductRow S))
    (codec : Codec ProductCursor) (tables : Tables S) (query : ProductListQuery) :
    Except QueryError (PaginatedResponse (ArchivedProductSummary S)) := do
  let limit := normalizePageLimit query.limit
  let cursor ← codec.decodeOptionalCursor query.cursor
  let filters ← appendProductFilters query
  fetchPage schema tables.products (archivedProductsText filters cursor limit) limit
    archivedProductSummaryFromRow fun tail => .ok (codec.encodeCursor (productCursorOf tail))

/-! ## Issues -/

/-- The columns of issues. -/
def archivedIssueSelectSql : Text SqlValue :=
  push "SELECT
            product_issues.id,
            product_issues.product_id,
            product_issues.kind,
            product_issues.code,
            product_issues.message,
            product_issues.line
         FROM product_issues
         INNER JOIN products ON products.id = product_issues.product_id"

/-- The filters for issues. -/
def appendIssueFilters (query : ArchivedIssueListQuery) : Text SqlValue :=
  appendComparison " AND product_issues.product_id = " (query.productId.map SqlValue.int) ++
    appendComparison " AND product_issues.kind = "
      (query.kind.map fun kind => .text (normalizeLower kind)) ++
    appendComparison " AND product_issues.code = "
      (query.code.map fun code => .text (normalizeLower code))

/-- The rows after a cursor. -/
def ArchivedIssueCursor.text (cursor : ArchivedIssueCursor) : Text SqlValue :=
  push " AND (products.source_timestamp_utc < " ++
    (pushBind (SqlValue.int cursor.sourceTimestampUtc) ++
    (push " OR (products.source_timestamp_utc = " ++
    (pushBind (SqlValue.int cursor.sourceTimestampUtc) ++
    (push " AND (product_issues.product_id < " ++
    (pushBind (SqlValue.int cursor.productId) ++
    (push " OR (product_issues.product_id = " ++
    (pushBind (SqlValue.int cursor.productId) ++
    (push " AND product_issues.id < " ++
    (pushBind (SqlValue.int cursor.issueId) ++
    push "))))")))))))))

/-- The query for a page of issues. -/
def archivedIssuesText (filters : Text SqlValue) (cursor : Option ArchivedIssueCursor)
    (limit : ℕ) : Text SqlValue :=
  assemble (archivedIssueSelectSql ++ push " WHERE 1 = 1") filters
    (cursor.elim [] ArchivedIssueCursor.text)
    " ORDER BY products.source_timestamp_utc DESC, product_issues.product_id DESC, product_issues.id DESC LIMIT "
    limit

/-- The timestamp of the product of an issue. -/
def fetchIssueCursorTimestamp (tables : Tables S) (issueId : ℤ) : Except QueryError ℤ :=
  match tables.issueRows.find? fun row => row.1.id = issueId with
  | none => .error .database
  | some row => .ok row.2.sourceTimestampUtc

/-- A page of issues. -/
def listArchivedIssuesQuery (schema : Schema SqlValue (IssueRow × ProductRow S))
    (codec : Codec ArchivedIssueCursor) (tables : Tables S) (query : ArchivedIssueListQuery) :
    Except QueryError (PaginatedResponse ArchivedIssue) := do
  let limit := normalizePageLimit query.limit
  let cursor ← codec.decodeOptionalCursor query.cursor
  fetchPage schema tables.issueRows (archivedIssuesText (appendIssueFilters query) cursor limit)
    limit archivedIssueFromRow fun tail =>
      (fetchIssueCursorTimestamp tables tail.id).map fun sourceTimestampUtc =>
        codec.encodeCursor ⟨sourceTimestampUtc, tail.productId, tail.id⟩

/-! ## The products of an incident -/

/-- The condition of the products of an incident. -/
def incidentProductsWhere (key : IncidentKey) : Text SqlValue :=
  push " WHERE EXISTS (
            SELECT 1
            FROM product_vtec
            WHERE product_vtec.product_id = products.id
              AND office = " ++
    pushBind (SqlValue.text key.office) ++ push " AND phenomena = " ++
      pushBind (SqlValue.text key.phenomena) ++
    push " AND significance = " ++ pushBind (SqlValue.text key.significance) ++
      push " AND etn = " ++
    pushBind (SqlValue.int key.etn) ++ push ")"

/-- The rows after a cursor. -/
def IncidentProductsCursor.text (cursor : IncidentProductsCursor) : Text SqlValue :=
  push " AND (source_timestamp_utc > " ++
    (pushBind (SqlValue.int cursor.sourceTimestampUtc) ++
    (push " OR (source_timestamp_utc = " ++
    (pushBind (SqlValue.int cursor.sourceTimestampUtc) ++
    (push " AND id > " ++
    (pushBind (SqlValue.int cursor.productId) ++
    push "))")))))

/-- The query for a page of the products of an incident. -/
def incidentProductsText (key : IncidentKey) (cursor : Option IncidentProductsCursor)
    (limit : ℕ) : Text SqlValue :=
  assemble (archivedProductSummarySelectSql ++ incidentProductsWhere key) []
    (cursor.elim [] IncidentProductsCursor.text)
    " ORDER BY source_timestamp_utc ASC, id ASC LIMIT " limit

/-- The cursor of a product of an incident. -/
def incidentProductsCursorOf (product : ArchivedProductSummary S) : IncidentProductsCursor :=
  ⟨product.sourceTimestampUtc, product.productId⟩

/-- A page of the products of an incident. -/
def listIncidentProductsQuery (schema : Schema SqlValue (ProductRow S))
    (codec : Codec IncidentProductsCursor) (tables : Tables S) (key : IncidentKey)
    (query : IncidentProductsQuery) :
    Except QueryError (PaginatedResponse (ArchivedProductSummary S)) := do
  let limit := normalizePageLimit query.limit
  let cursor ← codec.decodeOptionalCursor query.cursor
  fetchPage schema tables.products (incidentProductsText key cursor limit) limit
    archivedProductSummaryFromRow fun tail =>
      .ok (codec.encodeCursor (incidentProductsCursorOf tail))

end Query
