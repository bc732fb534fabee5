/-
# Complete pages

Following the cursors of the lists of products, of issues and of the products of an incident
gives every matching row once, in the order of the list.

For each list: the columns of `ORDER BY` are read as they are written, the condition of the
cursor is read as the rows after a row, column by column in the same order, and the rows have
different keys since their ids are unique.
-/
import Emwin.Query.Products
import Mathlib.Tactic.DeriveEncodable

open Sql Keyset OrderDual Incident

namespace Query

variable {S κ : Type} [LinearOrder κ] {collation : Collation κ}

/-! ## Products -/

section Products

variable {other : List (Lexeme SqlValue) → ProductRow S → Option Bool}

/-- The order of products, newest first. -/
def productKey (row : ProductRow S) : ℤᵒᵈ ×ₗ ℤᵒᵈ :=
  toLex (toDual row.sourceTimestampUtc, toDual row.id)

/-- The columns of the order of products. -/
def productOrder : List (Str × Direction) := [(timestampColumn, .desc), (idColumn, .desc)]

/-- The rows after a product. -/
def afterProduct : ProductRow S → Cond SqlValue :=
  thenAfter timestampColumn ['<'] (fun row => .int row.sourceTimestampUtc)
    (columnTest idColumn ['<'] fun row => .int row.id)

theorem productSchema_timestamp : (productSchema collation other).IsColumn timestampColumn
    (fun row => .int row.sourceTimestampUtc) ProductRow.sourceTimestampUtc := by
  refine ⟨?_, fun _ _ => rfl⟩
  unfold productSchema
  dsimp only
  rw [if_pos (Or.inl rfl)]

theorem productSchema_id : (productSchema collation other).IsColumn idColumn
    (fun row => .int row.id) ProductRow.id := by
  refine ⟨?_, fun _ _ => rfl⟩
  unfold productSchema
  dsimp only
  rw [if_neg (by decide), if_pos (Or.inl rfl)]

theorem productCursor_readsConjunct (row : ProductRow S) :
    ReadsConjunct (productCursorOf (archivedProductSummaryFromRow row)).text
      (afterProduct row) := by
  apply ReadsConjunct.of_scan
  intro k
  rw [scan_piece (u := [.lpar, .word timestampColumn, .word ['<']]) rfl rfl rfl,
    scan_piece (u := [.word ['O', 'R'], .lpar, .word timestampColumn, .word ['=']])
      rfl rfl rfl,
    scan_piece (u := [.word ['A', 'N', 'D'], .word idColumn, .word ['<']])
      rfl rfl rfl,
    scan_end (u := [.rpar, .rpar]) rfl rfl]
  rfl

theorem productOrder_readsOrder (limit : ℕ) :
    ReadsOrder (push " ORDER BY products.source_timestamp_utc DESC, products.id DESC LIMIT " ++
      pushBind (SqlValue.int (limit + 1 : ℕ))) productOrder (.int (limit + 1 : ℕ)) := by
  apply ReadsOrder.of_run (u := [.word ['B', 'Y'], .word timestampColumn,
    .word ['D', 'E', 'S', 'C'], .comma, .word idColumn, .word ['D', 'E', 'S', 'C'],
    .word ['L', 'I', 'M', 'I', 'T']])
  · rfl
  · intro c
    rfl

set_option maxRecDepth 8000 in
theorem archivedProducts_select : (scan Shape.step ([], .select 0)
    (holes (archivedProductSummarySelectSql ++ push " WHERE 1 = 1"))).any isComplete = true := by
  unfold archivedProductSummarySelectSql
  rw [holes_append, holes_push, holes_push, push_ofList, push_ofList]
  rfl

theorem productKey_nodup (tables : Tables S) : (tables.products.map productKey).Nodup := by
  apply List.Nodup.of_map fun key => ofDual (ofLex key).2
  rw [List.map_map]
  exact tables.products_nodup

/-- The page of a request whose cursor and filters are accepted. -/
theorem listArchivedProductsQuery_eq {schema : Schema SqlValue (ProductRow S)}
    {codec : Codec ProductCursor} {tables : Tables S} {query : ProductListQuery}
    {filters : Text SqlValue} (hfilters : appendProductFilters query = .ok filters)
    {raw : Option Str} (cursor : Option ProductCursor)
    (hcursor : codec.decodeOptionalCursor raw = .ok cursor) :
    listArchivedProductsQuery schema codec tables { query with cursor := raw } =
      fetchPage schema tables.products
        (archivedProductsText filters cursor (normalizePageLimit query.limit))
        (normalizePageLimit query.limit) archivedProductSummaryFromRow
        fun tail => .ok (codec.encodeCursor (productCursorOf tail)) := by
  show (codec.decodeOptionalCursor raw).bind _ = _
  rw [hcursor]
  show (appendProductFilters query).bind _ = _
  rw [hfilters, Except.bind]

/-- The pages of products. -/
theorem products_enumerates (codec : Codec ProductCursor) (tables : Tables S)
    (query : ProductListQuery) {filters : Text SqlValue}
    (hfilters : appendProductFilters query = .ok filters) :
    Enumerates (fun cursor => listArchivedProductsQuery (productSchema collation other) codec tables
        { query with cursor := cursor })
      (normalizePageLimit query.limit) productKey archivedProductSummaryFromRow
      ((productSchema collation other).matching tables.products
        (archivedProductsText filters none (normalizePageLimit query.limit))) := by
  apply enumerates_assemble
    (fun row => codec.encodeCursor (productCursorOf (archivedProductSummaryFromRow row)))
    (fun tail => .ok (codec.encodeCursor (productCursorOf tail)))
    (normalizePageLimit_pos _) rfl (productKey_nodup tables) archivedProducts_select
    (appendProductFilters_conjuncts hfilters) (productOrder_readsOrder _)
    productCursor_readsConjunct
    (Schema.Orders.desc productSchema_timestamp (Schema.Orders.last_desc productSchema_id))
    (Schema.Continues.desc productSchema_timestamp (Schema.Continues.last_desc productSchema_id))
    (fun _ _ => rfl)
  · exact listArchivedProductsQuery_eq hfilters none rfl
  · intro row _
    exact listArchivedProductsQuery_eq hfilters (some (productCursorOf _))
      (codec.decodeOptionalCursor_encodeCursor _)

end Products

/-! ## Issues -/

section Issues

variable {other : List (Lexeme SqlValue) → IssueRow × ProductRow S → Option Bool}

/-- The order of issues, newest product first. -/
def issueKey (row : IssueRow × ProductRow S) : ℤᵒᵈ ×ₗ ℤᵒᵈ ×ₗ ℤᵒᵈ :=
  toLex (toDual row.2.sourceTimestampUtc, toLex (toDual row.1.productId, toDual row.1.id))

/-- The columns of the order of issues. -/
def issueOrder : List (Str × Direction) :=
  [(timestampColumn, .desc), (issueProductIdColumn, .desc), (issueIdColumn, .desc)]

/-- The rows after an issue. -/
def afterIssue : IssueRow × ProductRow S → Cond SqlValue :=
  thenAfter timestampColumn ['<'] (fun row => .int row.2.sourceTimestampUtc)
    (thenAfter issueProductIdColumn ['<'] (fun row => .int row.1.productId)
      (columnTest issueIdColumn ['<'] fun row => .int row.1.id))

theorem issueSchema_timestamp : (issueSchema collation other).IsColumn timestampColumn
    (fun row => .int row.2.sourceTimestampUtc) fun row => row.2.sourceTimestampUtc := by
  refine ⟨?_, fun _ _ => rfl⟩
  unfold issueSchema
  dsimp only
  rw [if_pos rfl]

theorem issueSchema_productId : (issueSchema collation other).IsColumn issueProductIdColumn
    (fun row => .int row.1.productId) fun row => row.1.productId := by
  refine ⟨?_, fun _ _ => rfl⟩
  unfold issueSchema
  dsimp only
  rw [if_neg (by decide), if_pos rfl]

theorem issueSchema_id : (issueSchema collation other).IsColumn issueIdColumn
    (fun row => .int row.1.id) fun row => row.1.id := by
  refine ⟨?_, fun _ _ => rfl⟩
  unfold issueSchema
  dsimp only
  rw [if_neg (by decide), if_neg (by decide), if_pos rfl]

/-- The cursor of an issue and its product. -/
def issueCursorOf (row : IssueRow × ProductRow S) : ArchivedIssueCursor :=
  ⟨row.2.sourceTimestampUtc, row.1.productId, row.1.id⟩

theorem issueCursor_readsConjunct (row : IssueRow × ProductRow S) :
    ReadsConjunct (issueCursorOf row).text (afterIssue row) := by
  apply ReadsConjunct.of_scan
  intro k
  rw [scan_piece (u := [.lpar, .word timestampColumn, .word ['<']]) rfl rfl rfl,
    scan_piece (u := [.word ['O', 'R'], .lpar, .word timestampColumn, .word ['=']])
      rfl rfl rfl,
    scan_piece (u := [.word ['A', 'N', 'D'], .lpar, .word issueProductIdColumn, .word ['<']])
      rfl rfl rfl,
    scan_piece (u := [.word ['O', 'R'], .lpar, .word issueProductIdColumn, .word ['=']])
      rfl rfl rfl,
    scan_piece (u := [.word ['A', 'N', 'D'], .word issueIdColumn, .word ['<']])
      rfl rfl rfl,
    scan_end (u := [.rpar, .rpar, .rpar, .rpar]) rfl rfl]
  rfl

theorem issueOrder_readsOrder (limit : ℕ) :
    ReadsOrder (push " ORDER BY products.source_timestamp_utc DESC, product_issues.product_id DESC, product_issues.id DESC LIMIT " ++
      pushBind (SqlValue.int (limit + 1 : ℕ))) issueOrder (.int (limit + 1 : ℕ)) := by
  apply ReadsOrder.of_run (u := [.word ['B', 'Y'], .word timestampColumn,
    .word ['D', 'E', 'S', 'C'], .comma, .word issueProductIdColumn, .word ['D', 'E', 'S', 'C'],
    .comma, .word issueIdColumn, .word ['D', 'E', 'S', 'C'], .word ['L', 'I', 'M', 'I', 'T']])
  · rfl
  · intro c
    rfl

set_option maxRecDepth 4000 in
theorem archivedIssues_select : (scan Shape.step ([], .select 0)
    (holes (archivedIssueSelectSql ++ push " WHERE 1 = 1"))).any isComplete = true := by
  unfold archivedIssueSelectSql
  rw [holes_append, holes_push, holes_push, push_ofList, push_ofList]
  rfl

theorem appendIssueFilters_conjuncts (query : ArchivedIssueListQuery) :
    Conjuncts (appendIssueFilters query) := by
  unfold appendIssueFilters
  refine Conjuncts.append (Conjuncts.append ?_ ?_) ?_
  · exact appendComparison_conjuncts rfl _
  · exact appendComparison_conjuncts rfl _
  · exact appendComparison_conjuncts rfl _

/-- An issue has at most one product. -/
theorem length_filter_id_le (tables : Tables S) (id : ℤ) :
    (tables.products.filter fun product => product.id = id).length ≤ 1 := by
  have hcount := List.nodup_iff_count_le_one.mp tables.products_nodup id
  rw [List.count_eq_countP, List.countP_map, List.countP_eq_length_filter] at hcount
  exact hcount

theorem issueRows_id_sublist (tables : Tables S) :
    (tables.issueRows.map fun row => row.1.id).Sublist (tables.issues.map IssueRow.id) := by
  unfold Tables.issueRows
  rw [List.map_flatMap]
  induction tables.issues with
  | nil => exact List.Sublist.refl _
  | cons issue issues ih =>
      rw [List.flatMap_cons, List.map_cons]
      show (_ ++ _ : List ℤ).Sublist ([issue.id] ++ _)
      apply List.Sublist.append _ ih
      rw [List.map_map]
      have hle := length_filter_id_le tables issue.productId
      generalize tables.products.filter (fun product => product.id = issue.productId) = found at hle
      match found, hle with
      | [], _ => exact List.nil_sublist _
      | [_], _ => exact List.Sublist.refl _

theorem issueRows_id_nodup (tables : Tables S) :
    (tables.issueRows.map fun row => row.1.id).Nodup :=
  tables.issues_nodup.sublist (issueRows_id_sublist tables)

theorem issueKey_nodup (tables : Tables S) : (tables.issueRows.map issueKey).Nodup := by
  apply List.Nodup.of_map fun key => ofDual (ofLex (ofLex key).2).2
  rw [List.map_map]
  exact issueRows_id_nodup tables

/-- The timestamp is that of the row itself. -/
theorem fetchIssueCursorTimestamp_eq {tables : Tables S} {row : IssueRow × ProductRow S}
    (hrow : row ∈ tables.issueRows) :
    fetchIssueCursorTimestamp tables row.1.id = .ok row.2.sourceTimestampUtc := by
  unfold fetchIssueCursorTimestamp
  split
  · rename_i hnone
    exact absurd (decide_eq_true rfl) (List.find?_eq_none.mp hnone row hrow)
  · rename_i found hfound
    have hid : found.1.id = row.1.id := by simpa using List.find?_some hfound
    obtain rfl : found = row := List.inj_on_of_nodup_map (issueRows_id_nodup tables)
      (List.mem_of_find?_eq_some hfound) hrow hid
    rfl

/-- The page of a request whose cursor is accepted. -/
theorem listArchivedIssuesQuery_eq {schema : Schema SqlValue (IssueRow × ProductRow S)}
    {codec : Codec ArchivedIssueCursor} {tables : Tables S} {query : ArchivedIssueListQuery}
    {raw : Option Str} (cursor : Option ArchivedIssueCursor)
    (hcursor : codec.decodeOptionalCursor raw = .ok cursor) :
    listArchivedIssuesQuery schema codec tables { query with cursor := raw } =
      fetchPage schema tables.issueRows
        (archivedIssuesText (appendIssueFilters query) cursor (normalizePageLimit query.limit))
        (normalizePageLimit query.limit) archivedIssueFromRow fun tail =>
          (fetchIssueCursorTimestamp tables tail.id).map fun sourceTimestampUtc =>
            codec.encodeCursor ⟨sourceTimestampUtc, tail.productId, tail.id⟩ := by
  show (codec.decodeOptionalCursor raw).bind _ = _
  rw [hcursor, Except.bind]
  rfl

/-- The pages of issues. -/
theorem issues_enumerates (codec : Codec ArchivedIssueCursor) (tables : Tables S)
    (query : ArchivedIssueListQuery) :
    Enumerates (fun cursor => listArchivedIssuesQuery (issueSchema collation other) codec tables
        { query with cursor := cursor })
      (normalizePageLimit query.limit) issueKey archivedIssueFromRow
      ((issueSchema collation other).matching tables.issueRows
        (archivedIssuesText (appendIssueFilters query) none (normalizePageLimit query.limit))) := by
  apply enumerates_assemble (fun row => codec.encodeCursor (issueCursorOf row))
    (fun tail => (fetchIssueCursorTimestamp tables tail.id).map fun sourceTimestampUtc =>
      codec.encodeCursor ⟨sourceTimestampUtc, tail.productId, tail.id⟩)
    (normalizePageLimit_pos _) rfl (issueKey_nodup tables) archivedIssues_select
    (appendIssueFilters_conjuncts query) (issueOrder_readsOrder _) issueCursor_readsConjunct
    (Schema.Orders.desc issueSchema_timestamp
      (Schema.Orders.desc issueSchema_productId (Schema.Orders.last_desc issueSchema_id)))
    (Schema.Continues.desc issueSchema_timestamp
      (Schema.Continues.desc issueSchema_productId (Schema.Continues.last_desc issueSchema_id)))
  · intro row hrow
    show (fetchIssueCursorTimestamp tables row.1.id).map _ = _
    rw [fetchIssueCursorTimestamp_eq hrow]
    rfl
  · exact listArchivedIssuesQuery_eq none rfl
  · intro row _
    exact listArchivedIssuesQuery_eq (some (issueCursorOf row))
      (codec.decodeOptionalCursor_encodeCursor _)

end Issues

/-! ## The products of an incident -/

section IncidentProducts

variable {other : List (Lexeme SqlValue) → ProductRow S → Option Bool}

/-- The order of the products of an incident, oldest first. -/
def incidentProductKey (row : ProductRow S) : ℤ ×ₗ ℤ := toLex (row.sourceTimestampUtc, row.id)

/-- The columns of the order of the products of an incident. -/
def incidentProductOrder : List (Str × Direction) :=
  [(bareTimestampColumn, .asc), (bareIdColumn, .asc)]

/-- The rows after a product of an incident. -/
def afterIncidentProduct : ProductRow S → Cond SqlValue :=
  thenAfter bareTimestampColumn ['>'] (fun row => .int row.sourceTimestampUtc)
    (columnTest bareIdColumn ['>'] fun row => .int row.id)

theorem productSchema_bareTimestamp :
    (productSchema collation other).IsColumn bareTimestampColumn
      (fun row => .int row.sourceTimestampUtc) ProductRow.sourceTimestampUtc := by
  refine ⟨?_, fun _ _ => rfl⟩
  unfold productSchema
  dsimp only
  rw [if_pos (Or.inr rfl)]

theorem productSchema_bareId : (productSchema collation other).IsColumn bareIdColumn
    (fun row => .int row.id) ProductRow.id := by
  refine ⟨?_, fun _ _ => rfl⟩
  unfold productSchema
  dsimp only
  rw [if_neg (by decide), if_pos (Or.inr rfl)]

theorem incidentProductsCursor_readsConjunct (row : ProductRow S) :
    ReadsConjunct (incidentProductsCursorOf (archivedProductSummaryFromRow row)).text
      (afterIncidentProduct row) := by
  apply ReadsConjunct.of_scan
  intro k
  rw [scan_piece (u := [.lpar, .word bareTimestampColumn, .word ['>']]) rfl
      rfl rfl,
    scan_piece (u := [.word ['O', 'R'], .lpar, .word bareTimestampColumn, .word ['=']])
      rfl rfl rfl,
    scan_piece (u := [.word ['A', 'N', 'D'], .word bareIdColumn, .word ['>']])
      rfl rfl rfl,
    scan_end (u := [.rpar, .rpar]) rfl rfl]
  rfl

theorem incidentProductOrder_readsOrder (limit : ℕ) :
    ReadsOrder (push " ORDER BY source_timestamp_utc ASC, id ASC LIMIT " ++
      pushBind (SqlValue.int (limit + 1 : ℕ))) incidentProductOrder (.int (limit + 1 : ℕ)) := by
  apply ReadsOrder.of_run (u := [.word ['B', 'Y'], .word bareTimestampColumn,
    .word ['A', 'S', 'C'], .comma, .word bareIdColumn, .word ['A', 'S', 'C'],
    .word ['L', 'I', 'M', 'I', 'T']])
  · rfl
  · intro c
    rfl

set_option maxRecDepth 8000 in
theorem incidentProducts_select (key : IncidentKey) : (scan Shape.step ([], .select 0)
    (holes (archivedProductSummarySelectSql ++ incidentProductsWhere key))).any
      isComplete = true := by
  unfold archivedProductSummarySelectSql incidentProductsWhere
  simp only [holes_append, holes_push, holes_pushBind]
  rw [push_ofList, push_ofList, push_ofList, push_ofList, push_ofList, push_ofList]
  rfl

theorem incidentProductKey_nodup (tables : Tables S) :
    (tables.products.map incidentProductKey).Nodup := by
  apply List.Nodup.of_map fun key => (ofLex key).2
  rw [List.map_map]
  exact tables.products_nodup

/-- The page of a request whose cursor is accepted. -/
theorem listIncidentProductsQuery_eq {schema : Schema SqlValue (ProductRow S)}
    {codec : Codec IncidentProductsCursor} {tables : Tables S} {key : IncidentKey}
    {query : IncidentProductsQuery} {raw : Option Str} (cursor : Option IncidentProductsCursor)
    (hcursor : codec.decodeOptionalCursor raw = .ok cursor) :
    listIncidentProductsQuery schema codec tables key { query with cursor := raw } =
      fetchPage schema tables.products
        (incidentProductsText key cursor (normalizePageLimit query.limit))
        (normalizePageLimit query.limit) archivedProductSummaryFromRow
        fun tail => .ok (codec.encodeCursor (incidentProductsCursorOf tail)) := by
  show (codec.decodeOptionalCursor raw).bind _ = _
  rw [hcursor, Except.bind]

/-- The pages of the products of an incident. -/
theorem incidentProducts_enumerates (codec : Codec IncidentProductsCursor) (tables : Tables S)
    (key : IncidentKey) (query : IncidentProductsQuery) :
    Enumerates (fun cursor => listIncidentProductsQuery (productSchema collation other) codec
        tables key { query with cursor := cursor })
      (normalizePageLimit query.limit) incidentProductKey archivedProductSummaryFromRow
      ((productSchema collation other).matching tables.products
        (incidentProductsText key none (normalizePageLimit query.limit))) := by
  apply enumerates_assemble
    (fun row => codec.encodeCursor
      (incidentProductsCursorOf (archivedProductSummaryFromRow row)))
    (fun tail => .ok (codec.encodeCursor (incidentProductsCursorOf tail)))
    (normalizePageLimit_pos _) rfl (incidentProductKey_nodup tables) (incidentProducts_select key)
    Conjuncts.nil (incidentProductOrder_readsOrder _) incidentProductsCursor_readsConjunct
    (Schema.Orders.asc productSchema_bareTimestamp (Schema.Orders.last_asc productSchema_bareId))
    (Schema.Continues.asc productSchema_bareTimestamp
      (Schema.Continues.last_asc productSchema_bareId))
    (fun _ _ => rfl)
  · exact listIncidentProductsQuery_eq none rfl
  · intro row _
    exact listIncidentProductsQuery_eq (some (incidentProductsCursorOf _))
      (codec.decodeOptionalCursor_encodeCursor _)

end IncidentProducts

/-! ## All three lists -/

/-- **Complete pages.**  For every content of the tables, every limit and every filter that is
accepted, following the cursors ends, on pages of at most the normalised limit, with all
matching rows, each once, in the order of the list: for products, for issues and for the
products of an incident. -/
theorem pages_complete (collation : Collation κ) (tables : Tables S)
    (otherProduct : List (Lexeme SqlValue) → ProductRow S → Option Bool)
    (otherIssue : List (Lexeme SqlValue) → IssueRow × ProductRow S → Option Bool)
    (productCodec : Codec ProductCursor) (issueCodec : Codec ArchivedIssueCursor)
    (incidentCodec : Codec IncidentProductsCursor) :
    (∀ (query : ProductListQuery) (filters : Text SqlValue),
      appendProductFilters query = .ok filters →
      Enumerates (fun cursor => listArchivedProductsQuery (productSchema collation otherProduct)
          productCodec tables { query with cursor := cursor })
        (normalizePageLimit query.limit) productKey archivedProductSummaryFromRow
        ((productSchema collation otherProduct).matching tables.products
          (archivedProductsText filters none (normalizePageLimit query.limit)))) ∧
    (∀ query : ArchivedIssueListQuery,
      Enumerates (fun cursor => listArchivedIssuesQuery (issueSchema collation otherIssue)
          issueCodec tables { query with cursor := cursor })
        (normalizePageLimit query.limit) issueKey archivedIssueFromRow
        ((issueSchema collation otherIssue).matching tables.issueRows
          (archivedIssuesText (appendIssueFilters query) none (normalizePageLimit query.limit)))) ∧
    ∀ (key : IncidentKey) (query : IncidentProductsQuery),
      Enumerates (fun cursor => listIncidentProductsQuery (productSchema collation otherProduct)
          incidentCodec tables key { query with cursor := cursor })
        (normalizePageLimit query.limit) incidentProductKey archivedProductSummaryFromRow
        ((productSchema collation otherProduct).matching tables.products
          (incidentProductsText key none (normalizePageLimit query.limit))) := by
  refine ⟨?_, ?_, ?_⟩
  · intro query filters hfilters
    exact products_enumerates productCodec tables query hfilters
  · intro query
    exact issues_enumerates issueCodec tables query
  · intro key query
    exact incidentProducts_enumerates incidentCodec tables key query

deriving instance Encodable for ProductCursor, ArchivedIssueCursor, IncidentProductsCursor

/-- A codec with a given text for one cursor, and a text of its own for every other one. -/
def Codec.ofText {C : Type} [DecidableEq C] [Encodable C] (c₀ : C) (text : Str)
    (h : text.all (· = 'x') = false) : Codec C where
  encodeCursor c := if c = c₀ then text else List.replicate (Encodable.encode c) 'x'
  decodeCursor raw :=
    if raw = text then .ok c₀
    else
      match Encodable.decode raw.length with
      | some c => .ok c
      | none => .error (.invalidRequest "invalid cursor payload".toList)
  decode_encode c := by
    by_cases hc : c = c₀
    · rw [if_pos hc, if_pos rfl, hc]
    · have hne : List.replicate (Encodable.encode c) 'x' ≠ text := by
        rintro rfl
        simp at h
      rw [if_neg hc, if_neg hne, List.length_replicate, Encodable.encodek]

/-- Texts in the order of their code points. -/
def codePoints : Collation Str := ⟨id, Function.injective_id⟩

/-- Three products, two of them at the same time, and an issue. -/
def threeProducts : Tables Unit where
  products := [⟨1, 1700000000, ()⟩, ⟨2, 1700000060, ()⟩, ⟨3, 1700000060, ()⟩]
  issues := [⟨1, 2, "parse".toList, "missing_wmo".toList, "no WMO header".toList, none⟩]
  products_nodup := by decide
  issues_nodup := by decide

/-- The cursor of the newest product, as it is encoded. -/
def newestCursor : Codec ProductCursor :=
  Codec.ofText ⟨1700000060, 3⟩
    "eyJzb3VyY2VfdGltZXN0YW1wX3V0YyI6MTcwMDAwMDA2MCwicHJvZHVjdF9pZCI6M30".toList
    rfl

theorem pages_complete_threeProducts :
    appendProductFilters { sourceTimestampAfter := some 1700000030, limit := 1 } =
      .ok (push " AND products.source_timestamp_utc >= " ++ pushBind (.int 1700000030)) ∧
    Enumerates (fun cursor => listArchivedProductsQuery
        (productSchema codePoints fun _ _ => none) newestCursor threeProducts
        { sourceTimestampAfter := some 1700000030, limit := 1, cursor := cursor })
      (normalizePageLimit 1) productKey archivedProductSummaryFromRow
      ((productSchema codePoints fun _ _ => none).matching threeProducts.products
        (archivedProductsText (push " AND products.source_timestamp_utc >= " ++
          pushBind (.int 1700000030)) none (normalizePageLimit 1))) :=
  ⟨rfl, (pages_complete codePoints threeProducts _ (fun _ _ => none) newestCursor
    (Codec.ofText ⟨0, 0, 0⟩ ['-'] rfl) (Codec.ofText ⟨0, 0⟩ ['-'] rfl)).1
      { sourceTimestampAfter := some 1700000030, limit := 1 } _ rfl⟩

end Query
