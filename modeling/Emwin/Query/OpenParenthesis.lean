/-
# Cursors with an open parenthesis

The cursors of incidents and of features open six parentheses and close five of them.  The
first page of these lists has no cursor and is as it should be; every later page is an error
of the database.  So the lists are complete exactly if all matching rows fit on one page.
-/
import Emwin.Query.Features
import Emwin.Query.CompletePages
import Mathlib.Logic.Equiv.List

open Sql Keyset OrderDual Incident

namespace Query

variable {S G κ : Type} [LinearOrder κ] {collation : Collation κ}

/-- A query that is read without a cursor and has a parenthesis too many with one. -/
theorem balanced_assemble_iff {C : Type} {select filters : Text SqlValue} {orderBy : String}
    {limit : ℕ} {q : Select SqlValue} {cursorText : C → Text SqlValue}
    (hparse : parse (assemble select filters [] orderBy limit) = some q)
    (hopen : ∀ c, parens (cursorText c) = 1) (cursor : Option C) :
    Balanced (assemble select filters (cursor.elim [] cursorText) orderBy limit) ↔
      cursor = none := by
  have hfirst := balanced_of_parse hparse
  cases cursor with
  | none => exact ⟨fun _ => rfl, fun _ => hfirst⟩
  | some c =>
      refine ⟨?_, fun hc => absurd hc (Option.some_ne_none c)⟩
      intro hbalanced
      have hclosed := hbalanced.closed
      rw [Option.elim_some, parens_assemble, hfirst.closed, hopen] at hclosed
      omega

/-! ## Incidents -/

section Incidents

variable {other : List (Lexeme SqlValue) → IncidentSummary → Option Bool}

/-- The order of incidents, latest first. -/
def incidentKey (collation : Collation κ) (row : IncidentSummary) :
    Timeᵒᵈ ×ₗ κ ×ₗ κ ×ₗ κ ×ₗ ℤ :=
  toLex (toDual row.latestProductTimestampUtc, toLex (collation.sortKey row.key.office,
    toLex (collation.sortKey row.key.phenomena, toLex (collation.sortKey row.key.significance,
      row.key.etn))))

/-- The columns of the order of incidents. -/
def incidentOrder : List (Str × Direction) :=
  [(latestTimestampColumn, .desc), (officeColumn, .asc), (phenomenaColumn, .asc),
    (significanceColumn, .asc), (etnColumn, .asc)]

theorem incidentSchema_timestamp : (incidentSchema collation other).IsColumn latestTimestampColumn
    (fun row => .time row.latestProductTimestampUtc)
    IncidentSummary.latestProductTimestampUtc := by
  refine ⟨?_, fun _ _ => rfl⟩
  unfold incidentSchema
  dsimp only
  rw [if_pos rfl]

theorem incidentSchema_office : (incidentSchema collation other).IsColumn officeColumn
    (fun row => .text row.key.office) fun row => collation.sortKey row.key.office := by
  refine ⟨?_, fun _ _ => rfl⟩
  unfold incidentSchema
  dsimp only
  rw [if_neg (by decide), if_pos rfl]

theorem incidentSchema_phenomena : (incidentSchema collation other).IsColumn phenomenaColumn
    (fun row => .text row.key.phenomena) fun row => collation.sortKey row.key.phenomena := by
  refine ⟨?_, fun _ _ => rfl⟩
  unfold incidentSchema
  dsimp only
  rw [if_neg (by decide), if_neg (by decide), if_pos rfl]

theorem incidentSchema_significance :
    (incidentSchema collation other).IsColumn significanceColumn
      (fun row => .text row.key.significance)
      fun row => collation.sortKey row.key.significance := by
  refine ⟨?_, fun _ _ => rfl⟩
  unfold incidentSchema
  dsimp only
  rw [if_neg (by decide), if_neg (by decide), if_neg (by decide),
    if_pos rfl]

theorem incidentSchema_etn : (incidentSchema collation other).IsColumn etnColumn
    (fun row => .int row.key.etn) fun row => row.key.etn := by
  refine ⟨?_, fun _ _ => rfl⟩
  unfold incidentSchema
  dsimp only
  rw [if_neg (by decide), if_neg (by decide), if_neg (by decide),
    if_neg (by decide), if_pos rfl]

theorem incidentSchema_orders :
    (incidentSchema collation other).Orders incidentOrder (incidentKey collation) :=
  Schema.Orders.desc incidentSchema_timestamp
    (Schema.Orders.asc incidentSchema_office
      (Schema.Orders.asc incidentSchema_phenomena
        (Schema.Orders.asc incidentSchema_significance
          (Schema.Orders.last_asc incidentSchema_etn))))

theorem incidentOrder_readsOrder (limit : ℕ) :
    ReadsOrder (push " ORDER BY latest_product_timestamp_utc DESC, office ASC, phenomena ASC, significance ASC, etn ASC LIMIT " ++
      pushBind (SqlValue.int (limit + 1 : ℕ))) incidentOrder (.int (limit + 1 : ℕ)) := by
  apply ReadsOrder.of_run (u := [.word ['B', 'Y'], .word latestTimestampColumn,
    .word ['D', 'E', 'S', 'C'], .comma, .word officeColumn, .word ['A', 'S', 'C'], .comma,
    .word phenomenaColumn, .word ['A', 'S', 'C'], .comma, .word significanceColumn,
    .word ['A', 'S', 'C'], .comma, .word etnColumn, .word ['A', 'S', 'C'],
    .word ['L', 'I', 'M', 'I', 'T']])
  · rfl
  · intro c
    rfl

set_option maxRecDepth 4000 in
theorem incidents_select : (scan Shape.step ([], .select 0)
    (holes (incidentSelectSql ++ push " WHERE 1 = 1"))).any isComplete = true := by
  unfold incidentSelectSql
  rw [holes_append, holes_push, holes_push, push_ofList, push_ofList]
  rfl

theorem appendActiveAt_conjuncts (activeAt : Option Time) :
    Conjuncts (appendActiveAt activeAt) := by
  cases activeAt with
  | none => exact Conjuncts.nil
  | some activeAt =>
      apply Conjuncts.of_leadsTo
      unfold appendActiveAt
      dsimp only
      simp only [holes_append, holes_push, holes_pushBind]
      rw [push_ofList, push_ofList, push_ofList, push_ofList]
      rfl

theorem appendIncidentFilters_conjuncts (query : IncidentListQuery) :
    Conjuncts (appendIncidentFilters query) := by
  unfold appendIncidentFilters
  refine Conjuncts.append (Conjuncts.append (Conjuncts.append (Conjuncts.append (Conjuncts.append
    (Conjuncts.append (Conjuncts.append ?_ ?_) ?_) ?_) ?_) ?_) ?_)
    (appendActiveAt_conjuncts query.activeAt)
  all_goals exact appendComparison_conjuncts rfl _

/-- The first page of incidents is read. -/
theorem parse_incidentsText (query : IncidentListQuery) (limit : ℕ) :
    ∃ c, parse (incidentsText (appendIncidentFilters query) none limit) =
      some ⟨c, incidentOrder, .int (limit + 1 : ℕ)⟩ := by
  obtain ⟨c, hfirst, -⟩ := parse_assemble incidents_select (appendIncidentFilters_conjuncts query)
    (incidentOrder_readsOrder limit)
  exact ⟨c, hfirst⟩

/-- The cursor of incidents leaves a parenthesis open. -/
theorem parens_incidentCursor (cursor : IncidentCursor) : parens cursor.text = 1 := by
  rw [← parens_holes]
  unfold IncidentCursor.text
  simp only [holes_append, holes_push, holes_pushBind]
  rw [push_ofList, push_ofList, push_ofList, push_ofList, push_ofList, push_ofList, push_ofList,
    push_ofList, push_ofList, push_ofList, push_ofList]
  decide +kernel

theorem balanced_incidentsText_iff (query : IncidentListQuery) (cursor : Option IncidentCursor)
    (limit : ℕ) :
    Balanced (incidentsText (appendIncidentFilters query) cursor limit) ↔ cursor = none := by
  obtain ⟨c, hparse⟩ := parse_incidentsText query limit
  exact balanced_assemble_iff hparse parens_incidentCursor cursor

omit [LinearOrder κ] in
theorem incidentKey_nodup (table : IncidentTable) :
    (table.rows.map (incidentKey collation)).Nodup := by
  rw [List.Nodup, List.pairwise_map]
  refine (List.pairwise_map.mp table.nodup).imp ?_
  intro a b hne heq
  apply hne
  simp only [incidentKey, EmbeddingLike.apply_eq_iff_eq, Prod.mk.injEq] at heq
  obtain ⟨-, hoffice, hphenomena, hsignificance, hetn⟩ := heq
  apply IncidentKey.order_injective
  unfold IncidentKey.order
  rw [collation.injective hoffice, collation.injective hphenomena,
    collation.injective hsignificance, hetn]

/-- The page of a request whose cursor is accepted. -/
theorem listIncidentsQuery_eq {schema : Schema SqlValue IncidentSummary}
    {codec : Codec IncidentCursor} {table : IncidentTable} {query : IncidentListQuery}
    {raw : Option Str} (cursor : Option IncidentCursor)
    (hcursor : codec.decodeOptionalCursor raw = .ok cursor) :
    listIncidentsQuery schema codec table { query with cursor := raw } =
      fetchPage schema table.rows
        (incidentsText (appendIncidentFilters query) cursor (normalizePageLimit query.limit))
        (normalizePageLimit query.limit) id
        fun tail => .ok (codec.encodeCursor (incidentCursorOf tail)) := by
  show (codec.decodeOptionalCursor raw).bind _ = _
  rw [hcursor, Except.bind]
  rfl

/-- No cursor is answered. -/
theorem listIncidentsQuery_some (schema : Schema SqlValue IncidentSummary)
    (codec : Codec IncidentCursor) (table : IncidentTable) (query : IncidentListQuery) (raw : Str)
    (page : PaginatedResponse IncidentSummary) :
    listIncidentsQuery schema codec table { query with cursor := some raw } ≠ .ok page := by
  cases hdecode : codec.decodeCursor raw with
  | error e =>
      show (((codec.decodeCursor raw).map some).bind _ : Except QueryError _) ≠ _
      rw [hdecode]
      exact fun h => by cases h
  | ok cursor =>
      have hcursor : codec.decodeOptionalCursor (some raw) = .ok (some cursor) := by
        show (codec.decodeCursor raw).map some = _
        rw [hdecode]
        rfl
      rw [listIncidentsQuery_eq (some cursor) hcursor, fetchPage_of_not_balanced]
      · exact fun h => by cases h
      · rw [balanced_incidentsText_iff]
        exact Option.some_ne_none cursor

theorem incidents_enumerates_iff (codec : Codec IncidentCursor) (table : IncidentTable)
    (query : IncidentListQuery) :
    Enumerates (fun cursor => listIncidentsQuery (incidentSchema collation other) codec table
        { query with cursor := cursor })
      (normalizePageLimit query.limit) (incidentKey collation) id
      ((incidentSchema collation other).matching table.rows
        (incidentsText (appendIncidentFilters query) none (normalizePageLimit query.limit))) ↔
    ((incidentSchema collation other).matching table.rows
      (incidentsText (appendIncidentFilters query) none
        (normalizePageLimit query.limit))).length ≤ normalizePageLimit query.limit := by
  obtain ⟨c, hparse⟩ := parse_incidentsText query (normalizePageLimit query.limit)
  exact enumerates_iff_length_le rfl (incidentKey_nodup table) hparse incidentSchema_orders
    (listIncidentsQuery_eq none rfl) (listIncidentsQuery_some _ codec table query)

end Incidents

/-! ## Features -/

section Features

variable {other : List (Lexeme SqlValue) → FeatureRow S G → Option Bool}

/-- The order of features, newest product first. -/
def featureKey (row : FeatureRow S G) : ℤᵒᵈ ×ₗ ℤᵒᵈ ×ₗ ℤ ×ₗ ℤᵒᵈ :=
  toLex (toDual row.product.sourceTimestampUtc, toLex (toDual row.product.id,
    toLex (row.kind.ordinal, toDual row.source.id)))

/-- The columns of the order of features. -/
def featureOrder : List (Str × Direction) :=
  [(timestampColumn, .desc), (idColumn, .desc), (featureKindOrderColumn, .asc),
    (featureRowIdColumn, .desc)]

theorem featureSchema_timestamp : (featureSchema collation other).IsColumn timestampColumn
    (fun row => .int row.product.sourceTimestampUtc) fun row => row.product.sourceTimestampUtc := by
  refine ⟨?_, fun _ _ => rfl⟩
  unfold featureSchema
  dsimp only
  rw [if_pos rfl]

theorem featureSchema_id : (featureSchema collation other).IsColumn idColumn
    (fun row => .int row.product.id) fun row => row.product.id := by
  refine ⟨?_, fun _ _ => rfl⟩
  unfold featureSchema
  dsimp only
  rw [if_neg (by decide), if_pos rfl]

theorem featureSchema_kindOrder :
    (featureSchema collation other).IsColumn featureKindOrderColumn
      (fun row => .int row.kind.ordinal) fun row => row.kind.ordinal := by
  refine ⟨?_, fun _ _ => rfl⟩
  unfold featureSchema
  dsimp only
  rw [if_neg (by decide), if_neg (by decide), if_pos rfl]

theorem featureSchema_rowId : (featureSchema collation other).IsColumn featureRowIdColumn
    (fun row => .int row.source.id) fun row => row.source.id := by
  refine ⟨?_, fun _ _ => rfl⟩
  unfold featureSchema
  dsimp only
  rw [if_neg (by decide), if_neg (by decide), if_neg (by decide), if_pos rfl]

theorem featureSchema_orders :
    (featureSchema collation other).Orders featureOrder featureKey :=
  Schema.Orders.desc featureSchema_timestamp
    (Schema.Orders.desc featureSchema_id
      (Schema.Orders.asc featureSchema_kindOrder
        (Schema.Orders.last_desc featureSchema_rowId)))

theorem featureOrder_readsOrder (limit : ℕ) :
    ReadsOrder (push " ORDER BY products.source_timestamp_utc DESC, products.id DESC, features.feature_kind_order ASC, features.feature_row_id DESC LIMIT " ++
      pushBind (SqlValue.int (limit + 1 : ℕ))) featureOrder (.int (limit + 1 : ℕ)) := by
  apply ReadsOrder.of_run (u := [.word ['B', 'Y'], .word timestampColumn,
    .word ['D', 'E', 'S', 'C'], .comma, .word idColumn, .word ['D', 'E', 'S', 'C'], .comma,
    .word featureKindOrderColumn, .word ['A', 'S', 'C'], .comma, .word featureRowIdColumn,
    .word ['D', 'E', 'S', 'C'], .word ['L', 'I', 'M', 'I', 'T']])
  · rfl
  · intro c
    rfl

set_option maxRecDepth 20000 in
theorem archivedFeatures_select : (scan Shape.step ([], .select 0)
    (holes (archivedFeatureSelectSql ++ push " WHERE 1 = 1"))).any isComplete = true := by
  unfold archivedFeatureSelectSql archivedFeatureSourceSql
  simp only [holes_append, holes_push]
  rw [push_ofList, push_ofList, push_ofList, push_ofList, push_ofList, push_ofList, push_ofList]
  decide +kernel

theorem appendFeatureFilters_conjuncts {query : FeatureListQuery} {filters : Text SqlValue}
    (h : appendFeatureFilters query = .ok filters) : Conjuncts filters := by
  obtain ⟨products, hproducts, h⟩ := Results.bind_eq_ok.mp h
  obtain ⟨spatial, hspatial, h⟩ := Results.bind_eq_ok.mp h
  obtain rfl := Except.ok.inj h
  refine Conjuncts.append ((appendProductFilters_conjuncts hproducts).append
    (appendFeatureSpatialFilter_conjuncts hspatial)) ?_
  exact appendComparison_conjuncts rfl _

/-- The first page of features is read. -/
theorem parse_archivedFeaturesText {query : FeatureListQuery} {filters : Text SqlValue}
    (hfilters : appendFeatureFilters query = .ok filters) (limit : ℕ) :
    ∃ c, parse (archivedFeaturesText filters none limit) =
      some ⟨c, featureOrder, .int (limit + 1 : ℕ)⟩ := by
  obtain ⟨c, hfirst, -⟩ := parse_assemble archivedFeatures_select
    (appendFeatureFilters_conjuncts hfilters) (featureOrder_readsOrder limit)
  exact ⟨c, hfirst⟩

/-- The cursor of features leaves a parenthesis open. -/
theorem parens_featureCursor (cursor : FeatureCursor) : parens cursor.text = 1 := by
  rw [← parens_holes]
  unfold FeatureCursor.text
  simp only [holes_append, holes_push, holes_pushBind]
  rw [push_ofList, push_ofList, push_ofList, push_ofList, push_ofList, push_ofList, push_ofList,
    push_ofList]
  decide +kernel

theorem balanced_archivedFeaturesText_iff {query : FeatureListQuery} {filters : Text SqlValue}
    (hfilters : appendFeatureFilters query = .ok filters) (cursor : Option FeatureCursor)
    (limit : ℕ) : Balanced (archivedFeaturesText filters cursor limit) ↔ cursor = none := by
  obtain ⟨c, hparse⟩ := parse_archivedFeaturesText hfilters limit
  exact balanced_assemble_iff hparse parens_featureCursor cursor

theorem ordinal_injective : Function.Injective FeatureKind.ordinal := by
  intro a b h
  cases a <;> cases b <;> first | rfl | cases h

/-- Features with one key are of one kind, and of one row. -/
theorem featureKey_eq {a b : FeatureRow S G} (h : featureKey a = featureKey b) :
    a.product.id = b.product.id ∧ a.kind = b.kind ∧ a.source.id = b.source.id := by
  simp only [featureKey, EmbeddingLike.apply_eq_iff_eq, Prod.mk.injEq] at h
  obtain ⟨-, hproduct, hkind, hsource⟩ := h
  exact ⟨hproduct, ordinal_injective hkind, hsource⟩

/-- Ids are unique in every table, so no two features have one key. -/
theorem featureKey_nodup (tables : FeatureTables S G) :
    (tables.featureRows.map featureKey).Nodup := by
  unfold FeatureTables.featureRows
  rw [List.map_flatMap, List.nodup_flatMap]
  constructor
  · intro kind _
    rw [List.map_flatMap, List.nodup_flatMap]
    constructor
    · intro row _
      rw [List.map_map]
      refine List.Nodup.of_map (fun key => ofDual (ofLex (ofLex key).2).1) ?_
      rw [List.map_map]
      exact tables.products_nodup.sublist (List.filter_sublist.map ProductRow.id)
    · refine ((List.pairwise_map.mp (tables.source_nodup kind)).filter _).imp ?_
      intro a b hne key ha hb
      obtain ⟨_, hrow, rfl⟩ := List.mem_map.mp ha
      obtain ⟨_, -, rfl⟩ := List.mem_map.mp hrow
      obtain ⟨_, hrow, heq⟩ := List.mem_map.mp hb
      obtain ⟨_, -, rfl⟩ := List.mem_map.mp hrow
      exact hne (featureKey_eq heq).2.2.symm
  · have hkinds : FeatureKind.all.Nodup := by decide
    refine hkinds.imp ?_
    intro a b hne key ha hb
    obtain ⟨x, hx, rfl⟩ := List.mem_map.mp ha
    obtain ⟨y, hy, heq⟩ := List.mem_map.mp hb
    obtain ⟨_, -, hx⟩ := List.mem_flatMap.mp hx
    obtain ⟨_, -, rfl⟩ := List.mem_map.mp hx
    obtain ⟨_, -, hy⟩ := List.mem_flatMap.mp hy
    obtain ⟨_, -, rfl⟩ := List.mem_map.mp hy
    exact hne (featureKey_eq heq).2.1.symm

/-- The feature of a row. -/
def featureOf (row : FeatureRow S G) : ArchivedFeature G :=
  ⟨row.kind.asStr ++ ':' :: Str.ofInt row.source.id, row.kind, row.product.id,
    row.product.sourceTimestampUtc, row.source.columns⟩

/-- Every row has a kind that is read. -/
theorem archivedFeatureFromRow_eq (row : FeatureRow S G) :
    archivedFeatureFromRow row = .ok (featureOf row) := by
  have hkind : FeatureKind.fromStr row.kind.asStr = .ok row.kind := by
    cases row.kind <;> rfl
  unfold archivedFeatureFromRow
  rw [hkind]
  rfl

theorem mapM_archivedFeatureFromRow (rows : List (FeatureRow S G)) :
    rows.mapM archivedFeatureFromRow = .ok (rows.map featureOf) := by
  induction rows with
  | nil => rfl
  | cons row rows ih =>
      rw [List.mapM_cons, archivedFeatureFromRow_eq, ih]
      rfl

/-- The cursor is no filter. -/
theorem appendFeatureFilters_cursor (query : FeatureListQuery) (raw : Option Str) :
    appendFeatureFilters { query with filters := { query.filters with cursor := raw } } =
      appendFeatureFilters query := by
  unfold appendFeatureFilters
  have hproducts : appendProductFilters { query.filters with cursor := raw } =
      appendProductFilters query.filters := rfl
  have hspatial : appendFeatureSpatialFilter { query.filters with cursor := raw } =
      appendFeatureSpatialFilter query.filters := rfl
  rw [hproducts, hspatial]

/-- The page of a request whose filters and cursor are accepted. -/
theorem listArchivedFeaturesQuery_eq {schema : Schema SqlValue (FeatureRow S G)}
    {codec : Codec FeatureCursor} {tables : FeatureTables S G} {query : FeatureListQuery}
    {filters : Text SqlValue} (hfilters : appendFeatureFilters query = .ok filters)
    {cursor : Option FeatureCursor}
    (hcursor : codec.decodeOptionalCursor query.filters.cursor = .ok cursor) :
    listArchivedFeaturesQuery schema codec tables query =
      fetchPage schema tables.featureRows
        (archivedFeaturesText filters cursor (normalizePageLimit query.filters.limit))
        (normalizePageLimit query.filters.limit) featureOf
        fun tail => (featureCursorOf tail).map codec.encodeCursor := by
  show (codec.decodeOptionalCursor query.filters.cursor).bind _ = _
  rw [hcursor]
  show (appendFeatureFilters query).bind _ = _
  rw [hfilters, Except.bind, fetchPage]
  -- the result is a variable from here on, so that the text of the query is not evaluated
  generalize schema.execute tables.featureRows
    (archivedFeaturesText filters cursor (normalizePageLimit query.filters.limit)) = result
  cases result with
  | none => rfl
  | some found =>
      dsimp only
      rw [mapM_archivedFeatureFromRow]
      rfl

/-- No cursor is answered. -/
theorem listArchivedFeaturesQuery_some (schema : Schema SqlValue (FeatureRow S G))
    (codec : Codec FeatureCursor) (tables : FeatureTables S G) {query : FeatureListQuery}
    {filters : Text SqlValue} (hfilters : appendFeatureFilters query = .ok filters) {raw : Str}
    (hraw : query.filters.cursor = some raw) (page : PaginatedResponse (ArchivedFeature G)) :
    listArchivedFeaturesQuery schema codec tables query ≠ .ok page := by
  cases hdecode : codec.decodeCursor raw with
  | error e =>
      show ((codec.decodeOptionalCursor query.filters.cursor).bind _ : Except QueryError _) ≠ _
      rw [hraw]
      show (((codec.decodeCursor raw).map some).bind _ : Except QueryError _) ≠ _
      rw [hdecode]
      exact fun h => by cases h
  | ok cursor =>
      have hcursor : codec.decodeOptionalCursor query.filters.cursor = .ok (some cursor) := by
        rw [hraw]
        show (codec.decodeCursor raw).map some = _
        rw [hdecode]
        rfl
      rw [listArchivedFeaturesQuery_eq hfilters hcursor, fetchPage_of_not_balanced]
      · exact fun h => by cases h
      · rw [balanced_archivedFeaturesText_iff hfilters]
        exact Option.some_ne_none cursor

theorem features_enumerates_iff (codec : Codec FeatureCursor) (tables : FeatureTables S G)
    (query : FeatureListQuery) {filters : Text SqlValue}
    (hfilters : appendFeatureFilters query = .ok filters) :
    Enumerates (fun cursor => listArchivedFeaturesQuery (featureSchema collation other) codec tables
        { query with filters := { query.filters with cursor := cursor } })
      (normalizePageLimit query.filters.limit) featureKey featureOf
      ((featureSchema collation other).matching tables.featureRows
        (archivedFeaturesText filters none (normalizePageLimit query.filters.limit))) ↔
    ((featureSchema collation other).matching tables.featureRows
      (archivedFeaturesText filters none
        (normalizePageLimit query.filters.limit))).length ≤
      normalizePageLimit query.filters.limit := by
  obtain ⟨c, hparse⟩ := parse_archivedFeaturesText hfilters (normalizePageLimit query.filters.limit)
  have hcursor (raw : Option Str) :
      appendFeatureFilters { query with filters := { query.filters with cursor := raw } } =
        .ok filters := (appendFeatureFilters_cursor query raw).trans hfilters
  exact enumerates_iff_length_le rfl (featureKey_nodup tables) hparse featureSchema_orders
    (listArchivedFeaturesQuery_eq (hcursor none) rfl)
    fun raw => listArchivedFeaturesQuery_some _ codec tables (hcursor (some raw)) rfl

end Features

/-! ## Both lists -/

/-- **A single page.**  For every content of the tables, every limit and every filter that is
accepted, the query for a page has balanced parentheses exactly if it has no cursor, and
following the cursors ends with all matching rows, each once and in order, exactly if these
rows fit on the first page: for incidents and for features. -/
theorem pages_complete_iff (collation : Collation κ) (table : IncidentTable)
    (tables : FeatureTables S G)
    (otherIncident : List (Lexeme SqlValue) → IncidentSummary → Option Bool)
    (otherFeature : List (Lexeme SqlValue) → FeatureRow S G → Option Bool)
    (incidentCodec : Codec IncidentCursor) (featureCodec : Codec FeatureCursor) :
    (∀ query : IncidentListQuery,
      (∀ cursor limit,
        Balanced (incidentsText (appendIncidentFilters query) cursor limit) ↔ cursor = none) ∧
      (Enumerates (fun cursor => listIncidentsQuery (incidentSchema collation otherIncident)
            incidentCodec table { query with cursor := cursor })
          (normalizePageLimit query.limit) (incidentKey collation) id
          ((incidentSchema collation otherIncident).matching table.rows
            (incidentsText (appendIncidentFilters query) none (normalizePageLimit query.limit))) ↔
        ((incidentSchema collation otherIncident).matching table.rows
          (incidentsText (appendIncidentFilters query) none
            (normalizePageLimit query.limit))).length ≤ normalizePageLimit query.limit)) ∧
    ∀ (query : FeatureListQuery) (filters : Text SqlValue),
      appendFeatureFilters query = .ok filters →
      (∀ cursor limit, Balanced (archivedFeaturesText filters cursor limit) ↔ cursor = none) ∧
      (Enumerates (fun cursor => listArchivedFeaturesQuery (featureSchema collation otherFeature)
            featureCodec tables { query with filters := { query.filters with cursor := cursor } })
          (normalizePageLimit query.filters.limit) featureKey featureOf
          ((featureSchema collation otherFeature).matching tables.featureRows
            (archivedFeaturesText filters none (normalizePageLimit query.filters.limit))) ↔
        ((featureSchema collation otherFeature).matching tables.featureRows
          (archivedFeaturesText filters none
            (normalizePageLimit query.filters.limit))).length ≤
          normalizePageLimit query.filters.limit) := by
  constructor
  · intro query
    exact ⟨balanced_incidentsText_iff query, incidents_enumerates_iff incidentCodec table query⟩
  · intro query filters hfilters
    exact ⟨balanced_archivedFeaturesText_iff hfilters,
      features_enumerates_iff featureCodec tables query hfilters⟩

instance encodableChar : Encodable Char :=
  Encodable.ofLeftInverse Char.toNat Char.ofNat Char.ofNat_toNat

deriving instance Encodable for FeatureKind, FeatureCursor, IncidentCursor

/-- A product with a polygon. -/
def onePolygon : FeatureTables Unit Unit where
  products := [⟨1, 1700000000, ()⟩]
  source := fun
    | .polygon => [⟨7, 1, true, ()⟩]
    | _ => []
  products_nodup := by decide
  source_nodup kind := by cases kind <;> decide

/-- A codec for which `-` is the cursor of the polygon. -/
def featureDash : Codec FeatureCursor := Codec.ofText ⟨1700000000, 1, .polygon, 7⟩ ['-'] rfl

/-- A codec for which `-` is the cursor of a tornado warning. -/
def incidentDash : Codec IncidentCursor :=
  Codec.ofText ⟨60, "KOAX".toList, "TO".toList, "W".toList, 1⟩ ['-'] rfl

theorem pages_complete_iff_onePolygon :
    appendFeatureFilters { filters := { limit := 1 }, kind := some .polygon } =
      .ok (push " AND features.feature_kind = " ++ pushBind (.text "polygon".toList)) ∧
    (∀ cursor limit,
      Balanced (archivedFeaturesText
        (push " AND features.feature_kind = " ++ pushBind (.text "polygon".toList)) cursor limit) ↔
      cursor = none) ∧
    (Enumerates (fun cursor => listArchivedFeaturesQuery
          (featureSchema codePoints fun _ _ => some true) featureDash onePolygon
          { filters := { limit := 1, cursor := cursor }, kind := some .polygon })
        (normalizePageLimit 1) featureKey featureOf
        ((featureSchema codePoints fun _ _ => some true).matching onePolygon.featureRows
          (archivedFeaturesText
            (push " AND features.feature_kind = " ++ pushBind (.text "polygon".toList)) none
            (normalizePageLimit 1))) ↔
      ((featureSchema codePoints fun _ _ => some true).matching onePolygon.featureRows
        (archivedFeaturesText
          (push " AND features.feature_kind = " ++ pushBind (.text "polygon".toList)) none
          (normalizePageLimit 1))).length ≤ normalizePageLimit 1) :=
  ⟨rfl, (pages_complete_iff codePoints ⟨[], List.nodup_nil⟩ onePolygon (fun _ _ => none)
    (fun _ _ => some true) incidentDash featureDash).2
      { filters := { limit := 1 }, kind := some .polygon } _ rfl⟩

/-- Two tornado warnings. -/
def twoIncidents : IncidentTable where
  rows := [⟨⟨"KOAX".toList, "TO".toList, "W".toList, 1⟩, .active, "NEW".toList, 0, none, none, 0, 1,
    1, 60⟩, ⟨⟨"KOAX".toList, "TO".toList, "W".toList, 2⟩, .active, "NEW".toList, 0, none, none, 0,
    1, 1, 0⟩]
  nodup := by decide

theorem matching_twoIncidents :
    ((incidentSchema codePoints fun _ _ => none).matching twoIncidents.rows
      (incidentsText (appendIncidentFilters { limit := 1 }) none 1)).length = 2 := by
  unfold incidentsText assemble incidentSelectSql
  rw [push_ofList, push_ofList, push_ofList]
  decide +kernel

/-- The second page of two warnings is not read, and the warnings are not enumerated. -/
theorem second_page_not_balanced :
    ¬ Balanced (incidentsText (appendIncidentFilters { limit := 1 })
        (some ⟨60, "KOAX".toList, "TO".toList, "W".toList, 1⟩) 1) ∧
      ¬ Enumerates (fun cursor => listIncidentsQuery (incidentSchema codePoints fun _ _ => none)
            incidentDash twoIncidents { limit := 1, cursor := cursor })
          (normalizePageLimit 1) (incidentKey codePoints) id
          ((incidentSchema codePoints fun _ _ => none).matching twoIncidents.rows
            (incidentsText (appendIncidentFilters { limit := 1 }) none
              (normalizePageLimit 1))) := by
  constructor
  · rw [balanced_incidentsText_iff]
    exact Option.some_ne_none _
  · rw [incidents_enumerates_iff incidentDash twoIncidents { limit := 1 }]
    exact matching_twoIncidents.trans_gt Nat.one_lt_two |>.not_ge

end Query
