/-
# What the archive holds

The transaction of a product, statement by statement, is one change of the tables (`Wrote`).
So after any calls, with any failures on the way, the tables hold of every product what was
committed of it last, under the id it was given first.
-/
import Emwin.Persist.ProductStore

namespace ProductStore

open Alert Incident Persist Tables Transaction

variable {M : Type} {D : Schema} {answers : ℕ → Response StoreError}
  {s t : Server (StoreTables M D) Sequences}

/-! ## What the statements do -/

theorem Succeeds.upsertProduct {now : Time} {p : PreparedRows D} {productId : ℕ}
    (h : Succeeds (upsertProduct answers now p) s productId t) :
    productId = s.tables.idFor s.sequences.nextProductId p ∧
      t.tables = { s.tables with
        products := upsert ProductRecord.key (p.record s.sequences.nextProductId now)
          (p.overwrite now) s.tables.products } ∧
      t.sequences.nextProductId = s.sequences.nextProductId + 1 := by
  obtain ⟨hid, htables, hseqs⟩ := h.statement
  exact ⟨hid, htables, by rw [hseqs]⟩

theorem Succeeds.deleteRows {productId : ℕ} {ts : List ChildTable} {a : Unit}
    (h : Succeeds (deleteRows answers productId ts) s a t) :
    t.sequences = s.sequences ∧ t.tables = { s.tables with
      children := fun c =>
        if c ∈ ts then deleteOf productId (s.tables.children c) else s.tables.children c } := by
  induction ts generalizing s with
  | nil =>
      obtain ⟨-, rfl⟩ := succeeds_pure.mp h
      exact ⟨rfl, by simp⟩
  | cons c ts ih =>
      obtain ⟨_, u, hupdate, hrest⟩ := succeeds_bind.mp h
      obtain ⟨htables, hseqs⟩ := hupdate.update
      obtain ⟨hseqs', htables'⟩ := ih hrest
      refine ⟨hseqs'.trans hseqs, ?_⟩
      rw [htables', htables]
      show StoreTables.mk _ _ _ _ = StoreTables.mk _ _ _ _
      congr 1
      funext d
      by_cases hd : d = c
      · subst hd
        by_cases hmem : d ∈ ts
        · simp [hmem, StoreTables.mapRows, deleteOf_deleteOf]
        · simp [hmem, StoreTables.mapRows]
      · simp [hd, StoreTables.mapRows]

theorem Succeeds.insertRows {productId : ℕ} {c : ChildTable} {rows : List (D.Row c)} {a : Unit}
    (h : Succeeds (insertRows answers productId c rows) s a t) :
    t.sequences = s.sequences ∧ t.tables = s.tables.mapRows c (insertOf productId rows) := by
  unfold ProductStore.insertRows at h
  split at h
  · next hempty =>
      obtain ⟨-, rfl⟩ := succeeds_pure.mp h
      obtain rfl := List.isEmpty_iff.mp hempty
      refine ⟨rfl, ?_⟩
      simp [StoreTables.mapRows, insertOf]
  · obtain ⟨htables, hseqs⟩ := h.update
    exact ⟨hseqs, htables⟩

theorem Succeeds.upsertIncidentRows {productId : ℕ} {now : Time}
    {rows : List PreparedIncidentUpdate} {changes : List PendingIncidentChange}
    (h : Succeeds (upsertIncidentRows answers productId now rows) s changes t) :
    t.sequences = s.sequences ∧
      t.tables = { s.tables with
        incidents := (upsertIncidents productId now rows s.tables.incidents).1 } ∧
      changes = (upsertIncidents productId now rows s.tables.incidents).2 := by
  induction rows generalizing s changes with
  | nil =>
      obtain ⟨rfl, rfl⟩ := succeeds_pure.mp h
      exact ⟨rfl, rfl, rfl⟩
  | cons row rows ih =>
      obtain ⟨existed, u, hexisted, h⟩ := succeeds_bind.mp h
      obtain ⟨written, v, hwritten, h⟩ := succeeds_bind.mp h
      obtain ⟨rest, w, hrest, h⟩ := succeeds_bind.mp h
      obtain ⟨rfl, rfl⟩ := succeeds_pure.mp h
      obtain ⟨rfl, hutables, huseqs⟩ := hexisted.query
      obtain ⟨hwritten, hvtables, hvseqs⟩ := hwritten.statement
      obtain ⟨hseqs, htables, rfl⟩ := ih hrest
      rw [hutables] at hwritten hvtables
      rw [hutables, huseqs] at hvseqs
      rw [htables, hseqs, hvseqs, hvtables, hwritten]
      have hcons : upsertIncidents productId now (row :: rows) s.tables.incidents =
          ((upsertIncidents productId now rows
              (upsertIncident productId now row s.tables.incidents).1).1,
            (upsertIncident productId now row s.tables.incidents).2.toList ++
              (upsertIncidents productId now rows
                (upsertIncident productId now row s.tables.incidents).1).2) := rfl
      rw [hcons]
      unfold upsertIncident
      cases upsertRow productId now row (s.tables.incidents row.key) with
      | none => exact ⟨rfl, rfl, rfl⟩
      | some written => exact ⟨rfl, rfl, rfl⟩

theorem Succeeds.report {kind : AlertSourceKind} {sourceId : Str} {payload : SourcePayload M}
    {sourceTimestamp : Time} {a : Unit}
    (h : Succeeds (report answers kind sourceId payload sourceTimestamp) s a t) :
    t.tables = { s.tables with
      sourceEvents := s.tables.sourceEvents ++
        [newSourceEvent s.sequences.nextSourceEventId kind sourceId payload sourceTimestamp] } ∧
      t.sequences.nextProductId = s.sequences.nextProductId := by
  obtain ⟨-, htables, hseqs⟩ := h.statement
  exact ⟨htables, by rw [hseqs]⟩

/-- A source event that shows a changed incident. -/
def Shows (incidents : Incidents) (change : PendingIncidentChange)
    (e : AlertSourceEvent (SourcePayload M)) : Prop :=
  e.sourceKind = .incidentChange ∧ e.sourceId = incidentSourceId change ∧
    ∃ row, incidents change.key = some row ∧ e.payload = .incident ⟨change.action, .persist, row⟩

theorem Succeeds.reportIncidents {changes : List PendingIncidentChange} {a : Unit}
    (h : Succeeds (reportIncidents answers .persist changes) s a t) :
    t.sequences.nextProductId = s.sequences.nextProductId ∧ ∃ reported,
      t.tables = { s.tables with sourceEvents := s.tables.sourceEvents ++ reported } ∧
      List.Forall₂ (Shows s.tables.incidents) changes reported := by
  induction changes generalizing s with
  | nil =>
      obtain ⟨-, rfl⟩ := succeeds_pure.mp h
      exact ⟨rfl, [], by rw [List.append_nil], .nil⟩
  | cons change changes ih =>
      obtain ⟨row, u, hrow, h⟩ := succeeds_bind.mp h
      obtain ⟨_, v, hreport, hrest⟩ := succeeds_bind.mp h
      obtain ⟨rfl, hutables, huseqs⟩ := hrow.query
      cases hfound : s.tables.incidents change.key with
      | none =>
          rw [hfound] at hreport
          exact absurd hreport not_succeeds_raise
      | some incident =>
          rw [hfound] at hreport
          obtain ⟨hvtables, hvseqs⟩ := Succeeds.report hreport
          obtain ⟨hseqs, reported, htables, hall⟩ := ih hrest
          rw [hvtables, hutables] at htables hall
          refine ⟨?_, newSourceEvent u.sequences.nextSourceEventId .incidentChange
            (incidentSourceId change) (.incident ⟨change.action, .persist, incident⟩)
            incident.lastUpdatedAt :: reported, ?_, .cons ⟨rfl, rfl, incident, hfound, rfl⟩ hall⟩
          · rw [hseqs, hvseqs, huseqs]
          · rw [htables]
            dsimp only
            rw [List.append_assoc]
            rfl

/-! ## What the transaction does -/

/-- The tables after the transaction of a product. -/
structure Wrote (now : Time) (p : PreparedRows D) (metadata : M) (s t : StoreTables M D)
    (fresh : ℕ) : Prop where
  products : t.products =
    upsert ProductRecord.key (p.record fresh now) (p.overwrite now) s.products
  rows : ∀ c, t.children c =
    insertOf (s.idFor fresh p) (p.rows c) (deleteOf (s.idFor fresh p) (s.children c))
  incidents : t.incidents = (upsertIncidents (s.idFor fresh p) now p.incidentUpdates s.incidents).1
  events : ∃ e reported, t.sourceEvents = s.sourceEvents ++ e :: reported ∧
    e.sourceKind = .productAvailable ∧ e.sourceId = Str.ofNat (s.idFor fresh p) ∧
    e.payload = .product metadata ∧
    List.Forall₂ (Shows t.incidents)
      (upsertIncidents (s.idFor fresh p) now p.incidentUpdates s.incidents).2 reported

/-- The rows of a product are replaced in all tables. -/
theorem Succeeds.replaceChildren {productId : ℕ} {now : Time} {p : PreparedRows D}
    {changes : List PendingIncidentChange}
    (h : Succeeds (replaceChildren answers productId now p) s changes t) :
    t.sequences = s.sequences ∧
      t.tables = { s.tables with
        children := fun c =>
          insertOf productId (p.rows c) (deleteOf productId (s.tables.children c))
        incidents := (upsertIncidents productId now p.incidentUpdates s.tables.incidents).1 } ∧
      changes = (upsertIncidents productId now p.incidentUpdates s.tables.incidents).2 := by
  obtain ⟨_, s1, h1, h⟩ := succeeds_bind.mp h
  obtain ⟨_, s2, h2, h⟩ := succeeds_bind.mp h
  obtain ⟨_, s3, h3, h⟩ := succeeds_bind.mp h
  obtain ⟨changes, s4, h4, h⟩ := succeeds_bind.mp h
  obtain ⟨_, s5, h5, h⟩ := succeeds_bind.mp h
  obtain ⟨_, s6, h6, h⟩ := succeeds_bind.mp h
  obtain ⟨_, s7, h7, h⟩ := succeeds_bind.mp h
  obtain ⟨_, s8, h8, h⟩ := succeeds_bind.mp h
  obtain ⟨_, s9, h9, h⟩ := succeeds_bind.mp h
  obtain ⟨_, s10, h10, h⟩ := succeeds_bind.mp h
  obtain ⟨rfl, rfl⟩ := succeeds_pure.mp h
  obtain ⟨q1, e1⟩ := Succeeds.deleteRows h1
  obtain ⟨q2, e2⟩ := Succeeds.insertRows h2
  obtain ⟨q3, e3⟩ := Succeeds.insertRows h3
  obtain ⟨q4, e4, rfl⟩ := Succeeds.upsertIncidentRows h4
  obtain ⟨q5, e5⟩ := Succeeds.insertRows h5
  obtain ⟨q6, e6⟩ := Succeeds.insertRows h6
  obtain ⟨q7, e7⟩ := Succeeds.insertRows h7
  obtain ⟨q8, e8⟩ := Succeeds.insertRows h8
  obtain ⟨q9, e9⟩ := Succeeds.insertRows h9
  obtain ⟨q10, e10⟩ := Succeeds.insertRows h10
  have hincidents : s3.tables.incidents = s.tables.incidents := by
    rw [e3, e2, e1]
    rfl
  refine ⟨?_, ?_, by rw [hincidents]⟩
  · rw [q10, q9, q8, q7, q6, q5, q4, q3, q2, q1]
  · rw [e10, e9, e8, e7, e6, e5, e4, hincidents, e3, e2, e1]
    unfold StoreTables.mapRows
    congr 1
    funext c
    cases c <;> simp [Function.update, childTables]

/-- **One transaction.** -/
theorem wrote_of_succeeds {now : Time} {p : PreparedRows D} {metadata : M}
    {changes : List PendingIncidentChange}
    (h : Succeeds (writeProduct answers now p metadata) s changes t) :
    Wrote now p metadata s.tables t.tables s.sequences.nextProductId ∧
      t.sequences.nextProductId = s.sequences.nextProductId + 1 := by
  obtain ⟨productId, s1, h1, h⟩ := succeeds_bind.mp h
  obtain ⟨changes, s2, h2, h⟩ := succeeds_bind.mp h
  obtain ⟨_, s3, h3, h⟩ := succeeds_bind.mp h
  obtain ⟨_, s4, h4, h⟩ := succeeds_bind.mp h
  obtain ⟨rfl, rfl⟩ := succeeds_pure.mp h
  obtain ⟨rfl, e1, q1⟩ := Succeeds.upsertProduct h1
  obtain ⟨q2, e2, rfl⟩ := Succeeds.replaceChildren h2
  unfold reportProduct at h3
  cases hstamp : fromTimestamp p.sourceTimestampUtc with
  | none =>
      rw [hstamp] at h3
      exact absurd h3 not_succeeds_raise
  | some sourceTimestamp =>
      rw [hstamp] at h3
      obtain ⟨e3, q3⟩ := Succeeds.report h3
      obtain ⟨q4, reported, e4, hall⟩ := Succeeds.reportIncidents h4
      rw [e3, e2, e1] at e4
      rw [e3, e2, e1] at hall
      refine ⟨⟨?_, ?_, ?_, ?_⟩, ?_⟩
      · rw [e4]
      · intro c
        rw [e4]
      · rw [e4]
      · refine ⟨newSourceEvent s2.sequences.nextSourceEventId .productAvailable
          (Str.ofNat (s.tables.idFor s.sequences.nextProductId p)) (.product metadata)
          sourceTimestamp, reported, ?_, rfl, rfl, rfl, ?_⟩
        · rw [e4]
          dsimp only
          rw [List.append_assoc]
          rfl
        · rw [e4]
          exact hall
      · rw [q4, q3, q2, q1]

/-! ## Numbers -/

theorem advances_deleteRows (productId : ℕ) (ts : List ChildTable) :
    Advances (deleteRows answers productId ts : StoreSession M D Unit) := by
  induction ts with
  | nil => exact advances_pure _
  | cons c ts ih => exact (advances_update _).bind fun _ => ih

theorem advances_insertRows (productId : ℕ) (c : ChildTable) (rows : List (D.Row c)) :
    Advances (insertRows answers productId c rows : StoreSession M D Unit) := by
  unfold insertRows
  split_ifs
  · exact advances_pure _
  · exact advances_update _

theorem advances_upsertIncidentRows (productId : ℕ) (now : Time)
    (rows : List PreparedIncidentUpdate) :
    Advances (upsertIncidentRows answers productId now rows : StoreSession M D _) := by
  induction rows with
  | nil => exact advances_pure _
  | cons row rows ih =>
      have hwrite :
          Advances (upsertIncidentRow answers productId now row : StoreSession M D _) := by
        apply advances_statement
        intro tables seqs
        cases upsertRow productId now row (tables.incidents row.key) with
        | none => exact le_rfl
        | some written => exact le_rfl
      exact (advances_query _).bind fun _ => hwrite.bind fun _ => ih.bind fun _ => advances_pure _

theorem advances_report (kind : AlertSourceKind) (sourceId : Str) (payload : SourcePayload M)
    (sourceTimestamp : Time) :
    Advances (report answers kind sourceId payload sourceTimestamp : StoreSession M D Unit) :=
  advances_statement fun _ _ => ⟨le_rfl, Nat.le_succ _⟩

theorem advances_reportIncidents (trigger : IncidentChangeTrigger)
    (changes : List PendingIncidentChange) :
    Advances (reportIncidents answers trigger changes : StoreSession M D Unit) := by
  induction changes with
  | nil => exact advances_pure _
  | cons change changes ih =>
      have hone : ∀ row, Advances (reportIncident answers trigger change row :
          StoreSession M D Unit) := by
        intro row
        cases row with
        | none => exact advances_raise _
        | some incident => exact advances_report _ _ _ _
      exact (advances_query _).bind fun row => (hone row).bind fun _ => ih

/-- No part of the transaction sets a sequence back. -/
theorem advances_writeProduct (now : Time) (p : PreparedRows D) (metadata : M) :
    Advances (writeProduct answers now p metadata) := by
  have hupsert : Advances (upsertProduct answers now p : StoreSession M D ℕ) :=
    advances_statement fun _ _ => ⟨Nat.le_succ _, le_rfl⟩
  have hrows : ∀ productId c, Advances
      (insertRows answers productId c (p.rows c) : StoreSession M D Unit) :=
    fun productId c => advances_insertRows productId c _
  have hreport : ∀ productId, Advances (reportProduct answers productId p metadata) := by
    intro productId
    unfold reportProduct
    cases fromTimestamp p.sourceTimestampUtc with
    | none => exact advances_raise _
    | some sourceTimestamp => exact advances_report _ _ _ _
  have hreplace : ∀ productId, Advances
      (replaceChildren answers productId now p : StoreSession M D _) := by
    intro productId
    exact (advances_deleteRows _ _).bind fun _ => (hrows _ _).bind fun _ => (hrows _ _).bind
      fun _ => (advances_upsertIncidentRows _ _ _).bind fun _ => (hrows _ _).bind
      fun _ => (hrows _ _).bind fun _ => (hrows _ _).bind fun _ => (hrows _ _).bind
      fun _ => (hrows _ _).bind fun _ => (hrows _ _).bind fun _ => advances_pure _
  exact hupsert.bind fun productId => (hreplace productId).bind fun _ => (hreport productId).bind
    fun _ => (advances_reportIncidents _ _).bind fun _ => advances_pure _

/-! ## What the tables hold -/

/-- The last product that was committed under a key. -/
def lastCommit (done : List (Committed M D)) (k : ProductKey) : Option (Committed M D) :=
  (done.filter fun c => c.product.key = k).getLast?

theorem lastCommit_append (done : List (Committed M D)) (c : Committed M D) (k : ProductKey) :
    lastCommit (done ++ [c]) k = if k = c.product.key then some c else lastCommit done k := by
  unfold lastCommit
  rw [List.filter_append]
  split_ifs with h
  · rw [List.filter_cons_of_pos (by simpa using h.symm), List.filter_nil, List.getLast?_concat]
  · rw [List.filter_cons_of_neg (by simpa using Ne.symm h), List.filter_nil, List.append_nil]

/-- The description in the source event of a product. -/
def eventMetadata? (e : AlertSourceEvent (SourcePayload M)) : Option M :=
  match e.payload with
  | .product metadata => some metadata
  | .incident _ => none

/-- The source events of incidents describe no product. -/
theorem filterMap_eventMetadata {incidents : Incidents} {changes : List PendingIncidentChange}
    {reported : List (AlertSourceEvent (SourcePayload M))}
    (h : List.Forall₂ (Shows incidents) changes reported) :
    reported.filterMap eventMetadata? = [] := by
  induction h with
  | nil => rfl
  | cons hone _ ih =>
      obtain ⟨-, -, row, -, hpayload⟩ := hone
      rw [List.filterMap_cons_none, ih]
      unfold eventMetadata?
      rw [hpayload]

/-- The ids of the products. -/
def StoreTables.ids (tables : StoreTables M D) : List ℕ := tables.products.map ProductRecord.id

/-- The tables hold what was committed last. -/
structure Holds (done : List (Committed M D)) (s : Server (StoreTables M D) Sequences) :
    Prop where
  keys : (s.tables.products.map ProductRecord.key).Nodup
  ids : s.tables.ids.Nodup
  fresh : ∀ id ∈ s.tables.ids, id < s.sequences.nextProductId
  content : ∀ k, (rowAt ProductRecord.key k s.tables.products).map
    (fun row => (row.columns, row.ingestedAt)) =
      (lastCommit done k).map fun c => (c.product.columns, c.now)
  rows : ∀ row ∈ s.tables.products, ∀ c ∈ lastCommit done row.key, ∀ t,
    rowsOf row.id (s.tables.children t) = c.product.rows t
  owned : ∀ t, ∀ r ∈ s.tables.children t, r.1 ∈ s.tables.ids
  referenced : ∀ key, ∀ incident ∈ s.tables.incidents key,
    incident.firstProductId ∈ s.tables.ids ∧ incident.latestProductId ∈ s.tables.ids
  events : s.tables.sourceEvents.filterMap eventMetadata? = done.map Committed.metadata

theorem holds_empty : Holds [] (emptyStore : Server (StoreTables M D) Sequences) := by
  refine ⟨List.nodup_nil, List.nodup_nil, ?_, fun _ => rfl, ?_, ?_, ?_, rfl⟩
  · intro id hid
    cases hid
  · intro row hrow
    cases hrow
  · intro t r hr
    cases hr
  · intro key incident hincident
    cases hincident

section Step

variable {now : Time} {p : PreparedRows D} {metadata : M} {before after : StoreTables M D}
  {fresh : ℕ}

/-- The ids after a transaction. -/
theorem Wrote.ids (h : Wrote now p metadata before after fresh) :
    after.ids = if (rowAt ProductRecord.key p.key before.products).isSome then before.ids
      else before.ids ++ [fresh] := by
  have hid : ∀ row, (p.overwrite now row).id = row.id := fun _ => rfl
  unfold StoreTables.ids
  rw [h.products, map_upsert hid]
  rfl

/-- No id is lost. -/
theorem Wrote.mem_ids (h : Wrote now p metadata before after fresh) {id : ℕ}
    (hid : id ∈ before.ids) : id ∈ after.ids := by
  rw [h.ids]
  split_ifs
  · exact hid
  · exact List.mem_append_left _ hid

/-- The rows after a transaction. -/
theorem Wrote.rowAt_after (h : Wrote now p metadata before after fresh) (k : ProductKey) :
    rowAt ProductRecord.key k after.products =
      if k = p.key then
        some (((rowAt ProductRecord.key k before.products).map (p.overwrite now)).getD
          (p.record fresh now))
      else rowAt ProductRecord.key k before.products := by
  have hkey : ∀ row, (p.overwrite now row).key = row.key := fun _ => rfl
  rw [h.products, rowAt_upsert hkey]
  rfl

/-- The row of the product has the id that the transaction works with. -/
theorem id_overwrite (now : Time) (tables : StoreTables M D) :
    (((rowAt ProductRecord.key p.key tables.products).map (p.overwrite now)).getD
      (p.record fresh now)).id = tables.idFor fresh p := by
  unfold StoreTables.idFor
  cases rowAt ProductRecord.key p.key tables.products with
  | none => rfl
  | some row => rfl

theorem Wrote.idFor_mem (h : Wrote now p metadata before after fresh) :
    before.idFor fresh p ∈ after.ids := by
  have hrow := h.rowAt_after p.key
  rw [if_pos rfl] at hrow
  rw [← id_overwrite now before]
  exact List.mem_map_of_mem (List.mem_of_find?_eq_some hrow)

/-- A transaction describes its product in one source event. -/
theorem Wrote.eventMetadata (h : Wrote now p metadata before after fresh) :
    after.sourceEvents.filterMap eventMetadata? =
      before.sourceEvents.filterMap eventMetadata? ++ [metadata] := by
  obtain ⟨e, reported, hevents, -, -, hpayload, hall⟩ := h.events
  have hone : eventMetadata? e = some metadata := by
    unfold eventMetadata?
    rw [hpayload]
  rw [hevents, List.filterMap_append, List.filterMap_cons_some hone, filterMap_eventMetadata hall]

/-- Incidents refer to products they referred to, and to the one they were updated for. -/
theorem upsertIncidents_referenced {S : ℕ → Prop} {productId : ℕ} (hid : S productId)
    (rows : List PreparedIncidentUpdate) {incidents : Incidents}
    (h : ∀ key, ∀ incident ∈ incidents key,
      S incident.firstProductId ∧ S incident.latestProductId) :
    ∀ key, ∀ incident ∈ (upsertIncidents productId now rows incidents).1 key,
      S incident.firstProductId ∧ S incident.latestProductId := by
  induction rows generalizing incidents with
  | nil => exact h
  | cons row rows ih =>
      refine ih fun key incident hincident => ?_
      rw [upsertIncident_apply] at hincident
      split_ifs at hincident with hkey
      · unfold upsertRow at hincident
        cases hexisting : incidents key with
        | none =>
            rw [hexisting] at hincident
            rw [Option.or_none] at hincident
            obtain ⟨status, -, rfl⟩ := Option.map_eq_some_iff.mp hincident
            exact ⟨hid, hid⟩
        | some existing =>
            rw [hexisting] at hincident
            have hold := h key existing hexisting
            dsimp only at hincident
            split_ifs at hincident
            · obtain rfl := Option.some.inj hincident
              exact ⟨hold.1, hid⟩
            · obtain rfl := Option.some.inj hincident
              exact hold
      · exact h key incident hincident

/-- The next number is the number of no product. -/
theorem Holds.nextProductId_notMem {done : List (Committed M D)}
    {s : Server (StoreTables M D) Sequences} (h : Holds done s) :
    s.sequences.nextProductId ∉ s.tables.ids := by
  intro hmem
  exact absurd (h.fresh _ hmem) (Nat.lt_irrefl _)

/-- A transaction with a new number keeps the ids distinct. -/
theorem Wrote.nodup_ids (h : Wrote now p metadata before after fresh) (hnodup : before.ids.Nodup)
    (hnew : fresh ∉ before.ids) : after.ids.Nodup := by
  rw [h.ids]
  split_ifs
  · exact hnodup
  · exact List.nodup_append.mpr ⟨hnodup, List.nodup_singleton _,
      fun a ha b hb hab => hnew (List.mem_singleton.mp hb ▸ hab ▸ ha)⟩

/-- A row of another product has another id. -/
theorem Holds.id_ne_idFor {done : List (Committed M D)}
    {s : Server (StoreTables M D) Sequences} (h : Holds done s) {row : ProductRecord D.Columns}
    (hrow : row ∈ s.tables.products) (hne : row.key ≠ p.key) :
    row.id ≠ s.tables.idFor s.sequences.nextProductId p := by
  intro heq
  unfold StoreTables.idFor at heq
  cases hfound : rowAt ProductRecord.key p.key s.tables.products with
  | none =>
      rw [hfound] at heq
      have hid : row.id = s.sequences.nextProductId := heq
      exact h.nextProductId_notMem (hid ▸ List.mem_map_of_mem hrow)
  | some found =>
      rw [hfound] at heq
      obtain ⟨hmem, hkey⟩ := (rowAt_eq_some h.keys).mp hfound
      have hsame : row = found := List.inj_on_of_nodup_map h.ids hrow hmem heq
      exact hne (hsame ▸ hkey)

/-- **A committed transaction.**  The tables hold the product beside what they held. -/
theorem Holds.wrote {done : List (Committed M D)} {s t : Server (StoreTables M D) Sequences}
    (h : Holds done s)
    (hwrote : Wrote now p metadata s.tables t.tables s.sequences.nextProductId)
    (hseqs : s.sequences.nextProductId + 1 ≤ t.sequences.nextProductId) :
    Holds (done ++ [⟨now, metadata, p⟩]) t := by
  have hrowAt := hwrote.rowAt_after
  have hkeys : (t.tables.products.map ProductRecord.key).Nodup := by
    rw [hwrote.products]
    exact nodup_upsert (fun _ => rfl) h.keys
  have hids := hwrote.nodup_ids h.ids h.nextProductId_notMem
  refine ⟨hkeys, hids, ?_, ?_, ?_, ?_, ?_, ?_⟩
  · intro id hid
    rw [hwrote.ids] at hid
    split_ifs at hid
    · exact (h.fresh id hid).trans_le (by omega)
    · rcases List.mem_append.mp hid with hid | hid
      · exact (h.fresh id hid).trans_le (by omega)
      · obtain rfl := List.mem_singleton.mp hid
        omega
  · intro k
    rw [hrowAt, lastCommit_append]
    show _ = (if k = p.key then _ else _ : Option (Committed M D)).map _
    split_ifs with hk
    · cases rowAt ProductRecord.key k s.tables.products with
      | none => rfl
      | some row => rfl
    · exact h.content k
  · intro row hrow c hc table
    have hat := (rowAt_eq_some hkeys).mpr ⟨hrow, rfl⟩
    rw [hrowAt] at hat
    rw [lastCommit_append] at hc
    rw [hwrote.rows, rowsOf_replace]
    by_cases hk : row.key = p.key
    · rw [if_pos hk] at hat hc
      obtain rfl := Option.some.inj hc
      have hid : row.id = s.tables.idFor s.sequences.nextProductId p := by
        rw [← Option.some.inj hat, hk, id_overwrite]
      rw [if_pos hid]
    · rw [if_neg hk] at hat
      rw [if_neg (show ¬ row.key = (Committed.mk now metadata p).product.key from hk)] at hc
      have hmem : row ∈ s.tables.products := ((rowAt_eq_some h.keys).mp hat).1
      rw [if_neg (h.id_ne_idFor hmem hk)]
      exact h.rows row hmem c hc table
  · intro table r hr
    rw [hwrote.rows] at hr
    rcases mem_replace hr with hid | hold
    · rw [hid]
      exact hwrote.idFor_mem
    · exact hwrote.mem_ids (h.owned table r hold)
  · rw [hwrote.incidents]
    refine upsertIncidents_referenced hwrote.idFor_mem _ fun key incident hincident => ?_
    obtain ⟨hfirst, hlatest⟩ := h.referenced key incident hincident
    exact ⟨hwrote.mem_ids hfirst, hwrote.mem_ids hlatest⟩
  · rw [hwrote.eventMetadata, h.events, List.map_append]
    rfl

end Step

/-! ## Calls -/

section Calls

variable {prepare : PersistedRequest M → Option (PreparedRows D)} {done : List (Committed M D)}

/-- What the tables hold does not depend on numbers that were given away. -/
theorem Holds.of_tables (h : Holds done s) (htables : t.tables = s.tables)
    (hseqs : s.sequences ≤ t.sequences) : Holds done t := by
  obtain ⟨hkeys, hids, hfresh, hcontent, hrows, howned, hreferenced, hevents⟩ := h
  rw [← htables] at hkeys hids hfresh hcontent hrows howned hreferenced hevents
  exact ⟨hkeys, hids, fun id hid => (hfresh id hid).trans_le hseqs.1, hcontent, hrows, howned,
    hreferenced, hevents⟩

/-- Reading the changed incidents again changes nothing. -/
theorem reads_loadIncidentChanges (trigger : IncidentChangeTrigger)
    (changes : List PendingIncidentChange) :
    Reads (loadIncidentChanges answers trigger changes : StoreSession M D _) := by
  induction changes with
  | nil => exact reads_pure _
  | cons change changes ih =>
      exact (reads_query answers _).bind fun _ => ih.bind fun _ => reads_pure _

/-- What `persist` runs for a request with rows. -/
theorem persist_of_prepare {p : PreparedRows D} {request : PersistedRequest M}
    (hprepare : prepare request = some p) (now : Time)
    (s : Server (StoreTables M D) Sequences) :
    persist answers prepare now request s = (query answers (fun _ => ()) >>=
      fun _ => transaction answers (writeProduct answers now p request.metadata) >>=
        loadIncidentChanges answers .persist) s := by
  unfold persist
  rw [hprepare]

/-- Behind a connection of the pool, the product is committed exactly if its transaction is. -/
theorem committed_of_query {p : PreparedRows D} {request : PersistedRequest M}
    (hprepare : prepare request = some p) (now : Time)
    (hpool : query answers (fun _ => ()) s = (.ok (), t)) :
    (StoreCall.persist now request).committed answers prepare s =
      if commits answers (writeProduct answers now p request.metadata) t then
        some ⟨now, request.metadata, p⟩
      else none := by
  unfold StoreCall.committed
  dsimp only
  rw [hprepare]
  dsimp only
  rw [hpool]

variable (answers prepare) in
/-- A call of `persist`: nothing is committed and the tables stay, or the transaction has
written its product, whatever is answered. -/
theorem persist_cases (now : Time) (request : PersistedRequest M)
    (s : Server (StoreTables M D) Sequences) :
    (((StoreCall.persist now request).committed answers prepare s = none ∧
        (persist answers prepare now request s).2.tables = s.tables ∧
        s.sequences ≤ (persist answers prepare now request s).2.sequences ∧
        ∃ e, (persist answers prepare now request s).1 = .error e) ∨
      ∃ p, prepare request = some p ∧
        (StoreCall.persist now request).committed answers prepare s =
          some ⟨now, request.metadata, p⟩ ∧
        Wrote now p request.metadata s.tables (persist answers prepare now request s).2.tables
          s.sequences.nextProductId ∧
        s.sequences.nextProductId + 1 ≤
          (persist answers prepare now request s).2.sequences.nextProductId) := by
  cases hprepare : prepare request with
  | none =>
      have hpersist : persist answers prepare now request s = (.error .invalidRequest, s) := by
        unfold persist
        rw [hprepare]
        rfl
      refine .inl ⟨?_, ?_, ?_, .invalidRequest, ?_⟩
      · unfold StoreCall.committed
        dsimp only
        rw [hprepare]
      · rw [hpersist]
      · rw [hpersist]
      · rw [hpersist]
  | some p =>
      have hreads : (query answers (fun _ : StoreTables M D => ()) s).2.tables = s.tables ∧ _ :=
        reads_query answers _ s
      match hpool : query answers (fun _ => ()) s with
      | (.error e, t) =>
          rw [hpool] at hreads
          rw [persist_of_prepare hprepare, bind_of_error hpool]
          refine .inl ⟨?_, hreads.1, hreads.2.ge, e, rfl⟩
          unfold StoreCall.committed
          dsimp only
          rw [hprepare]
          dsimp only
          rw [hpool]
      | (.ok (), t) =>
          rw [hpool] at hreads
          rw [persist_of_prepare hprepare, bind_of_ok hpool]
          obtain ⟨hload, hloadSeqs⟩ := bind_reads
            (transaction answers (writeProduct answers now p request.metadata))
            (reads_loadIncidentChanges .persist) t
          rw [committed_of_query hprepare now hpool, hload, hloadSeqs]
          rcases transaction_cases (writeProduct answers now p request.metadata) t with
            ⟨hcommits, t', changes, u, htables, hseqs, hsucceeds, hafter, hafterSeqs, -⟩ |
            ⟨hcommits, htables, e, he⟩
          · obtain ⟨hwrote, hnext⟩ := wrote_of_succeeds hsucceeds
            refine .inr ⟨p, rfl, if_pos hcommits, ?_, ?_⟩
            · rw [hafter, ← hreads.1, ← hreads.2, ← htables, ← hseqs]
              exact hwrote
            · rw [hafterSeqs, hnext, hseqs, hreads.2]
          · refine .inl ⟨if_neg (by simp [hcommits]), htables.trans hreads.1, ?_, e, ?_⟩
            · rw [← hreads.2]
              exact (advances_writeProduct now p request.metadata).transaction t
            · match htransaction : transaction answers
                  (writeProduct answers now p request.metadata) t with
              | (.ok changes, u) =>
                  rw [htransaction] at he
                  cases he
              | (.error e', u) =>
                  rw [htransaction] at he
                  rw [bind_of_error htransaction]
                  exact congrArg Except.error (Except.error.inj he)

variable (answers) in
/-- A cleanup leaves the tables as they are, or it expires rows. -/
theorem expire_cases (now utcNow : Time) (s : Server (StoreTables M D) Sequences) :
    (expire answers now utcNow s).2.sequences = s.sequences ∧
      ((expire answers now utcNow s).2.tables = s.tables ∨
        (expire answers now utcNow s).2.tables = { s.tables with
          incidents := expireActiveIncidents now utcNow s.tables.incidents }) := by
  have hreads : (query answers (fun _ : StoreTables M D => ()) s).2.tables = s.tables ∧ _ :=
    reads_query answers _ s
  unfold expire
  match hpool : query answers (fun _ => ()) s with
  | (.error e, t) =>
      rw [hpool] at hreads
      rw [bind_of_error hpool]
      exact ⟨hreads.2, .inl hreads.1⟩
  | (.ok (), t) =>
      rw [hpool] at hreads
      obtain ⟨htables, hseqs⟩ : t.tables = s.tables ∧ t.sequences = s.sequences := hreads
      rw [bind_of_ok hpool, ← htables, ← hseqs]
      unfold update statement
      cases answers t.executed with
      | done => exact ⟨rfl, .inr rfl⟩
      | failed e => exact ⟨rfl, .inl rfl⟩
      | unacknowledged e => exact ⟨rfl, .inr rfl⟩

/-- Every call keeps what the tables hold up to date. -/
theorem Holds.serve (h : Holds done s) (call : StoreCall M) :
    Holds (done ++ (call.committed answers prepare s).toList) (call.serve answers prepare s) := by
  cases call with
  | persist now request =>
      rcases persist_cases answers prepare now request s with
        ⟨hnone, htables, hseqs, -⟩ | ⟨p, -, hsome, hwrote, hseqs⟩
      · rw [hnone, Option.toList_none, List.append_nil]
        exact h.of_tables htables hseqs
      · rw [hsome]
        exact h.wrote hwrote hseqs
  | expire now utcNow =>
      obtain ⟨hseqs, htables⟩ := expire_cases answers now utcNow s
      show Holds (done ++ []) (ProductStore.expire answers now utcNow s).2
      rw [List.append_nil]
      rcases htables with htables | htables
      · exact h.of_tables htables hseqs.ge
      · -- an expired row refers to the products it referred to
        have hexpired : Holds done ⟨{ s.tables with
            incidents := expireActiveIncidents now utcNow s.tables.incidents }, s.sequences,
            s.executed⟩ := by
          refine ⟨h.keys, h.ids, h.fresh, h.content, h.rows, h.owned, ?_, h.events⟩
          intro key incident hincident
          obtain ⟨row, hrow, rfl⟩ := Option.map_eq_some_iff.mp hincident
          have hold := h.referenced key row hrow
          split_ifs
          · exact hold
          · exact hold
        exact hexpired.of_tables htables hseqs.ge

theorem Holds.serveAll (h : Holds done s) (calls : List (StoreCall M)) :
    Holds (done ++ committedBy answers prepare calls s) (serveAll answers prepare calls s) := by
  induction calls generalizing done s with
  | nil =>
      show Holds (done ++ []) s
      rw [List.append_nil]
      exact h
  | cons call calls ih =>
      show Holds (done ++ ((call.committed answers prepare s).toList ++ _)) _
      rw [← List.append_assoc]
      exact ih (h.serve call)

end Calls

end ProductStore
