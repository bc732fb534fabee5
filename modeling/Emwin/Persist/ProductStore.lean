/-
# The tables of the archive

`postgres/sink.rs` stores a product in one transaction: the row of the product is inserted or
replaced under its filename and timestamp, its rows in the other tables are deleted and
inserted anew, the incidents it mentions are updated, and the source events for alerting are
inserted.  After the commit the changed incidents are read again, to be announced.

The statements of `postgres/write` are here one by one, each of which may fail.  What the
columns and rows are made of is a parameter, as is `prepare`, which makes them.
-/
import Emwin.Incident.Outbox
import Emwin.Lib.Tables
import Emwin.Lib.Transaction
import Emwin.Persist.Worker

namespace ProductStore

open Alert Incident Persist Tables Transaction

/-! ## Rows -/

/-- The tables whose rows belong to a product. -/
inductive ChildTable where
  | productIssues
  | productVtec
  | productUgcAreas
  | productHvtec
  | productTimeMotLoc
  | productPolygons
  | productWindHail
  | productSearchPoints
  deriving DecidableEq, Repr

/-- What columns and rows are made of. -/
structure Schema where
  /-- The columns of a product beside its key. -/
  Columns : Type
  Row : ChildTable → Type
  /-- What a row of `product_vtec` says about an incident. -/
  vtec : Row .productVtec → ProductVtecRow

variable {M : Type} {D : Schema}

/-- `PreparedProduct`; its updates of incidents are made from its VTEC rows. -/
structure PreparedRows (D : Schema) where
  filename : Str
  sourceTimestampUtc : ℤ
  columns : D.Columns
  rows : (t : ChildTable) → List (D.Row t)
  incidentUpdates : List PreparedIncidentUpdate
  projected : prepareIncidentUpdates sourceTimestampUtc ((rows .productVtec).map D.vtec) =
    some incidentUpdates

/-- The key that rows of `products` are in conflict over. -/
abbrev ProductKey := Str × ℤ

/-- A row of `products`. -/
structure ProductRecord (C : Type) where
  id : ℕ
  filename : Str
  sourceTimestampUtc : ℤ
  ingestedAt : Time
  columns : C

/-- The key of a row. -/
def ProductRecord.key {C : Type} (row : ProductRecord C) : ProductKey :=
  (row.filename, row.sourceTimestampUtc)

/-- The key of a product. -/
def PreparedRows.key (p : PreparedRows D) : ProductKey := (p.filename, p.sourceTimestampUtc)

/-- The tables; rows of a product stand with its id. -/
structure StoreTables (M : Type) (D : Schema) where
  products : List (ProductRecord D.Columns)
  children : (t : ChildTable) → List (ℕ × D.Row t)
  incidents : Incidents
  sourceEvents : List (AlertSourceEvent (SourcePayload M))

/-- The next numbers of the identity columns. -/
structure Sequences where
  nextProductId : ℕ
  nextSourceEventId : ℕ
  deriving DecidableEq, Repr

instance : Preorder Sequences := Preorder.lift fun s => (s.nextProductId, s.nextSourceEventId)

/-- The errors of the sink. -/
inductive StoreError where
  /-- A statement failed. -/
  | database (retryable : Bool)
  | rowNotFound
  | invalidRequest
  deriving DecidableEq, Repr

/-- Work of the sink. -/
abbrev StoreSession (M : Type) (D : Schema) := Session (StoreTables M D) Sequences StoreError

/-! ## Statements -/

section Statements

variable (answers : ℕ → Response StoreError)

/-- The row that an insertion would add. -/
def PreparedRows.record (p : PreparedRows D) (id : ℕ) (now : Time) : ProductRecord D.Columns :=
  ⟨id, p.filename, p.sourceTimestampUtc, now, p.columns⟩

/-- What a conflict makes of the row that is there. -/
def PreparedRows.overwrite (p : PreparedRows D) (now : Time) (row : ProductRecord D.Columns) :
    ProductRecord D.Columns :=
  { row with ingestedAt := now, columns := p.columns }

/-- The id that `upsert_product` returns. -/
def StoreTables.idFor (tables : StoreTables M D) (fresh : ℕ) (p : PreparedRows D) : ℕ :=
  ((rowAt ProductRecord.key p.key tables.products).map ProductRecord.id).getD fresh

/-- `upsert_product`; a number is taken from the sequence in any case. -/
def upsertProduct (now : Time) (p : PreparedRows D) : StoreSession M D ℕ :=
  statement answers fun tables seqs =>
    (tables.idFor seqs.nextProductId p,
      { tables with
        products := upsert ProductRecord.key (p.record seqs.nextProductId now) (p.overwrite now)
          tables.products },
      { seqs with nextProductId := seqs.nextProductId + 1 })

/-- Change one of the tables of rows. -/
def StoreTables.mapRows (t : ChildTable) (f : List (ℕ × D.Row t) → List (ℕ × D.Row t))
    (tables : StoreTables M D) : StoreTables M D :=
  { tables with children := Function.update tables.children t (f (tables.children t)) }

/-- Delete the rows of a product from some tables. -/
def deleteRows (productId : ℕ) : List ChildTable → StoreSession M D Unit
  | [] => pure ()
  | t :: ts => do
      update answers (StoreTables.mapRows t (deleteOf productId))
      deleteRows productId ts

/-- Insert rows of a product into a table; without rows there is no statement. -/
def insertRows (productId : ℕ) (t : ChildTable) (rows : List (D.Row t)) : StoreSession M D Unit :=
  if rows.isEmpty then pure ()
  else update answers (StoreTables.mapRows t (insertOf productId rows))

/-- The upsert of an incident, and whether it wrote a row. -/
def upsertIncidentRow (productId : ℕ) (now : Time) (row : PreparedIncidentUpdate) :
    StoreSession M D Bool :=
  statement answers fun tables seqs =>
    match upsertRow productId now row (tables.incidents row.key) with
    | none => (false, tables, seqs)
    | some written =>
        (true, { tables with
                 incidents := Function.update tables.incidents row.key (some written) }, seqs)

/-- `upsert_incidents`. -/
def upsertIncidentRows (productId : ℕ) (now : Time) :
    List PreparedIncidentUpdate → StoreSession M D (List PendingIncidentChange)
  | [] => pure []
  | row :: rows => do
      let existed ← query answers fun tables => (tables.incidents row.key).isSome
      let written ← upsertIncidentRow answers productId now row
      let changes ← upsertIncidentRows productId now rows
      pure ((if written then [⟨row.key, if existed then .updated else .created⟩] else []) ++ changes)

/-- The tables in the order in which they are emptied. -/
def childTables : List ChildTable :=
  [.productIssues, .productVtec, .productUgcAreas, .productHvtec, .productTimeMotLoc,
    .productPolygons, .productWindHail, .productSearchPoints]

/-- `replace_children`. -/
def replaceChildren (productId : ℕ) (now : Time) (p : PreparedRows D) :
    StoreSession M D (List PendingIncidentChange) := do
  deleteRows answers productId childTables
  insertRows answers productId .productIssues (p.rows .productIssues)
  insertRows answers productId .productVtec (p.rows .productVtec)
  let changes ← upsertIncidentRows answers productId now p.incidentUpdates
  insertRows answers productId .productUgcAreas (p.rows .productUgcAreas)
  insertRows answers productId .productHvtec (p.rows .productHvtec)
  insertRows answers productId .productTimeMotLoc (p.rows .productTimeMotLoc)
  insertRows answers productId .productPolygons (p.rows .productPolygons)
  insertRows answers productId .productWindHail (p.rows .productWindHail)
  insertRows answers productId .productSearchPoints (p.rows .productSearchPoints)
  pure changes

/-- Insert a source event. -/
def report (kind : AlertSourceKind) (sourceId : Str) (payload : SourcePayload M)
    (sourceTimestamp : Time) : StoreSession M D Unit :=
  statement answers fun tables seqs =>
    ((), { tables with
           sourceEvents := tables.sourceEvents ++
             [newSourceEvent seqs.nextSourceEventId kind sourceId payload sourceTimestamp] },
      { seqs with nextSourceEventId := seqs.nextSourceEventId + 1 })

/-- `insert_product_source_event`. -/
def reportProduct (productId : ℕ) (p : PreparedRows D) (metadata : M) : StoreSession M D Unit :=
  match fromTimestamp p.sourceTimestampUtc with
  | none => raise .invalidRequest
  | some sourceTimestamp =>
      report answers .productAvailable (Str.ofNat productId) (.product metadata) sourceTimestamp

/-- The source event of a changed incident, with the row as it is now. -/
def reportIncident (trigger : IncidentChangeTrigger) (change : PendingIncidentChange) :
    Option IncidentSummary → StoreSession M D Unit
  | none => raise .rowNotFound
  | some incident =>
      report answers .incidentChange (incidentSourceId change)
        (.incident ⟨change.action, trigger, incident⟩) incident.lastUpdatedAt

/-- `insert_incident_source_events`. -/
def reportIncidents (trigger : IncidentChangeTrigger) :
    List PendingIncidentChange → StoreSession M D Unit
  | [] => pure ()
  | change :: changes => do
      let row ← query answers fun tables => tables.incidents change.key
      reportIncident answers trigger change row
      reportIncidents trigger changes

/-- What the transaction of a product does. -/
def writeProduct (now : Time) (p : PreparedRows D) (metadata : M) :
    StoreSession M D (List PendingIncidentChange) := do
  let productId ← upsertProduct answers now p
  let changes ← replaceChildren answers productId now p
  reportProduct answers productId p metadata
  reportIncidents answers .persist changes
  pure changes

/-- `load_incident_changes`; a row that is gone is left out. -/
def loadIncidentChanges (trigger : IncidentChangeTrigger) :
    List PendingIncidentChange → StoreSession M D (List IncidentChange)
  | [] => pure []
  | change :: changes => do
      let row ← query answers fun tables => tables.incidents change.key
      let loaded ← loadIncidentChanges trigger changes
      pure ((row.map fun incident => ⟨change.action, trigger, incident⟩).toList ++ loaded)

/-! ## Calls -/

variable (prepare : PersistedRequest M → Option (PreparedRows D))

/-- `persist`, with the changes it announces; the first statement stands for the pool. -/
def persist (now : Time) (request : PersistedRequest M) : StoreSession M D (List IncidentChange) :=
  match prepare request with
  | none => raise .invalidRequest
  | some p => do
      query answers fun _ => ()
      let changes ← transaction answers (writeProduct answers now p request.metadata)
      loadIncidentChanges answers .persist changes

/-- `expire_active_incidents`, with the changes it announces. -/
def expire (now utcNow : Time) : StoreSession M D Unit := do
  query answers fun _ => ()
  update answers fun tables =>
    { tables with incidents := expireActiveIncidents now utcNow tables.incidents }

/-- What is asked of the store. -/
inductive StoreCall (M : Type) where
  | persist (now : Time) (request : PersistedRequest M)
  | expire (now utcNow : Time)

/-- The store after a call, whatever is answered. -/
def StoreCall.serve (call : StoreCall M) (s : Server (StoreTables M D) Sequences) :
    Server (StoreTables M D) Sequences :=
  match call with
  | .persist now request => (ProductStore.persist answers prepare now request s).2
  | .expire now utcNow => (ProductStore.expire answers now utcNow s).2

/-- The store after some calls. -/
def serveAll (calls : List (StoreCall M)) (s : Server (StoreTables M D) Sequences) :
    Server (StoreTables M D) Sequences :=
  calls.foldl (fun s call => call.serve answers prepare s) s

/-- A product as it was committed. -/
structure Committed (M : Type) (D : Schema) where
  now : Time
  metadata : M
  product : PreparedRows D

/-- What a call commits. -/
def StoreCall.committed (call : StoreCall M) (s : Server (StoreTables M D) Sequences) :
    Option (Committed M D) :=
  match call with
  | .persist now request =>
      match prepare request with
      | none => none
      | some p =>
          match query answers (fun _ => ()) s with
          | (.error _, _) => none
          | (.ok (), t) =>
              if commits answers (writeProduct answers now p request.metadata) t then
                some ⟨now, request.metadata, p⟩
              else none
  | .expire _ _ => none

/-- What some calls commit, one after another. -/
def committedBy : List (StoreCall M) → Server (StoreTables M D) Sequences → List (Committed M D)
  | [], _ => []
  | call :: calls, s =>
      (call.committed answers prepare s).toList ++ committedBy calls (call.serve answers prepare s)

/-- The store before any call. -/
def emptyStore : Server (StoreTables M D) Sequences :=
  ⟨⟨[], fun _ => [], fun _ => none, []⟩, ⟨1, 1⟩, 0⟩

end Statements

end ProductStore
