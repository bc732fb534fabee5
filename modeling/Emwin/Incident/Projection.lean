/-
# The incident projection

Persisting a product groups its operational VTEC codes by incident and upserts one row for
each: a product without a status for an incident leaves the status as it is, and writes
nothing where there is no row; a product older than the row writes nothing.  Cleanup sets
active rows to expired once their end has passed.

The table is a map from its primary key.  Rows under other keys play no part in an upsert,
so a product is seen by one incident as an update or as nothing (`updateFor`), and the row of
the incident after some products comes from these updates alone (`persistAll_apply`).
-/
import Emwin.Incident.Model
import Emwin.Lib.Maps
import Mathlib.Logic.Function.Basic

namespace Incident

/-! ## Preparing a product -/

/-- A row of `product_vtec`. -/
structure ProductVtecRow where
  status : Str
  action : Str
  office : Str
  phenomena : Str
  significance : Str
  etn : ℤ
  beginUtc : Option Time
  endUtc : Option Time
deriving DecidableEq, Repr

/-- The incident that a code is about. -/
def ProductVtecRow.key (vtec : ProductVtecRow) : IncidentKey :=
  ⟨vtec.office, vtec.phenomena, vtec.significance, vtec.etn⟩

/-- The status that an action gives; corrections and routine actions give none. -/
def mapIncidentStatus (action : Str) : Option IncidentStatus :=
  if action ∈ ["NEW".toList, "CON".toList, "EXT".toList, "EXA".toList, "EXB".toList] then
    some .active
  else if action = "CAN".toList then some .cancelled
  else if action = "EXP".toList then some .expired
  else if action = "UPG".toList then some .upgraded
  else none

/-- The earlier of two times. -/
def minOptionDatetime (current incoming : Option Time) : Option Time :=
  match current, incoming with
  | some current, some incoming => some (min current incoming)
  | some current, none => some current
  | none, some incoming => some incoming
  | none, none => none

/-- The later of two times. -/
def maxOptionDatetime (current incoming : Option Time) : Option Time :=
  match current, incoming with
  | some current, some incoming => some (max current incoming)
  | some current, none => some current
  | none, some incoming => some incoming
  | none, none => none

/-- What the codes of a product say about one incident. -/
structure IncidentAccumulator where
  currentStatus : Option IncidentStatus
  latestVtecAction : Str
  startUtc : Option Time
  endUtc : Option Time
deriving DecidableEq, Repr

/-- The first code about an incident. -/
def IncidentAccumulator.first (vtec : ProductVtecRow) : IncidentAccumulator :=
  ⟨mapIncidentStatus vtec.action, vtec.action, vtec.beginUtc, vtec.endUtc⟩

/-- A code more. -/
def IncidentAccumulator.add (entry : IncidentAccumulator) (vtec : ProductVtecRow) :
    IncidentAccumulator where
  currentStatus :=
    match mapIncidentStatus vtec.action with
    | some currentStatus => some currentStatus
    | none => entry.currentStatus
  latestVtecAction := vtec.action
  startUtc := minOptionDatetime entry.startUtc vtec.beginUtc
  endUtc := maxOptionDatetime entry.endUtc vtec.endUtc

/-- One code of a product. -/
def group (grouped : OrderedMap IncidentKey IncidentAccumulator) (vtec : ProductVtecRow) :
    OrderedMap IncidentKey IncidentAccumulator :=
  grouped.insert vtec.key (((grouped.lookup vtec.key).getD (.first vtec)).add vtec)

/-- The new values for the row of an incident. -/
structure PreparedIncidentUpdate where
  key : IncidentKey
  currentStatus : Option IncidentStatus
  latestVtecAction : Str
  issuedAt : Time
  startUtc : Option Time
  endUtc : Option Time
  latestProductTimestampUtc : Time
deriving DecidableEq, Repr

/-- `DateTime::from_timestamp`: whole seconds within the range of times. -/
def fromTimestamp (secs : ℤ) : Option Time :=
  if -8334601228800 ≤ secs ∧ secs ≤ 8210266876799 then some (seconds secs) else none

/-- The update of one incident. -/
def IncidentAccumulator.toUpdate (issuedAt : Time) (e : IncidentKey × IncidentAccumulator) :
    PreparedIncidentUpdate :=
  ⟨e.1, e.2.currentStatus, e.2.latestVtecAction, issuedAt, e.2.startUtc, e.2.endUtc, issuedAt⟩

/-- The operational codes of a product by incident. -/
def groupVtec (vtecRows : List ProductVtecRow) : OrderedMap IncidentKey IncidentAccumulator :=
  (vtecRows.filter fun vtec => vtec.status = "O".toList).foldl group .empty

/-- The updates of a product, in the order of the incidents' keys. -/
def prepareIncidentUpdates (sourceTimestampUtc : ℤ) (vtecRows : List ProductVtecRow) :
    Option (List PreparedIncidentUpdate) :=
  (fromTimestamp sourceTimestampUtc).map fun issuedAt =>
    (groupVtec vtecRows).entries.map (IncidentAccumulator.toUpdate issuedAt)

/-! ## Upserts -/

/-- The table `incidents`. -/
abbrev Incidents := IncidentKey → Option IncidentSummary

/-- A row that was inserted or replaced. -/
structure PendingIncidentChange where
  key : IncidentKey
  action : IncidentChangeAction
deriving DecidableEq, Repr

/-- The row after an update; `none` if nothing is written. -/
def upsertRow (productId : ℕ) (now : Time) (row : PreparedIncidentUpdate)
    (existing : Option IncidentSummary) : Option IncidentSummary :=
  match existing with
  | none =>
      -- without a row there is no status to take over
      row.currentStatus.map fun currentStatus =>
        ⟨row.key, currentStatus, row.latestVtecAction, row.issuedAt, row.startUtc, row.endUtc, now,
          productId, productId, row.latestProductTimestampUtc⟩
  | some existing =>
      if existing.latestProductTimestampUtc ≤ row.latestProductTimestampUtc then
        some ⟨row.key, row.currentStatus.getD existing.currentStatus, row.latestVtecAction,
          row.issuedAt, row.startUtc, row.endUtc, now, existing.firstProductId, productId,
          row.latestProductTimestampUtc⟩
      else none

/-- One upsert, and the change to report. -/
def upsertIncident (productId : ℕ) (now : Time) (row : PreparedIncidentUpdate)
    (incidents : Incidents) : Incidents × Option PendingIncidentChange :=
  match upsertRow productId now row (incidents row.key) with
  | none => (incidents, none)
  | some written =>
      (Function.update incidents row.key (some written),
        some ⟨row.key, if (incidents row.key).isSome then .updated else .created⟩)

/-- The upserts of a product, and the changes to report. -/
def upsertIncidents (productId : ℕ) (now : Time) :
    List PreparedIncidentUpdate → Incidents → Incidents × List PendingIncidentChange
  | [], incidents => (incidents, [])
  | row :: rows, incidents =>
      let r := upsertIncident productId now row incidents
      let rest := upsertIncidents productId now rows r.1
      (rest.1, r.2.toList ++ rest.2)

/-- A product with its row id; its timestamp is one that can be stored. -/
structure Product where
  id : ℕ
  sourceTimestampUtc : ℤ
  vtec : List ProductVtecRow
  storable : (fromTimestamp sourceTimestampUtc).isSome

/-- The time of a product. -/
def Product.issuedAt (product : Product) : Time := seconds product.sourceTimestampUtc

/-- The updates of a product. -/
def Product.updates (product : Product) : List PreparedIncidentUpdate :=
  (groupVtec product.vtec).entries.map (IncidentAccumulator.toUpdate product.issuedAt)

/-- A storable product is prepared without an error. -/
theorem prepareIncidentUpdates_product (product : Product) :
    prepareIncidentUpdates product.sourceTimestampUtc product.vtec = some product.updates := by
  have h := product.storable
  unfold prepareIncidentUpdates
  unfold fromTimestamp at h ⊢
  split at h
  · next hrange =>
      rw [if_pos hrange]
      rfl
  · cases h

/-- The part of a product's transaction that writes incidents. -/
def persist (now : Time) (product : Product) (incidents : Incidents) :
    Incidents × List PendingIncidentChange :=
  match prepareIncidentUpdates product.sourceTimestampUtc product.vtec with
  | none => (incidents, [])
  | some updates => upsertIncidents product.id now updates incidents

/-- `expire_active_incidents`: active rows whose end has passed. -/
def IncidentSummary.isOver (utcNow : Time) (row : IncidentSummary) : Bool :=
  row.currentStatus == .active && row.endUtc.any fun endUtc => decide (endUtc < utcNow)

/-- The table after cleanup. -/
def expireActiveIncidents (now utcNow : Time) (incidents : Incidents) : Incidents := fun key =>
  (incidents key).map fun row =>
    if row.isOver utcNow then { row with currentStatus := .expired, lastUpdatedAt := now } else row

/-! ## One incident -/

/-- The update of a product for one incident. -/
def Product.updateFor (product : Product) (key : IncidentKey) : Option PreparedIncidentUpdate :=
  ((groupVtec product.vtec).lookup key).map fun entry =>
    IncidentAccumulator.toUpdate product.issuedAt (key, entry)

/-- What an update does to its row. -/
def applyUpdate (productId : ℕ) (now : Time) (update : Option PreparedIncidentUpdate)
    (existing : Option IncidentSummary) : Option IncidentSummary :=
  match update with
  | none => existing
  | some row => (upsertRow productId now row existing).or existing

theorem upsertIncident_apply (productId : ℕ) (now : Time) (row : PreparedIncidentUpdate)
    (incidents : Incidents) (key : IncidentKey) :
    (upsertIncident productId now row incidents).1 key =
      if key = row.key then (upsertRow productId now row (incidents key)).or (incidents key)
      else incidents key := by
  unfold upsertIncident
  rcases eq_or_ne key row.key with rfl | hne
  · rw [if_pos rfl]
    cases upsertRow productId now row (incidents row.key) with
    | none => exact Option.none_or.symm
    | some written =>
        show Function.update incidents row.key (some written) row.key = _
        rw [Function.update_self, Option.some_or]
  · rw [if_neg hne]
    cases upsertRow productId now row (incidents row.key) with
    | none => rfl
    | some written =>
        show Function.update incidents row.key (some written) key = _
        rw [Function.update_of_ne hne]

/-- The upserts of a list with distinct keys, at one key. -/
theorem upsertIncidents_apply (productId : ℕ) (now : Time) {rows : List PreparedIncidentUpdate}
    (hnodup : (rows.map PreparedIncidentUpdate.key).Nodup) (incidents : Incidents)
    (key : IncidentKey) :
    (upsertIncidents productId now rows incidents).1 key =
      applyUpdate productId now (rows.find? fun row => row.key = key) (incidents key) := by
  induction rows generalizing incidents with
  | nil => rfl
  | cons row rows ih =>
      rw [List.map_cons, List.nodup_cons] at hnodup
      obtain ⟨hfresh, hrest⟩ := hnodup
      show (upsertIncidents productId now rows (upsertIncident productId now row incidents).1).1 key
        = _
      rw [ih hrest, upsertIncident_apply]
      rcases eq_or_ne key row.key with rfl | hne
      · -- no later update is about this incident
        have hnone : rows.find? (fun r => r.key = row.key) = none := by
          apply List.find?_eq_none.mpr
          intro r hr hkey
          exact hfresh (List.mem_map.mpr ⟨r, hr, of_decide_eq_true hkey⟩)
        rw [hnone, if_pos rfl, List.find?_cons_of_pos (by simp)]
        rfl
      · rw [if_neg hne, List.find?_cons_of_neg (by simpa using Ne.symm hne)]

theorem updates_keys_nodup (product : Product) :
    (product.updates.map PreparedIncidentUpdate.key).Nodup := by
  unfold Product.updates
  rw [List.map_map]
  exact (groupVtec product.vtec).sorted.imp fun h => ne_of_lt h

theorem find?_updates (product : Product) (key : IncidentKey) :
    product.updates.find? (fun row => row.key = key) = product.updateFor key := by
  unfold Product.updates Product.updateFor OrderedMap.lookup
  rw [List.find?_map, Option.map_map]
  have hsame : (fun row => decide (row.key = key)) ∘ IncidentAccumulator.toUpdate product.issuedAt =
      fun e : IncidentKey × IncidentAccumulator => decide (e.1 = key) := rfl
  rw [hsame]
  cases hfind : (groupVtec product.vtec).entries.find? fun e => e.1 = key with
  | none => rfl
  | some e =>
      have hkey : e.1 = key := by simpa using List.find?_some hfind
      rw [← hkey]
      rfl

/-- **One incident.**  A product changes the row of an incident by its update for it. -/
theorem persist_apply (now : Time) (product : Product) (incidents : Incidents)
    (key : IncidentKey) :
    (persist now product incidents).1 key =
      applyUpdate product.id now (product.updateFor key) (incidents key) := by
  unfold persist
  rw [prepareIncidentUpdates_product]
  show (upsertIncidents product.id now product.updates incidents).1 key = _
  rw [upsertIncidents_apply product.id now (updates_keys_nodup product), find?_updates]

end Incident
