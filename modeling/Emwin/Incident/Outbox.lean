/-
# Incident changes and alerting

Alerting consumes rows of `alerting.source_events`.  A product's transaction inserts such a
row for the product and for every incident whose row it wrote, with the row as it then is.
Cleanup changes rows too, but it only announces the change in memory; no source event is
inserted.  So a run reports all changes of a status to alerting if and only if no cleanup in
it expires a row.
-/
import Emwin.Incident.Projection
import Emwin.Alert.Model
import Emwin.Lib.Transition

open Alert Transition

namespace Incident

/-- The payload of a source event; `M` is the description of a product. -/
inductive SourcePayload (M : Type) where
  | product (metadata : M)
  | incident (change : IncidentChange)

/-- The tables that hold incidents and source events. -/
structure Archive (M : Type) where
  incidents : Incidents
  sourceEvents : List (AlertSourceEvent (SourcePayload M))
  nextSourceEventId : ℕ

variable {M : Type}

/-! ## The two writers -/

/-- Insert a source event. -/
def Archive.report (s : Archive M) (kind : AlertSourceKind) (sourceId : Str)
    (payload : SourcePayload M) (sourceTimestamp : Time) : Archive M :=
  { s with
    sourceEvents := s.sourceEvents ++
      [newSourceEvent s.nextSourceEventId kind sourceId payload sourceTimestamp]
    nextSourceEventId := s.nextSourceEventId + 1 }

/-- The source event of a product; an error if its timestamp is no time. -/
def insertProductSourceEvent (product : Product) (metadata : M) (s : Archive M) :
    Option (Archive M) :=
  (fromTimestamp product.sourceTimestampUtc).map fun sourceTimestamp =>
    s.report .productAvailable (Str.ofNat product.id) (.product metadata) sourceTimestamp

/-- The source id of an incident change. -/
def incidentSourceId (change : PendingIncidentChange) : Str :=
  change.key.office ++ "/".toList ++ change.key.phenomena ++ "/".toList ++
    change.key.significance ++ "/".toList ++ Str.ofInt change.key.etn ++ ":".toList ++
    change.action.label

/-- The source events of incident changes, each with the row as it is now; an error if there
is no row. -/
def insertIncidentSourceEvents (trigger : IncidentChangeTrigger) :
    List PendingIncidentChange → Archive M → Option (Archive M)
  | [], s => some s
  | change :: changes, s =>
      match s.incidents change.key with
      | none => none
      | some incident =>
          insertIncidentSourceEvents trigger changes
            (s.report .incidentChange (incidentSourceId change)
              (.incident ⟨change.action, trigger, incident⟩) incident.lastUpdatedAt)

/-- The transaction of a product; an error rolls it back. -/
def persistProduct (now : Time) (product : Product) (metadata : M) (s : Archive M) : Archive M :=
  let written := persist now product s.incidents
  ((insertProductSourceEvent product metadata { s with incidents := written.1 }).bind
    (insertIncidentSourceEvents .persist written.2)).getD s

/-- A product is persisted, or cleanup runs. -/
inductive ArchiveLabel (M : Type) where
  | persist (now : Time) (product : Product) (metadata : M)
  | expire (now utcNow : Time)

/-- One step; cleanup announces its changes in memory only. -/
def archiveStep (s : Archive M) : ArchiveLabel M → Option (Archive M)
  | .persist now product metadata => some (persistProduct now product metadata s)
  | .expire now utcNow => some { s with incidents := expireActiveIncidents now utcNow s.incidents }

/-! ## What should be reported -/

/-- A source event for a change of an incident. -/
def isAbout (key : IncidentKey) (e : AlertSourceEvent (SourcePayload M)) : Bool :=
  match e.payload with
  | .product _ => false
  | .incident change => e.sourceKind == .incidentChange && change.incident.key == key

/-- The status that a source event reports. -/
def reportedStatus (e : AlertSourceEvent (SourcePayload M)) : Option IncidentStatus :=
  match e.payload with
  | .product _ => none
  | .incident change => some change.incident.currentStatus

/-- The status of an incident. -/
def Archive.statusOf (s : Archive M) (key : IncidentKey) : Option IncidentStatus :=
  (s.incidents key).map IncidentSummary.currentStatus

/-- Every incident whose status the step changes has one new source event, and that reports
the new status. -/
def StatusReported (s : Archive M) (l : ArchiveLabel M) : Prop :=
  ∀ t, archiveStep s l = some t → ∀ key, t.statusOf key ≠ s.statusOf key →
    ∃ e, (t.sourceEvents.drop s.sourceEvents.length).filter (isAbout key) = [e] ∧
      reportedStatus e = t.statusOf key

/-- The step is no cleanup that expires a row. -/
def NothingExpires (s : Archive M) : ArchiveLabel M → Prop
  | .persist _ _ _ => True
  | .expire _ utcNow => ∀ key, ∀ row ∈ s.incidents key, row.isOver utcNow = false

/-! ## Products -/

theorem upsertRow_key {productId : ℕ} {now : Time} {row : PreparedIncidentUpdate}
    {existing : Option IncidentSummary} {written : IncidentSummary}
    (h : upsertRow productId now row existing = some written) : written.key = row.key := by
  unfold upsertRow at h
  cases existing with
  | none =>
      obtain ⟨status, -, rfl⟩ := Option.map_eq_some_iff.mp h
      rfl
  | some existing =>
      dsimp only at h
      split at h
      · obtain rfl := Option.some.inj h
        rfl
      · cases h

/-- The change that one upsert reports. -/
theorem upsertIncident_change {productId : ℕ} {now : Time} {row : PreparedIncidentUpdate}
    {incidents : Incidents} {change : PendingIncidentChange}
    (h : (upsertIncident productId now row incidents).2 = some change) :
    change.key = row.key ∧ ∃ written, written.key = row.key ∧
      (upsertIncident productId now row incidents).1 row.key = some written := by
  rw [upsertIncident_apply, if_pos rfl]
  unfold upsertIncident at h
  split at h
  · cases h
  · next written hwritten =>
      obtain rfl := Option.some.inj h
      exact ⟨rfl, written, upsertRow_key hwritten, by rw [hwritten, Option.some_or]⟩

/-- A row that is not written is as before. -/
theorem upsertIncident_unchanged {productId : ℕ} {now : Time} {row : PreparedIncidentUpdate}
    {incidents : Incidents} (h : (upsertIncident productId now row incidents).2 = none) :
    (upsertIncident productId now row incidents).1 = incidents := by
  unfold upsertIncident at h ⊢
  split at h
  · rfl
  · cases h

/-- The changes of a product are changes of its updates. -/
theorem changes_keys_sublist (productId : ℕ) (now : Time) (rows : List PreparedIncidentUpdate)
    (incidents : Incidents) :
    ((upsertIncidents productId now rows incidents).2.map PendingIncidentChange.key).Sublist
      (rows.map PreparedIncidentUpdate.key) := by
  induction rows generalizing incidents with
  | nil => exact List.Sublist.refl _
  | cons row rows ih =>
      show (((upsertIncident productId now row incidents).2.toList ++ _).map _).Sublist _
      rw [List.map_append, List.map_cons]
      cases hchange : (upsertIncident productId now row incidents).2 with
      | none => exact (ih _).cons _
      | some change =>
          rw [← (upsertIncident_change hchange).1]
          exact (ih _).cons_cons _

/-- A row that differs was reported as a change. -/
theorem mem_changes_of_ne {productId : ℕ} {now : Time} {rows : List PreparedIncidentUpdate}
    {incidents : Incidents} {key : IncidentKey}
    (h : (upsertIncidents productId now rows incidents).1 key ≠ incidents key) :
    key ∈ (upsertIncidents productId now rows incidents).2.map PendingIncidentChange.key := by
  induction rows generalizing incidents with
  | nil => exact absurd rfl h
  | cons row rows ih =>
      show key ∈ ((upsertIncident productId now row incidents).2.toList ++ _).map _
      rw [List.map_append, List.mem_append]
      by_cases hrest : (upsertIncidents productId now rows
          (upsertIncident productId now row incidents).1).1 key =
            (upsertIncident productId now row incidents).1 key
      · left
        have hone : (upsertIncident productId now row incidents).1 key ≠ incidents key := by
          rw [← hrest]
          exact h
        cases hchange : (upsertIncident productId now row incidents).2 with
        | none => exact absurd (congrFun (upsertIncident_unchanged hchange) key) hone
        | some change =>
            rw [upsertIncident_apply] at hone
            split at hone
            · next hkey =>
                rw [hkey, ← (upsertIncident_change hchange).1]
                exact List.mem_singleton_self _
            · exact absurd rfl hone
      · exact Or.inr (ih hrest)

/-- A change that was reported has its row. -/
theorem row_of_mem_changes {productId : ℕ} {now : Time} {rows : List PreparedIncidentUpdate}
    (hnodup : (rows.map PreparedIncidentUpdate.key).Nodup) {incidents : Incidents}
    {change : PendingIncidentChange}
    (h : change ∈ (upsertIncidents productId now rows incidents).2) :
    ∃ row, (upsertIncidents productId now rows incidents).1 change.key = some row ∧
      row.key = change.key := by
  induction rows generalizing incidents with
  | nil => cases h
  | cons row rows ih =>
      rw [List.map_cons, List.nodup_cons] at hnodup
      obtain ⟨hfresh, hrest⟩ := hnodup
      rcases List.mem_append.mp h with h | h
      · obtain ⟨hkey, written, hwkey, hwritten⟩ := upsertIncident_change (Option.mem_toList.mp h)
        refine ⟨written, ?_, hwkey.trans hkey.symm⟩
        show (upsertIncidents productId now rows _).1 change.key = some written
        -- the rest of the product is about other incidents
        have hnone : rows.find? (fun r => r.key = row.key) = none := by
          apply List.find?_eq_none.mpr
          intro r hr hkey
          exact hfresh (List.mem_map.mpr ⟨r, hr, of_decide_eq_true hkey⟩)
        rw [hkey, upsertIncidents_apply productId now hrest, hnone]
        exact hwritten
      · exact ih hrest h

/-- A product upserts its updates. -/
theorem persist_eq (now : Time) (product : Product) (incidents : Incidents) :
    persist now product incidents = upsertIncidents product.id now product.updates incidents := by
  unfold persist
  rw [prepareIncidentUpdates_product]

/-- A source event that reports a change, with the row as the table holds it. -/
def Reports (trigger : IncidentChangeTrigger) (incidents : Incidents)
    (change : PendingIncidentChange) (e : AlertSourceEvent (SourcePayload M)) : Prop :=
  e.sourceKind = .incidentChange ∧ ∃ row, incidents change.key = some row ∧
    row.key = change.key ∧ e.payload = .incident ⟨change.action, trigger, row⟩

/-- Every change gets its source event, in order. -/
theorem insertIncidentSourceEvents_spec (trigger : IncidentChangeTrigger)
    (changes : List PendingIncidentChange) {s : Archive M}
    (h : ∀ change ∈ changes, ∃ row, s.incidents change.key = some row ∧ row.key = change.key) :
    ∃ t new, insertIncidentSourceEvents trigger changes s = some t ∧
      t.incidents = s.incidents ∧ t.sourceEvents = s.sourceEvents ++ new ∧
      List.Forall₂ (Reports trigger s.incidents) changes new := by
  induction changes generalizing s with
  | nil => exact ⟨s, [], rfl, rfl, (List.append_nil _).symm, List.Forall₂.nil⟩
  | cons change changes ih =>
      rw [List.forall_mem_cons] at h
      obtain ⟨⟨row, hrow, hkey⟩, hrest⟩ := h
      obtain ⟨t, new, hinsert, hincidents, hevents, hall⟩ := ih
        (s := s.report .incidentChange (incidentSourceId change)
          (.incident ⟨change.action, trigger, row⟩) row.lastUpdatedAt) hrest
      refine ⟨t, newSourceEvent s.nextSourceEventId .incidentChange (incidentSourceId change)
        (.incident ⟨change.action, trigger, row⟩) row.lastUpdatedAt :: new, ?_, hincidents, ?_,
        List.Forall₂.cons ⟨rfl, row, hrow, hkey, rfl⟩ hall⟩
      · rw [insertIncidentSourceEvents, hrow]
        exact hinsert
      · rw [hevents]
        exact List.append_assoc _ _ _

theorem Reports.isAbout_iff {trigger : IncidentChangeTrigger} {incidents : Incidents}
    {change : PendingIncidentChange} {e : AlertSourceEvent (SourcePayload M)}
    (h : Reports trigger incidents change e) (key : IncidentKey) :
    decide (change.key = key) = true ↔ isAbout key e = true := by
  obtain ⟨hkind, row, -, hkey, hpayload⟩ := h
  unfold isAbout
  rw [hpayload, hkind, ← hkey]
  simp

/-- The source event for an incident among those of distinct changes. -/
theorem filter_isAbout {trigger : IncidentChangeTrigger} {incidents : Incidents}
    {changes : List PendingIncidentChange} {new : List (AlertSourceEvent (SourcePayload M))}
    (hall : List.Forall₂ (Reports trigger incidents) changes new)
    (hnodup : (changes.map PendingIncidentChange.key).Nodup) {key : IncidentKey}
    (hkey : key ∈ changes.map PendingIncidentChange.key) :
    ∃ e, new.filter (isAbout key) = [e] ∧
      reportedStatus e = (incidents key).map IncidentSummary.currentStatus := by
  -- one change is about the incident
  have hone : (changes.map PendingIncidentChange.key).filter (fun k => k = key) = [key] := by
    rw [List.filter_eq, List.count_eq_one_of_mem hnodup hkey, List.replicate_one]
  rw [List.filter_map, List.map_eq_singleton_iff] at hone
  obtain ⟨change, hchange, rfl⟩ := hone
  -- and so is one source event
  have hfilter := List.rel_filter (fun _ _ h => h.isAbout_iff change.key) hall
  have hsame : changes.filter (fun c => decide (c.key = change.key)) = [change] := hchange
  rw [hsame, List.forall₂_cons_left_iff] at hfilter
  obtain ⟨e, rest, ⟨-, row, hrow, -, hpayload⟩, hrest, hnew⟩ := hfilter
  refine ⟨e, ?_, ?_⟩
  · rw [hnew, List.forall₂_nil_left_iff.mp hrest]
  · rw [reportedStatus, hpayload, hrow]
    rfl

/-- **The outbox of a product.**  A product whose transaction commits leaves its own source
event and one for each incident whose row it wrote. -/
theorem persistProduct_spec (now : Time) (product : Product) (metadata : M) (s : Archive M) :
    ∃ e new, (persistProduct now product metadata s).incidents =
        (persist now product s.incidents).1 ∧
      (persistProduct now product metadata s).sourceEvents = s.sourceEvents ++ e :: new ∧
      e.payload = .product metadata ∧
      List.Forall₂ (Reports .persist (persist now product s.incidents).1)
        (persist now product s.incidents).2 new := by
  have hpersist := persist_eq now product s.incidents
  obtain ⟨time, htime⟩ := Option.isSome_iff_exists.mp product.storable
  obtain ⟨t, new, hinsert, hincidents, hevents, hall⟩ := insertIncidentSourceEvents_spec .persist
    (persist now product s.incidents).2
    (s := Archive.report { s with incidents := (persist now product s.incidents).1 }
      .productAvailable (Str.ofNat product.id) (.product metadata) time) (by
        intro change hchange
        show ∃ row, (persist now product s.incidents).1 change.key = some row ∧ _
        rw [hpersist] at hchange ⊢
        exact row_of_mem_changes (updates_keys_nodup product) hchange)
  have hresult : persistProduct now product metadata s = t := by
    show ((insertProductSourceEvent product metadata _).bind _).getD s = t
    rw [insertProductSourceEvent, htime, Option.map_some, Option.bind_some, hinsert,
      Option.getD_some]
  rw [hresult]
  exact ⟨_, new, hincidents, hevents.trans (List.append_assoc _ _ _), rfl, hall⟩

/-- A product reports what it changes. -/
theorem persist_statusReported (s : Archive M) (now : Time) (product : Product) (metadata : M) :
    StatusReported s (.persist now product metadata) := by
  rintro t ht key hne
  obtain rfl : persistProduct now product metadata s = t := Option.some.inj ht
  obtain ⟨e, new, hincidents, hevents, hpayload, hall⟩ :=
    persistProduct_spec now product metadata s
  have hpersist := persist_eq now product s.incidents
  unfold Archive.statusOf at hne ⊢
  rw [hincidents] at hne ⊢
  have hmem : key ∈ (persist now product s.incidents).2.map PendingIncidentChange.key := by
    rw [hpersist] at hne ⊢
    exact mem_changes_of_ne fun hsame => hne (by rw [hsame])
  have hnodup : ((persist now product s.incidents).2.map PendingIncidentChange.key).Nodup := by
    rw [hpersist]
    exact (updates_keys_nodup product).sublist (changes_keys_sublist _ _ _ _)
  have hproduct : isAbout key e = false := by
    unfold isAbout
    rw [hpayload]
  rw [hevents, List.drop_left, List.filter_cons_of_neg (by rw [hproduct]; exact Bool.false_ne_true)]
  exact filter_isAbout hall hnodup hmem

/-! ## Cleanup -/

/-- Cleanup changes a status exactly if it expires the row. -/
theorem expireActiveIncidents_status (now utcNow : Time) (incidents : Incidents)
    (key : IncidentKey) :
    (expireActiveIncidents now utcNow incidents key).map IncidentSummary.currentStatus =
        (incidents key).map IncidentSummary.currentStatus ↔
      ∀ row ∈ incidents key, row.isOver utcNow = false := by
  unfold expireActiveIncidents
  cases incidents key with
  | none => simp
  | some row =>
      cases hover : row.isOver utcNow with
      | false => simp [hover]
      | true =>
          have hactive : row.currentStatus = .active := by
            unfold IncidentSummary.isOver at hover
            rw [Bool.and_eq_true, beq_iff_eq] at hover
            exact hover.1
          simp [hover, hactive]

/-- Cleanup reports what it changes exactly if it changes nothing. -/
theorem expire_statusReported_iff (s : Archive M) (now utcNow : Time) :
    StatusReported s (.expire now utcNow) ↔ NothingExpires s (.expire now utcNow) := by
  have hnone : ((archiveStep s (.expire now utcNow)).getD s).sourceEvents.drop
      s.sourceEvents.length = [] := List.drop_length
  constructor
  · intro h key
    rw [← expireActiveIncidents_status now]
    by_contra hne
    obtain ⟨e, he, -⟩ := h _ rfl key hne
    exact List.cons_ne_nil e [] (he.symm.trans (congrArg (List.filter (isAbout key)) hnone))
  · rintro h t ht key hne
    obtain rfl := Option.some.inj ht
    exact absurd ((expireActiveIncidents_status now utcNow s.incidents key).mpr (h key)) hne

/-! ## Runs -/

/-- **Alerting sees incident changes.**  In every run of products and cleanups, every change of
a status has its source event if and only if no cleanup of the run expires a row. -/
theorem outbox_iff (s : Archive M) (run : List (ArchiveLabel M)) :
    Always archiveStep StatusReported s run ↔ Always archiveStep NothingExpires s run := by
  apply always_congr
  rintro s (⟨now, product, metadata⟩ | ⟨now, utcNow⟩)
  · exact ⟨fun _ => trivial, fun _ => persist_statusReported s now product metadata⟩
  · exact expire_statusReported_iff s now utcNow

/-- A warning that lasts an hour. -/
def shortWarning : Product where
  id := 1
  sourceTimestampUtc := 0
  vtec := [⟨"O".toList, "NEW".toList, "KDMX".toList, "TO".toList, "W".toList, 7, none,
    some (seconds 3600)⟩]
  storable := rfl

/-- The warning is persisted; cleanup two hours later expires it and alerting is not told. -/
theorem expiry_not_reported :
    ¬ Always archiveStep StatusReported (⟨fun _ => none, [], 1⟩ : Archive Unit)
      [.persist (seconds 0) shortWarning (), .expire (seconds 7200) (seconds 7200)] := by
  rintro ⟨-, h⟩
  obtain ⟨h, -⟩ := h _ rfl
  obtain ⟨e, he, -⟩ := h _ rfl ⟨"KDMX".toList, "TO".toList, "W".toList, 7⟩ (by decide +kernel)
  exact List.cons_ne_nil e [] he.symm

end Incident
