/-
# The times of incidents

A code may leave the beginning or the end of its event unspecified.  Within a product such a
code does not hide what the other codes say, but the upsert writes the times of the product over
those of the row: a newer product that leaves a time unspecified takes it from the row.  Cleanup
passes over rows without an end, so such an incident stays active.

What is known of the times is kept throughout a run exactly if no product of it does that
(`incident_times_iff`).
-/
import Emwin.Incident.ArrivalOrder
import Emwin.Incident.Outbox
import Emwin.Parser.SlashCodes

open Transition

namespace Incident

variable {M : Type}

/-! ## Times -/

/-- The times of an incident. -/
inductive IncidentTime where
  | begins
  | ends
deriving DecidableEq, Repr

/-- A time of a code. -/
def ProductVtecRow.time (vtec : ProductVtecRow) : IncidentTime → Option Time
  | .begins => vtec.beginUtc
  | .ends => vtec.endUtc

/-- A time of what the codes of a product say. -/
def IncidentAccumulator.time (which : IncidentTime) (entry : IncidentAccumulator) : Option Time :=
  match which with
  | .begins => entry.startUtc
  | .ends => entry.endUtc

/-- A time of an update. -/
def PreparedIncidentUpdate.time (update : PreparedIncidentUpdate) : IncidentTime → Option Time
  | .begins => update.startUtc
  | .ends => update.endUtc

/-- A time of a row. -/
def IncidentSummary.time (row : IncidentSummary) : IncidentTime → Option Time
  | .begins => row.startUtc
  | .ends => row.endUtc

/-- `push_vtec_row`. -/
def pushVtecRow (vtec : Parser.VtecCode) : ProductVtecRow where
  status := [vtec.status]
  action := vtec.action
  office := vtec.office
  phenomena := vtec.phenomena
  significance := [vtec.significance]
  etn := vtec.etn
  beginUtc := vtec.beginTime.map (· / 1000)
  endUtc := vtec.endTime.map (· / 1000)

/-- An operational code of the product gives the incident a time. -/
def Product.GivesTime (product : Product) (key : IncidentKey) (which : IncidentTime) : Prop :=
  ∃ vtec ∈ product.vtec, vtec.status = "O".toList ∧ vtec.key = key ∧ (vtec.time which).isSome

/-- Codes of one incident leave a time unspecified if all of them do. -/
theorem isSome_time_foldl (which : IncidentTime) (rows : List ProductVtecRow) (key : IncidentKey)
    (m : OrderedMap IncidentKey IncidentAccumulator) :
    (((rows.foldl group m).lookup key).bind (IncidentAccumulator.time which)).isSome ↔
      ((m.lookup key).bind (IncidentAccumulator.time which)).isSome ∨
        ∃ vtec ∈ rows, vtec.key = key ∧ (vtec.time which).isSome := by
  have hfirst : ∀ vtec, ((IncidentAccumulator.first vtec).time which).isSome ↔
      (vtec.time which).isSome := fun _ => by cases which <;> exact Iff.rfl
  refine isSome_field_foldl hfirst (fun entry vtec => ?_) rows key m
  cases which with
  | begins =>
      show (minOptionDatetime entry.startUtc vtec.beginUtc).isSome ↔
        entry.startUtc.isSome ∨ vtec.beginUtc.isSome
      cases entry.startUtc <;> cases vtec.beginUtc <;> simp [minOptionDatetime]
  | ends =>
      show (maxOptionDatetime entry.endUtc vtec.endUtc).isSome ↔
        entry.endUtc.isSome ∨ vtec.endUtc.isSome
      cases entry.endUtc <;> cases vtec.endUtc <;> simp [maxOptionDatetime]

/-- The update of a product has the times that its codes give. -/
theorem isSome_time_updateFor {product : Product} {key : IncidentKey} {u : PreparedIncidentUpdate}
    (hu : product.updateFor key = some u) (which : IncidentTime) :
    (u.time which).isSome ↔ product.GivesTime key which := by
  obtain ⟨entry, hentry, rfl⟩ := Option.map_eq_some_iff.mp hu
  have htime : (IncidentAccumulator.toUpdate product.issuedAt (key, entry)).time which =
      ((groupVtec product.vtec).lookup key).bind (IncidentAccumulator.time which) := by
    rw [hentry]
    cases which <;> rfl
  unfold Product.GivesTime
  rw [htime, groupVtec, isSome_time_foldl]
  simp [and_assoc]

/-! ## What a step keeps -/

/-- What is known of the times of incidents stays known. -/
def TimesKept (s t : Archive M) : Prop :=
  ∀ key, ∀ row ∈ s.incidents key, ∃ row' ∈ t.incidents key,
    ∀ which, (row.time which).isSome → (row'.time which).isSome

theorem TimesKept.refl (s : Archive M) : TimesKept s s :=
  fun _ row hrow => ⟨row, hrow, fun _ h => h⟩

theorem TimesKept.trans {s t u : Archive M} (h : TimesKept s t) (h' : TimesKept t u) :
    TimesKept s u := by
  intro key row hrow
  obtain ⟨row', hrow', hkept⟩ := h key row hrow
  obtain ⟨row'', hrow'', hkept'⟩ := h' key row' hrow'
  exact ⟨row'', hrow'', fun which hknown => hkept' which (hkept which hknown)⟩

/-- A product that leaves a time of an older row unspecified leaves the known one there. -/
def UnspecifiedKept (s : Archive M) : ArchiveLabel M → Prop
  | .persist now product metadata => ∀ key, ∀ row ∈ s.incidents key, product.Mentions key →
      row.latestProductTimestampUtc < product.issuedAt →
        ∀ which, ¬ product.GivesTime key which → ∀ time, row.time which = some time →
          ∃ row' ∈ (persistProduct now product metadata s).incidents key,
            row'.time which = some time
  | .expire _ _ => True

/-- The step is no product that leaves a known time of a row that it replaces unspecified. -/
def GivesKnownTimes (s : Archive M) : ArchiveLabel M → Prop
  | .persist _ product _ => ∀ key, ∀ row ∈ s.incidents key, product.Mentions key →
      row.latestProductTimestampUtc ≤ product.issuedAt →
        ∀ which, (row.time which).isSome → product.GivesTime key which
  | .expire _ _ => True

/-- The row of an incident after a product. -/
theorem persistProduct_row (now : Time) (product : Product) (metadata : M) (s : Archive M)
    (key : IncidentKey) : (persistProduct now product metadata s).incidents key =
      persistRow (fun _ => now) key (s.incidents key) product := by
  obtain ⟨e, new, hincidents, -⟩ := persistProduct_spec now product metadata s
  rw [hincidents, persist_apply]
  rfl

/-- A row that a product replaces has the times that the product gives. -/
theorem time_persistProduct (now : Time) {product : Product} (metadata : M) {s : Archive M}
    {key : IncidentKey} {row : IncidentSummary} (hrow : s.incidents key = some row)
    (hmentions : product.Mentions key) (hnewer : row.latestProductTimestampUtc ≤ product.issuedAt) :
    ∃ row', (persistProduct now product metadata s).incidents key = some row' ∧
      ∀ which, (row'.time which).isSome ↔ product.GivesTime key which := by
  obtain ⟨u, hu⟩ := Option.isSome_iff_exists.mp ((isSome_updateFor product key).mpr hmentions)
  obtain ⟨row', hrow', htime⟩ : ∃ row', persistRow (fun _ => now) key (some row) product =
      some row' ∧ ∀ which, row'.time which = u.time which :=
    ⟨_, persistRow_newer hu hnewer, fun which => by cases which <;> rfl⟩
  refine ⟨row', ?_, fun which => ?_⟩
  · rw [persistProduct_row, hrow, hrow']
  · rw [htime, isSome_time_updateFor hu]

/-- **Products.**  A product keeps what is known exactly if it gives the known times. -/
theorem persist_timesKept_iff (now : Time) (product : Product) (metadata : M) (s : Archive M) :
    TimesKept s (persistProduct now product metadata s) ↔
      GivesKnownTimes s (.persist now product metadata) := by
  constructor
  · intro h key row hrow hmentions hnewer which hknown
    obtain ⟨row', hrow', hkept⟩ := h key row hrow
    obtain ⟨written, hwritten, htimes⟩ := time_persistProduct now metadata hrow hmentions
      hnewer
    obtain rfl : written = row' := Option.some.inj (hwritten.symm.trans hrow')
    exact (htimes which).mp (hkept which hknown)
  · intro h key row hrow
    by_cases hreplaced : product.Mentions key ∧ row.latestProductTimestampUtc ≤ product.issuedAt
    · obtain ⟨hmentions, hnewer⟩ := hreplaced
      obtain ⟨row', hrow', htimes⟩ := time_persistProduct now metadata hrow hmentions hnewer
      exact ⟨row', hrow', fun which hknown =>
        (htimes which).mpr (h key row hrow hmentions hnewer which hknown)⟩
    · refine ⟨row, ?_, fun _ hknown => hknown⟩
      rw [persistProduct_row, hrow]
      exact persistRow_older fun hmentions => not_le.mp fun hle => hreplaced ⟨hmentions, hle⟩

/-- Cleanup keeps all times. -/
theorem expire_timesKept (now utcNow : Time) (s : Archive M) :
    TimesKept s { s with incidents := expireActiveIncidents now utcNow s.incidents } := by
  intro key row hrow
  refine ⟨_, Option.mem_map.mpr ⟨row, hrow, rfl⟩, fun which hknown => ?_⟩
  split
  · cases which <;> exact hknown
  · exact hknown

/-- A row with an end is expired by every cleanup after it. -/
def Expirable (incidents : Incidents) (key : IncidentKey) : Prop :=
  ∃ endUtc, ∀ now utcNow, endUtc < utcNow →
    ∀ row ∈ expireActiveIncidents now utcNow incidents key, row.currentStatus ≠ .active

theorem expirable_of_endUtc {incidents : Incidents} {key : IncidentKey} {row : IncidentSummary}
    (hrow : incidents key = some row) (hend : row.endUtc.isSome) : Expirable incidents key := by
  obtain ⟨endUtc, hend⟩ := Option.isSome_iff_exists.mp hend
  refine ⟨endUtc, fun now utcNow hpast row' hrow' => ?_⟩
  unfold expireActiveIncidents at hrow'
  rw [hrow] at hrow'
  obtain rfl := Option.some.inj hrow'
  dsimp only
  split
  · exact IncidentStatus.noConfusion
  · next hover =>
      intro hactive
      simp [IncidentSummary.isOver, hactive, hend, hpast] at hover

/-! ## Runs -/

/-- **Incident times.**  In every run of products and cleanups, what is known of the times of
incidents stays known, and an incident with an end can be expired from then on, if and only if
every product gives the known times of the rows that it replaces. -/
theorem incident_times_iff (s : Archive M) (run : List (ArchiveLabel M)) :
    (Always archiveStep UnspecifiedKept s run ∧
      ∀ front part t u, front ++ part <+: run → exec archiveStep s front = some t →
        exec archiveStep t part = some u → TimesKept t u ∧
          ∀ key, ∀ row ∈ t.incidents key, row.endUtc.isSome → Expirable u.incidents key) ↔
      Always archiveStep GivesKnownTimes s run := by
  have hsteps : Always archiveStep
      (fun s l => ∀ t, archiveStep s l = some t → TimesKept s t) s run ↔
      Always archiveStep GivesKnownTimes s run := by
    apply always_congr
    rintro s (⟨now, product, metadata⟩ | ⟨now, utcNow⟩)
    · rw [← persist_timesKept_iff now product metadata s]
      exact ⟨fun h => h _ rfl, fun h t ht => Option.some.inj ht ▸ h⟩
    · exact ⟨fun _ => trivial, fun _ t ht => Option.some.inj ht ▸ expire_timesKept now utcNow s⟩
  rw [← hsteps, ← forall_part_iff_always TimesKept.refl TimesKept.trans]
  constructor
  · intro h front part t u hprefix ht hu
    exact (h.2 front part t u hprefix ht hu).1
  · intro h
    refine ⟨?_, fun front part t u hprefix ht hu => ?_⟩
    · -- no product of the run leaves a known time unspecified
      rw [forall_part_iff_always TimesKept.refl TimesKept.trans, hsteps] at h
      refine h.imp (P := fun _ => True) (fun _ _ _ _ _ _ => trivial) ?_ trivial
      rintro s (⟨now, product, metadata⟩ | ⟨now, utcNow⟩) - hgives
      · intro key row hrow hmentions hnewer which hunspecified time htime
        exact absurd (hgives key row hrow hmentions hnewer.le which
          (by rw [htime]; rfl)) hunspecified
      · trivial
    · have hkept := h front part t u hprefix ht hu
      refine ⟨hkept, fun key row hrow hend => ?_⟩
      obtain ⟨row', hrow', htimes⟩ := hkept key row hrow
      exact expirable_of_endUtc hrow' (htimes .ends hend)

/-! ## A warning that never ends -/

/-- The key of a flash flood warning. -/
def floodKey : IncidentKey := ⟨"KOAX".toList, "FF".toList, "W".toList, 3001⟩

/-- A warning from noon to six. -/
def floodWarning : Product where
  id := 1
  sourceTimestampUtc := 1741175200
  vtec := [pushVtecRow ⟨'O', "NEW".toList, "KOAX".toList, "FF".toList, 'W', 3001,
    some 1741176000000000000, some 1741197600000000000⟩]
  storable := rfl

/-- Five minutes later the warning is continued with its times unspecified. -/
def floodContinued : Product where
  id := 2
  sourceTimestampUtc := 1741175500
  vtec := (Parser.parseVtecCodes (fun _ => none)
    "/O.CON.KOAX.FF.W.3001.000000T0000Z-000000T0000Z/".toList).map pushVtecRow
  storable := rfl

/-- The tables before the warning. -/
def emptyArchive : Archive Unit := ⟨fun _ => none, [], 1⟩

/-- The tables after the warning. -/
def afterWarning : Archive Unit :=
  persistProduct (seconds 1741175201) floodWarning () emptyArchive

/-- The tables after its continuation. -/
def afterContinued : Archive Unit :=
  persistProduct (seconds 1741175501) floodContinued () afterWarning

/-- The continuation takes the end from the row of an active incident, and so no cleanup
expires it. -/
theorem end_time_forgotten :
    (∃ row ∈ afterWarning.incidents floodKey, row.endUtc = some 1741197600000000) ∧
    (∃ row ∈ afterContinued.incidents floodKey, row.endUtc = none ∧
      row.currentStatus = .active ∧ ∀ utcNow, row.isOver utcNow = false) ∧
    ¬ UnspecifiedKept afterWarning (.persist (seconds 1741175501) floodContinued ()) ∧
    ¬ TimesKept afterWarning afterContinued := by
  have hbefore : (afterWarning.incidents floodKey).map (fun row =>
      (row.endUtc, row.latestProductTimestampUtc)) =
        some (some 1741197600000000, 1741175200000000) := by decide +kernel
  have hafter : (afterContinued.incidents floodKey).map (fun row =>
      (row.endUtc, row.currentStatus)) = some (none, .active) := by decide +kernel
  obtain ⟨row, hrow, hvalues⟩ := Option.map_eq_some_iff.mp hbefore
  obtain ⟨hend, htimestamp⟩ := Prod.mk.inj hvalues
  obtain ⟨row', hrow', hvalues'⟩ := Option.map_eq_some_iff.mp hafter
  obtain ⟨hend', hactive⟩ := Prod.mk.inj hvalues'
  refine ⟨⟨row, hrow, hend⟩, ⟨row', hrow', hend', hactive, fun utcNow => ?_⟩, fun h => ?_,
    fun h => ?_⟩
  · rw [IncidentSummary.isOver, hend', Option.any_none, Bool.and_false]
  · have hunspecified : ¬ floodContinued.GivesTime floodKey .ends := by
      rintro ⟨vtec, hvtec, -, -, hknown⟩
      have hnone : ∀ vtec ∈ floodContinued.vtec, vtec.endUtc = none := by decide +kernel
      rw [ProductVtecRow.time, hnone vtec hvtec] at hknown
      cases hknown
    obtain ⟨written, hwritten, hkept⟩ := h floodKey row hrow (by decide +kernel)
      (by rw [htimestamp]; decide +kernel) .ends hunspecified _ hend
    obtain rfl : written = row' := Option.some.inj (hwritten.symm.trans hrow')
    rw [IncidentSummary.time, hend'] at hkept
    cases hkept
  · obtain ⟨written, hwritten, hkept⟩ := h floodKey row hrow
    obtain rfl : written = row' := Option.some.inj (hwritten.symm.trans hrow')
    have hknown := hkept .ends (by rw [IncidentSummary.time, hend]; rfl)
    rw [IncidentSummary.time, hend'] at hknown
    cases hknown

end Incident
