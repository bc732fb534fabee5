/-
# Workers on source events

Any number of workers take the steps of `process_source_events`, each with at most one
database statement, in any order, over shared tables.  A worker may stop after every step;
an error stops its pass too.  Meanwhile the archive reports further source events, rules,
silences and products change, and delivery attempts are claimed and finalized.
-/
import Emwin.Alert.Store

open Incident

namespace Alert

section Workers

variable {I V D : Type}

/-- Where a worker is in its loops over claimed events and rules. -/
inductive Phase (I V D : Type) where
  /-- Before the next event. -/
  | next
  /-- The metadata of the event is loaded. -/
  | loadRules (event : AlertSourceEvent V) (metadata : Option D)
  /-- The rules for the event are at hand. -/
  | loadSilences (event : AlertSourceEvent V) (metadata : Option D) (rules : List (AlertRule I))
  /-- Before the next rule. -/
  | evaluate (event : AlertSourceEvent V) (metadata : Option D) (silences : List (AlertSilence I))
      (rules : List (AlertRule I))
  /-- The rule fires; `checked` is the number of alert events at the time of the cooldown
  check, which no step reads. -/
  | insert (event : AlertSourceEvent V) (metadata : Option D) (silences : List (AlertSilence I))
      (rule : AlertRule I) (title body : Str) (rules : List (AlertRule I)) (checked : ℕ)

/-- A worker: the rest of its batch, the rules it has read in this pass, and its phase. -/
structure Worker (I V D : Type) where
  batch : List (AlertSourceEvent V)
  qbtRules : Option (List (AlertRule I))
  incidentRules : Option (List (AlertRule I))
  phase : Phase I V D

/-- A worker between two passes. -/
def Worker.idle : Worker I V D := ⟨[], none, none, .next⟩

/-- The rules that a worker has read for a kind of event. -/
def Worker.cachedRules (worker : Worker I V D) : AlertSourceKind → Option (List (AlertRule I))
  | .productAvailable => worker.qbtRules
  | .incidentChange => worker.incidentRules

/-- A worker that keeps the rules it has read. -/
def Worker.cacheRules (worker : Worker I V D) (rules : List (AlertRule I)) :
    AlertSourceKind → Worker I V D
  | .productAvailable => { worker with qbtRules := some rules }
  | .incidentChange => { worker with incidentRules := some rules }

/-- The tables and the workers. -/
structure System (I V D : Type) where
  tables : Tables I V
  workers : ℕ → Worker I V D

/-- No rows, and no worker busy. -/
def System.empty : System I V D := ⟨.empty, fun _ => .idle⟩

/-- The system after a step of one worker. -/
def System.put (s : System I V D) (w : ℕ) (tables : Tables I V) (worker : Worker I V D) :
    System I V D :=
  ⟨tables, Function.update s.workers w worker⟩

@[simp] theorem System.put_tables (s : System I V D) (w : ℕ) (tables : Tables I V)
    (worker : Worker I V D) : (s.put w tables worker).tables = tables := rfl

@[simp] theorem System.put_workers_self (s : System I V D) (w : ℕ) (tables : Tables I V)
    (worker : Worker I V D) : (s.put w tables worker).workers w = worker := by
  show Function.update s.workers w worker w = worker
  rw [Function.update_self]

@[simp] theorem System.put_workers_of_ne (s : System I V D) {v w : ℕ} (h : v ≠ w)
    (tables : Tables I V) (worker : Worker I V D) :
    (s.put w tables worker).workers v = s.workers v := by
  show Function.update s.workers w worker v = s.workers v
  rw [Function.update_of_ne h]

/-- The steps of the system. -/
inductive Label (I V D : Type) where
  /-- The archive reports a product or an incident change. -/
  | report (kind : AlertSourceKind) (sourceId : Str) (payload : V) (sourceTimestamp : Time)
  /-- Rules, silences and products change. -/
  | configure (rules : List (AlertRule I)) (silences : List (AlertSilence I))
      (products : ℤ → Option ProductRow)
  /-- A delivery worker takes a step. -/
  | deliver (maxDeliveryAttempts : ℕ) (l : DeliveryLabel)
  | claim (w : ℕ) (now leaseCutoff : Time) (locked : List ℕ) (limit : ℕ)
      (order : IterationOrder (AlertSourceEvent V))
  | loadMetadata (w : ℕ)
  | loadRules (w : ℕ)
  | loadSilences (w : ℕ) (utcNow : Time)
  | evaluate (w : ℕ) (utcNow : Time)
  | insert (w : ℕ) (now : Time)
  | mark (w : ℕ) (now : Time)
  | crash (w : ℕ)

variable (env : Env I V D)

/-- The metadata that the loop over the rules sees. -/
def loadMetadata (t : Tables I V) (event : AlertSourceEvent V) : Except AlertError (Option D) :=
  match event.sourceKind with
  | .productAvailable =>
      match loadProductMetadataForSourceEvent env t.products event with
      | .error e => .error e
      | .ok metadata => .ok (some metadata)
  | .incidentChange => .ok none

/-- The worker after its rule was evaluated; an error ends the pass. -/
def afterEvaluation (worker : Worker I V D) (event : AlertSourceEvent V) (metadata : Option D)
    (silences : List (AlertSilence I)) (rule : AlertRule I) (rules : List (AlertRule I))
    (checked : ℕ) : Except AlertError Verdict → Worker I V D
  | .error _ => .idle
  | .ok (.fire title body) =>
      { worker with phase := .insert event metadata silences rule title body rules checked }
  | .ok _ => { worker with phase := .evaluate event metadata silences rules }

/-- One step of the system. -/
def step (s : System I V D) : Label I V D → Option (System I V D)
  | .report kind sourceId payload sourceTimestamp =>
      some { s with tables := insertSourceEvent kind sourceId payload sourceTimestamp s.tables }
  | .configure rules silences products =>
      some { s with
        tables := { s.tables with rules := rules, silences := silences, products := products } }
  | .deliver maxDeliveryAttempts l =>
      -- rows are created together with their alert event only
      if l.isCreate then none
      else (deliveryStep maxDeliveryAttempts s.tables.deliveries l).map fun deliveries =>
        { s with tables := { s.tables with deliveries := deliveries } }
  | .claim w now leaseCutoff locked limit order =>
      match s.workers w with
      | ⟨[], _, _, .next⟩ =>
          let r := claimPendingAlertSourceEvents now leaseCutoff locked limit order s.tables
          some (s.put w r.1 { Worker.idle with batch := r.2 })
      | _ => none
  | .loadMetadata w =>
      match s.workers w with
      | ⟨event :: batch, qbtRules, incidentRules, .next⟩ =>
          match loadMetadata env s.tables event with
          | .error _ => some (s.put w s.tables .idle)
          | .ok metadata =>
              some (s.put w s.tables ⟨batch, qbtRules, incidentRules, .loadRules event metadata⟩)
      | _ => none
  | .loadRules w =>
      let worker := s.workers w
      match worker.phase with
      | .loadRules event metadata =>
          -- rules are read once in a pass for each kind of event
          let rules := (worker.cachedRules event.sourceKind).getD
            (listEnabledAlertRules event.sourceKind s.tables)
          some (s.put w s.tables { worker.cacheRules rules event.sourceKind with
            phase := .loadSilences event metadata rules })
      | _ => none
  | .loadSilences w utcNow =>
      let worker := s.workers w
      match worker.phase with
      | .loadSilences event metadata rules =>
          some (s.put w s.tables { worker with
            phase := .evaluate event metadata (listActiveAlertSilences utcNow s.tables) rules })
      | _ => none
  | .evaluate w utcNow =>
      let worker := s.workers w
      match worker.phase with
      | .evaluate event metadata silences (rule :: rules) =>
          some (s.put w s.tables (afterEvaluation worker event metadata silences rule rules
            s.tables.firings.length
              (evaluateRule env s.tables utcNow event metadata silences rule)))
      | _ => none
  | .insert w now =>
      let worker := s.workers w
      match worker.phase with
      | .insert event metadata silences rule title body rules _ =>
          some (s.put w
            (insertAlertEventWithAttempts now rule event.id (buildDeliveryKey rule.id event) title
              body event.payload s.tables)
            { worker with phase := .evaluate event metadata silences rules })
      | _ => none
  | .mark w now =>
      let worker := s.workers w
      match worker.phase with
      | .evaluate event _ _ [] =>
          match event.claimedAt with
          | none => some (s.put w s.tables .idle)
          | some claimedAt =>
              some (s.put w (markAlertSourceEventProcessed event.id claimedAt now s.tables)
                { worker with phase := .next })
      | _ => none
  | .crash w => some (s.put w s.tables .idle)

/-! ## What a step can do -/

/-- The event that a phase is about. -/
def Phase.event? : Phase I V D → Option (AlertSourceEvent V)
  | .next => none
  | .loadRules event _ => some event
  | .loadSilences event _ _ => some event
  | .evaluate event _ _ _ => some event
  | .insert event _ _ _ _ _ _ _ => some event

/-- The events that a worker has claimed and not finished. -/
def Worker.held (worker : Worker I V D) : List (AlertSourceEvent V) :=
  worker.phase.event?.toList ++ worker.batch

/-- The step `l` brings a worker to `worker` and writes nothing: the worker holds no further
events, and it comes to an insert only by an evaluation whose cooldown check passed. -/
structure Reads (s : System I V D) (l : Label I V D) (w : ℕ) (worker : Worker I V D) : Prop where
  held : worker.held ⊆ (s.workers w).held
  fires : ∀ event metadata silences rule title body rules checked,
    worker.phase = .insert event metadata silences rule title body rules checked →
      ∃ utcNow, l = .evaluate w utcNow ∧ checked = s.tables.firings.length ∧
        inCooldown s.tables utcNow rule event = .ok false

/-- A pass that ends reads nothing. -/
theorem reads_idle (s : System I V D) (l : Label I V D) (w : ℕ) : Reads s l w .idle where
  held := List.nil_subset _
  fires := by
    intro event metadata silences rule title body rules checked h
    cases h

/-- A rule that fires has passed the cooldown check. -/
theorem inCooldown_of_fire {env : Env I V D} {t : Tables I V} {utcNow : Time}
    {event : AlertSourceEvent V} {metadata : Option D} {silences : List (AlertSilence I)}
    {rule : AlertRule I} {title body : Str}
    (h : evaluateRule env t utcNow event metadata silences rule = .ok (.fire title body)) :
    inCooldown t utcNow rule event = .ok false := by
  unfold evaluateRule at h
  split at h
  · cases h
  · cases h
  · split at h
    · cases h
    · cases h
    · split at h
      · cases h
      · cases h
      · next hcooldown => exact hcooldown

/-- What an insert does. -/
theorem step_insert {env : Env I V D} {s t : System I V D} {w : ℕ} {now : Time}
    (h : step env s (.insert w now) = some t) :
    ∃ event metadata silences rule title body rules checked,
      (s.workers w).phase = .insert event metadata silences rule title body rules checked ∧
      t = s.put w
        (insertAlertEventWithAttempts now rule event.id (buildDeliveryKey rule.id event) title
          body event.payload s.tables)
        { s.workers w with phase := .evaluate event metadata silences rules } := by
  rw [step] at h
  split at h
  · next event metadata silences rule title body rules checked hphase =>
      exact ⟨event, metadata, silences, rule, title, body, rules, checked, hphase,
        (Option.some.inj h).symm⟩
  · cases h

section Reading

variable {env : Env I V D} {s t : System I V D} {w : ℕ} {utcNow : Time}

/-- A step that loads metadata writes nothing. -/
theorem step_loadMetadata (h : step env s (.loadMetadata w) = some t) :
    ∃ worker, Reads s (.loadMetadata w) w worker ∧ t = s.put w s.tables worker := by
  rw [step] at h
  split at h
  · next event batch qbtRules incidentRules hworker =>
      split at h
      · exact ⟨.idle, reads_idle s _ w, (Option.some.inj h).symm⟩
      · refine ⟨_, ⟨?_, ?_⟩, (Option.some.inj h).symm⟩
        · rw [hworker]
          exact List.Subset.refl _
        · intro event metadata silences rule title body rules checked hphase
          cases hphase
  · cases h

/-- A step that loads rules writes nothing. -/
theorem step_loadRules (h : step env s (.loadRules w) = some t) :
    ∃ worker, Reads s (.loadRules w) w worker ∧ t = s.put w s.tables worker := by
  rw [step] at h
  split at h
  · next event metadata hphase =>
      refine ⟨_, ⟨?_, ?_⟩, (Option.some.inj h).symm⟩
      · unfold Worker.held
        rw [hphase]
        cases event.sourceKind <;> exact List.Subset.refl _
      · intro event metadata silences rule title body rules checked hinsert
        cases hinsert
  · cases h

/-- A step that loads silences writes nothing. -/
theorem step_loadSilences (h : step env s (.loadSilences w utcNow) = some t) :
    ∃ worker, Reads s (.loadSilences w utcNow) w worker ∧ t = s.put w s.tables worker := by
  rw [step] at h
  split at h
  · next event metadata rules hphase =>
      refine ⟨_, ⟨?_, ?_⟩, (Option.some.inj h).symm⟩
      · unfold Worker.held
        rw [hphase]
        exact List.Subset.refl _
      · intro event metadata silences rule title body rules checked hinsert
        cases hinsert
  · cases h

/-- An evaluation writes nothing, and it leads to an insert only if its cooldown check passed. -/
theorem step_evaluate (h : step env s (.evaluate w utcNow) = some t) :
    ∃ worker, Reads s (.evaluate w utcNow) w worker ∧ t = s.put w s.tables worker := by
  rw [step] at h
  split at h
  · next event metadata silences rule rules hphase =>
      refine ⟨_, ⟨?_, ?_⟩, (Option.some.inj h).symm⟩
      · unfold Worker.held
        rw [hphase]
        unfold afterEvaluation
        split
        · exact List.nil_subset _
        · exact List.Subset.refl _
        · exact List.Subset.refl _
      · intro event' metadata' silences' rule' title body rules' checked hinsert
        unfold afterEvaluation at hinsert
        split at hinsert
        · cases hinsert
        · next heval =>
            cases hinsert
            exact ⟨utcNow, rfl, rfl, inCooldown_of_fire heval⟩
        · cases hinsert
  · cases h

end Reading

/-- **What a step can do.**  It changes the tables from outside, or it claims, reads, inserts
or marks for one worker. -/
theorem step_cases {env : Env I V D} {s t : System I V D} {l : Label I V D}
    (h : step env s l = some t) :
    (∃ kind sourceId payload sourceTimestamp,
      t = { s with tables := insertSourceEvent kind sourceId payload sourceTimestamp s.tables }) ∨
    (∃ rules silences products, t = { s with
      tables := { s.tables with rules := rules, silences := silences, products := products } }) ∨
    (∃ n dl deliveries, DeliveryLabel.isCreate dl = false ∧
      deliveryStep n s.tables.deliveries dl = some deliveries ∧
      t = { s with tables := { s.tables with deliveries := deliveries } }) ∨
    (∃ w now leaseCutoff locked limit order,
      t = s.put w (claimPendingAlertSourceEvents now leaseCutoff locked limit order s.tables).1
        { Worker.idle with batch :=
          (claimPendingAlertSourceEvents now leaseCutoff locked limit order s.tables).2 }) ∨
    (∃ w worker, Reads s l w worker ∧ t = s.put w s.tables worker) ∨
    (∃ w now event metadata silences rule title body rules checked,
      l = .insert w now ∧
      (s.workers w).phase = .insert event metadata silences rule title body rules checked ∧
      t = s.put w
        (insertAlertEventWithAttempts now rule event.id (buildDeliveryKey rule.id event) title
          body event.payload s.tables)
        { s.workers w with phase := .evaluate event metadata silences rules }) ∨
    (∃ w now event metadata silences claimedAt,
      (s.workers w).phase = .evaluate event metadata silences [] ∧
      t = s.put w (markAlertSourceEventProcessed event.id claimedAt now s.tables)
        { s.workers w with phase := .next }) := by
  cases l with
  | report kind sourceId payload sourceTimestamp =>
      exact Or.inl ⟨kind, sourceId, payload, sourceTimestamp, (Option.some.inj h).symm⟩
  | configure rules silences products =>
      exact Or.inr (Or.inl ⟨rules, silences, products, (Option.some.inj h).symm⟩)
  | deliver n dl =>
      refine Or.inr (Or.inr (Or.inl ?_))
      rw [step] at h
      split at h
      · cases h
      · next hcreate =>
          obtain ⟨d, hd, rfl⟩ := Option.map_eq_some_iff.mp h
          exact ⟨n, dl, d, Bool.not_eq_true _ ▸ hcreate, hd, rfl⟩
  | claim w now leaseCutoff locked limit order =>
      rw [step] at h
      split at h
      · exact Or.inr (Or.inr (Or.inr (Or.inl ⟨w, now, leaseCutoff, locked, limit, order,
          (Option.some.inj h).symm⟩)))
      · cases h
  | crash w =>
      exact Or.inr (Or.inr (Or.inr (Or.inr (Or.inl ⟨w, .idle, reads_idle s _ w,
        (Option.some.inj h).symm⟩))))
  | loadMetadata w =>
      exact Or.inr (Or.inr (Or.inr (Or.inr (Or.inl ⟨w, step_loadMetadata h⟩))))
  | loadRules w =>
      exact Or.inr (Or.inr (Or.inr (Or.inr (Or.inl ⟨w, step_loadRules h⟩))))
  | loadSilences w utcNow =>
      exact Or.inr (Or.inr (Or.inr (Or.inr (Or.inl ⟨w, step_loadSilences h⟩))))
  | evaluate w utcNow =>
      exact Or.inr (Or.inr (Or.inr (Or.inr (Or.inl ⟨w, step_evaluate h⟩))))
  | insert w now =>
      obtain ⟨event, metadata, silences, rule, title, body, rules, checked, hphase, ht⟩ :=
        step_insert h
      exact Or.inr (Or.inr (Or.inr (Or.inr (Or.inr (Or.inl ⟨w, now, event, metadata, silences, rule,
        title, body, rules, checked, rfl, hphase, ht⟩)))))
  | mark w now =>
      rw [step] at h
      split at h
      · next event metadata silences hphase =>
          split at h
          · exact Or.inr (Or.inr (Or.inr (Or.inr (Or.inl ⟨w, .idle, reads_idle s _ w,
              (Option.some.inj h).symm⟩))))
          · next claimedAt hclaim =>
              exact Or.inr (Or.inr (Or.inr (Or.inr (Or.inr (Or.inr ⟨w, now, event, metadata,
                silences, claimedAt, hphase, (Option.some.inj h).symm⟩)))))
      · cases h

end Workers

end Alert
