/-
# One bad rule or event

What a pass should do about faulty rules and events: pass them over, and do everything else
as if they were absent.  `isolatedEvents` is that behaviour.  The worker does it exactly if
the pass meets no fault at all: every error ends the pass, so that later rules and events
are not evaluated, the event at hand is not marked, and the delivery phase does not run.
-/
import Emwin.Alert.Pass
import Emwin.Alert.Uniqueness

open Incident

namespace Alert

section Isolation

variable {I V D : Type} (env : Env I V D) (p : Pass V)

/-! ## Faults -/

/-- The rule fails on the event: its criteria cannot be evaluated, or it matches and a
silence cannot be evaluated, its cooldown reaches before all times, or its templates cannot
be rendered when they are needed. -/
def Faults (t : Tables I V) (utcNow : Time) (event : AlertSourceEvent V) (metadata : Option D)
    (silences : List (AlertSilence I)) (rule : AlertRule I) : Prop :=
  (∃ e, eventMatchesCriteria env rule.criteria event metadata = .error e) ∨
  (eventMatchesCriteria env rule.criteria event metadata = .ok true ∧
    ((∃ e, matchingSilence env event metadata silences = .error e) ∨
    (matchingSilence env event metadata silences = .ok none ∧
      ((∃ e, inCooldown t utcNow rule event = .error e) ∨
      (inCooldown t utcNow rule event = .ok false ∧ ∃ e, renderRule env rule event = .error e)))))

/-- The rule fails exactly if its evaluation does. -/
theorem evaluateRule_error_iff {env : Env I V D} {t : Tables I V} {utcNow : Time}
    {event : AlertSourceEvent V} {metadata : Option D} {silences : List (AlertSilence I)}
    {rule : AlertRule I} :
    (∃ e, evaluateRule env t utcNow event metadata silences rule = .error e) ↔
      Faults env t utcNow event metadata silences rule := by
  unfold evaluateRule Faults
  rcases eventMatchesCriteria env rule.criteria event metadata with e | _ | _
  · simp
  · simp
  · rcases matchingSilence env event metadata silences with e | _ | silenceId
    · simp
    · rcases inCooldown t utcNow rule event with e | _ | _
      · simp
      · rcases renderRule env rule event with e | ⟨title, body⟩
        · simp
        · simp
      · simp
    · simp

/-! ## The pass that isolates faults -/

/-- What a rule does to the tables if faults are passed over. -/
def ruleEffect (event : AlertSourceEvent V) (metadata : Option D) (silences : List (AlertSilence I))
    (t : Tables I V) (rule : AlertRule I) : Tables I V :=
  match evaluateRule env t (p.cooldownAt event.id rule.id) event metadata silences rule with
  | .ok (.fire title body) => insertFiring p rule event title body t
  | _ => t

/-- All rules for an event, faults passed over. -/
def isolatedRules (event : AlertSourceEvent V) (metadata : Option D)
    (silences : List (AlertSilence I)) (rules : List (AlertRule I)) (t : Tables I V) : Tables I V :=
  rules.foldl (ruleEffect env p event metadata silences) t

/-- One event; it is passed over if it cannot be loaded. -/
def isolatedEvent (rules : AlertSourceKind → List (AlertRule I)) (t : Tables I V)
    (event : AlertSourceEvent V) : Tables I V :=
  match loadMetadata env t event with
  | .error _ => t
  | .ok metadata =>
      let t' := isolatedRules env p event metadata
        (listActiveAlertSilences (p.silencesAt event.id) t) (rules event.sourceKind) t
      match event.claimedAt with
      | none => t'
      | some claimedAt => markAlertSourceEventProcessed event.id claimedAt (p.markAt event.id) t'

/-- All events, faults passed over. -/
def isolatedEvents (rules : AlertSourceKind → List (AlertRule I))
    (events : List (AlertSourceEvent V)) (t : Tables I V) : Tables I V :=
  events.foldl (isolatedEvent env p rules) t

/-- No rule of the list fails on the event when its turn comes. -/
def RulesFaultFree (event : AlertSourceEvent V) (metadata : Option D)
    (silences : List (AlertSilence I)) : List (AlertRule I) → Tables I V → Prop
  | [], _ => True
  | rule :: rules, t =>
      ¬ Faults env t (p.cooldownAt event.id rule.id) event metadata silences rule ∧
        RulesFaultFree event metadata silences rules
          (ruleEffect env p event metadata silences t rule)

/-- Every event of the list can be loaded, and no rule fails on it. -/
def EventsFaultFree (rules : AlertSourceKind → List (AlertRule I)) :
    List (AlertSourceEvent V) → Tables I V → Prop
  | [], _ => True
  | event :: events, t =>
      (∃ metadata, loadMetadata env t event = .ok metadata ∧
        RulesFaultFree env p event metadata (listActiveAlertSilences (p.silencesAt event.id) t)
          (rules event.sourceKind) t) ∧
      EventsFaultFree rules events (isolatedEvent env p rules t event)

/-- The pass meets no fault. -/
def FaultFree (t : Tables I V) : Prop :=
  EventsFaultFree env p (enabledRules t) (claimBatch p t).2 (claimBatch p t).1

/-- The tables of the isolating pass before its delivery phase. -/
def isolatedPass (t : Tables I V) : Tables I V :=
  isolatedEvents env p (enabledRules t) (claimBatch p t).2 (claimBatch p t).1

/-- Evaluation is isolated in the pass over `t`. -/
structure Isolates (t : Tables I V) : Prop where
  /-- The pass comes to its end, past the delivery phase. -/
  completed : (runOnce env p t).2 = .ok ()
  /-- A rule and an event without fault, with a match and no silence, have their alert event,
  unless the rule is in its cooldown. -/
  alerts : ∀ event ∈ (claimBatch p t).2, ∀ metadata, loadMetadata env t event = .ok metadata →
    ∀ rule ∈ enabledRules t event.sourceKind,
      eventMatchesCriteria env rule.criteria event metadata = .ok true →
      matchingSilence env event metadata (listActiveAlertSilences (p.silencesAt event.id) t) =
        .ok none →
      (∃ texts, renderRule env rule event = .ok texts) →
      (∃ f ∈ (runOnce env p t).1.firings, f.event.deliveryKey = buildDeliveryKey rule.id event) ∨
      (0 < rule.triggerPolicy.cooldownSecs ∧ ∃ since,
        cooldownSince (p.cooldownAt event.id rule.id) rule.triggerPolicy.cooldownSecs =
          some since ∧
        ruleHasRecentAlertEvent rule.id event.sourceId since (runOnce env p t).1 = true)
  /-- An event that can be loaded is marked. -/
  processed : ∀ event ∈ (claimBatch p t).2, (∃ metadata, loadMetadata env t event = .ok metadata) →
    ∃ row ∈ (runOnce env p t).1.sourceEvents, row.id = event.id ∧ row.processedAt.isSome
  /-- The alert events are those of the pass that passes faults over. -/
  same_alerts : (runOnce env p t).1.firings = (isolatedPass env p t).firings
  /-- The delivery phase runs, on the attempts of these alert events. -/
  delivered : (runOnce env p t).1.deliveries =
    processDeliveryAttempts p.delivery (isolatedPass env p t).deliveries

/-! ## The loops -/

variable {env p}

/-- The loop over the rules, without a fault and with one. -/
theorem processRules_spec (env : Env I V D) (p : Pass V) (event : AlertSourceEvent V)
    (metadata : Option D) (silences : List (AlertSilence I)) (rules : List (AlertRule I))
    (t : Tables I V) :
    (RulesFaultFree env p event metadata silences rules t ∧
      processRules env p event metadata silences rules t =
        (isolatedRules env p event metadata silences rules t, .ok ())) ∨
    (¬ RulesFaultFree env p event metadata silences rules t ∧
      ∃ t' e, processRules env p event metadata silences rules t = (t', .error e)) := by
  induction rules generalizing t with
  | nil => exact Or.inl ⟨trivial, rfl⟩
  | cons rule rules ih =>
      rw [RulesFaultFree, ← evaluateRule_error_iff, isolatedRules, List.foldl_cons, ← isolatedRules,
        processRules, ruleEffect]
      rcases evaluateRule env t (p.cooldownAt event.id rule.id) event metadata silences rule with
        e | _ | silenceId | _ | ⟨title, body⟩
      · exact Or.inr ⟨fun h => h.1 ⟨e, rfl⟩, t, e, rfl⟩
      · simpa using ih t
      · simpa using ih t
      · simpa using ih t
      · simpa using ih (insertFiring p rule event title body t)

/-- The loop over the events, without a fault and with one. -/
theorem processEvents_spec (env : Env I V D) (p : Pass V)
    (rules : AlertSourceKind → List (AlertRule I)) (events : List (AlertSourceEvent V))
    (hclaimed : ∀ e ∈ events, e.claimedAt.isSome) (t : Tables I V) :
    (EventsFaultFree env p rules events t ∧
      processEvents env p rules events t = (isolatedEvents env p rules events t, .ok ())) ∨
    (¬ EventsFaultFree env p rules events t ∧
      ∃ t' e, processEvents env p rules events t = (t', .error e)) := by
  induction events generalizing t with
  | nil => exact Or.inl ⟨trivial, rfl⟩
  | cons event events ih =>
      obtain ⟨claimedAt, hclaim⟩ := Option.isSome_iff_exists.mp (hclaimed event List.mem_cons_self)
      rw [EventsFaultFree, isolatedEvents, List.foldl_cons, ← isolatedEvents]
      cases hload : loadMetadata env t event with
      | error e =>
          right
          refine ⟨?_, t, e, by simp only [processEvents, hload]⟩
          rintro ⟨⟨metadata, he, -⟩, -⟩
          cases he
      | ok metadata =>
          rcases processRules_spec env p event metadata
            (listActiveAlertSilences (p.silencesAt event.id) t) (rules event.sourceKind) t with
            ⟨hfree, hrun⟩ | ⟨hfault, t', e, hrun⟩
          · have hone : isolatedEvent env p rules t event =
                markAlertSourceEventProcessed event.id claimedAt (p.markAt event.id)
                  (isolatedRules env p event metadata
                    (listActiveAlertSilences (p.silencesAt event.id) t)
                    (rules event.sourceKind) t) := by
              simp only [isolatedEvent, hload, hclaim]
            have hstep : processEvents env p rules (event :: events) t =
                processEvents env p rules events (isolatedEvent env p rules t event) := by
              simp only [processEvents, hload, hrun, hclaim, hone]
            rw [hstep]
            rcases ih (fun e he => hclaimed e (List.mem_cons_of_mem _ he))
              (isolatedEvent env p rules t event) with ⟨hfree', hrun'⟩ | ⟨hfault', hrun'⟩
            · exact Or.inl ⟨⟨⟨metadata, rfl, hfree⟩, hfree'⟩, hrun'⟩
            · exact Or.inr ⟨fun h => hfault' h.2, hrun'⟩
          · right
            refine ⟨?_, t', e, by simp only [processEvents, hload, hrun]⟩
            rintro ⟨⟨metadata', he, hfree⟩, -⟩
            cases he
            exact hfault hfree

/-- Claimed events bear the time of the claim. -/
theorem claimedAt_of_mem_claimBatch {t : Tables I V} {e : AlertSourceEvent V}
    (he : e ∈ (claimBatch p t).2) :
    e ∈ (claimBatch p t).1.sourceEvents ∧ e.claimedAt = some p.now := by
  obtain ⟨hrow, hid⟩ := List.mem_filter.mp ((p.order.perm _).mem_iff.mp he)
  refine ⟨hrow, ?_⟩
  obtain ⟨row, -, rfl⟩ := List.mem_map.mp hrow
  unfold AlertSourceEvent.claimIn at hid ⊢
  split
  · rfl
  · next hnot =>
      rw [if_neg hnot] at hid
      exact absurd (of_decide_eq_true hid) hnot

/-! ## What the isolating pass leaves in place -/

/-- Alert events stay, and so does what the evaluation reads. -/
structure Extends (t t' : Tables I V) : Prop where
  firings : t.firings ⊆ t'.firings
  sources : ∀ f, sourceIdOf t' f = sourceIdOf t f
  products : t'.products = t.products
  silences : t'.silences = t.silences

theorem Extends.refl (t : Tables I V) : Extends t t :=
  ⟨List.Subset.refl _, fun _ => rfl, rfl, rfl⟩

theorem Extends.trans {t u v : Tables I V} (h : Extends t u) (h' : Extends u v) : Extends t v :=
  ⟨List.Subset.trans h.firings h'.firings, fun f => (h'.sources f).trans (h.sources f),
    h'.products.trans h.products, h'.silences.trans h.silences⟩

theorem extends_insertFiring (rule : AlertRule I) (event : AlertSourceEvent V) (title body : Str)
    (t : Tables I V) : Extends t (insertFiring p rule event title body t) := by
  unfold insertFiring insertAlertEventWithAttempts
  split
  · exact Extends.refl t
  · exact ⟨List.subset_append_left _ _, fun _ => rfl, rfl, rfl⟩

/-- Claims and marks change no source id. -/
theorem sourceIdOf_map {t : Tables I V} {g : AlertSourceEvent V → AlertSourceEvent V}
    (hg : ∀ e, (g e).identity = e.identity) (f : Firing I V) :
    sourceIdOf { t with sourceEvents := t.sourceEvents.map g } f = sourceIdOf t f := by
  have hid : ∀ e, (g e).id = e.id := fun e => congrArg Prod.fst (hg e)
  have hsource : ∀ e, (g e).sourceId = e.sourceId := fun e => congrArg (fun i => i.2.2) (hg e)
  unfold sourceIdOf
  rw [List.find?_map, Option.map_map]
  congr 1
  · funext e
    exact hsource e
  · congr 1
    funext e
    show ((g e).id == _) = _
    rw [hid]

theorem extends_mark (id : ℕ) (claimedAt now : Time) (t : Tables I V) :
    Extends t (markAlertSourceEventProcessed id claimedAt now t) :=
  ⟨List.Subset.refl _, sourceIdOf_map (identity_markIn id claimedAt now), rfl, rfl⟩

theorem extends_claimBatch (p : Pass V) (t : Tables I V) : Extends t (claimBatch p t).1 :=
  ⟨List.Subset.refl _, sourceIdOf_map (identity_claimIn _ p.now), rfl, rfl⟩

theorem extends_isolatedRules (event : AlertSourceEvent V) (metadata : Option D)
    (silences : List (AlertSilence I)) (rules : List (AlertRule I)) (t : Tables I V) :
    Extends t (isolatedRules env p event metadata silences rules t) := by
  induction rules generalizing t with
  | nil => exact Extends.refl t
  | cons rule rules ih =>
      rw [isolatedRules, List.foldl_cons, ← isolatedRules]
      refine Extends.trans ?_ (ih _)
      unfold ruleEffect
      split
      · exact extends_insertFiring rule event _ _ t
      · exact Extends.refl t

theorem extends_isolatedEvent (env : Env I V D) (p : Pass V)
    (rules : AlertSourceKind → List (AlertRule I)) (t : Tables I V) (event : AlertSourceEvent V) :
    Extends t (isolatedEvent env p rules t event) := by
  unfold isolatedEvent
  split
  · exact Extends.refl t
  · dsimp only
    split
    · exact extends_isolatedRules event _ _ _ t
    · exact (extends_isolatedRules event _ _ _ t).trans (extends_mark _ _ _ _)

theorem extends_isolatedEvents (rules : AlertSourceKind → List (AlertRule I))
    (events : List (AlertSourceEvent V)) (t : Tables I V) :
    Extends t (isolatedEvents env p rules events t) := by
  induction events generalizing t with
  | nil => exact Extends.refl t
  | cons event events ih =>
      exact (extends_isolatedEvent env p rules t event).trans (ih _)

/-- The rule has its alert event for the event, or is in its cooldown. -/
def Answered (p : Pass V) (event : AlertSourceEvent V) (rule : AlertRule I) (t : Tables I V) :
    Prop :=
  (∃ f ∈ t.firings, f.event.deliveryKey = buildDeliveryKey rule.id event) ∨
  (0 < rule.triggerPolicy.cooldownSecs ∧ ∃ since,
    cooldownSince (p.cooldownAt event.id rule.id) rule.triggerPolicy.cooldownSecs = some since ∧
    ruleHasRecentAlertEvent rule.id event.sourceId since t = true)

theorem Answered.extend {event : AlertSourceEvent V} {rule : AlertRule I} {t t' : Tables I V}
    (h : Answered p event rule t) (hext : Extends t t') : Answered p event rule t' := by
  rcases h with ⟨f, hf, hkey⟩ | ⟨hpos, since, hsince, hrecent⟩
  · exact Or.inl ⟨f, hext.firings hf, hkey⟩
  · refine Or.inr ⟨hpos, since, hsince, ?_⟩
    obtain ⟨f, hf, hmatch⟩ := List.any_eq_true.mp hrecent
    refine List.any_eq_true.mpr ⟨f, hext.firings hf, ?_⟩
    rw [hext.sources]
    exact hmatch

/-- A rule that does not fail, matches and is not silenced is answered. -/
theorem answered_ruleEffect {event : AlertSourceEvent V} {metadata : Option D}
    {silences : List (AlertSilence I)} {rule : AlertRule I} {t : Tables I V}
    (hfree : ¬ Faults env t (p.cooldownAt event.id rule.id) event metadata silences rule)
    (hmatch : eventMatchesCriteria env rule.criteria event metadata = .ok true)
    (hsilence : matchingSilence env event metadata silences = .ok none) :
    Answered p event rule (ruleEffect env p event metadata silences t rule) := by
  unfold Faults at hfree
  unfold ruleEffect evaluateRule
  simp only [hmatch, hsilence] at hfree ⊢
  cases hcool : inCooldown t (p.cooldownAt event.id rule.id) rule event with
  | error e => exact absurd (Or.inr ⟨trivial, Or.inr ⟨trivial, Or.inl ⟨e, hcool⟩⟩⟩) hfree
  | ok cooled =>
      cases cooled with
      | true =>
          right
          unfold inCooldown at hcool
          split at hcool
          · next hpos =>
              split at hcool
              · cases hcool
              · next since hsince => exact ⟨hpos, since, hsince, Except.ok.inj hcool⟩
          · cases hcool
      | false =>
          left
          cases hrender : renderRule env rule event with
          | error e =>
              exact absurd (Or.inr ⟨trivial, Or.inr ⟨trivial, Or.inr ⟨hcool, e, hrender⟩⟩⟩) hfree
          | ok texts =>
              show ∃ f ∈ (insertFiring p rule event texts.1 texts.2 t).firings, _
              unfold insertFiring insertAlertEventWithAttempts
              split
              · next htaken =>
                  obtain ⟨f, hf, hkey⟩ := List.any_eq_true.mp htaken
                  exact ⟨f, hf, beq_iff_eq.mp hkey⟩
              · exact ⟨_, List.mem_append_right _ List.mem_cons_self, rfl⟩

/-- All rules of a fault-free loop are answered. -/
theorem answered_isolatedRules {event : AlertSourceEvent V} {metadata : Option D}
    {silences : List (AlertSilence I)} {rules : List (AlertRule I)} {t : Tables I V}
    (hfree : RulesFaultFree env p event metadata silences rules t) {rule : AlertRule I}
    (hrule : rule ∈ rules)
    (hmatch : eventMatchesCriteria env rule.criteria event metadata = .ok true)
    (hsilence : matchingSilence env event metadata silences = .ok none) :
    Answered p event rule (isolatedRules env p event metadata silences rules t) := by
  induction rules generalizing t with
  | nil => cases hrule
  | cons r rules ih =>
      obtain ⟨hone, hrest⟩ := hfree
      rw [isolatedRules, List.foldl_cons, ← isolatedRules]
      rcases List.mem_cons.mp hrule with rfl | hrule
      · exact (answered_ruleEffect hone hmatch hsilence).extend
          (extends_isolatedRules event metadata silences rules _)
      · exact ih hrest hrule

/-- What an event does if it can be loaded. -/
theorem isolatedEvent_eq {rules : AlertSourceKind → List (AlertRule I)} {t : Tables I V}
    {event : AlertSourceEvent V} {metadata : Option D} {claimedAt : Time}
    (hload : loadMetadata env t event = .ok metadata) (hclaim : event.claimedAt = some claimedAt) :
    isolatedEvent env p rules t event =
      markAlertSourceEventProcessed event.id claimedAt (p.markAt event.id)
        (isolatedRules env p event metadata (listActiveAlertSilences (p.silencesAt event.id) t)
          (rules event.sourceKind) t) := by
  simp only [isolatedEvent, hload, hclaim]

/-- Metadata and silences are read from what a pass leaves in place. -/
theorem Extends.loadMetadata_eq {t t' : Tables I V} (h : Extends t t')
    (event : AlertSourceEvent V) : loadMetadata env t' event = loadMetadata env t event := by
  unfold loadMetadata
  rw [h.products]

theorem Extends.listActiveAlertSilences_eq {t t' : Tables I V} (h : Extends t t') (now : Time) :
    listActiveAlertSilences now t' = listActiveAlertSilences now t := by
  unfold listActiveAlertSilences
  rw [h.silences]

/-- All rules of all events of a fault-free pass are answered. -/
theorem answered_isolatedEvents {rules : AlertSourceKind → List (AlertRule I)}
    {events : List (AlertSourceEvent V)} {t : Tables I V}
    (hfree : EventsFaultFree env p rules events t) (hclaimed : ∀ e ∈ events, e.claimedAt.isSome)
    {event : AlertSourceEvent V} (hevent : event ∈ events) {metadata : Option D}
    (hload : loadMetadata env t event = .ok metadata) {rule : AlertRule I}
    (hrule : rule ∈ rules event.sourceKind)
    (hmatch : eventMatchesCriteria env rule.criteria event metadata = .ok true)
    (hsilence : matchingSilence env event metadata
      (listActiveAlertSilences (p.silencesAt event.id) t) = .ok none) :
    Answered p event rule (isolatedEvents env p rules events t) := by
  induction events generalizing t with
  | nil => cases hevent
  | cons first events ih =>
      obtain ⟨⟨metadata', hload', hrules⟩, hrest⟩ := hfree
      rw [isolatedEvents, List.foldl_cons, ← isolatedEvents]
      rcases List.mem_cons.mp hevent with rfl | hevent
      · obtain ⟨claimedAt, hclaim⟩ := Option.isSome_iff_exists.mp (hclaimed _ List.mem_cons_self)
        rw [hload] at hload'
        obtain rfl := Except.ok.inj hload'
        rw [isolatedEvent_eq hload hclaim]
        exact ((answered_isolatedRules hrules hrule hmatch hsilence).extend
          (extends_mark _ _ _ _)).extend (extends_isolatedEvents rules events _)
      · have hext := extends_isolatedEvent env p rules t first
        apply ih hrest (fun e he => hclaimed e (List.mem_cons_of_mem _ he)) hevent
        · rw [hext.loadMetadata_eq]
          exact hload
        · rw [hext.listActiveAlertSilences_eq]
          exact hsilence

/-! ## Marks -/

/-- The row of a claimed event. -/
def HasRow (event : AlertSourceEvent V) (q : AlertSourceEvent V → Prop) (t : Tables I V) : Prop :=
  ∃ row ∈ t.sourceEvents, row.id = event.id ∧ row.claimedAt = event.claimedAt ∧ q row

theorem sourceEvents_isolatedRules (event : AlertSourceEvent V) (metadata : Option D)
    (silences : List (AlertSilence I)) (rules : List (AlertRule I)) (t : Tables I V) :
    (isolatedRules env p event metadata silences rules t).sourceEvents = t.sourceEvents := by
  induction rules generalizing t with
  | nil => rfl
  | cons rule rules ih =>
      rw [isolatedRules, List.foldl_cons, ← isolatedRules, ih]
      unfold ruleEffect
      split
      · unfold insertFiring insertAlertEventWithAttempts
        split <;> rfl
      · rfl

/-- A row keeps its claim, and its mark once it has one. -/
theorem HasRow.isolatedEvent {event : AlertSourceEvent V} {q : AlertSourceEvent V → Prop}
    (hq : ∀ row now, q row → q { row with processedAt := some now })
    {rules : AlertSourceKind → List (AlertRule I)} {t : Tables I V} (h : HasRow event q t)
    (other : AlertSourceEvent V) : HasRow event q (isolatedEvent env p rules t other) := by
  have hmark : ∀ (u : Tables I V) id claimedAt now, HasRow event q u →
      HasRow event q (markAlertSourceEventProcessed id claimedAt now u) := by
    rintro u id claimedAt now ⟨row, hrow, hid, hclaim, hqrow⟩
    refine ⟨row.markIn id claimedAt now, List.mem_map_of_mem hrow, ?_⟩
    unfold AlertSourceEvent.markIn
    split
    · exact ⟨hid, hclaim, hq row now hqrow⟩
    · exact ⟨hid, hclaim, hqrow⟩
  have hrules : ∀ metadata silences rs, HasRow event q
      (isolatedRules env p other metadata silences rs t) := by
    intro metadata silences rs
    unfold HasRow
    rw [sourceEvents_isolatedRules]
    exact h
  unfold Alert.isolatedEvent
  split
  · exact h
  · dsimp only
    split
    · exact hrules _ _ _
    · exact hmark _ _ _ _ (hrules _ _ _)

theorem HasRow.isolatedEvents {event : AlertSourceEvent V} {q : AlertSourceEvent V → Prop}
    (hq : ∀ row now, q row → q { row with processedAt := some now })
    {rules : AlertSourceKind → List (AlertRule I)} (events : List (AlertSourceEvent V))
    {t : Tables I V} (h : HasRow event q t) :
    HasRow event q (isolatedEvents env p rules events t) := by
  induction events generalizing t with
  | nil => exact h
  | cons first events ih => exact ih (h.isolatedEvent hq first)

/-- All events of a fault-free pass are marked. -/
theorem processed_isolatedEvents {rules : AlertSourceKind → List (AlertRule I)}
    {events : List (AlertSourceEvent V)} {t : Tables I V}
    (hfree : EventsFaultFree env p rules events t) (hclaimed : ∀ e ∈ events, e.claimedAt.isSome)
    {event : AlertSourceEvent V} (hevent : event ∈ events) (hrow : HasRow event (fun _ => True) t) :
    HasRow event (fun row => row.processedAt.isSome) (isolatedEvents env p rules events t) := by
  induction events generalizing t with
  | nil => cases hevent
  | cons first events ih =>
      obtain ⟨⟨metadata, hload, -⟩, hrest⟩ := hfree
      rw [isolatedEvents, List.foldl_cons, ← isolatedEvents]
      rcases List.mem_cons.mp hevent with rfl | hevent
      · apply HasRow.isolatedEvents (fun _ _ _ => rfl)
        obtain ⟨claimedAt, hclaim⟩ := Option.isSome_iff_exists.mp (hclaimed _ List.mem_cons_self)
        obtain ⟨row, hmem, hid, hsame, -⟩ := hrow
        rw [isolatedEvent_eq hload hclaim]
        refine ⟨row.markIn event.id claimedAt (p.markAt event.id), List.mem_map_of_mem ?_, ?_⟩
        · rw [sourceEvents_isolatedRules]
          exact hmem
        · unfold AlertSourceEvent.markIn
          rw [if_pos ⟨hid, hsame.trans hclaim⟩]
          exact ⟨hid, hsame, rfl⟩
      · exact ih hrest (fun e he => hclaimed e (List.mem_cons_of_mem _ he)) hevent
          (hrow.isolatedEvent (fun _ _ _ => trivial) first)

/-! ## The pass -/

/-- **Isolation of faults.**  A pass is isolated against faulty rules and events if and only
if it meets no fault: every claimed event can be loaded, and no rule fails on an event. -/
theorem isolates_iff (env : Env I V D) (p : Pass V) (t : Tables I V) :
    Isolates env p t ↔ FaultFree env p t := by
  have hclaimed : ∀ e ∈ (claimBatch p t).2, e.claimedAt.isSome := by
    intro e he
    rw [(claimedAt_of_mem_claimBatch he).2]
    rfl
  have hext := extends_claimBatch p t
  rcases processEvents_spec env p (enabledRules t) (claimBatch p t).2 hclaimed
    (claimBatch p t).1 with ⟨hfree, hrun⟩ | ⟨hfault, t', e, hrun⟩
  · refine iff_of_true ?_ hfree
    have hpass : runOnce env p t = ({ isolatedPass env p t with
        deliveries := processDeliveryAttempts p.delivery (isolatedPass env p t).deliveries },
        .ok ()) := by
      rw [runOnce, processSourceEvents, hrun]
      rfl
    have hanswer : ∀ {event rule}, Answered p event rule (isolatedPass env p t) →
        Answered p event rule (runOnce env p t).1 := by
      intro event rule h
      rw [hpass]
      exact h.extend ⟨List.Subset.refl _, fun _ => rfl, rfl, rfl⟩
    refine ⟨?_, ?_, ?_, ?_, ?_⟩
    · rw [hpass]
    · intro event hevent metadata hload rule hrule hmatch hsilence _
      apply hanswer
      apply answered_isolatedEvents hfree hclaimed hevent _ hrule hmatch
      · rw [hext.listActiveAlertSilences_eq]
        exact hsilence
      · rw [hext.loadMetadata_eq]
        exact hload
    · intro event hevent _
      obtain ⟨row, hrow, hid, -, hprocessed⟩ := processed_isolatedEvents hfree hclaimed hevent
        ⟨event, (claimedAt_of_mem_claimBatch hevent).1, rfl, rfl, trivial⟩
      rw [hpass]
      exact ⟨row, hrow, hid, hprocessed⟩
    · rw [hpass]
    · rw [hpass]
  · refine iff_of_false ?_ hfault
    intro h
    have hend := h.completed
    rw [runOnce, processSourceEvents, hrun] at hend
    cases hend

end Isolation

/-! ## A rule that cannot be compiled -/

/-- Filter inputs that give a latitude or a longitude. -/
structure LatLonInput where
  lat : Option ℤ
  lon : Option ℤ
deriving DecidableEq, Repr

/-- Filters that want both coordinates or none, and then admit every product. -/
def latLonEnv : Env LatLonInput Unit Unit where
  tryFromInput input :=
    if input.lat.isSome ≠ input.lon.isSome then
      .error "lat and lon must be provided together".toList
    else .ok fun _ => true
  decodeIncidentChange _ := .error "invalid type".toList
  renderStr template _ := .ok template
  readBlob _ := .ok []
  buildCompletedFileMetadata _ _ _ _ := ()

/-- A rule with the given filter input. -/
def latLonRule (id : ℕ) (input : LatLonInput) : AlertRule LatLonInput where
  id := id
  name := "rule".toList
  enabled := true
  criteria := .productAvailable input
  triggerPolicy := ⟨0, none⟩
  template := ⟨"t".toList, "b".toList⟩
  targets := [⟨3, 0⟩]
  targets_nodup := oneTarget_nodup

/-- One pending event for product 5, and the rules. -/
def oneProduct (rules : List (AlertRule LatLonInput)) : Tables LatLonInput Unit :=
  { insertSourceEvent .productAvailable (productSourceId 5) () 0
      (Tables.empty : Tables LatLonInput Unit) with
    rules := rules, products := fiveOnly }

/-- A pass with an event batch of 32. -/
def plainPass : Pass Unit where
  now := 10
  leaseCutoff := 0
  sourceBatchSize := 32
  order := .plain
  silencesAt _ := 11
  cooldownAt _ _ := 12
  insertAt _ _ := 13
  markAt _ := 14
  delivery := ⟨1, 20, 0, 32, 4, .plain, fun _ => 21, fun _ => 21, fun _ => .delivered none none⟩

/-- Rule 1 has a latitude only.  Rule 2 matches every product and fires if it is alone, but
not after rule 1; the pass fails and evaluation is not isolated. -/
theorem bad_rule_not_isolated :
    ((runOnce latLonEnv plainPass (oneProduct [latLonRule 2 ⟨none, none⟩])).1.firings.map
      fun f => f.event.ruleId) = [2] ∧
    ((runOnce latLonEnv plainPass (oneProduct [latLonRule 1 ⟨some 41, none⟩,
      latLonRule 2 ⟨none, none⟩])).1.firings.map fun f => f.event.ruleId) = [] ∧
    ¬ Isolates latLonEnv plainPass
      (oneProduct [latLonRule 1 ⟨some 41, none⟩, latLonRule 2 ⟨none, none⟩]) := by
  refine ⟨by decide +kernel, by decide +kernel, ?_⟩
  intro h
  have hfailed : ((runOnce latLonEnv plainPass (oneProduct [latLonRule 1 ⟨some 41, none⟩,
      latLonRule 2 ⟨none, none⟩])).2).toBool = false := by decide +kernel
  rw [h.completed] at hfailed
  cases hfailed

end Alert
