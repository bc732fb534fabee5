/-
# At most one alert for a match

A source event may be processed by several workers, and several times by one, since claims
run out and workers stop between an insert and the mark.  What makes alerts unique is the
delivery key: it is a function of the rule and of what identifies the source event, and the
insert does nothing where the key is taken.  The delivery attempts of an alert event are
inserted with it, one for each target of the rule version at hand, and no other step adds,
removes or redirects one.
-/
import Emwin.Alert.Workers
import Emwin.Alert.DeliveryProtocol

open Incident Transition

namespace Alert

/-- If elements with the property agree on something that is distinct for all elements,
there is at most one of them. -/
theorem length_filter_le_one {α β : Type*} {l : List α} {p : α → Bool} {g : α → β}
    (hnodup : (l.map g).Nodup) (h : ∀ a ∈ l, ∀ b ∈ l, p a = true → p b = true → g a = g b) :
    (l.filter p).length ≤ 1 := by
  have hsub : ((l.filter p).map g).Nodup := hnodup.sublist (List.filter_sublist.map g)
  have hmem : ∀ a ∈ l.filter p, a ∈ l ∧ p a = true := fun a ha => List.mem_filter.mp ha
  rcases hl : l.filter p with _ | ⟨a, _ | ⟨b, rest⟩⟩
  · exact Nat.zero_le 1
  · exact Nat.le_refl 1
  · rw [hl] at hsub hmem
    obtain ⟨ha, hpa⟩ := hmem a (by simp)
    obtain ⟨hb, hpb⟩ := hmem b (by simp)
    have hne : g a ≠ g b := by
      intro he
      rw [List.map_cons, List.map_cons, he, List.nodup_cons] at hsub
      exact hsub.1 List.mem_cons_self
    exact absurd (h a ha b hb hpa hpb) hne

section Uniqueness

variable {I V D : Type}

/-! ## What identifies a source event -/

/-- The columns of a source event that never change. -/
def AlertSourceEvent.identity (e : AlertSourceEvent V) : ℕ × AlertSourceKind × Str :=
  (e.id, e.sourceKind, e.sourceId)

/-- The identities of all source events. -/
def Tables.identities (t : Tables I V) : List (ℕ × AlertSourceKind × Str) :=
  t.sourceEvents.map AlertSourceEvent.identity

/-- Events with the same identity have the same delivery key. -/
theorem buildDeliveryKey_congr {e e' : AlertSourceEvent V} (ruleId : ℕ)
    (h : e.identity = e'.identity) : buildDeliveryKey ruleId e = buildDeliveryKey ruleId e' := by
  unfold AlertSourceEvent.identity at h
  rw [Prod.mk.injEq, Prod.mk.injEq] at h
  obtain ⟨hid, hkind, hsource⟩ := h
  unfold buildDeliveryKey
  rw [hid, hkind, hsource]

/-- Product events with the same source id have the same delivery key. -/
theorem buildDeliveryKey_product {e e' : AlertSourceEvent V} (ruleId : ℕ)
    (he : e.sourceKind = .productAvailable) (he' : e'.sourceKind = .productAvailable)
    (h : e.sourceId = e'.sourceId) : buildDeliveryKey ruleId e = buildDeliveryKey ruleId e' := by
  unfold buildDeliveryKey
  rw [he, he', h]

@[simp] theorem identity_claimIn (ids : List ℕ) (now : Time) (e : AlertSourceEvent V) :
    (e.claimIn ids now).identity = e.identity := by
  unfold AlertSourceEvent.claimIn
  split <;> rfl

@[simp] theorem identity_markIn (id : ℕ) (claimedAt now : Time) (e : AlertSourceEvent V) :
    (e.markIn id claimedAt now).identity = e.identity := by
  unfold AlertSourceEvent.markIn
  split <;> rfl

/-! ## Attempts and the alert events they belong to -/

/-- The alert event and the contact point of each delivery attempt. -/
def DeliveryState.links (d : DeliveryState) : List (ℕ × ℕ) :=
  d.attempts.map fun a => (a.row.alertEventId, a.row.contactPointId)

theorem links_insertAttempts (now : Time) (id : ℕ) (key : Str) (targets : List AlertRuleTarget)
    (d : DeliveryState) : (insertAttempts now id key targets d).links =
      d.links ++ targets.map fun target => (id, target.contactPointId) := by
  induction targets generalizing d with
  | nil => exact (List.append_nil d.links).symm
  | cons target targets ih =>
      rw [insertAttempts, ih]
      unfold DeliveryState.links
      rw [List.map_append, List.append_assoc]
      rfl

/-- A step of a delivery worker redirects no attempt. -/
theorem links_deliveryStep {n : ℕ} {d d' : DeliveryState} {l : DeliveryLabel}
    (hcreate : l.isCreate = false) (h : deliveryStep n d l = some d') : d'.links = d.links := by
  rcases deliveryStep_cases h with ⟨now, id, key, targets, rfl, -⟩ |
    ⟨worker, now, leaseCutoff, locked, limit, order, -, rfl⟩ |
    ⟨worker, now, utcNow, dispatch, copy, rest, claimedAt, -, -, -, rfl⟩ | ⟨worker, rfl⟩
  · cases hcreate
  · show ((d.attempts.map _).map _) = _
    rw [List.map_map]
    apply List.map_congr_left
    intro a _
    show ((a.claimIn _ worker now).row.alertEventId, (a.claimIn _ worker now).row.contactPointId)
      = _
    unfold TrackedAttempt.claimIn
    split <;> rfl
  · show ((d.attempts.map _).map _) = _
    rw [List.map_map]
    apply List.map_congr_left
    intro a _
    show ((a.updateIn _ now).row.alertEventId, (a.updateIn _ now).row.contactPointId) = _
    unfold TrackedAttempt.updateIn
    split <;> rfl
  · rfl

/-! ## The invariant -/

/-- What holds of the tables. -/
structure TablesOk (t : Tables I V) : Prop where
  sources_nodup : (t.identities.map Prod.fst).Nodup
  sources_lt : ∀ i ∈ t.identities, i.1 < t.nextSourceEventId
  keyed : ∀ f ∈ t.firings, f.rule.id = f.event.ruleId ∧ ∃ e ∈ t.sourceEvents,
    e.id = f.event.sourceEventId ∧ f.event.deliveryKey = buildDeliveryKey f.event.ruleId e
  keys_nodup : (t.firings.map fun f => f.event.deliveryKey).Nodup
  events_nodup : (t.firings.map fun f => f.event.id).Nodup
  events_lt : ∀ f ∈ t.firings, f.event.id < t.nextEventId
  fanout : ∀ f ∈ t.firings, (t.deliveries.links.filter fun l => l.1 == f.event.id).map Prod.snd =
    f.rule.targets.map AlertRuleTarget.contactPointId
  no_orphan : ∀ l ∈ t.deliveries.links, ∃ f ∈ t.firings, f.event.id = l.1

/-- What holds in every reachable state: moreover workers hold copies of source events. -/
structure SystemOk (s : System I V D) : Prop where
  tables_ok : TablesOk s.tables
  held : ∀ w, ∀ e ∈ (s.workers w).held, e.identity ∈ s.tables.identities

/-- The invariant looks at what identifies source events, at the alert events and at the
links of attempts. -/
theorem TablesOk.congr {t t' : Tables I V} (h : TablesOk t) (hids : t'.identities = t.identities)
    (hnext : t'.nextSourceEventId = t.nextSourceEventId) (hfirings : t'.firings = t.firings)
    (hnextEvent : t'.nextEventId = t.nextEventId)
    (hlinks : t'.deliveries.links = t.deliveries.links) : TablesOk t' where
  sources_nodup := by rw [hids]; exact h.sources_nodup
  sources_lt := by rw [hids, hnext]; exact h.sources_lt
  keyed := by
    intro f hf
    rw [hfirings] at hf
    obtain ⟨hrule, e, he, hid, hkey⟩ := h.keyed f hf
    have hmem : e.identity ∈ t'.identities := by
      rw [hids]
      exact List.mem_map_of_mem he
    obtain ⟨e', he', hsame⟩ := List.mem_map.mp hmem
    refine ⟨hrule, e', he', ?_, ?_⟩
    · rw [← hid]
      exact congrArg Prod.fst hsame
    · rw [hkey, buildDeliveryKey_congr _ hsame]
  keys_nodup := by rw [hfirings]; exact h.keys_nodup
  events_nodup := by rw [hfirings]; exact h.events_nodup
  events_lt := by rw [hfirings, hnextEvent]; exact h.events_lt
  fanout := by rw [hfirings, hlinks]; exact h.fanout
  no_orphan := by rw [hfirings, hlinks]; exact h.no_orphan

theorem TablesOk.empty : TablesOk (Tables.empty : Tables I V) where
  sources_nodup := List.nodup_nil
  sources_lt := by intro i hi; cases hi
  keyed := by intro f hf; cases hf
  keys_nodup := List.nodup_nil
  events_nodup := List.nodup_nil
  events_lt := by intro f hf; cases hf
  fanout := by intro f hf; cases hf
  no_orphan := by intro l hl; cases hl

/-- A new source event keeps the invariant. -/
theorem insertSourceEvent_ok {t : Tables I V} (h : TablesOk t) (kind : AlertSourceKind)
    (sourceId : Str) (payload : V) (sourceTimestamp : Time) :
    TablesOk (insertSourceEvent kind sourceId payload sourceTimestamp t) := by
  have hids : (insertSourceEvent kind sourceId payload sourceTimestamp t).identities =
      t.identities ++ [(t.nextSourceEventId, kind, sourceId)] := List.map_append
  refine ⟨?_, ?_, ?_, h.keys_nodup, h.events_nodup, h.events_lt, h.fanout, h.no_orphan⟩
  · rw [hids, List.map_append, List.nodup_append]
    refine ⟨h.sources_nodup, List.nodup_singleton _, ?_⟩
    rintro x hx y hy rfl
    obtain ⟨i, hi, rfl⟩ := List.mem_map.mp hx
    have heq : i.1 = t.nextSourceEventId := List.mem_singleton.mp hy
    exact absurd (h.sources_lt i hi) (by rw [heq]; exact lt_irrefl _)
  · intro i hi
    show i.1 < t.nextSourceEventId + 1
    rw [hids] at hi
    rcases List.mem_append.mp hi with hi | hi
    · exact Nat.lt_succ_of_lt (h.sources_lt i hi)
    · obtain rfl := List.mem_singleton.mp hi
      exact Nat.lt_succ_self _
  · intro f hf
    obtain ⟨hrule, e, he, hid, hkey⟩ := h.keyed f hf
    exact ⟨hrule, e, List.mem_append_left _ he, hid, hkey⟩

/-- An insert for an event of the table keeps the invariant. -/
theorem insertAlertEvent_ok {t : Tables I V} (h : TablesOk t) {e : AlertSourceEvent V}
    (he : e.identity ∈ t.identities) (now : Time) (rule : AlertRule I) (title body : Str)
    (payload : V) :
    TablesOk (insertAlertEventWithAttempts now rule e.id (buildDeliveryKey rule.id e) title body
      payload t) := by
  unfold insertAlertEventWithAttempts
  split
  · exact h
  · next hfresh =>
      have hkeyfresh : ∀ f ∈ t.firings, f.event.deliveryKey ≠ buildDeliveryKey rule.id e := by
        intro f hf heq
        exact hfresh (List.any_eq_true.mpr ⟨f, hf, beq_iff_eq.mpr heq⟩)
      have hidfresh : ∀ f ∈ t.firings, f.event.id ≠ t.nextEventId := fun f hf =>
        ne_of_lt (h.events_lt f hf)
      refine ⟨h.sources_nodup, h.sources_lt, ?_, ?_, ?_, ?_, ?_, ?_⟩
      · intro f hf
        rcases List.mem_append.mp hf with hf | hf
        · exact h.keyed f hf
        · obtain rfl := List.mem_singleton.mp hf
          obtain ⟨e', he', hsame⟩ := List.mem_map.mp he
          refine ⟨rfl, e', he', congrArg Prod.fst hsame, ?_⟩
          exact (buildDeliveryKey_congr rule.id hsame).symm
      · rw [List.map_append, List.nodup_append]
        refine ⟨h.keys_nodup, List.nodup_singleton _, ?_⟩
        rintro x hx y hy rfl
        obtain ⟨f, hf, rfl⟩ := List.mem_map.mp hx
        exact hkeyfresh f hf (List.mem_singleton.mp hy)
      · rw [List.map_append, List.nodup_append]
        refine ⟨h.events_nodup, List.nodup_singleton _, ?_⟩
        rintro x hx y hy rfl
        obtain ⟨f, hf, rfl⟩ := List.mem_map.mp hx
        exact hidfresh f hf (List.mem_singleton.mp hy)
      · intro f hf
        show f.event.id < t.nextEventId + 1
        rcases List.mem_append.mp hf with hf | hf
        · exact Nat.lt_succ_of_lt (h.events_lt f hf)
        · obtain rfl := List.mem_singleton.mp hf
          exact Nat.lt_succ_self _
      · -- the old attempts belong to old alert events, the new ones to the new one
        intro f hf
        show ((insertAttempts now t.nextEventId _ rule.targets t.deliveries).links.filter _).map _
          = _
        rw [links_insertAttempts, List.filter_append, List.map_append]
        rcases List.mem_append.mp hf with hf | hf
        · have hnone : (rule.targets.map fun target =>
              (t.nextEventId, target.contactPointId)).filter
              (fun l => l.1 == f.event.id) = [] := by
            apply List.filter_eq_nil_iff.mpr
            intro l hl
            obtain ⟨target, -, rfl⟩ := List.mem_map.mp hl
            exact fun heq => hidfresh f hf (beq_iff_eq.mp heq).symm
          rw [hnone, List.map_nil, List.append_nil]
          exact h.fanout f hf
        · obtain rfl := List.mem_singleton.mp hf
          have hold : t.deliveries.links.filter (fun l => l.1 == t.nextEventId) = [] := by
            apply List.filter_eq_nil_iff.mpr
            intro l hl heq
            obtain ⟨f, hf, hfl⟩ := h.no_orphan l hl
            exact hidfresh f hf (hfl.trans (beq_iff_eq.mp heq))
          have hnew : (rule.targets.map fun target => (t.nextEventId, target.contactPointId)).filter
              (fun l => l.1 == t.nextEventId) =
              rule.targets.map fun target => (t.nextEventId, target.contactPointId) := by
            apply List.filter_eq_self.mpr
            intro l hl
            obtain ⟨target, -, rfl⟩ := List.mem_map.mp hl
            exact beq_iff_eq.mpr rfl
          show ((t.deliveries.links.filter (fun l => l.1 == t.nextEventId)).map Prod.snd ++ _) = _
          rw [hold, hnew, List.map_nil, List.nil_append, List.map_map]
          rfl
      · intro l hl
        rw [links_insertAttempts] at hl
        rcases List.mem_append.mp hl with hl | hl
        · obtain ⟨f, hf, hfl⟩ := h.no_orphan l hl
          exact ⟨f, List.mem_append_left _ hf, hfl⟩
        · obtain ⟨target, -, rfl⟩ := List.mem_map.mp hl
          exact ⟨_, List.mem_append_right _ List.mem_cons_self, rfl⟩

/-! ## Steps and runs -/

/-- The workers after a step of one of them. -/
theorem SystemOk.put {s : System I V D} (h : SystemOk s) (w : ℕ) {tables : Tables I V}
    {worker : Worker I V D} (htables : TablesOk tables)
    (hids : ∀ i ∈ s.tables.identities, i ∈ tables.identities)
    (hworker : ∀ e ∈ worker.held, e.identity ∈ tables.identities) :
    SystemOk (s.put w tables worker) := by
  refine ⟨htables, ?_⟩
  intro v e he
  rw [System.put_tables]
  rcases eq_or_ne v w with rfl | hne
  · rw [System.put_workers_self] at he
    exact hworker e he
  · rw [System.put_workers_of_ne s hne] at he
    exact hids _ (h.held v e he)

/-- The identities after a claim or a mark. -/
theorem identities_map {t : Tables I V} {g : AlertSourceEvent V → AlertSourceEvent V}
    (hg : ∀ e, (g e).identity = e.identity) :
    ({ t with sourceEvents := t.sourceEvents.map g } : Tables I V).identities = t.identities := by
  show (t.sourceEvents.map g).map _ = _
  rw [List.map_map]
  exact List.map_congr_left fun e _ => hg e

/-- The source events of the table after a claim or a mark. -/
theorem TablesOk.map {t : Tables I V} (h : TablesOk t) {g : AlertSourceEvent V → AlertSourceEvent V}
    (hg : ∀ e, (g e).identity = e.identity) :
    TablesOk { t with sourceEvents := t.sourceEvents.map g } :=
  h.congr (identities_map hg) rfl rfl rfl rfl

/-- Every step keeps the invariant. -/
theorem step_ok {env : Env I V D} {s t : System I V D} {l : Label I V D} (h : SystemOk s)
    (hstep : step env s l = some t) : SystemOk t := by
  rcases step_cases hstep with ⟨kind, sourceId, payload, sourceTimestamp, rfl⟩ |
    ⟨rules, silences, products, rfl⟩ | ⟨n, dl, deliveries, hcreate, hd, rfl⟩ |
    ⟨w, now, leaseCutoff, locked, limit, order, rfl⟩ | ⟨w, worker, hreads, rfl⟩ |
    ⟨w, now, event, metadata, silences, rule, title, body, rules, checked, -, hphase, rfl⟩ |
    ⟨w, now, event, metadata, silences, claimedAt, hphase, rfl⟩
  · refine ⟨insertSourceEvent_ok h.tables_ok kind sourceId payload sourceTimestamp, ?_⟩
    intro w e he
    have hmem := h.held w e he
    unfold Tables.identities insertSourceEvent
    rw [List.map_append]
    exact List.mem_append_left _ hmem
  · exact ⟨h.tables_ok.congr rfl rfl rfl rfl rfl, h.held⟩
  · exact ⟨h.tables_ok.congr rfl rfl rfl rfl (links_deliveryStep hcreate hd), h.held⟩
  · have hids := identities_map (t := s.tables)
      (identity_claimIn (pendingIds leaseCutoff locked limit s.tables.sourceEvents) now)
    apply h.put w (h.tables_ok.map (identity_claimIn _ now))
    · intro i hi
      rw [hids]
      exact hi
    · -- the batch consists of rows of the table
      intro e he
      have hrow := List.mem_of_mem_filter ((order.perm _).mem_iff.mp he)
      exact List.mem_map_of_mem hrow
  · apply h.put w h.tables_ok fun i hi => hi
    intro e he
    exact h.held w e (hreads.held he)
  · have hevent : event.identity ∈ s.tables.identities := by
      apply h.held w
      unfold Worker.held
      rw [hphase]
      exact List.mem_cons_self
    have hids : (insertAlertEventWithAttempts now rule event.id (buildDeliveryKey rule.id event)
        title body event.payload s.tables).identities = s.tables.identities := by
      unfold insertAlertEventWithAttempts
      split <;> rfl
    apply h.put w (insertAlertEvent_ok h.tables_ok hevent now rule title body event.payload)
    · intro i hi
      rw [hids]
      exact hi
    · intro e he
      rw [hids]
      apply h.held w
      unfold Worker.held at he ⊢
      rw [hphase]
      exact he
  · have hids := identities_map (t := s.tables) (identity_markIn event.id claimedAt now)
    apply h.put w (h.tables_ok.map (identity_markIn event.id claimedAt now))
    · intro i hi
      rw [hids]
      exact hi
    · intro e he
      rw [hids]
      apply h.held w
      unfold Worker.held at he ⊢
      exact List.mem_append_right _ he

/-- Every reachable state meets the invariant. -/
theorem system_reachable {env : Env I V D} {run : List (Label I V D)} {s : System I V D}
    (h : exec (step env) .empty run = some s) : SystemOk s := by
  apply exec_invariant (fun _ _ _ hs hstep => step_ok hs hstep) h
  exact ⟨TablesOk.empty, by intro w e he; cases he⟩

/-- The source event that an alert event was created for. -/
theorem TablesOk.key_of_source {t : Tables I V} (h : TablesOk t) {f : Firing I V}
    (hf : f ∈ t.firings) {e : AlertSourceEvent V} (he : e ∈ t.sourceEvents)
    (hid : e.id = f.event.sourceEventId) :
    f.event.deliveryKey = buildDeliveryKey f.event.ruleId e := by
  obtain ⟨-, e', he', hid', hkey⟩ := h.keyed f hf
  have hsame : e'.identity = e.identity :=
    List.inj_on_of_nodup_map h.sources_nodup (List.mem_map_of_mem he') (List.mem_map_of_mem he)
      (hid'.trans hid.symm)
  rw [hkey, buildDeliveryKey_congr _ hsame]

/-- The attempts of an alert event at a contact point. -/
def attemptsAt (t : Tables I V) (alertEventId contactPointId : ℕ) : List TrackedAttempt :=
  t.deliveries.attempts.filter fun a =>
    decide (a.row.alertEventId = alertEventId ∧ a.row.contactPointId = contactPointId)

/-- Each alert event has one attempt for each target of its rule version. -/
theorem TablesOk.length_attemptsAt {t : Tables I V} (h : TablesOk t) {f : Firing I V}
    (hf : f ∈ t.firings) (contactPointId : ℕ) :
    (attemptsAt t f.event.id contactPointId).length =
      if contactPointId ∈ f.rule.targets.map AlertRuleTarget.contactPointId then 1 else 0 := by
  have hcount : (attemptsAt t f.event.id contactPointId).length =
      ((t.deliveries.links.filter fun l => l.1 == f.event.id).map Prod.snd).count
        contactPointId := by
    unfold attemptsAt DeliveryState.links
    rw [← List.countP_eq_length_filter, List.count, List.countP_map, List.countP_filter,
      List.countP_map]
    apply List.countP_congr
    intro a _
    simp [and_comm]
  rw [hcount, h.fanout f hf, List.Nodup.count f.rule.targets_nodup]

/-- **At most one alert for a match.**  In every reachable state there is at most one alert
event for a rule and a source event; for product events at most one for a rule and a source
id, in particular for the source id of a product; each alert event has exactly one delivery
attempt for each contact point that was a target of the rule version it was created from,
and none for others; and every delivery attempt has its alert event. -/
theorem alerts_unique {env : Env I V D} {run : List (Label I V D)} {s : System I V D}
    (h : exec (step env) .empty run = some s) :
    (∀ ruleId sourceEventId, (s.tables.firings.filter fun f =>
      decide (f.event.ruleId = ruleId ∧ f.event.sourceEventId = sourceEventId)).length ≤ 1) ∧
    (∀ ruleId sourceId, (s.tables.firings.filter fun f => decide (f.event.ruleId = ruleId ∧
      ∃ e ∈ s.tables.sourceEvents, e.id = f.event.sourceEventId ∧
        e.sourceKind = .productAvailable ∧ e.sourceId = sourceId)).length ≤ 1) ∧
    (∀ ruleId productId, (s.tables.firings.filter fun f => decide (f.event.ruleId = ruleId ∧
      ∃ e ∈ s.tables.sourceEvents, e.id = f.event.sourceEventId ∧
        e.sourceKind = .productAvailable ∧ e.sourceId = productSourceId productId)).length ≤ 1) ∧
    (∀ f ∈ s.tables.firings, f.rule.id = f.event.ruleId ∧ ∀ contactPointId,
      (attemptsAt s.tables f.event.id contactPointId).length =
        if contactPointId ∈ f.rule.targets.map AlertRuleTarget.contactPointId then 1 else 0) ∧
    (∀ a ∈ s.tables.deliveries.attempts, ∃ f ∈ s.tables.firings,
      f.event.id = a.row.alertEventId) := by
  have hs := (system_reachable h).tables_ok
  have hproduct : ∀ ruleId sourceId, (s.tables.firings.filter fun f =>
      decide (f.event.ruleId = ruleId ∧ ∃ e ∈ s.tables.sourceEvents,
        e.id = f.event.sourceEventId ∧ e.sourceKind = .productAvailable ∧
          e.sourceId = sourceId)).length ≤ 1 := by
    intro ruleId sourceId
    apply length_filter_le_one hs.keys_nodup
    intro f hf g hg hpf hpg
    obtain ⟨hfr, e, he, hfe, hkind, hsource⟩ := of_decide_eq_true hpf
    obtain ⟨hgr, e', he', hge, hkind', hsource'⟩ := of_decide_eq_true hpg
    rw [hs.key_of_source hf he hfe, hs.key_of_source hg he' hge, hfr, hgr,
      buildDeliveryKey_product ruleId hkind hkind' (hsource.trans hsource'.symm)]
  refine ⟨?_, hproduct, ?_, ?_, ?_⟩
  · intro ruleId sourceEventId
    apply length_filter_le_one hs.keys_nodup
    intro f hf g hg hpf hpg
    obtain ⟨hfr, hfe⟩ := of_decide_eq_true hpf
    obtain ⟨hgr, hge⟩ := of_decide_eq_true hpg
    obtain ⟨-, e, he, hid, hkey⟩ := hs.keyed f hf
    rw [hkey, hs.key_of_source hg he (hid.trans (hfe.trans hge.symm)), hfr, hgr]
  · intro ruleId productId
    exact hproduct ruleId (productSourceId productId)
  · intro f hf
    exact ⟨(hs.keyed f hf).1, hs.length_attemptsAt hf⟩
  · intro a ha
    exact hs.no_orphan _ (List.mem_map_of_mem ha)

end Uniqueness

/-! ## Two workers and a crash -/

/-- Product filters that admit every product, payloads that are incident changes, templates
without placeholders. -/
def plainEnv : Env Unit IncidentChange Unit where
  tryFromInput _ := .ok fun _ => true
  decodeIncidentChange change := .ok change
  renderStr template _ := .ok template
  readBlob _ := .ok []
  buildCompletedFileMetadata _ _ _ _ := ()

/-- A rule with one contact point has it once. -/
theorem oneTarget_nodup :
    ([(⟨3, 0⟩ : AlertRuleTarget)].map AlertRuleTarget.contactPointId).Nodup :=
  List.nodup_singleton _

/-- A rule for all products. -/
def productRule : AlertRule Unit where
  id := 1
  name := "all".toList
  enabled := true
  criteria := .productAvailable ()
  triggerPolicy := ⟨0, none⟩
  template := ⟨"t".toList, "b".toList⟩
  targets := [⟨3, 0⟩, ⟨4, 1⟩]
  targets_nodup := by decide

/-- A change of a tornado warning. -/
def tornadoChange : IncidentChange where
  action := .updated
  trigger := .persist
  incident := ⟨⟨"KOAX".toList, "TO".toList, "W".toList, 1⟩, .active, "CON".toList, 0, none, none, 0,
    1, 1, 0⟩

/-- The one product of the archive. -/
def fiveOnly (productId : ℤ) : Option ProductRow :=
  if productId = 5 then some ⟨"a.txt".toList, 0, "qbt".toList, none, "a".toList⟩ else none

/-- The steps of a worker from an event at hand to the insert. -/
def fireSteps (w : ℕ) (now : Time) : List (Label Unit IncidentChange Unit) :=
  [.loadMetadata w, .loadRules w, .loadSilences w now, .evaluate w now, .insert w now]

/-- Product 5 is reported twice; two workers process the reports, the first stops before its
mark, and a third worker takes its event over. -/
def crashRun : List (Label Unit IncidentChange Unit) :=
  [.configure [productRule] [] fiveOnly,
    .report .productAvailable (productSourceId 5) tornadoChange 0,
    .report .productAvailable (productSourceId 5) tornadoChange 0,
    .claim 1 10 0 [] 1 .plain, .claim 2 11 0 [] 1 .plain] ++
  fireSteps 1 20 ++ fireSteps 2 21 ++ [.crash 1, .mark 2 22, .claim 3 400 300 [] 32 .plain] ++
  fireSteps 3 401 ++ [.mark 3 402]

theorem alerts_unique_crash :
    ((exec (step plainEnv) .empty crashRun).map fun s =>
      (s.tables.firings.length, s.tables.deliveries.attempts.length)) = some (1, 2) ∧
    ∀ s, exec (step plainEnv) .empty crashRun = some s → ∀ ruleId sourceEventId,
      (s.tables.firings.filter fun f => decide (f.event.ruleId = ruleId ∧
        f.event.sourceEventId = sourceEventId)).length ≤ 1 := by
  refine ⟨by decide +kernel, ?_⟩
  intro s hs
  exact (alerts_unique hs).1

end Alert
