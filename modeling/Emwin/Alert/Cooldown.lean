/-
# Cooldowns across workers

A worker looks for a recent alert event of its rule and source id, and inserts a new one in
a later step.  Another worker may insert in between, for another event of the same incident,
since the delivery keys of incident changes differ.  So cooldowns are kept in exactly those
runs in which no insert comes after such an alert event that its worker has not seen.
-/
import Emwin.Alert.Uniqueness

open Incident Transition

namespace Alert

section Cooldown

variable {I V D : Type}

/-- No alert event follows another one of the same rule and source id by less than the
cooldown of the rule version it was created from. -/
def CooldownKept (t : Tables I V) : Prop :=
  t.firings.Pairwise fun a b => a.event.ruleId = b.event.ruleId → sourceIdOf t a = sourceIdOf t b →
    a.event.createdAt + seconds b.rule.triggerPolicy.cooldownSecs ≤ b.event.createdAt

instance (t : Tables I V) : Decidable (CooldownKept t) :=
  inferInstanceAs (Decidable (List.Pairwise _ _))

/-- An insert for a rule and an event, later than an alert event of the same rule and source
id by at least the cooldown. -/
def CooledDown (t : Tables I V) (now : Time) (rule : AlertRule I) (event : AlertSourceEvent V)
    (f : Firing I V) : Prop :=
  f.event.ruleId = rule.id → sourceIdOf t f = some event.sourceId →
    f.event.createdAt + seconds rule.triggerPolicy.cooldownSecs ≤ now

/-- No step is an insert that another worker's insert since the cooldown check forbids: the
delivery key is taken, or every alert event that was inserted since the check, for the same
rule and source id, is old enough. -/
def InsertUnraced (s : System I V D) : Label I V D → Prop
  | .insert w now => ∀ event metadata silences rule title body rules checked,
      (s.workers w).phase = .insert event metadata silences rule title body rules checked →
        (∃ f ∈ s.tables.firings, f.event.deliveryKey = buildDeliveryKey rule.id event) ∨
        ∀ f ∈ s.tables.firings.drop checked, CooledDown s.tables now rule event f
  | _ => True

/-- The clock reading of a cooldown check or an insert. -/
def Label.time? : Label I V D → Option Time
  | .evaluate _ utcNow => some utcNow
  | .insert _ now => some now
  | _ => none

/-- Checks and inserts take place in the order of their times. -/
def TimeOrdered (run : List (Label I V D)) : Prop :=
  (run.filterMap Label.time?).Pairwise (· ≤ ·)

/-! ## Source ids of alert events -/

/-- The source id of an alert event, read off the identities. -/
theorem sourceIdOf_eq_some_iff {t : Tables I V} (h : TablesOk t) {f : Firing I V} {x : Str} :
    sourceIdOf t f = some x ↔ ∃ i ∈ t.identities, i.1 = f.event.sourceEventId ∧ i.2.2 = x := by
  unfold sourceIdOf
  rw [Option.map_eq_some_iff]
  constructor
  · rintro ⟨e, he, rfl⟩
    refine ⟨e.identity, List.mem_map_of_mem (List.mem_of_find?_eq_some he), ?_, rfl⟩
    have hid := List.find?_some he
    exact beq_iff_eq.mp hid
  · rintro ⟨i, hi, hid, rfl⟩
    obtain ⟨e, he, rfl⟩ := List.mem_map.mp hi
    cases hfind : t.sourceEvents.find? fun e => e.id == f.event.sourceEventId with
    | none => exact absurd (beq_iff_eq.mpr hid) (List.find?_eq_none.mp hfind e he)
    | some e' =>
        have hbeq := List.find?_some hfind
        have hid' : e'.id = f.event.sourceEventId := beq_iff_eq.mp hbeq
        have hsame : e'.identity = e.identity :=
          List.inj_on_of_nodup_map h.sources_nodup
            (List.mem_map_of_mem (List.mem_of_find?_eq_some hfind)) hi (hid'.trans hid.symm)
        exact ⟨e', rfl, congrArg (fun i => i.2.2) hsame⟩

/-- Source events that are added change no source id. -/
theorem sourceIdOf_extend {t t' : Tables I V} (h : TablesOk t) (h' : TablesOk t')
    (hids : t.identities ⊆ t'.identities) {f : Firing I V} (hf : f ∈ t.firings) :
    sourceIdOf t' f = sourceIdOf t f := by
  obtain ⟨-, e, he, hid, -⟩ := h.keyed f hf
  have hmem : e.identity ∈ t.identities := List.mem_map_of_mem he
  have hold : sourceIdOf t f = some e.sourceId :=
    (sourceIdOf_eq_some_iff h).mpr ⟨e.identity, hmem, hid, rfl⟩
  rw [hold]
  exact (sourceIdOf_eq_some_iff h').mpr ⟨e.identity, hids hmem, hid, rfl⟩

/-- A passed check: the alert events so far are older than the cooldown. -/
theorem cooledDown_of_check {t : Tables I V} {utcNow : Time} {rule : AlertRule I}
    {event : AlertSourceEvent V} (h : inCooldown t utcNow rule event = .ok false)
    (hcreated : ∀ f ∈ t.firings, f.event.createdAt ≤ utcNow) :
    ∀ f ∈ t.firings, CooledDown t utcNow rule event f := by
  intro f hf hrule hsource
  unfold inCooldown at h
  split at h
  · split at h
    · cases h
    · next since hsince =>
        have hnone : ruleHasRecentAlertEvent rule.id event.sourceId since t = false :=
          Except.ok.inj h
        have hlt : f.event.createdAt < since := by
          by_contra hle
          have hany := List.any_eq_false.mp hnone f hf
          simp [hrule, hsource, not_lt.mp hle] at hany
        unfold cooldownSince at hsince
        dsimp only at hsince
        split at hsince
        · cases hsince
        · next hsecs =>
            -- a duration that exists is not cut off
            have hmin : min rule.triggerPolicy.cooldownSecs I64_MAX =
                rule.triggerPolicy.cooldownSecs := by
              unfold I64_MAX at hsecs ⊢
              omega
            split at hsince
            · cases hsince
            · rw [hmin] at hsince
              rw [← Option.some.inj hsince] at hlt
              exact (lt_sub_iff_add_lt.mp hlt).le
  · next hzero =>
      have hsecs : rule.triggerPolicy.cooldownSecs = 0 := by omega
      rw [hsecs, Nat.cast_zero, seconds, zero_mul, add_zero]
      exact hcreated f hf

/-! ## The invariant -/

/-- A worker about to insert has seen the first `checked` alert events, and they are old
enough. -/
def Seen (τ : Time) (t : Tables I V) (rule : AlertRule I) (event : AlertSourceEvent V)
    (checked : ℕ) : Prop :=
  checked ≤ t.firings.length ∧ ∀ f ∈ t.firings.take checked, CooledDown t τ rule event f

/-- What holds when checks and inserts have taken place up to the time `τ`. -/
structure CooldownOk (τ : Time) (s : System I V D) : Prop where
  system_ok : SystemOk s
  created : ∀ f ∈ s.tables.firings, f.event.createdAt ≤ τ
  seen : ∀ w event metadata silences rule title body rules checked,
    (s.workers w).phase = .insert event metadata silences rule title body rules checked →
      Seen τ s.tables rule event checked

/-- Time that passes keeps the invariant. -/
theorem CooldownOk.later {τ τ' : Time} {s : System I V D} (h : CooldownOk τ s) (hle : τ ≤ τ') :
    CooldownOk τ' s where
  system_ok := h.system_ok
  created := fun f hf => (h.created f hf).trans hle
  seen := by
    intro w event metadata silences rule title body rules checked hphase
    obtain ⟨hchecked, hseen⟩ :=
      h.seen w event metadata silences rule title body rules checked hphase
    exact ⟨hchecked, fun f hf hrule hsource => (hseen f hf hrule hsource).trans hle⟩

/-- Tables that grow keep the invariant, if every worker about to insert has seen the alert
events up to its check. -/
theorem CooldownOk.grow {τ : Time} {s t : System I V D} (h : CooldownOk τ s) (ht : SystemOk t)
    (hids : s.tables.identities ⊆ t.tables.identities) {new : List (Firing I V)}
    (hfirings : t.tables.firings = s.tables.firings ++ new)
    (hnew : ∀ f ∈ new, f.event.createdAt ≤ τ)
    (hseen : ∀ w event metadata silences rule title body rules checked,
      (t.workers w).phase = .insert event metadata silences rule title body rules checked →
        Seen τ s.tables rule event checked) : CooldownOk τ t where
  system_ok := ht
  created := by
    intro f hf
    rw [hfirings] at hf
    rcases List.mem_append.mp hf with hf | hf
    · exact h.created f hf
    · exact hnew f hf
  seen := by
    intro w event metadata silences rule title body rules checked hphase
    obtain ⟨hle, hold⟩ := hseen w event metadata silences rule title body rules checked hphase
    constructor
    · rw [hfirings, List.length_append]
      omega
    · intro f hf hrule hsource
      rw [hfirings, List.take_append_of_le_length hle] at hf
      rw [sourceIdOf_extend h.system_ok.tables_ok ht.tables_ok hids
        (List.mem_of_mem_take hf)] at hsource
      exact hold f hf hrule hsource

/-- The other workers are where they were. -/
theorem CooldownOk.seen_put {τ : Time} {s : System I V D} (h : CooldownOk τ s) {w : ℕ}
    {tables : Tables I V} {worker : Worker I V D}
    (hworker : ∀ event metadata silences rule title body rules checked,
      worker.phase = .insert event metadata silences rule title body rules checked →
        Seen τ s.tables rule event checked) :
    ∀ v event metadata silences rule title body rules checked,
      ((s.put w tables worker).workers v).phase =
        .insert event metadata silences rule title body rules checked →
          Seen τ s.tables rule event checked := by
  intro v event metadata silences rule title body rules checked hinsert
  rcases eq_or_ne v w with rfl | hne
  · rw [System.put_workers_self] at hinsert
    exact hworker event metadata silences rule title body rules checked hinsert
  · rw [System.put_workers_of_ne s hne] at hinsert
    exact h.seen v event metadata silences rule title body rules checked hinsert

/-- What an insert does to the alert events. -/
theorem firings_insert (now : Time) (rule : AlertRule I) (event : AlertSourceEvent V)
    (title body : Str) (t : Tables I V) :
    ((∃ f ∈ t.firings, f.event.deliveryKey = buildDeliveryKey rule.id event) ∧
      insertAlertEventWithAttempts now rule event.id (buildDeliveryKey rule.id event) title body
        event.payload t = t) ∨
    ((¬ ∃ f ∈ t.firings, f.event.deliveryKey = buildDeliveryKey rule.id event) ∧
      ∃ f : Firing I V, f.event.ruleId = rule.id ∧ f.event.sourceEventId = event.id ∧
        f.event.createdAt = now ∧ f.rule = rule ∧
        (insertAlertEventWithAttempts now rule event.id (buildDeliveryKey rule.id event) title body
          event.payload t).firings = t.firings ++ [f]) := by
  have hany : (t.firings.any fun f =>
      f.event.deliveryKey == buildDeliveryKey rule.id event) = true ↔
      ∃ f ∈ t.firings, f.event.deliveryKey = buildDeliveryKey rule.id event := by
    simp only [List.any_eq_true, beq_iff_eq]
  unfold insertAlertEventWithAttempts
  split
  · next h => exact Or.inl ⟨hany.mp h, rfl⟩
  · next h => exact Or.inr ⟨fun hex => h (hany.mpr hex), _, rfl, rfl, rfl, rfl, rfl⟩

theorem identities_insert (now : Time) (rule : AlertRule I) (id : ℕ) (key title body : Str)
    (payload : V) (t : Tables I V) :
    (insertAlertEventWithAttempts now rule id key title body payload t).identities =
      t.identities := by
  unfold insertAlertEventWithAttempts
  split <;> rfl

/-- No source event is lost. -/
theorem step_identities {env : Env I V D} {s t : System I V D} {l : Label I V D}
    (hstep : step env s l = some t) : s.tables.identities ⊆ t.tables.identities := by
  rcases step_cases hstep with ⟨kind, sourceId, payload, sourceTimestamp, rfl⟩ |
    ⟨rules, silences, products, rfl⟩ | ⟨n, dl, deliveries, -, -, rfl⟩ |
    ⟨w, now, leaseCutoff, locked, limit, order, rfl⟩ | ⟨w, worker, -, rfl⟩ |
    ⟨w, now, event, metadata, silences, rule, title, body, rules, checked, -, -, rfl⟩ |
    ⟨w, now, event, metadata, silences, claimedAt, -, rfl⟩
  · show s.tables.identities ⊆ (s.tables.sourceEvents ++ _).map _
    rw [List.map_append]
    exact List.subset_append_left _ _
  · exact List.Subset.refl _
  · exact List.Subset.refl _
  · intro i hi
    rw [← identities_map (identity_claimIn
      (pendingIds leaseCutoff locked limit s.tables.sourceEvents) now)] at hi
    exact hi
  · exact List.Subset.refl _
  · intro i hi
    rw [System.put_tables, identities_insert]
    exact hi
  · intro i hi
    rw [← identities_map (identity_markIn event.id claimedAt now)] at hi
    exact hi

/-- Every step keeps the invariant, with its own time if it has one. -/
theorem step_cooldownOk {env : Env I V D} {s t : System I V D} {l : Label I V D} {τ : Time}
    (hs : CooldownOk τ s) (hstep : step env s l = some t) (hτ : ∀ now ∈ l.time?, τ ≤ now) :
    CooldownOk (l.time?.getD τ) t := by
  have hle : τ ≤ l.time?.getD τ := by
    cases htime : l.time? with
    | none => exact le_refl τ
    | some now => exact hτ now htime
  have h := hs.later hle
  have ht := step_ok h.system_ok hstep
  have hids := step_identities hstep
  have hnil : ∀ f ∈ ([] : List (Firing I V)), f.event.createdAt ≤ l.time?.getD τ := by
    intro f hf
    cases hf
  rcases step_cases hstep with ⟨kind, sourceId, payload, sourceTimestamp, rfl⟩ |
    ⟨rules, silences, products, rfl⟩ | ⟨n, dl, deliveries, -, -, rfl⟩ |
    ⟨w, now, leaseCutoff, locked, limit, order, rfl⟩ | ⟨w, worker, hreads, rfl⟩ |
    ⟨w, now, event, metadata, silences, rule, title, body, rules, checked, hl, -, rfl⟩ |
    ⟨w, now, event, metadata, silences, claimedAt, -, rfl⟩
  · exact h.grow ht hids (List.append_nil _).symm hnil h.seen
  · exact h.grow ht hids (List.append_nil _).symm hnil h.seen
  · exact h.grow ht hids (List.append_nil _).symm hnil h.seen
  · apply h.grow ht hids (List.append_nil _).symm hnil
    apply h.seen_put
    intro event metadata silences rule title body rules checked hinsert
    cases hinsert
  · apply h.grow ht hids (List.append_nil _).symm hnil
    apply h.seen_put
    intro event metadata silences rule title body rules checked hinsert
    -- the worker has just passed its check
    obtain ⟨utcNow, rfl, rfl, hcheck⟩ :=
      hreads.fires event metadata silences rule title body rules checked hinsert
    refine ⟨le_refl _, ?_⟩
    rw [List.take_length]
    exact cooledDown_of_check hcheck h.created
  · have hphase : ∀ event' metadata' silences' rule' title' body' rules' checked',
        ({ s.workers w with phase := .evaluate event metadata silences rules } :
          Worker I V D).phase =
            .insert event' metadata' silences' rule' title' body' rules' checked' →
          Seen (l.time?.getD τ) s.tables rule' event' checked' := by
      intro event' metadata' silences' rule' title' body' rules' checked' hinsert
      cases hinsert
    rcases firings_insert now rule event title body s.tables with ⟨-, hsame⟩ |
      ⟨-, f, -, -, hcreated, -, happend⟩
    · have hnone : (insertAlertEventWithAttempts now rule event.id (buildDeliveryKey rule.id event)
          title body event.payload s.tables).firings = s.tables.firings ++ [] := by
        rw [hsame, List.append_nil]
      exact h.grow ht hids hnone hnil (h.seen_put hphase)
    · apply h.grow ht hids happend _ (h.seen_put hphase)
      intro g hg
      obtain rfl := List.mem_singleton.mp hg
      rw [hcreated, hl]
      exact le_refl _
  · apply h.grow ht hids (List.append_nil _).symm hnil
    apply h.seen_put
    intro event metadata silences rule title body rules checked hinsert
    cases hinsert

/-! ## Steps and runs -/

/-- The alert events of grown tables are as far apart as before. -/
theorem cooldownKept_congr {t t' : Tables I V} (h : TablesOk t) (h' : TablesOk t')
    (hids : t.identities ⊆ t'.identities) (hfirings : t'.firings = t.firings) :
    CooldownKept t' ↔ CooldownKept t := by
  unfold CooldownKept
  rw [hfirings]
  apply List.Pairwise.iff_of_mem
  intro a b ha hb
  rw [sourceIdOf_extend h h' hids ha, sourceIdOf_extend h h' hids hb]

/-- One more alert event. -/
theorem cooldownKept_append {t t' : Tables I V} (h : TablesOk t) (h' : TablesOk t')
    (hids : t.identities ⊆ t'.identities) {f : Firing I V} {rule : AlertRule I}
    {event : AlertSourceEvent V} {now : Time} (hfirings : t'.firings = t.firings ++ [f])
    (hrule : f.rule = rule) (hid : f.event.ruleId = rule.id) (hnow : f.event.createdAt = now)
    (hsource : sourceIdOf t' f = some event.sourceId) :
    CooldownKept t' ↔ CooldownKept t ∧ ∀ g ∈ t.firings, CooledDown t now rule event g := by
  unfold CooldownKept CooledDown
  rw [hfirings, List.pairwise_append]
  have hold : t.firings.Pairwise (fun a b => a.event.ruleId = b.event.ruleId →
      sourceIdOf t' a = sourceIdOf t' b →
        a.event.createdAt + seconds b.rule.triggerPolicy.cooldownSecs ≤ b.event.createdAt) ↔
      t.firings.Pairwise fun a b => a.event.ruleId = b.event.ruleId →
        sourceIdOf t a = sourceIdOf t b →
          a.event.createdAt + seconds b.rule.triggerPolicy.cooldownSecs ≤ b.event.createdAt := by
    apply List.Pairwise.iff_of_mem
    intro a b ha hb
    rw [sourceIdOf_extend h h' hids ha, sourceIdOf_extend h h' hids hb]
  rw [hold]
  constructor
  · rintro ⟨hpair, -, hnew⟩
    refine ⟨hpair, ?_⟩
    intro g hg hgr hgs
    have hfar := hnew g hg f (List.mem_singleton_self f) (hgr.trans hid.symm)
      (by rw [sourceIdOf_extend h h' hids hg, hsource, hgs])
    rw [hrule, hnow] at hfar
    exact hfar
  · rintro ⟨hpair, hnew⟩
    refine ⟨hpair, List.pairwise_singleton _ _, ?_⟩
    intro g hg b hb hgr hgs
    obtain rfl := List.mem_singleton.mp hb
    rw [hsource, sourceIdOf_extend h h' hids hg] at hgs
    rw [hrule, hnow]
    exact hnew g hg (hgr.trans hid) hgs

/-- Only inserts add alert events. -/
theorem firings_of_not_insert {env : Env I V D} {s t : System I V D} {l : Label I V D}
    (hl : ∀ w now, l ≠ .insert w now) (hstep : step env s l = some t) :
    t.tables.firings = s.tables.firings := by
  rcases step_cases hstep with ⟨kind, sourceId, payload, sourceTimestamp, rfl⟩ |
    ⟨rules, silences, products, rfl⟩ | ⟨n, dl, deliveries, -, -, rfl⟩ |
    ⟨w, now, leaseCutoff, locked, limit, order, rfl⟩ | ⟨w, worker, -, rfl⟩ |
    ⟨w, now, event, metadata, silences, rule, title, body, rules, checked, hinsert, -, -⟩ |
    ⟨w, now, event, metadata, silences, claimedAt, -, rfl⟩
  · rfl
  · rfl
  · rfl
  · rfl
  · rfl
  · exact absurd hinsert (hl w now)
  · rfl

/-- An insert keeps cooldowns exactly if it is not raced: what its worker has seen at the
check is old enough. -/
theorem insert_kept_iff {env : Env I V D} {s t : System I V D} {w : ℕ} {now τ : Time}
    (hs : CooldownOk τ s) (hstep : step env s (.insert w now) = some t) (hτ : τ ≤ now) :
    CooldownKept t.tables ↔ CooldownKept s.tables ∧ InsertUnraced s (.insert w now) := by
  have hok := hs.system_ok.tables_ok
  have hok' := (step_ok hs.system_ok hstep).tables_ok
  have hids := step_identities hstep
  obtain ⟨event, metadata, silences, rule, title, body, rules, checked, hphase, rfl⟩ :=
    step_insert hstep
  have hevent : event.identity ∈ s.tables.identities := by
    apply hs.system_ok.held w
    unfold Worker.held
    rw [hphase]
    exact List.mem_cons_self
  -- the condition is about the one phase that the worker is in
  have hunraced : InsertUnraced s (.insert w now) ↔
      (∃ f ∈ s.tables.firings, f.event.deliveryKey = buildDeliveryKey rule.id event) ∨
        ∀ f ∈ s.tables.firings.drop checked, CooledDown s.tables now rule event f := by
    constructor
    · intro h
      exact h event metadata silences rule title body rules checked hphase
    · intro h event' metadata' silences' rule' title' body' rules' checked' hphase'
      rw [hphase] at hphase'
      cases hphase'
      exact h
  rw [hunraced]
  rcases firings_insert now rule event title body s.tables with ⟨htaken, hsame⟩ |
    ⟨hfree, f, hid, hsid, hcreated, hrule, happend⟩
  · rw [System.put_tables, hsame]
    exact (and_iff_left (Or.inl htaken)).symm
  · have hsource : sourceIdOf (insertAlertEventWithAttempts now rule event.id
        (buildDeliveryKey rule.id event) title body event.payload s.tables) f =
        some event.sourceId :=
      (sourceIdOf_eq_some_iff hok').mpr ⟨event.identity, hids hevent, hsid.symm, rfl⟩
    rw [cooldownKept_append hok hok' hids happend hrule hid hcreated hsource,
      or_iff_right hfree]
    apply and_congr_right
    intro _
    obtain ⟨-, hseen⟩ := hs.seen w event metadata silences rule title body rules checked hphase
    constructor
    · intro h g hg
      exact h g (List.mem_of_mem_drop hg)
    · intro h g hg
      rw [← List.take_append_drop checked s.tables.firings] at hg
      rcases List.mem_append.mp hg with hg | hg
      · intro hgr hgs
        exact (hseen g hg hgr hgs).trans hτ
      · exact h g hg

/-- A step keeps cooldowns exactly if it is no raced insert. -/
theorem step_kept_iff {env : Env I V D} {s t : System I V D} {l : Label I V D} {τ : Time}
    (hs : CooldownOk τ s) (hstep : step env s l = some t) (hτ : ∀ now ∈ l.time?, τ ≤ now) :
    CooldownKept t.tables ↔ CooldownKept s.tables ∧ InsertUnraced s l := by
  by_cases hinsert : ∃ w now, l = .insert w now
  · obtain ⟨w, now, rfl⟩ := hinsert
    exact insert_kept_iff hs hstep (hτ now rfl)
  · have hl : ∀ w now, l ≠ .insert w now := fun w now he => hinsert ⟨w, now, he⟩
    have hunraced : InsertUnraced s l := by
      unfold InsertUnraced
      split
      · next w now => exact absurd rfl (hl w now)
      · trivial
    rw [cooldownKept_congr hs.system_ok.tables_ok (step_ok hs.system_ok hstep).tables_ok
      (step_identities hstep) (firings_of_not_insert hl hstep)]
    exact (and_iff_left hunraced).symm

/-- A run keeps cooldowns exactly if no insert of it is raced. -/
theorem exec_kept_iff {env : Env I V D} {run : List (Label I V D)} {s t : System I V D} {τ : Time}
    (hs : CooldownOk τ s) (h : exec (step env) s run = some t)
    (hτ : ∀ now ∈ run.filterMap Label.time?, τ ≤ now) (htime : TimeOrdered run) :
    CooldownKept t.tables ↔
      CooldownKept s.tables ∧ Always (step env) InsertUnraced s run := by
  induction run generalizing s τ with
  | nil =>
      obtain rfl : s = t := Option.some.inj h
      exact (and_iff_left trivial).symm
  | cons l run ih =>
      obtain ⟨u, hu, hrest⟩ := exec_cons.mp h
      have hτl : ∀ now ∈ l.time?, τ ≤ now := by
        intro now hnow
        apply hτ now
        rw [List.filterMap_cons_some hnow]
        exact List.mem_cons_self
      -- the rest of the run takes place after this step
      have hlater : (∀ now ∈ run.filterMap Label.time?, l.time?.getD τ ≤ now) ∧
          TimeOrdered run := by
        unfold TimeOrdered at htime
        cases htl : l.time? with
        | none =>
            rw [List.filterMap_cons_none htl] at htime hτ
            exact ⟨hτ, htime⟩
        | some now =>
            rw [List.filterMap_cons_some htl] at htime
            exact List.pairwise_cons.mp htime
      rw [ih (step_cooldownOk hs hu hτl) hrest hlater.1 hlater.2, step_kept_iff hs hu hτl,
        and_assoc, Always]
      apply and_congr_right
      intro _
      apply and_congr_right
      intro _
      constructor
      · intro hall v hv
        rw [hu] at hv
        obtain rfl : u = v := Option.some.inj hv
        exact hall
      · intro hall
        exact hall u hu

/-- **Cooldowns across workers.**  After a run whose checks and inserts take place in the
order of their times, no two alert events of one rule and source id are less than the
cooldown apart, if and only if no insert of the run comes after an alert event of the same
rule and source id, within the cooldown, that was inserted since the worker's check. -/
theorem cooldown_kept_iff {env : Env I V D} {run : List (Label I V D)} {s : System I V D}
    (h : exec (step env) .empty run = some s) (htime : TimeOrdered run) :
    CooldownKept s.tables ↔ Always (step env) InsertUnraced .empty run := by
  -- the clock starts before the first reading
  obtain ⟨τ, hτ⟩ : ∃ τ : Time, ∀ now ∈ run.filterMap Label.time?, τ ≤ now := by
    cases hl : run.filterMap Label.time? with
    | nil => exact ⟨0, by intro now hnow; cases hnow⟩
    | cons first rest =>
        refine ⟨first, ?_⟩
        intro now hnow
        unfold TimeOrdered at htime
        rw [hl] at htime
        rcases List.mem_cons.mp hnow with rfl | hnow
        · exact le_refl _
        · exact (List.pairwise_cons.mp htime).1 now hnow
  have hempty : CooldownOk τ (System.empty : System I V D) := by
    refine ⟨⟨TablesOk.empty, by intro w e he; cases he⟩, ?_, ?_⟩
    · intro f hf
      cases hf
    · intro w event metadata silences rule title body rules checked hphase
      cases hphase
  rw [exec_kept_iff hempty h hτ htime]
  exact and_iff_right List.Pairwise.nil

end Cooldown

/-! ## A race -/

/-- A rule for all incident changes with a cooldown of five minutes. -/
def incidentRule : AlertRule Unit where
  id := 1
  name := "all".toList
  enabled := true
  criteria := .incidentChange ⟨none, none, none, none, none, none⟩
  triggerPolicy := ⟨300, none⟩
  template := ⟨"t".toList, "b".toList⟩
  targets := [⟨3, 0⟩]
  targets_nodup := oneTarget_nodup

/-- Two updates of one incident, each claimed by a worker of its own. -/
def twoUpdates : List (Label Unit IncidentChange Unit) :=
  [.configure [incidentRule] [] fiveOnly,
    .report .incidentChange "KOAX/TO/W/1:updated".toList tornadoChange 0,
    .report .incidentChange "KOAX/TO/W/1:updated".toList tornadoChange 1,
    .claim 1 10 0 [] 1 .plain, .claim 2 11 0 [] 1 .plain]

/-- The steps of a worker from an event at hand to the cooldown check. -/
def checkSteps (w : ℕ) (now : Time) : List (Label Unit IncidentChange Unit) :=
  [.loadMetadata w, .loadRules w, .loadSilences w now, .evaluate w now]

/-- Both workers check before either inserts. -/
def raceRun : List (Label Unit IncidentChange Unit) :=
  twoUpdates ++ checkSteps 1 20 ++ checkSteps 2 21 ++ [.insert 1 22, .insert 2 23]

/-- The second worker checks after the first has inserted. -/
def calmRun : List (Label Unit IncidentChange Unit) :=
  twoUpdates ++ checkSteps 1 20 ++ [.insert 1 22] ++ checkSteps 2 23

theorem race_breaks_cooldown : TimeOrdered raceRun ∧
    ∃ s, exec (step plainEnv) .empty raceRun = some s ∧ ¬ CooldownKept s.tables := by
  have hfinal : (exec (step plainEnv) .empty raceRun).map (fun s => decide (CooldownKept s.tables))
      = some false := by decide +kernel
  obtain ⟨s, hs, hkept⟩ := Option.map_eq_some_iff.mp hfinal
  exact ⟨by unfold TimeOrdered; decide, s, hs, of_decide_eq_false hkept⟩

theorem cooldown_kept_iff_calm : Always (step plainEnv) InsertUnraced .empty calmRun := by
  have hfinal : (exec (step plainEnv) .empty calmRun).map (fun s => decide (CooldownKept s.tables))
      = some true := by decide +kernel
  obtain ⟨s, hs, hkept⟩ := Option.map_eq_some_iff.mp hfinal
  exact (cooldown_kept_iff hs (by unfold TimeOrdered; decide)).mp (of_decide_eq_true hkept)

end Alert
