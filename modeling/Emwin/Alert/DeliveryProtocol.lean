/-
# The delivery protocol

Ownership of a row is the time stamp of its latest claim, compared in the condition of the
update, while the new attempt number comes from the copy that the worker took at its claim.
The invariant says why this is sound: the claims of a row have strictly decreasing times,
newest first; a row in progress carries the time of its newest claim; and a worker's copy
stems from one of the claims, and agrees with the row on the attempt number as long as that
claim is the newest and the row is in progress.
-/
import Emwin.Alert.Delivery

open Incident Transition

namespace Alert

/-- The states a row can leave. -/
def AlertDeliveryStatus.isOpen : AlertDeliveryStatus → Bool
  | .pending => true
  | .inProgress => true
  | .retryPending => true
  | _ => false

/-! ## The invariant -/

/-- What holds of every row and its history. -/
structure AttemptOk (maxDeliveryAttempts : ℕ) (a : TrackedAttempt) : Prop where
  counted : a.row.attemptNo = a.finalizations
  bounded : a.row.attemptNo ≤ maxDeliveryAttempts
  below : a.row.status.isOpen → a.row.attemptNo < maxDeliveryAttempts
  retried : a.row.status = .retryPending → 0 < a.row.attemptNo
  stamped : a.row.claimedAt.isSome ↔ a.row.status = .inProgress ∨ a.row.status = .delivered
  owned : a.row.status = .inProgress → a.row.claimedAt = a.claims.head?.map Claim.time
  handedOver : a.row.deliveredAt.isSome ↔ a.row.status = .delivered
  increasing : a.claims.Pairwise fun c d => d.time < c.time

/-- What holds of a worker's copy and the row it was taken from. -/
def CopyOk (worker : ℕ) (copy : AlertDeliveryAttempt) (a : TrackedAttempt) : Prop :=
  ∃ c ∈ a.claims, c.worker = worker ∧ copy.claimedAt = some c.time ∧
    (a.row.status = .inProgress → a.row.claimedAt = some c.time →
      a.row.attemptNo = copy.attemptNo)

/-- What holds in every reachable state. -/
structure DeliveryInvariant (maxDeliveryAttempts : ℕ) (s : DeliveryState) : Prop where
  ids_nodup : (s.attempts.map fun a => a.row.id).Nodup
  ids_lt : ∀ a ∈ s.attempts, a.row.id < s.nextId
  attempts_ok : ∀ a ∈ s.attempts, AttemptOk maxDeliveryAttempts a
  copies_lt : ∀ w, ∀ copy ∈ s.workers w, copy.id < s.nextId
  copies_ok : ∀ w, ∀ copy ∈ s.workers w, ∀ a ∈ s.attempts, a.row.id = copy.id → CopyOk w copy a

theorem DeliveryInvariant.empty (n : ℕ) : DeliveryInvariant n .empty where
  ids_nodup := List.nodup_nil
  ids_lt := by intro a ha; cases ha
  attempts_ok := by intro a ha; cases ha
  copies_lt := by intro w copy hcopy; cases hcopy
  copies_ok := by intro w copy hcopy; cases hcopy

/-- A worker that holds part of what it held. -/
theorem DeliveryInvariant.shrink {n : ℕ} {s : DeliveryState} (hs : DeliveryInvariant n s) {w : ℕ}
    {batch : List AlertDeliveryAttempt} (hsub : batch ⊆ s.workers w) :
    DeliveryInvariant n { s with workers := Function.update s.workers w batch } := by
  have hmem : ∀ v, ∀ copy ∈ Function.update s.workers w batch v, copy ∈ s.workers v := by
    intro v copy hcopy
    rcases eq_or_ne v w with rfl | hne
    · rw [Function.update_self] at hcopy
      exact hsub hcopy
    · rwa [Function.update_of_ne hne] at hcopy
  exact { hs with
    copies_lt := fun v copy hcopy => hs.copies_lt v copy (hmem v copy hcopy)
    copies_ok := fun v copy hcopy => hs.copies_ok v copy (hmem v copy hcopy) }

/-! ## New rows -/

theorem attemptOk_new {n : ℕ} (hn : 1 ≤ n) (id : ℕ) (now : Time) (alertEventId : ℕ) (key : Str)
    (target : AlertRuleTarget) :
      AttemptOk n ⟨newAttempt id now alertEventId key target, [], 0⟩ where
  counted := rfl
  bounded := Nat.zero_le n
  below := fun _ => hn
  retried := by intro h; cases h
  stamped := by simp [newAttempt]
  owned := by intro h; cases h
  handedOver := by simp [newAttempt]
  increasing := List.Pairwise.nil

/-- New rows keep the invariant. -/
theorem insertAttempts_invariant {n : ℕ} (hn : 1 ≤ n) (now : Time) (alertEventId : ℕ) (key : Str)
    (targets : List AlertRuleTarget) {s : DeliveryState} (hs : DeliveryInvariant n s) :
    DeliveryInvariant n (insertAttempts now alertEventId key targets s) := by
  induction targets generalizing s with
  | nil => exact hs
  | cons target targets ih =>
      apply ih
      -- the new row has an id of its own, so no copy stems from it
      refine ⟨?_, ?_, ?_, ?_, ?_⟩
      · rw [List.map_append, List.nodup_append]
        refine ⟨hs.ids_nodup, List.nodup_singleton _, ?_⟩
        intro x hx y hy
        obtain ⟨a, ha, rfl⟩ := List.mem_map.mp hx
        obtain rfl : y = s.nextId := List.mem_singleton.mp hy
        exact ne_of_lt (hs.ids_lt a ha)
      · intro a ha
        rcases List.mem_append.mp ha with ha | ha
        · exact Nat.lt_succ_of_lt (hs.ids_lt a ha)
        · obtain rfl := List.mem_singleton.mp ha
          exact Nat.lt_succ_self s.nextId
      · intro a ha
        rcases List.mem_append.mp ha with ha | ha
        · exact hs.attempts_ok a ha
        · obtain rfl := List.mem_singleton.mp ha
          exact attemptOk_new hn _ _ _ _ _
      · intro w copy hcopy
        exact Nat.lt_succ_of_lt (hs.copies_lt w copy hcopy)
      · intro w copy hcopy a ha hid
        rcases List.mem_append.mp ha with ha | ha
        · exact hs.copies_ok w copy hcopy a ha hid
        · obtain rfl := List.mem_singleton.mp ha
          exact absurd hid (ne_of_gt (hs.copies_lt w copy hcopy))

theorem mem_insertAttempts {now : Time} {alertEventId : ℕ} {key : Str}
    {targets : List AlertRuleTarget} {s : DeliveryState} {a : TrackedAttempt}
    (ha : a ∈ s.attempts) : a ∈ (insertAttempts now alertEventId key targets s).attempts := by
  induction targets generalizing s with
  | nil => exact ha
  | cons target targets ih => exact ih (List.mem_append_left _ ha)

/-! ## Claims -/

/-- A claimed row was due. -/
theorem isDue_of_mem_dueIds {now leaseCutoff : Time} {locked : List ℕ} {limit : ℕ}
    {attempts : List TrackedAttempt} {a : TrackedAttempt}
    (hnodup : (attempts.map fun a => a.row.id).Nodup) (ha : a ∈ attempts)
    (h : a.row.id ∈ dueIds now leaseCutoff locked limit attempts) :
    a.row.isDue now leaseCutoff = true := by
  have hsorted := List.mem_of_mem_take h
  rw [List.mem_insertionSort, List.mem_map] at hsorted
  obtain ⟨b, hb, hid⟩ := hsorted
  obtain ⟨hmem, hdue⟩ := List.mem_filter.mp hb
  obtain rfl : b = a := List.inj_on_of_nodup_map hnodup hmem ha hid
  rw [Bool.and_eq_true] at hdue
  exact hdue.1

/-- Only open rows are due. -/
theorem isOpen_of_isDue {row : AlertDeliveryAttempt} {now leaseCutoff : Time}
    (h : row.isDue now leaseCutoff = true) : row.status.isOpen = true := by
  unfold AlertDeliveryAttempt.isDue at h
  cases hstatus : row.status with
  | pending => rfl
  | inProgress => rfl
  | retryPending => rfl
  | delivered => simp [hstatus] at h
  | failed => simp [hstatus] at h
  | suppressed => simp [hstatus] at h

/-- A row after a claim of some open rows at a later time. -/
theorem attemptOk_claimIn {n : ℕ} {ids : List ℕ} {worker : ℕ} {now : Time} {a : TrackedAttempt}
    (ha : AttemptOk n a) (hopen : a.row.id ∈ ids → a.row.status.isOpen = true)
    (hlater : a.row.id ∈ ids → ∀ c ∈ a.claims, c.time < now) :
    AttemptOk n (a.claimIn ids worker now) := by
  unfold TrackedAttempt.claimIn
  split
  · next hid =>
      have hnew : ¬ a.row.deliveredAt.isSome := by
        rw [ha.handedOver]
        intro hdelivered
        have := hopen hid
        rw [hdelivered] at this
        exact absurd this (by decide)
      exact
        { counted := ha.counted
          bounded := ha.bounded
          below := fun _ => ha.below (hopen hid)
          retried := by intro h; cases h
          stamped := by simp [AlertDeliveryAttempt.claim]
          owned := fun _ => rfl
          handedOver := iff_of_false hnew (by simp [AlertDeliveryAttempt.claim])
          increasing := List.pairwise_cons.mpr ⟨hlater hid, ha.increasing⟩ }
  · exact ha

@[simp] theorem claimIn_id (ids : List ℕ) (worker : ℕ) (now : Time) (a : TrackedAttempt) :
    (a.claimIn ids worker now).row.id = a.row.id := by
  unfold TrackedAttempt.claimIn
  split <;> rfl

/-- An older copy after a claim of the row by any worker. -/
theorem copyOk_claimIn {ids : List ℕ} {worker w : ℕ} {now : Time} {a : TrackedAttempt}
    {copy : AlertDeliveryAttempt} (h : CopyOk w copy a)
    (hlater : a.row.id ∈ ids → ∀ c ∈ a.claims, c.time < now) :
    CopyOk w copy (a.claimIn ids worker now) := by
  obtain ⟨c, hc, hworker, htime, hagree⟩ := h
  unfold TrackedAttempt.claimIn
  split
  · next hid =>
      refine ⟨c, List.mem_cons_of_mem _ hc, hworker, htime, ?_⟩
      -- the row now bears a later time than the copy
      intro _ hsame
      have hnow : now = c.time := Option.some.inj hsame
      exact absurd (hlater hid c hc) (by rw [hnow]; exact lt_irrefl _)
  · exact ⟨c, hc, hworker, htime, hagree⟩

theorem workers_claimRows (ids : List ℕ) (worker : ℕ) (now : Time)
    (order : IterationOrder AlertDeliveryAttempt) (s : DeliveryState) :
    (claimRows ids worker now order s).workers = Function.update s.workers worker
      (order.run ((s.attempts.filter fun a => decide (a.row.id ∈ ids)).map
        fun a => a.row.claim now)) := rfl

/-- A claim of open rows, later than their claims before, keeps the invariant. -/
theorem claimRows_invariant {n : ℕ} {s : DeliveryState} (hs : DeliveryInvariant n s) {ids : List ℕ}
    {worker : ℕ} {now : Time} {order : IterationOrder AlertDeliveryAttempt}
    (hopen : ∀ a ∈ s.attempts, a.row.id ∈ ids → a.row.status.isOpen = true)
    (hafter : ∀ a ∈ s.attempts, a.row.id ∈ ids → ∀ c ∈ a.claims, c.time < now) :
    DeliveryInvariant n (claimRows ids worker now order s) := by
  have hmap : (s.attempts.map (TrackedAttempt.claimIn ids worker now)).map (fun a => a.row.id)
      = s.attempts.map fun a => a.row.id := by
    rw [List.map_map]
    exact List.map_congr_left fun a _ => claimIn_id ids worker now a
  -- what the claiming worker holds: the rows it claimed, as they are now
  have hbatch : ∀ copy ∈ order.run ((s.attempts.filter fun a => decide (a.row.id ∈ ids)).map
      fun a => a.row.claim now), ∃ a ∈ s.attempts, a.row.id ∈ ids ∧ copy = a.row.claim now := by
    intro copy hcopy
    obtain ⟨a, ha, rfl⟩ := List.mem_map.mp ((order.perm _).mem_iff.mp hcopy)
    obtain ⟨hmem, hid⟩ := List.mem_filter.mp ha
    exact ⟨a, hmem, of_decide_eq_true hid, rfl⟩
  refine ⟨?_, ?_, ?_, ?_, ?_⟩
  · show ((s.attempts.map (TrackedAttempt.claimIn ids worker now)).map fun a => a.row.id).Nodup
    rw [hmap]
    exact hs.ids_nodup
  · intro b hb
    obtain ⟨a, ha, rfl⟩ := List.mem_map.mp hb
    rw [claimIn_id]
    exact hs.ids_lt a ha
  · intro b hb
    obtain ⟨a, ha, rfl⟩ := List.mem_map.mp hb
    exact attemptOk_claimIn (hs.attempts_ok a ha) (hopen a ha) (hafter a ha)
  · intro w copy hcopy
    rw [workers_claimRows] at hcopy
    rcases eq_or_ne w worker with rfl | hne
    · rw [Function.update_self] at hcopy
      obtain ⟨a, ha, _, rfl⟩ := hbatch copy hcopy
      exact hs.ids_lt a ha
    · rw [Function.update_of_ne hne] at hcopy
      exact hs.copies_lt w copy hcopy
  · intro w copy hcopy b hb hid
    obtain ⟨a, ha, rfl⟩ := List.mem_map.mp hb
    rw [claimIn_id] at hid
    rw [workers_claimRows] at hcopy
    rcases eq_or_ne w worker with rfl | hne
    · rw [Function.update_self] at hcopy
      obtain ⟨a', ha', hclaimed, rfl⟩ := hbatch copy hcopy
      obtain rfl : a = a' := List.inj_on_of_nodup_map hs.ids_nodup ha ha' hid
      unfold TrackedAttempt.claimIn
      rw [if_pos hclaimed]
      exact ⟨⟨w, now⟩, List.mem_cons_self, rfl, rfl, fun _ _ => rfl⟩
    · rw [Function.update_of_ne hne] at hcopy
      exact copyOk_claimIn (hs.copies_ok w copy hcopy a ha hid) (hafter a ha)

/-- A claim takes open rows only. -/
theorem dueIds_isOpen {n : ℕ} {s : DeliveryState} (hs : DeliveryInvariant n s)
    {now leaseCutoff : Time} {locked : List ℕ} {limit : ℕ} :
    ∀ a ∈ s.attempts, a.row.id ∈ dueIds now leaseCutoff locked limit s.attempts →
      a.row.status.isOpen = true := by
  intro a ha hid
  exact isOpen_of_isDue (isDue_of_mem_dueIds hs.ids_nodup ha hid)

/-! ## Finalizations -/

/-- The update of a copy is about the copy's row and counts one attempt more. -/
theorem finalization_spec (n : ℕ) (utcNow : Time) (copy : AlertDeliveryAttempt) (claimedAt : Time)
    (dispatch : Dispatch) :
    (finalization n utcNow copy claimedAt dispatch).id = copy.id ∧
    (finalization n utcNow copy claimedAt dispatch).claimedAt = claimedAt ∧
    (finalization n utcNow copy claimedAt dispatch).attemptNo = copy.attemptNo + 1 ∧
    (((finalization n utcNow copy claimedAt dispatch).status = .retryPending ∧
        copy.attemptNo + 1 < n) ∨
      (finalization n utcNow copy claimedAt dispatch).status = .delivered ∨
      (finalization n utcNow copy claimedAt dispatch).status = .failed) := by
  cases dispatch with
  | retryable responseCode responseExcerpt =>
      rcases le_or_gt n (copy.attemptNo + 1) with hle | hlt
      · rw [finalization, if_pos hle]
        exact ⟨rfl, rfl, rfl, Or.inr (Or.inr rfl)⟩
      · rw [finalization, if_neg (not_le.mpr hlt)]
        exact ⟨rfl, rfl, rfl, Or.inl ⟨rfl, hlt⟩⟩
  | delivered responseCode responseExcerpt => exact ⟨rfl, rfl, rfl, Or.inr (Or.inl rfl)⟩
  | missingAlertEvent => exact ⟨rfl, rfl, rfl, Or.inr (Or.inr rfl)⟩
  | missingContactPoint => exact ⟨rfl, rfl, rfl, Or.inr (Or.inr rfl)⟩
  | disabledContactPoint => exact ⟨rfl, rfl, rfl, Or.inr (Or.inr rfl)⟩
  | terminal responseCode responseExcerpt => exact ⟨rfl, rfl, rfl, Or.inr (Or.inr rfl)⟩

/-- A row that an update hits. -/
theorem hits_iff {update : DeliveryAttemptUpdate} {row : AlertDeliveryAttempt} :
    update.hits row = true ↔
      row.id = update.id ∧ row.claimedAt = some update.claimedAt ∧ row.status = .inProgress := by
  unfold DeliveryAttemptUpdate.hits
  rw [Bool.and_eq_true, Bool.and_eq_true, beq_iff_eq, beq_iff_eq, beq_iff_eq, and_assoc]

/-- **Ownership.**  The update of a copy hits the row only if the copy's claim is the newest
one of the row. -/
theorem newest_of_hits {n : ℕ} {worker : ℕ} {copy : AlertDeliveryAttempt} {a : TrackedAttempt}
    {update : DeliveryAttemptUpdate} (ha : AttemptOk n a) (hcopy : CopyOk worker copy a)
    (hclaim : copy.claimedAt = some update.claimedAt) (hhits : update.hits a.row = true) :
    a.claims.head? = some ⟨worker, update.claimedAt⟩ ∧ a.row.attemptNo = copy.attemptNo := by
  obtain ⟨-, hstamp, hstatus⟩ := hits_iff.mp hhits
  obtain ⟨c, hc, hworker, htime, hagree⟩ := hcopy
  have hct : c.time = update.claimedAt := by
    rw [htime] at hclaim
    exact Option.some.inj hclaim
  have hhead := ha.owned hstatus
  rw [hstamp] at hhead
  obtain ⟨d, hd, hdt⟩ := Option.map_eq_some_iff.mp hhead.symm
  -- two claims of the row at one time are the same claim
  have heq : d = c := by
    obtain ⟨rest, hclaims⟩ : ∃ rest, a.claims = d :: rest := by
      cases hcl : a.claims with
      | nil => rw [hcl] at hd; cases hd
      | cons d' rest =>
          rw [hcl] at hd
          obtain rfl : d' = d := Option.some.inj hd
          exact ⟨rest, rfl⟩
    have hsorted := ha.increasing
    rw [hclaims] at hc hsorted
    rcases List.mem_cons.mp hc with rfl | hrest
    · rfl
    · have hlt : c.time < d.time := (List.pairwise_cons.mp hsorted).1 c hrest
      exact absurd (hct.trans hdt.symm) (ne_of_lt hlt)
  refine ⟨?_, hagree hstatus (by rw [hstamp, hct])⟩
  rw [hd, heq, ← hworker, ← hct]

/-- A row after an update that stems from a copy of it. -/
theorem attemptOk_updateIn {n : ℕ} {worker : ℕ} {copy : AlertDeliveryAttempt} {claimedAt now
    utcNow : Time} {dispatch : Dispatch} {a : TrackedAttempt} (ha : AttemptOk n a)
    (hcopy : a.row.id = copy.id → CopyOk worker copy a) (hclaim : copy.claimedAt = some claimedAt) :
    AttemptOk n (a.updateIn (finalization n utcNow copy claimedAt dispatch) now) := by
  obtain ⟨hid, hat, hno, hstatus⟩ := finalization_spec n utcNow copy claimedAt dispatch
  unfold TrackedAttempt.updateIn
  split
  · next hhits =>
      obtain ⟨hrow, hstamp, hprogress⟩ := hits_iff.mp hhits
      obtain ⟨-, hagree⟩ := newest_of_hits ha (hcopy (hrow.trans hid)) (hclaim.trans (by rw [hat]))
        hhits
      have hbelow : a.row.attemptNo < n := ha.below (by rw [hprogress]; rfl)
      have hnew : ¬ a.row.deliveredAt.isSome := by
        rw [ha.handedOver, hprogress]
        exact fun h => by cases h
      set u := finalization n utcNow copy claimedAt dispatch with hu
      refine ⟨?_, ?_, ?_, ?_, ?_, ?_, ?_, ha.increasing⟩
      · show u.attemptNo = a.finalizations + 1
        rw [hno, ← hagree, ha.counted]
      · show u.attemptNo ≤ n
        omega
      · show u.status.isOpen = true → u.attemptNo < n
        intro hopen
        rcases hstatus with ⟨-, hlt⟩ | h | h
        · rw [hno]
          exact hlt
        · rw [h] at hopen; cases hopen
        · rw [h] at hopen; cases hopen
      · show u.status = .retryPending → 0 < u.attemptNo
        omega
      · show (if u.status = .delivered then a.row.claimedAt else none).isSome = true ↔
          u.status = .inProgress ∨ u.status = .delivered
        rcases hstatus with ⟨h, -⟩ | h | h
        · simp [h]
        · simp [h, hstamp]
        · simp [h]
      · show u.status = .inProgress → _
        intro h'
        rcases hstatus with ⟨h, -⟩ | h | h <;> rw [h] at h' <;> cases h'
      · show (if u.status = .delivered then some now else a.row.deliveredAt).isSome = true ↔
          u.status = .delivered
        rcases hstatus with ⟨h, -⟩ | h | h
        · simpa [h] using hnew
        · simp [h]
        · simpa [h] using hnew
  · exact ha

@[simp] theorem updateIn_id (update : DeliveryAttemptUpdate) (now : Time) (a : TrackedAttempt) :
    (a.updateIn update now).row.id = a.row.id := by
  unfold TrackedAttempt.updateIn
  split <;> rfl

/-- A copy after an update of the row that ends its being in progress. -/
theorem copyOk_updateIn {worker : ℕ} {copy : AlertDeliveryAttempt} {update : DeliveryAttemptUpdate}
    {now : Time} {a : TrackedAttempt} (h : CopyOk worker copy a)
    (hstatus : update.status ≠ .inProgress) : CopyOk worker copy (a.updateIn update now) := by
  obtain ⟨c, hc, hworker, htime, hagree⟩ := h
  unfold TrackedAttempt.updateIn
  split
  · exact ⟨c, hc, hworker, htime, fun hprogress => absurd hprogress hstatus⟩
  · exact ⟨c, hc, hworker, htime, hagree⟩

/-- A finalization keeps the invariant. -/
theorem updateDeliveryAttempt_invariant {n : ℕ} {s : DeliveryState} (hs : DeliveryInvariant n s)
    {worker : ℕ} {copy : AlertDeliveryAttempt} (hcopy : copy ∈ s.workers worker)
    {claimedAt : Time} (hclaim : copy.claimedAt = some claimedAt) (now utcNow : Time)
    (dispatch : Dispatch) :
    DeliveryInvariant n
      (updateDeliveryAttempt s now (finalization n utcNow copy claimedAt dispatch)) := by
  obtain ⟨-, -, -, hstatus⟩ := finalization_spec n utcNow copy claimedAt dispatch
  set u := finalization n utcNow copy claimedAt dispatch with hu
  have hnot : u.status ≠ .inProgress := by
    rcases hstatus with ⟨h, -⟩ | h | h <;> rw [h] <;> decide
  have hmap : (s.attempts.map (TrackedAttempt.updateIn u now)).map (fun a => a.row.id)
      = s.attempts.map fun a => a.row.id := by
    rw [List.map_map]
    exact List.map_congr_left fun a _ => updateIn_id u now a
  refine ⟨?_, ?_, ?_, hs.copies_lt, ?_⟩
  · show ((s.attempts.map (TrackedAttempt.updateIn u now)).map fun a => a.row.id).Nodup
    rw [hmap]
    exact hs.ids_nodup
  · intro b hb
    obtain ⟨a, ha, rfl⟩ := List.mem_map.mp hb
    rw [updateIn_id]
    exact hs.ids_lt a ha
  · intro b hb
    obtain ⟨a, ha, rfl⟩ := List.mem_map.mp hb
    exact attemptOk_updateIn (hs.attempts_ok a ha) (hs.copies_ok worker copy hcopy a ha) hclaim
  · intro w other hother b hb hid
    obtain ⟨a, ha, rfl⟩ := List.mem_map.mp hb
    rw [updateIn_id] at hid
    exact copyOk_updateIn (hs.copies_ok w other hother a ha hid) hnot

/-! ## Steps and runs -/

/-- What a step can do. -/
theorem deliveryStep_cases {n : ℕ} {s t : DeliveryState} {l : DeliveryLabel}
    (h : deliveryStep n s l = some t) :
    (∃ now alertEventId key targets, l = .create now alertEventId key targets ∧
      t = insertAttempts now alertEventId key targets s) ∨
    (∃ worker now leaseCutoff locked limit order,
      claimTimesIncrease (dueIds now leaseCutoff locked limit s.attempts) now s.attempts = true ∧
      t = claimRows (dueIds now leaseCutoff locked limit s.attempts) worker now order s) ∨
    (∃ worker now utcNow dispatch copy rest claimedAt,
      l = .finalize worker now utcNow dispatch ∧ s.workers worker = copy :: rest ∧
      copy.claimedAt = some claimedAt ∧
      t = { updateDeliveryAttempt s now (finalization n utcNow copy claimedAt dispatch) with
        workers := Function.update s.workers worker rest }) ∨
    (∃ worker, t = { s with workers := Function.update s.workers worker [] }) := by
  cases l with
  | create now alertEventId key targets =>
      exact Or.inl ⟨now, alertEventId, key, targets, rfl, (Option.some.inj h).symm⟩
  | claim worker now leaseCutoff locked limit order =>
      rw [deliveryStep] at h
      split at h
      · next hguard =>
          exact Or.inr (Or.inl ⟨worker, now, leaseCutoff, locked, limit, order, hguard.2,
            (Option.some.inj h).symm⟩)
      · cases h
  | finalize worker now utcNow dispatch =>
      rw [deliveryStep] at h
      split at h
      · cases h
      · next copy rest hbatch =>
          split at h
          · exact Or.inr (Or.inr (Or.inr ⟨worker, (Option.some.inj h).symm⟩))
          · next claimedAt hclaim =>
              exact Or.inr (Or.inr (Or.inl ⟨worker, now, utcNow, dispatch, copy, rest, claimedAt,
                rfl, hbatch, hclaim, (Option.some.inj h).symm⟩))
  | crash worker => exact Or.inr (Or.inr (Or.inr ⟨worker, (Option.some.inj h).symm⟩))

/-- Every step keeps the invariant. -/
theorem deliveryStep_invariant {n : ℕ} (hn : 1 ≤ n) {s t : DeliveryState} {l : DeliveryLabel}
    (hs : DeliveryInvariant n s) (h : deliveryStep n s l = some t) : DeliveryInvariant n t := by
  rcases deliveryStep_cases h with ⟨now, alertEventId, key, targets, -, rfl⟩ |
    ⟨worker, now, leaseCutoff, locked, limit, order, hlater, rfl⟩ |
    ⟨worker, now, utcNow, dispatch, copy, rest, claimedAt, -, hbatch, hclaim, rfl⟩ | ⟨worker, rfl⟩
  · exact insertAttempts_invariant hn now alertEventId key targets hs
  · apply claimRows_invariant hs (dueIds_isOpen hs)
    intro a ha
    exact of_decide_eq_true (List.all_eq_true.mp hlater a ha)
  · have hmem : copy ∈ s.workers worker := by
      rw [hbatch]
      exact List.mem_cons_self
    apply (updateDeliveryAttempt_invariant hs hmem hclaim now utcNow dispatch).shrink
    show rest ⊆ s.workers worker
    rw [hbatch]
    exact List.subset_cons_self copy rest
  · exact hs.shrink (List.nil_subset _)

/-- A step leaves closed rows and their history as they are. -/
theorem deliveryStep_closed {n : ℕ} {s t : DeliveryState} {l : DeliveryLabel}
    (hs : DeliveryInvariant n s) (h : deliveryStep n s l = some t) {a : TrackedAttempt}
    (ha : a ∈ s.attempts) (hclosed : a.row.status.isOpen = false) : a ∈ t.attempts := by
  rcases deliveryStep_cases h with ⟨now, alertEventId, key, targets, -, rfl⟩ |
    ⟨worker, now, leaseCutoff, locked, limit, order, -, rfl⟩ |
    ⟨worker, now, utcNow, dispatch, copy, rest, claimedAt, -, hbatch, hclaim, rfl⟩ | ⟨worker, rfl⟩
  · exact mem_insertAttempts ha
  · refine List.mem_map.mpr ⟨a, ha, if_neg ?_⟩
    intro hid
    have hopen := dueIds_isOpen hs a ha hid
    rw [hclosed] at hopen
    cases hopen
  · refine List.mem_map.mpr ⟨a, ha, if_neg ?_⟩
    intro hhits
    obtain ⟨-, -, hstatus⟩ := hits_iff.mp hhits
    rw [hstatus] at hclosed
    cases hclosed
  · exact ha

/-- The row is the one that the worker has at hand, and the worker's claim is its newest. -/
def TrackedAttempt.OwnedBy (worker : ℕ) (s : DeliveryState) (a : TrackedAttempt) : Prop :=
  ∃ copy c, (s.workers worker).head? = some copy ∧ a.row.id = copy.id ∧
    a.claims.head? = some c ∧ c.worker = worker ∧ copy.claimedAt = some c.time

/-- A finalization changes only the row that its worker owns. -/
theorem deliveryStep_owner {n : ℕ} {s t : DeliveryState} (hs : DeliveryInvariant n s)
    {worker : ℕ} {now utcNow : Time} {dispatch : Dispatch}
    (h : deliveryStep n s (.finalize worker now utcNow dispatch) = some t) :
    List.Forall₂ (fun a b => b = a ∨ a.OwnedBy worker s) s.attempts t.attempts := by
  rw [deliveryStep] at h
  split at h
  · cases h
  · next copy rest hbatch =>
      split at h
      · obtain rfl := Option.some.inj h
        exact List.forall₂_same.mpr fun a _ => Or.inl rfl
      · next claimedAt hclaim =>
          obtain rfl := Option.some.inj h
          show List.Forall₂ _ s.attempts (s.attempts.map _)
          rw [List.forall₂_map_right_iff, List.forall₂_same]
          intro a ha
          obtain ⟨hid, hat, -, -⟩ := finalization_spec n utcNow copy claimedAt dispatch
          unfold TrackedAttempt.updateIn
          split
          · next hhits =>
              right
              have hmem : copy ∈ s.workers worker := by
                rw [hbatch]
                exact List.mem_cons_self
              have hrow : a.row.id = copy.id := (hits_iff.mp hhits).1.trans hid
              have hnewest := newest_of_hits (hs.attempts_ok a ha)
                (hs.copies_ok worker copy hmem a ha hrow) (hclaim.trans (by rw [hat])) hhits
              exact ⟨copy, _, by rw [hbatch]; rfl, hrow, hnewest.1, rfl, by rw [hclaim, hat]⟩
          · exact Or.inl rfl

/-- Every reachable state meets the invariant. -/
theorem delivery_reachable {n : ℕ} (hn : 1 ≤ n) {run : List DeliveryLabel} {s : DeliveryState}
    (h : exec (deliveryStep n) .empty run = some s) : DeliveryInvariant n s :=
  exec_invariant (fun _ _ _ hs hstep => deliveryStep_invariant hn hs hstep) h
    (DeliveryInvariant.empty n)

/-- A run leaves closed rows and their history as they are. -/
theorem exec_closed {n : ℕ} (hn : 1 ≤ n) {run : List DeliveryLabel} {s t : DeliveryState}
    (hs : DeliveryInvariant n s) (h : exec (deliveryStep n) s run = some t) {a : TrackedAttempt}
    (ha : a ∈ s.attempts) (hclosed : a.row.status.isOpen = false) : a ∈ t.attempts := by
  refine (exec_invariant (P := fun u => DeliveryInvariant n u ∧ a ∈ u.attempts) ?_ h ⟨hs, ha⟩).2
  rintro u l v ⟨hu, hau⟩ hstep
  exact ⟨deliveryStep_invariant hn hu hstep, deliveryStep_closed hu hstep hau hclosed⟩

/-- **The delivery protocol.**  In every reachable state the attempt number of a row is the
number of finalizations that took effect and is at most the maximum; a row that waits for a
retry has been tried, and not for the last time; the stamps are set exactly in the states
that need them; delivered and failed rows stay as they are, with no further claim or
finalization, whatever happens later; and a finalization changes no row but the one its
worker has at hand, and that only if the worker's claim is the newest one of the row. -/
theorem delivery_protocol {maxDeliveryAttempts : ℕ} (hmax : 1 ≤ maxDeliveryAttempts)
    {run : List DeliveryLabel} {s : DeliveryState}
    (h : exec (deliveryStep maxDeliveryAttempts) .empty run = some s) :
    (∀ a ∈ s.attempts,
      a.row.attemptNo = a.finalizations ∧ a.row.attemptNo ≤ maxDeliveryAttempts ∧
      (a.row.status = .retryPending →
        0 < a.row.attemptNo ∧ a.row.attemptNo < maxDeliveryAttempts) ∧
      (a.row.claimedAt.isSome ↔ a.row.status = .inProgress ∨ a.row.status = .delivered) ∧
      (a.row.deliveredAt.isSome ↔ a.row.status = .delivered)) ∧
    (∀ later t, exec (deliveryStep maxDeliveryAttempts) s later = some t → ∀ a ∈ s.attempts,
      a.row.status = .delivered ∨ a.row.status = .failed → a ∈ t.attempts) ∧
    (∀ worker now utcNow dispatch t,
      deliveryStep maxDeliveryAttempts s (.finalize worker now utcNow dispatch) = some t →
      List.Forall₂ (fun a b => b = a ∨ a.OwnedBy worker s) s.attempts t.attempts) := by
  have hs := delivery_reachable hmax h
  refine ⟨?_, ?_, ?_⟩
  · intro a ha
    have hok := hs.attempts_ok a ha
    refine ⟨hok.counted, hok.bounded, ?_, hok.stamped, hok.handedOver⟩
    intro hretry
    exact ⟨hok.retried hretry, hok.below (by rw [hretry]; rfl)⟩
  · intro later t hrun a ha hclosed
    apply exec_closed hmax hs hrun ha
    rcases hclosed with h' | h' <;> rw [h'] <;> rfl
  · intro worker now utcNow dispatch t hstep
    exact deliveryStep_owner hs hstep

/-- A takeover: worker 1 loses its lease to worker 2, fails to finalize, and worker 2 fails
twice, the second time for good. -/
def takeoverRun : List DeliveryLabel :=
  [.create 0 7 "k".toList [⟨3, 0⟩],
    .claim 1 10 0 [] 32 .plain,
    .claim 2 20 15 [] 32 .plain,
    .finalize 1 25 25 (.delivered (some 200) none),
    .finalize 2 30 30 (.retryable (some 503) none),
    .claim 2 6000000 0 [] 32 .plain,
    .finalize 2 6000010 6000010 (.retryable (some 503) none)]

theorem delivery_protocol_takeover :
    ((exec (deliveryStep 2) .empty takeoverRun).map fun s =>
      s.attempts.map fun a => (a.row.status, a.row.attemptNo, a.claims.length)) =
        some [(.failed, 2, 3)] ∧
    ∀ s, exec (deliveryStep 2) .empty takeoverRun = some s →
      ∀ a ∈ s.attempts, a.row.attemptNo = a.finalizations ∧ a.row.attemptNo ≤ 2 := by
  refine ⟨by decide +kernel, ?_⟩
  intro s hs a ha
  have hrow := (delivery_protocol (by decide) hs).1 a ha
  exact ⟨hrow.1, hrow.2.1⟩

end Alert
