/-
# Delivery attempts and their workers

The table `alerting.delivery_attempts` and the workers that claim due rows, dispatch them
and finalize them.  A claim marks its rows as in progress and stamps them with the time of
the claim; a finalization finds its row by id, that stamp and the status, so it has no
effect once another worker has taken the row over.

Every database statement is one step, and a worker may stop between any two of them.
Beside each row stands its history, which no operation reads: the claims of the row,
newest first, and how many finalizations took effect.
-/
import Emwin.Alert.Model
import Emwin.Lib.Maps
import Emwin.Lib.Transition
import Mathlib.Logic.Function.Basic

open Incident

namespace Alert

/-- A claim: who took the row, and when. -/
structure Claim where
  worker : ℕ
  time : Time
deriving DecidableEq, Repr

/-- A row with its history. -/
structure TrackedAttempt where
  row : AlertDeliveryAttempt
  claims : List Claim
  finalizations : ℕ
deriving DecidableEq, Repr

/-- The table, the next id, and what each worker has claimed and not yet handled. -/
structure DeliveryState where
  attempts : List TrackedAttempt
  nextId : ℕ
  workers : ℕ → List AlertDeliveryAttempt

/-- No rows, and no worker busy. -/
def DeliveryState.empty : DeliveryState := ⟨[], 1, fun _ => []⟩

/-! ## New rows -/

/-- A row as it is inserted. -/
def newAttempt (id : ℕ) (now : Time) (alertEventId : ℕ) (deliveryKey : Str)
    (target : AlertRuleTarget) : AlertDeliveryAttempt where
  id := id
  alertEventId := alertEventId
  contactPointId := target.contactPointId
  deliveryKey := attemptDeliveryKey deliveryKey target.contactPointId
  attemptNo := 0
  status := .pending
  claimedAt := none
  nextRetryAt := none
  responseCode := none
  responseExcerpt := none
  deliveredAt := none
  createdAt := now
  updatedAt := now

/-- One row for each target of an alert event. -/
def insertAttempts (now : Time) (alertEventId : ℕ) (deliveryKey : Str) :
    List AlertRuleTarget → DeliveryState → DeliveryState
  | [], s => s
  | target :: targets, s =>
      insertAttempts now alertEventId deliveryKey targets
        { s with
          attempts := s.attempts ++
            [⟨newAttempt s.nextId now alertEventId deliveryKey target, [], 0⟩]
          nextId := s.nextId + 1 }

/-! ## Claims -/

/-- Whether a row may be claimed: it waits and its time has come, or the lease of the
worker that has it is over. -/
def AlertDeliveryAttempt.isDue (row : AlertDeliveryAttempt) (now leaseCutoff : Time) : Bool :=
  ((row.status == .pending || row.status == .retryPending) &&
    row.nextRetryAt.all (fun t => decide (t ≤ now))) ||
  (row.status == .inProgress && row.claimedAt.any (fun t => decide (t ≤ leaseCutoff)))

/-- The ids that a claim takes: due rows that no other transaction holds, smallest ids
first, at most `limit`. -/
def dueIds (now leaseCutoff : Time) (locked : List ℕ) (limit : ℕ)
    (attempts : List TrackedAttempt) : List ℕ :=
  (((attempts.filter fun a => a.row.isDue now leaseCutoff && decide (a.row.id ∉ locked)).map
    fun a => a.row.id).insertionSort (· ≤ ·)).take limit

/-- A row after it was claimed. -/
def AlertDeliveryAttempt.claim (row : AlertDeliveryAttempt) (now : Time) : AlertDeliveryAttempt :=
  { row with status := .inProgress, claimedAt := some now, updatedAt := now }

/-- A row in a table some rows of which a worker claims. -/
def TrackedAttempt.claimIn (ids : List ℕ) (worker : ℕ) (now : Time) (a : TrackedAttempt) :
    TrackedAttempt :=
  if a.row.id ∈ ids then ⟨a.row.claim now, ⟨worker, now⟩ :: a.claims, a.finalizations⟩ else a

/-- Mark rows as claimed and hand them to the worker, in no particular order. -/
def claimRows (ids : List ℕ) (worker : ℕ) (now : Time) (order : IterationOrder AlertDeliveryAttempt)
    (s : DeliveryState) : DeliveryState :=
  { s with
    attempts := s.attempts.map (TrackedAttempt.claimIn ids worker now)
    workers := Function.update s.workers worker
      (order.run ((s.attempts.filter fun a => decide (a.row.id ∈ ids)).map
        fun a => a.row.claim now)) }

/-- Claim due rows. -/
def claimDueDeliveryAttempts (s : DeliveryState) (worker : ℕ) (now leaseCutoff : Time)
    (locked : List ℕ) (limit : ℕ) (order : IterationOrder AlertDeliveryAttempt) : DeliveryState :=
  claimRows (dueIds now leaseCutoff locked limit s.attempts) worker now order s

/-! ## Finalization -/

/-- The new values of a finalized row, and what identifies the claim. -/
structure DeliveryAttemptUpdate where
  id : ℕ
  claimedAt : Time
  attemptNo : ℕ
  status : AlertDeliveryStatus
  nextRetryAt : Option Time
  responseCode : Option ℤ
  responseExcerpt : Option Str
deriving DecidableEq, Repr

/-- The condition of the update: the row is still in progress under the same claim. -/
def DeliveryAttemptUpdate.hits (update : DeliveryAttemptUpdate) (row : AlertDeliveryAttempt) :
    Bool :=
  row.id == update.id && row.claimedAt == some update.claimedAt && row.status == .inProgress

/-- A row after its update. -/
def DeliveryAttemptUpdate.apply (update : DeliveryAttemptUpdate) (now : Time)
    (row : AlertDeliveryAttempt) : AlertDeliveryAttempt :=
  { row with
    attemptNo := update.attemptNo
    status := update.status
    nextRetryAt := update.nextRetryAt
    responseCode := update.responseCode
    responseExcerpt := update.responseExcerpt
    claimedAt := if update.status = .delivered then row.claimedAt else none
    deliveredAt := if update.status = .delivered then some now else row.deliveredAt
    updatedAt := now }

/-- A row of a table that is updated. -/
def TrackedAttempt.updateIn (update : DeliveryAttemptUpdate) (now : Time) (a : TrackedAttempt) :
    TrackedAttempt :=
  if update.hits a.row then ⟨update.apply now a.row, a.claims, a.finalizations + 1⟩ else a

/-- Update the row that is still under the claim. -/
def updateDeliveryAttempt (s : DeliveryState) (now : Time) (update : DeliveryAttemptUpdate) :
    DeliveryState :=
  { s with attempts := s.attempts.map (TrackedAttempt.updateIn update now) }

/-- The row was delivered. -/
def markDeliveryAttemptDelivered (id : ℕ) (claimedAt : Time) (attemptNo : ℕ)
    (responseCode : Option ℤ) (responseExcerpt : Option Str) : DeliveryAttemptUpdate :=
  ⟨id, claimedAt, attemptNo, .delivered, none, responseCode, responseExcerpt⟩

/-- The row waits for another attempt. -/
def markDeliveryAttemptRetry (id : ℕ) (claimedAt : Time) (attemptNo : ℕ) (nextRetryAt : Time)
    (responseCode : Option ℤ) (responseExcerpt : Option Str) : DeliveryAttemptUpdate :=
  ⟨id, claimedAt, attemptNo, .retryPending, some nextRetryAt, responseCode, responseExcerpt⟩

/-- The row is given up. -/
def markDeliveryAttemptFailed (id : ℕ) (claimedAt : Time) (attemptNo : ℕ)
    (responseCode : Option ℤ) (responseExcerpt : Option Str) : DeliveryAttemptUpdate :=
  ⟨id, claimedAt, attemptNo, .failed, none, responseCode, responseExcerpt⟩

/-- What comes of an attempt: the alert event or the contact point is gone, the contact
point is disabled, or the answer of the transport. -/
inductive Dispatch where
  | missingAlertEvent
  | missingContactPoint
  | disabledContactPoint
  | delivered (responseCode : Option ℤ) (responseExcerpt : Option Str)
  | retryable (responseCode : Option ℤ) (responseExcerpt : Option Str)
  | terminal (responseCode : Option ℤ) (responseExcerpt : Option Str)
deriving DecidableEq, Repr

/-- The seconds to wait before the next attempt. -/
def backoffSeconds (attemptNo : ℕ) : ℤ :=
  match attemptNo with
  | 0 => 5
  | 1 => 5
  | 2 => 15
  | 3 => 45
  | _ => 90

/-- The update that follows an attempt. -/
def finalization (maxDeliveryAttempts : ℕ) (utcNow : Time) (attempt : AlertDeliveryAttempt)
    (claimedAt : Time) : Dispatch → DeliveryAttemptUpdate
  | .missingAlertEvent =>
      markDeliveryAttemptFailed attempt.id claimedAt (attempt.attemptNo + 1) none
        (some "missing alert event".toList)
  | .missingContactPoint =>
      markDeliveryAttemptFailed attempt.id claimedAt (attempt.attemptNo + 1) none
        (some "missing contact point".toList)
  | .disabledContactPoint =>
      markDeliveryAttemptFailed attempt.id claimedAt (attempt.attemptNo + 1) none
        (some "contact point disabled".toList)
  | .delivered responseCode responseExcerpt =>
      markDeliveryAttemptDelivered attempt.id claimedAt (attempt.attemptNo + 1) responseCode
        responseExcerpt
  | .retryable responseCode responseExcerpt =>
      if maxDeliveryAttempts ≤ attempt.attemptNo + 1 then
        markDeliveryAttemptFailed attempt.id claimedAt (attempt.attemptNo + 1) responseCode
          responseExcerpt
      else
        markDeliveryAttemptRetry attempt.id claimedAt (attempt.attemptNo + 1)
          (utcNow + seconds (backoffSeconds (attempt.attemptNo + 1))) responseCode responseExcerpt
  | .terminal responseCode responseExcerpt =>
      markDeliveryAttemptFailed attempt.id claimedAt (attempt.attemptNo + 1) responseCode
        responseExcerpt

/-! ## The workers -/

/-- The steps of the system.  Times, lease cutoffs, locked rows and the order of claimed
rows are whatever the clocks and the database make them. -/
inductive DeliveryLabel where
  /-- An alert event is created for these targets. -/
  | create (now : Time) (alertEventId : ℕ) (deliveryKey : Str) (targets : List AlertRuleTarget)
  /-- An idle worker claims due rows. -/
  | claim (worker : ℕ) (now leaseCutoff : Time) (locked : List ℕ) (limit : ℕ)
      (order : IterationOrder AlertDeliveryAttempt)
  /-- A worker finalizes the next row of its batch. -/
  | finalize (worker : ℕ) (now utcNow : Time) (dispatch : Dispatch)
  /-- A worker stops and forgets its batch. -/
  | crash (worker : ℕ)

/-- Whether a step is the creation of rows, and not one of a worker. -/
def DeliveryLabel.isCreate : DeliveryLabel → Bool
  | .create _ _ _ _ => true
  | _ => false

/-- Rows are claimed later than they were claimed before. -/
def claimTimesIncrease (ids : List ℕ) (now : Time) (attempts : List TrackedAttempt) : Bool :=
  attempts.all fun a => decide (a.row.id ∈ ids → ∀ c ∈ a.claims, c.time < now)

/-- One step of the system. -/
def deliveryStep (maxDeliveryAttempts : ℕ) (s : DeliveryState) :
    DeliveryLabel → Option DeliveryState
  | .create now alertEventId deliveryKey targets =>
      some (insertAttempts now alertEventId deliveryKey targets s)
  | .claim worker now leaseCutoff locked limit order =>
      if s.workers worker = [] ∧
          claimTimesIncrease (dueIds now leaseCutoff locked limit s.attempts) now s.attempts then
        some (claimDueDeliveryAttempts s worker now leaseCutoff locked limit order)
      else none
  | .finalize worker now utcNow dispatch =>
      match s.workers worker with
      | [] => none
      | attempt :: rest =>
          match attempt.claimedAt with
          -- a claimed row without its stamp is an error that ends the pass
          | none => some { s with workers := Function.update s.workers worker [] }
          | some claimedAt =>
              some { updateDeliveryAttempt s now
                  (finalization maxDeliveryAttempts utcNow attempt claimedAt dispatch) with
                workers := Function.update s.workers worker rest }
  | .crash worker => some { s with workers := Function.update s.workers worker [] }

/-- What one pass of a worker does after its claim: every row is finalized in its turn. -/
def processAttempts (maxDeliveryAttempts : ℕ) (now utcNow : AlertDeliveryAttempt → Time)
    (dispatch : AlertDeliveryAttempt → Dispatch) :
    List AlertDeliveryAttempt → DeliveryState → DeliveryState
  | [], s => s
  | attempt :: attempts, s =>
      match attempt.claimedAt with
      | none => s
      | some claimedAt =>
          processAttempts maxDeliveryAttempts now utcNow dispatch attempts
            (updateDeliveryAttempt s (now attempt)
              (finalization maxDeliveryAttempts (utcNow attempt) attempt claimedAt
                (dispatch attempt)))

end Alert
