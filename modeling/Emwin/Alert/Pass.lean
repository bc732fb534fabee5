/-
# One pass of the worker

`run_once` claims source events, evaluates every enabled rule of an event's kind against it,
inserts an alert event where a rule fires, and marks the event as processed; then it runs
the delivery phase.  Any error ends the pass where it occurs; what was written stays.

A pass reads the clock many times; the readings are part of its input, one for each event
and rule.  Nobody else writes to the tables meanwhile, so the rules that a pass reads once
and keeps are those of the tables.
-/
import Emwin.Alert.Workers

open Incident

namespace Alert

/-- The circumstances of the delivery phase. -/
structure DeliveryPass where
  worker : ℕ
  now : Time
  leaseCutoff : Time
  deliveryBatchSize : ℕ
  maxDeliveryAttempts : ℕ
  order : IterationOrder AlertDeliveryAttempt
  finalizedAt : AlertDeliveryAttempt → Time
  utcNow : AlertDeliveryAttempt → Time
  dispatch : AlertDeliveryAttempt → Dispatch

/-- The circumstances of a pass: clock readings by event and rule, the lease, the batch size
and the order of claimed events. -/
structure Pass (V : Type) where
  now : Time
  leaseCutoff : Time
  sourceBatchSize : ℕ
  order : IterationOrder (AlertSourceEvent V)
  silencesAt : ℕ → Time
  cooldownAt : ℕ → ℕ → Time
  insertAt : ℕ → ℕ → Time
  markAt : ℕ → Time
  delivery : DeliveryPass

/-- The delivery phase. -/
def processDeliveryAttempts (p : DeliveryPass) (d : DeliveryState) : DeliveryState :=
  let claimed := claimDueDeliveryAttempts d p.worker p.now p.leaseCutoff [] p.deliveryBatchSize
    p.order
  { processAttempts p.maxDeliveryAttempts p.finalizedAt p.utcNow p.dispatch
      (claimed.workers p.worker) claimed with
    workers := Function.update claimed.workers p.worker [] }

section Pass

variable {I V D : Type} (env : Env I V D) (p : Pass V)

/-- The insert for a rule that fires. -/
def insertFiring (rule : AlertRule I) (event : AlertSourceEvent V) (title body : Str)
    (t : Tables I V) : Tables I V :=
  insertAlertEventWithAttempts (p.insertAt event.id rule.id) rule event.id
    (buildDeliveryKey rule.id event) title body event.payload t

/-- The loop over the rules. -/
def processRules (event : AlertSourceEvent V) (metadata : Option D)
    (silences : List (AlertSilence I)) :
    List (AlertRule I) → Tables I V → Tables I V × Except AlertError Unit
  | [], t => (t, .ok ())
  | rule :: rules, t =>
      match evaluateRule env t (p.cooldownAt event.id rule.id) event metadata silences rule with
      | .error e => (t, .error e)
      | .ok (.fire title body) =>
          processRules event metadata silences rules (insertFiring p rule event title body t)
      | .ok _ => processRules event metadata silences rules t

/-- The loop over the claimed events. -/
def processEvents (rules : AlertSourceKind → List (AlertRule I)) :
    List (AlertSourceEvent V) → Tables I V → Tables I V × Except AlertError Unit
  | [], t => (t, .ok ())
  | event :: events, t =>
      match loadMetadata env t event with
      | .error e => (t, .error e)
      | .ok metadata =>
          match processRules env p event metadata
            (listActiveAlertSilences (p.silencesAt event.id) t) (rules event.sourceKind) t with
          | (t', .error e) => (t', .error e)
          | (t', .ok ()) =>
              match event.claimedAt with
              | none => (t', .error (.invalidConfig ("claimed source event ".toList ++
                  Str.ofNat event.id ++ " did not include claimed_at".toList)))
              | some claimedAt =>
                  processEvents rules events
                    (markAlertSourceEventProcessed event.id claimedAt (p.markAt event.id) t')

/-- The tables after the claim, and the claimed events. -/
def claimBatch (t : Tables I V) : Tables I V × List (AlertSourceEvent V) :=
  claimPendingAlertSourceEvents p.now p.leaseCutoff [] p.sourceBatchSize p.order t

/-- The enabled rules for each kind of event. -/
def enabledRules (t : Tables I V) (kind : AlertSourceKind) : List (AlertRule I) :=
  listEnabledAlertRules kind t

/-- The first phase: claim and evaluate. -/
def processSourceEvents (t : Tables I V) : Tables I V × Except AlertError Unit :=
  processEvents env p (enabledRules t) (claimBatch p t).2 (claimBatch p t).1

/-- One pass. -/
def runOnce (t : Tables I V) : Tables I V × Except AlertError Unit :=
  match processSourceEvents env p t with
  | (t', .error e) => (t', .error e)
  | (t', .ok ()) =>
      ({ t' with deliveries := processDeliveryAttempts p.delivery t'.deliveries }, .ok ())

end Pass

end Alert
