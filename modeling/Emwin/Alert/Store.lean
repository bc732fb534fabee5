/-
# The alerting tables

The statements with which the worker reads and writes the tables of the schema `alerting`,
each as one function of the tables: a transaction is atomic.  Beside each alert event stands
the version of the rule that it was created from; no statement reads it.
-/
import Emwin.Alert.Delivery

open Incident

namespace Alert

/-- A row of `alerting.events` with the rule version it was created from. -/
structure Firing (I V : Type) where
  event : AlertEvent V
  rule : AlertRule I

/-- The tables; `products` is the part of the archive that the worker reads. -/
structure Tables (I V : Type) where
  rules : List (AlertRule I)
  silences : List (AlertSilence I)
  products : ℤ → Option ProductRow
  sourceEvents : List (AlertSourceEvent V)
  nextSourceEventId : ℕ
  firings : List (Firing I V)
  nextEventId : ℕ
  deliveries : DeliveryState

/-- Tables without rows. -/
def Tables.empty {I V : Type} : Tables I V := ⟨[], [], fun _ => none, [], 1, [], 1, .empty⟩

section Statements

variable {I V : Type}

/-! ## Source events -/

/-- The archive reports a product or an incident change. -/
def insertSourceEvent (kind : AlertSourceKind) (sourceId : Str) (payload : V)
    (sourceTimestamp : Time) (t : Tables I V) : Tables I V :=
  { t with
    sourceEvents := t.sourceEvents ++
      [newSourceEvent t.nextSourceEventId kind sourceId payload sourceTimestamp]
    nextSourceEventId := t.nextSourceEventId + 1 }

/-- Whether a source event may be claimed. -/
def AlertSourceEvent.isPending (event : AlertSourceEvent V) (leaseCutoff : Time) : Bool :=
  event.processedAt.isNone && event.claimedAt.all fun t => decide (t ≤ leaseCutoff)

/-- The ids that a claim takes. -/
def pendingIds (leaseCutoff : Time) (locked : List ℕ) (limit : ℕ)
    (events : List (AlertSourceEvent V)) : List ℕ :=
  (((events.filter fun e => e.isPending leaseCutoff && decide (e.id ∉ locked)).map
    fun e => e.id).insertionSort (· ≤ ·)).take limit

/-- A source event in a table some rows of which are claimed. -/
def AlertSourceEvent.claimIn (ids : List ℕ) (now : Time) (event : AlertSourceEvent V) :
    AlertSourceEvent V :=
  if event.id ∈ ids then { event with claimedAt := some now } else event

/-- Claim pending source events; they come back in no particular order. -/
def claimPendingAlertSourceEvents (now leaseCutoff : Time) (locked : List ℕ) (limit : ℕ)
    (order : IterationOrder (AlertSourceEvent V)) (t : Tables I V) :
    Tables I V × List (AlertSourceEvent V) :=
  let ids := pendingIds leaseCutoff locked limit t.sourceEvents
  let sourceEvents := t.sourceEvents.map (AlertSourceEvent.claimIn ids now)
  ({ t with sourceEvents := sourceEvents },
    order.run (sourceEvents.filter fun e => decide (e.id ∈ ids)))

/-- A source event in a table one row of which is marked. -/
def AlertSourceEvent.markIn (id : ℕ) (claimedAt now : Time) (event : AlertSourceEvent V) :
    AlertSourceEvent V :=
  if event.id = id ∧ event.claimedAt = some claimedAt then { event with processedAt := some now }
  else event

/-- Mark a source event as processed, unless its claim was lost. -/
def markAlertSourceEventProcessed (id : ℕ) (claimedAt now : Time) (t : Tables I V) :
    Tables I V :=
  { t with sourceEvents := t.sourceEvents.map (AlertSourceEvent.markIn id claimedAt now) }

/-! ## Rules and silences -/

/-- The enabled rules for a kind of source event, by id. -/
def listEnabledAlertRules (kind : AlertSourceKind) (t : Tables I V) : List (AlertRule I) :=
  (t.rules.filter fun r => r.enabled && decide (r.criteria.sourceKind = kind)).insertionSort
    fun a b => a.id ≤ b.id

/-- The silences that cover a time, by id. -/
def listActiveAlertSilences (now : Time) (t : Tables I V) : List (AlertSilence I) :=
  (t.silences.filter fun s => decide (s.startsAt ≤ now ∧ now ≤ s.endsAt)).insertionSort
    fun a b => a.id ≤ b.id

/-! ## Alert events -/

/-- The source id of the event that an alert event was created for. -/
def sourceIdOf (t : Tables I V) (f : Firing I V) : Option Str :=
  (t.sourceEvents.find? fun e => e.id == f.event.sourceEventId).map AlertSourceEvent.sourceId

/-- Whether a rule has an alert event for a source id that is not older than `since`. -/
def ruleHasRecentAlertEvent (ruleId : ℕ) (sourceId : Str) (since : Time) (t : Tables I V) : Bool :=
  t.firings.any fun f =>
    f.event.ruleId == ruleId && sourceIdOf t f == some sourceId &&
      decide (since ≤ f.event.createdAt)

/-- Insert an alert event and one delivery attempt for each target of the rule, unless an
alert event has the delivery key already. -/
def insertAlertEventWithAttempts (now : Time) (rule : AlertRule I) (sourceEventId : ℕ)
    (deliveryKey title body : Str) (payload : V) (t : Tables I V) : Tables I V :=
  if t.firings.any fun f => f.event.deliveryKey == deliveryKey then t
  else
    { t with
      firings := t.firings ++ [⟨⟨t.nextEventId, rule.id, sourceEventId, deliveryKey,
        rule.triggerPolicy.severity, title, body, payload, now⟩, rule⟩]
      nextEventId := t.nextEventId + 1
      deliveries := insertAttempts now t.nextEventId deliveryKey rule.targets t.deliveries }

end Statements

/-! ## One rule and one event -/

section Evaluation

variable {I V D : Type} (env : Env I V D)

/-- The largest value of a 64-bit integer. -/
def I64_MAX : ℕ := 2 ^ 63 - 1

/-- The earliest time there is. -/
def MIN_UTC : Time := seconds (-8334601228800)

/-- The clock less the cooldown; `none` where the duration or the time does not exist, and
the subtraction panics. -/
def cooldownSince (utcNow : Time) (cooldownSecs : ℕ) : Option Time :=
  let secs := min cooldownSecs I64_MAX
  if I64_MAX / 1000 < secs then none
  else
    let since := utcNow - seconds secs
    if since < MIN_UTC then none else some since

/-- What becomes of a rule for an event. -/
inductive Verdict where
  | noMatch
  | silenced (silenceId : ℕ)
  | cooledDown
  | fire (title body : Str)
deriving DecidableEq, Repr

/-- Whether the rule is in its cooldown for the source id of the event. -/
def inCooldown (t : Tables I V) (utcNow : Time) (rule : AlertRule I) (event : AlertSourceEvent V) :
    Except AlertError Bool :=
  if 0 < rule.triggerPolicy.cooldownSecs then
    match cooldownSince utcNow rule.triggerPolicy.cooldownSecs with
    | none => .error .panic
    | some since => .ok (ruleHasRecentAlertEvent rule.id event.sourceId since t)
  else .ok false

/-- One turn of the loop over the rules, up to the insert. -/
def evaluateRule (t : Tables I V) (utcNow : Time) (event : AlertSourceEvent V)
    (metadata : Option D) (silences : List (AlertSilence I)) (rule : AlertRule I) :
    Except AlertError Verdict :=
  match eventMatchesCriteria env rule.criteria event metadata with
  | .error e => .error e
  | .ok false => .ok .noMatch
  | .ok true =>
      match matchingSilence env event metadata silences with
      | .error e => .error e
      | .ok (some silenceId) => .ok (.silenced silenceId)
      | .ok none =>
          match inCooldown t utcNow rule event with
          | .error e => .error e
          | .ok true => .ok .cooledDown
          | .ok false =>
              match renderRule env rule event with
              | .error e => .error e
              | .ok (title, body) => .ok (.fire title body)

end Evaluation

end Alert
