/-
# Dropped events and the warnings that report them

`runtime_support.rs` offers events to a bounded queue without waiting.  What does not fit is
dropped and counted, and the next call first offers a warning with the drops since the last
one.  The warning can be dropped as well, which counts as a drop like any other.

The helper is shared by the receivers: what its closures do is a parameter (`Hooks`), and
`try_send_event` of `client/runtime.rs` is one way to fill it in.  `sends` records what the
queue was offered and what it answered; no step depends on it.
-/
import Emwin.Lib.Saturating
import Mathlib.Algebra.BigOperators.Group.List.Basic
import Mathlib.Data.List.Induction

namespace Client

open Saturating

/-- The answers of a bounded queue to `try_send`. -/
inductive TrySend where
  | ok
  | full
  | closed
  deriving DecidableEq, Repr

/-! ## The tracker -/

/-- Tracks drops for the overflow of an event queue. -/
structure BackpressureTracker where
  eventQueueDropTotal : ℕ := 0
  droppedSinceLastReport : ℕ := 0
  deriving DecidableEq, Repr

namespace BackpressureTracker

/-- `has_pending_report`. -/
def hasPendingReport (t : BackpressureTracker) : Bool := 0 < t.droppedSinceLastReport

/-- `clear_pending_report`. -/
def clearPendingReport (t : BackpressureTracker) : BackpressureTracker :=
  { t with droppedSinceLastReport := 0 }

/-- `record_send_failure`: only a full queue counts. -/
def recordSendFailure (t : BackpressureTracker) (answer : TrySend) : BackpressureTracker :=
  if answer = .full then
    { eventQueueDropTotal := saturatingAdd t.eventQueueDropTotal 1
      droppedSinceLastReport := saturatingAdd t.droppedSinceLastReport 1 }
  else t

end BackpressureTracker

/-! ## Sending -/

/-- What is offered to the queue. -/
inductive Offer (W E : Type*) where
  | warning (w : W)
  | event (e : E)
  deriving DecidableEq, Repr

/-- The closures of `try_send_with_backpressure_warning`, which may change the state of the
caller. -/
structure Hooks (W S : Type*) where
  buildWarning : BackpressureTracker → W
  onWarningSent : S → S
  onDrop : BackpressureTracker → S → S

/-- The tracker, the state of the caller, and what the queue was offered so far. -/
structure Reporter (W E S : Type*) where
  tracker : BackpressureTracker
  caller : S
  sends : List (Offer W E × TrySend)

variable {W E S : Type*}

namespace Reporter

/-- Offer something to the queue; what a success means is up to the caller. -/
def trySend (r : Reporter W E S) (hooks : Hooks W S) (offer : Offer W E) (answer : TrySend) :
    Reporter W E S :=
  let tracker := if answer = .ok then r.tracker else r.tracker.recordSendFailure answer
  { tracker
    caller := if answer = .ok then r.caller else hooks.onDrop tracker r.caller
    sends := r.sends ++ [(offer, answer)] }

/-- The first half of `try_send_with_backpressure_warning`: report the drops that are pending. -/
def reportPending (r : Reporter W E S) (hooks : Hooks W S) (answer : TrySend) : Reporter W E S :=
  if r.tracker.hasPendingReport then
    let sent := r.trySend hooks (.warning (hooks.buildWarning r.tracker)) answer
    if answer = .ok then
      { sent with
        tracker := sent.tracker.clearPendingReport
        caller := hooks.onWarningSent sent.caller }
    else sent
  else r

/-- `try_send_with_backpressure_warning`, given how the queue answers the warning, if there is
one, and the event. -/
def trySendWithBackpressureWarning (r : Reporter W E S) (hooks : Hooks W S)
    (warningAnswer eventAnswer : TrySend) (event : E) : Reporter W E S :=
  (r.reportPending hooks warningAnswer).trySend hooks (.event event) eventAnswer

end Reporter

/-! ## What was sent -/

/-- How many offers met a full queue. -/
def fullSends (sends : List (Offer W E × TrySend)) : ℕ := sends.countP fun send => send.2 = .full

/-- The warning of an offer, if the queue took it. -/
def deliveredWarning : Offer W E × TrySend → Option W
  | (.warning w, .ok) => some w
  | _ => none

/-- The warnings that the queue took. -/
def deliveredWarnings (sends : List (Offer W E × TrySend)) : List W :=
  sends.filterMap deliveredWarning

@[simp] theorem fullSends_append (sends sends' : List (Offer W E × TrySend)) :
    fullSends (sends ++ sends') = fullSends sends + fullSends sends' := List.countP_append

@[simp] theorem fullSends_singleton (offer : Offer W E) (answer : TrySend) :
    fullSends [(offer, answer)] = if answer = .full then 1 else 0 := by
  simp [fullSends, List.countP_cons]

@[simp] theorem deliveredWarnings_append (sends sends' : List (Offer W E × TrySend)) :
    deliveredWarnings (sends ++ sends') = deliveredWarnings sends ++ deliveredWarnings sends' :=
  List.filterMap_append

/-! ## The accounts -/

section Accounts

variable {dropped total : W → ℕ}

/-- The tracker and the warnings agree with what was dropped. -/
structure Accounts (dropped total : W → ℕ) (r : Reporter W E S) : Prop where
  total_shown : r.tracker.eventQueueDropTotal = shown (fullSends r.sends)
  /-- Every drop is reported once or pending, as long as the counters do not saturate. -/
  reported : fullSends r.sends ≤ U64_MAX →
    ((deliveredWarnings r.sends).map dropped).sum + r.tracker.droppedSinceLastReport =
      fullSends r.sends
  /-- A warning carries the total of the drops before it. -/
  stamped : ∀ before w after, r.sends = before ++ (.warning w, .ok) :: after →
    total w = shown (fullSends before)

/-- An end of a list with one element more is an end of the list, or the element. -/
theorem append_cons_eq_concat {α : Type*} {before after l : List α} {a b : α}
    (h : l ++ [b] = before ++ a :: after) :
    (after = [] ∧ l = before ∧ a = b) ∨ ∃ after', l = before ++ a :: after' := by
  rcases List.eq_nil_or_concat after with rfl | ⟨after', c, rfl⟩
  · obtain ⟨rfl, hab⟩ := List.append_inj' h rfl
    exact Or.inl ⟨rfl, rfl, (List.singleton_inj.mp hab).symm⟩
  · refine Or.inr ⟨after', ?_⟩
    have hsplit : l ++ [b] = (before ++ a :: after') ++ [c] := by simpa using h
    exact (List.append_inj' hsplit rfl).1

/-- **Step.**  An offer that is no delivered warning keeps the accounts. -/
theorem Accounts.trySend {r : Reporter W E S} (h : Accounts dropped total r) (hooks : Hooks W S)
    (offer : Offer W E) (answer : TrySend) (hnone : deliveredWarning (offer, answer) = none) :
    Accounts dropped total (r.trySend hooks offer answer) := by
  have hdelivered : deliveredWarnings (r.sends ++ [(offer, answer)]) =
      deliveredWarnings r.sends := by
    simp [deliveredWarnings, hnone]
  refine ⟨?_, ?_, ?_⟩
  · show (if answer = .ok then r.tracker else r.tracker.recordSendFailure answer).eventQueueDropTotal
      = shown (fullSends (r.sends ++ [(offer, answer)]))
    rw [fullSends_append, fullSends_singleton]
    cases answer with
    | ok | closed => exact h.total_shown
    | full =>
        show saturatingAdd r.tracker.eventQueueDropTotal 1 = _
        rw [h.total_shown, saturatingAdd_shown]
        rfl
  · show fullSends (r.sends ++ [(offer, answer)]) ≤ U64_MAX →
      ((deliveredWarnings (r.sends ++ [(offer, answer)])).map dropped).sum +
        (if answer = .ok then r.tracker
          else r.tracker.recordSendFailure answer).droppedSinceLastReport =
        fullSends (r.sends ++ [(offer, answer)])
    rw [hdelivered, fullSends_append, fullSends_singleton]
    intro hfits
    cases answer with
    | ok | closed => exact h.reported hfits
    | full =>
        have hold := h.reported (by simp at hfits; omega)
        show _ + saturatingAdd r.tracker.droppedSinceLastReport 1 = _
        rw [saturatingAdd, if_pos rfl] at *
        omega
  · intro before w after hsends
    rcases append_cons_eq_concat hsends with ⟨-, -, heq⟩ | ⟨after', hsplit⟩
    · rw [← heq] at hnone
      cases hnone
    · exact h.stamped before w after' hsplit

/-- **Step.**  Reporting the pending drops keeps the accounts. -/
theorem Accounts.reportPending {r : Reporter W E S} (h : Accounts dropped total r)
    {hooks : Hooks W S} (hdropped : ∀ t, dropped (hooks.buildWarning t) = t.droppedSinceLastReport)
    (htotal : ∀ t, total (hooks.buildWarning t) = t.eventQueueDropTotal) (answer : TrySend) :
    Accounts dropped total (r.reportPending hooks answer) := by
  unfold Reporter.reportPending
  split
  · cases answer with
    | full | closed => exact h.trySend hooks _ _ rfl
    | ok =>
        -- what was pending is now in the warning
        refine ⟨?_, ?_, ?_⟩
        · show r.tracker.eventQueueDropTotal = shown (fullSends (r.sends ++ [_]))
          rw [fullSends_append, fullSends_singleton]
          exact h.total_shown
        · show fullSends (r.sends ++ [_]) ≤ U64_MAX →
            ((deliveredWarnings (r.sends ++ [_])).map dropped).sum + 0 = fullSends (r.sends ++ [_])
          rw [fullSends_append, fullSends_singleton, deliveredWarnings_append, List.map_append,
            List.sum_append]
          intro hfits
          have hold := h.reported hfits
          show _ + (dropped (hooks.buildWarning r.tracker) + 0) + 0 = _
          rw [hdropped]
          simpa using hold
        · intro before w after hsends
          rcases append_cons_eq_concat hsends with ⟨-, rfl, heq⟩ | ⟨after', hsplit⟩
          · obtain rfl : w = hooks.buildWarning r.tracker := by simpa using heq
            rw [htotal]
            exact h.total_shown
          · exact h.stamped before w after' hsplit
  · exact h

/-- **Step.**  A call of the helper keeps the accounts. -/
theorem Accounts.trySendWithBackpressureWarning {r : Reporter W E S}
    (h : Accounts dropped total r) {hooks : Hooks W S}
    (hdropped : ∀ t, dropped (hooks.buildWarning t) = t.droppedSinceLastReport)
    (htotal : ∀ t, total (hooks.buildWarning t) = t.eventQueueDropTotal)
    (warningAnswer eventAnswer : TrySend) (event : E) :
    Accounts dropped total
      (r.trySendWithBackpressureWarning hooks warningAnswer eventAnswer event) :=
  (h.reportPending hdropped htotal warningAnswer).trySend hooks _ _ rfl

end Accounts

/-! ## The events of the client -/

/-- The warning `BackpressureDrop`. -/
structure BackpressureDrop where
  droppedSinceLastReport : ℕ
  totalDroppedEvents : ℕ
  decoderRecoveryEvents : ℕ
  deriving DecidableEq, Repr

/-- The counters of the telemetry snapshot that the helper reads or writes. -/
structure TelemetryCounters where
  decoderRecoveryEventsTotal : ℕ := 0
  backpressureWarningEmittedTotal : ℕ := 0
  eventQueueDropTotal : ℕ := 0
  deriving DecidableEq, Repr

/-- The closures of `try_send_event`. -/
def eventHooks (decoderRecoveryEvents : ℕ) : Hooks BackpressureDrop TelemetryCounters where
  buildWarning tracker :=
    ⟨tracker.droppedSinceLastReport, tracker.eventQueueDropTotal, decoderRecoveryEvents⟩
  onWarningSent counters :=
    { counters with
      backpressureWarningEmittedTotal := saturatingAdd counters.backpressureWarningEmittedTotal 1 }
  onDrop tracker counters := { counters with eventQueueDropTotal := tracker.eventQueueDropTotal }

/-- A call of `try_send_event`: the event, what the decoder has recovered from by then, and how
the queue answers. -/
structure SendCall (E : Type*) where
  event : E
  decoderRecoveryEventsTotal : ℕ
  warningAnswer : TrySend
  eventAnswer : TrySend
  deriving DecidableEq, Repr

/-- `try_send_event`. -/
def trySendEvent (r : Reporter BackpressureDrop E TelemetryCounters) (call : SendCall E) :
    Reporter BackpressureDrop E TelemetryCounters :=
  let counters := { r.caller with decoderRecoveryEventsTotal := call.decoderRecoveryEventsTotal }
  { r with caller := counters }.trySendWithBackpressureWarning
    (eventHooks counters.decoderRecoveryEventsTotal) call.warningAnswer call.eventAnswer call.event

/-- A client that sends one event after another, from the start. -/
def sendEvents (calls : List (SendCall E)) : Reporter BackpressureDrop E TelemetryCounters :=
  calls.foldl trySendEvent ⟨{}, {}, []⟩

/-- **Step.**  A call keeps the accounts, which do not depend on the caller. -/
theorem accounts_trySendEvent {r : Reporter BackpressureDrop E TelemetryCounters}
    (h : Accounts BackpressureDrop.droppedSinceLastReport BackpressureDrop.totalDroppedEvents r)
    (call : SendCall E) :
    Accounts BackpressureDrop.droppedSinceLastReport BackpressureDrop.totalDroppedEvents
      (trySendEvent r call) := by
  have hcaller : Accounts BackpressureDrop.droppedSinceLastReport
      BackpressureDrop.totalDroppedEvents
      { r with caller :=
        { r.caller with decoderRecoveryEventsTotal := call.decoderRecoveryEventsTotal } } :=
    ⟨h.total_shown, h.reported, h.stamped⟩
  exact hcaller.trySendWithBackpressureWarning (fun _ => rfl) (fun _ => rfl) _ _ _

/-- **Run.**  The accounts agree after every sequence of calls. -/
theorem accounts_sendEvents (calls : List (SendCall E)) :
    Accounts BackpressureDrop.droppedSinceLastReport BackpressureDrop.totalDroppedEvents
      (sendEvents calls) := by
  induction calls using List.reverseRecOn with
  | nil => exact ⟨rfl, fun _ => rfl, by rintro before w after h; simp [sendEvents] at h⟩
  | append_singleton calls call ih =>
      rw [sendEvents, List.foldl_append]
      exact accounts_trySendEvent ih call

/-- **No drop is lost or reported twice.**  After every sequence of calls, and as long as no
counter saturates, the drops in the warnings that were delivered and the drops that are pending
add up to the total, which is the number of offers that met a full queue; and every delivered
warning carries the total of its time. -/
theorem sendEvents_accounting (calls : List (SendCall E))
    (hfits : fullSends (sendEvents calls).sends ≤ U64_MAX) :
    ((deliveredWarnings (sendEvents calls).sends).map
          BackpressureDrop.droppedSinceLastReport).sum +
        (sendEvents calls).tracker.droppedSinceLastReport =
      (sendEvents calls).tracker.eventQueueDropTotal ∧
    (sendEvents calls).tracker.eventQueueDropTotal = fullSends (sendEvents calls).sends ∧
    ∀ before w after, (sendEvents calls).sends = before ++ (.warning w, .ok) :: after →
      w.totalDroppedEvents = fullSends before := by
  have h := accounts_sendEvents calls
  have htotal : (sendEvents calls).tracker.eventQueueDropTotal =
      fullSends (sendEvents calls).sends := by
    rw [h.total_shown, shown_eq_self hfits]
  refine ⟨by rw [h.reported hfits, htotal], htotal, ?_⟩
  intro before w after hsends
  rw [h.stamped before w after hsends, shown_eq_self]
  rw [hsends, fullSends_append] at hfits
  omega

/-- Two events meet a full queue, with a warning in between that does as well; the warning of
the third call is delivered. -/
def congestedCalls : List (SendCall Unit) :=
  [⟨(), 0, .ok, .full⟩, ⟨(), 0, .full, .closed⟩, ⟨(), 3, .ok, .full⟩]

theorem sendEvents_accounting_congested :
    deliveredWarnings (sendEvents congestedCalls).sends = [⟨2, 2, 3⟩] ∧
      2 + (sendEvents congestedCalls).tracker.droppedSinceLastReport =
        (sendEvents congestedCalls).tracker.eventQueueDropTotal ∧
      (sendEvents congestedCalls).tracker.eventQueueDropTotal = 3 := by
  have hwarnings : deliveredWarnings (sendEvents congestedCalls).sends = [⟨2, 2, 3⟩] := by decide
  obtain ⟨hsum, htotal, -⟩ := sendEvents_accounting congestedCalls (by decide)
  rw [hwarnings] at hsum
  exact ⟨hwarnings, hsum, htotal⟩

end Client
