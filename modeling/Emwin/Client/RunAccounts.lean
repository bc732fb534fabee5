/-
# The stream and the telemetry of every run

The results about the client: what its stream says, what its counters show, and when the
watchdog ends a session.

The counters of the queue are changed by offers alone.  Every step changes the telemetry by
counting, offering and publishing (`Telemetry.Evolves`), so what offers keep is kept by every
run.
-/
import Emwin.Client.RunHistory

namespace Client

open Qbt Saturating Transition

variable {env : RuntimeEnv} {config : RuntimeConfig}

/-! ## Steps count, offer and publish -/

/-- What can become of the telemetry. -/
inductive Telemetry.Evolves (env : RuntimeEnv) (t : Telemetry) : Telemetry → Prop
  | refl : Evolves env t t
  | count {t' : Telemetry} (f : SessionCounters → SessionCounters) :
      Evolves env t t' → Evolves env t (t'.count f)
  | trySendEvent {t' : Telemetry} (item : StreamItem) :
      Evolves env t t' → Evolves env t (t'.trySendEvent env item)
  | updateSink {t' : Telemetry} : Evolves env t t' → Evolves env t t'.updateSink

namespace Telemetry.Evolves

variable {t t' : Telemetry}

theorem emitTelemetry (h : Evolves env t t') : Evolves env t (t'.emitTelemetry env) :=
  ((h.count _).trySendEvent _).updateSink

theorem runHandler (h : Evolves env t t') (event : QbtFrameEvent)
    (handler : ℕ → QbtFrameEvent → Option Str) :
    Evolves env t (Telemetry.runHandler env event t' handler) := by
  unfold Telemetry.runHandler
  split
  · exact h
  · exact (h.count _).trySendEvent _

theorem foldl_runHandler (h : Evolves env t t') (event : QbtFrameEvent)
    (handlers : List (ℕ → QbtFrameEvent → Option Str)) :
    Evolves env t (handlers.foldl (Telemetry.runHandler env event) t') := by
  induction handlers generalizing t' with
  | nil => exact h
  | cons handler handlers ih => exact ih (h.runHandler event handler)

theorem dispatchEvents (h : Evolves env t t') (events : List QbtFrameEvent) :
    Evolves env t (t'.dispatchEvents env events) := by
  induction events generalizing t' with
  | nil => exact h
  | cons event events ih => exact ih ((h.foldl_runHandler event env.handlers).trySendEvent _)

theorem foldl_followServerList (events : List QbtFrameEvent) (s : ServerListManager × Telemetry)
    (h : Evolves env t s.2) :
    Evolves env t (events.foldl (followServerList env config) s).2 := by
  induction events generalizing s with
  | nil => exact h
  | cons event events ih =>
      refine ih _ ?_
      unfold followServerList
      cases event with
      | dataBlock segment => exact h
      | warning w => exact h
      | serverListUpdate list =>
          dsimp only
          split_ifs
          · split
            · exact h.trySendEvent _
            · exact (h.count _).emitTelemetry
          · exact h

variable {s : State} {session : LiveSession} {n : ℕ}

theorem endSession (h : Evolves env t s.telemetry) (ending : SessionEnd) :
    Evolves env t (s.endSession env session n ending).telemetry := by
  refine updateSink (trySendEvent _ (count _ ?_))
  split
  · exact h
  · exact h.trySendEvent _

theorem goOn (h : Evolves env t s.telemetry) :
    Evolves env t (s.goOn env session n).telemetry := by
  unfold State.goOn
  split_ifs
  · exact h.endSession _
  · exact h

theorem writeLogon (h : Evolves env t s.telemetry) (write : Except ReceiverFailure Unit) :
    Evolves env t (s.writeLogon env session n write).telemetry := by
  unfold State.writeLogon
  cases write with
  | error err => exact h.endSession _
  | ok _ =>
      refine goOn ?_
      exact (h.count _).updateSink

theorem onRead (h : Evolves env t s.telemetry) (now : ℕ) (result : ReadResult) :
    Evolves env t (s.onRead env config session n now result).telemetry := by
  unfold State.onRead
  match result with
  | .bytes [] => exact h.endSession _
  | .bytes (b :: chunk) =>
      refine goOn (updateSink (dispatchEvents (foldl_followServerList _ _ ?_) _))
      dsimp only
      exact h.count _
  | .error message =>
      refine endSession ?_ _
      exact (h.count _).updateSink
  | .elapsed =>
      dsimp only
      split_ifs
      · refine endSession ?_ _
        exact (h.count _).updateSink
      · exact h.goOn

theorem takeTurn (h : Evolves env t s.telemetry) : Evolves env t (s.takeTurn env).telemetry := by
  unfold State.takeTurn
  split_ifs
  · exact h.updateSink
  · split
    · exact (h.trySendEvent _).updateSink
    · exact (h.count _).updateSink

end Telemetry.Evolves

/-- **Step.**  A step changes the telemetry by counting, offering and publishing. -/
theorem evolves_step {s s' : State} {act : Act} (hstep : step env config s act = some s') :
    Telemetry.Evolves env s.telemetry s'.telemetry := by
  have hrefl : Telemetry.Evolves env s.telemetry s.telemetry := .refl
  unfold step at hstep
  split at hstep
  · obtain rfl := Option.some.inj hstep
    exact hrefl
  · obtain rfl := Option.some.inj hstep
    exact hrefl.takeTurn
  · obtain rfl := Option.some.inj hstep
    exact ((hrefl.count _).trySendEvent _).updateSink
  · obtain rfl := Option.some.inj hstep
    refine Telemetry.Evolves.writeLogon ?_ _
    exact ((hrefl.count _).trySendEvent _).updateSink
  · obtain rfl := Option.some.inj hstep
    exact hrefl.endSession _
  · obtain rfl := Option.some.inj hstep
    exact hrefl.writeLogon _
  · obtain rfl := Option.some.inj hstep
    refine Telemetry.Evolves.goOn ?_
    exact hrefl.emitTelemetry
  · obtain rfl := Option.some.inj hstep
    exact hrefl.onRead _ _
  · cases hstep

/-! ## The counters of the queue -/

/-- The accounts of the drops, and what the snapshot shows of them. -/
structure QueueAgrees (t : Telemetry) : Prop where
  accounts : Accounts BackpressureDrop.droppedSinceLastReport BackpressureDrop.totalDroppedEvents
    t.runtime
  dropped : t.runtime.caller.eventQueueDropTotal = t.runtime.tracker.eventQueueDropTotal
  warned : t.runtime.caller.backpressureWarningEmittedTotal =
    shown (deliveredWarnings t.runtime.sends).length

/-- **Step.**  An offer keeps the counters of the queue. -/
theorem QueueAgrees.trySendEvent {t : Telemetry} (h : QueueAgrees t) (item : StreamItem) :
    QueueAgrees (t.trySendEvent env item) := by
  refine ⟨h.accounts.trySendWithBackpressureWarning (fun _ => rfl) (fun _ => rfl) _ _ _,
    Reporter.dropped_offer (fun c : QbtReceiverTelemetrySnapshot => c.eventQueueDropTotal)
      (fun _ => rfl) (fun _ _ => rfl) h.dropped item, ?_⟩
  have hwarned := h.warned
  rw [← Nat.zero_add (deliveredWarnings _).length] at hwarned ⊢
  exact Reporter.warned_offer
    (fun c : QbtReceiverTelemetrySnapshot => c.backpressureWarningEmittedTotal) (fun _ => rfl)
    (fun _ _ => rfl) hwarned item

/-- What offers keep is kept along a run. -/
theorem Telemetry.Evolves.queueAgrees {t t' : Telemetry} (h : Telemetry.Evolves env t t')
    (ht : QueueAgrees t) : QueueAgrees t' := by
  induction h with
  | refl => exact ht
  | count f _ ih =>
      exact ⟨⟨ih.accounts.total_shown, ih.accounts.reported, ih.accounts.stamped⟩, ih.dropped,
        ih.warned⟩
  | trySendEvent item _ ih => exact ih.trySendEvent item
  | updateSink _ ih => exact ⟨ih.accounts, ih.dropped, ih.warned⟩

/-- The accounts at the start. -/
theorem queueAgrees_start (env : RuntimeEnv) (config : RuntimeConfig)
    (persisted : Option (Except QbtReceiverError (List Endpoint))) :
    QueueAgrees (State.start env config persisted).telemetry := by
  have hfresh : QueueAgrees Telemetry.start := by
    refine ⟨⟨rfl, fun _ => rfl, ?_⟩, rfl, rfl⟩
    intro before w after h
    simp [Telemetry.start] at h
  have hload : ∀ loaded, QueueAgrees (Telemetry.afterLoad env loaded) := by
    rintro (err | _)
    · exact hfresh.trySendEvent _
    · exact hfresh
  refine Telemetry.Evolves.queueAgrees (.emitTelemetry (.count _ .refl) :
    Telemetry.Evolves env _ _) ?_
  split_ifs
  · exact hload _
  · exact hfresh

section Results

variable {persisted : Option (Except QbtReceiverError (List Endpoint))} {acts : List Act}
  {s : State}

/-- The accounts of the queue hold after every run. -/
theorem queueAgrees_exec
    (hrun : exec (step env config) (State.start env config persisted) acts = some s) :
    QueueAgrees s.telemetry :=
  exec_invariant (P := fun s => QueueAgrees s.telemetry)
    (fun _ _ _ h hstep => (evolves_step hstep).queueAgrees h) hrun
    (queueAgrees_start env config persisted)

/-! ## The results -/

/-- **The stream tells the history.**  After every run, what the client has offered to its
stream is, but for reports about itself and errors, one connection after another: that it was
made, the frames that a fresh decoder reads from all its bytes together, and, if it is over,
that it was lost. -/
theorem stream_tells_history
    (hrun : exec (step env config) (State.start env config persisted) acts = some s) :
    s.telemetry.items.filterMap essential? = (sessions s.history).flatMap fun r =>
      .connected (endpointLabel r.endpoint) ::
        ((feed env.codec (QbtProtocolDecoder.new config.decode) r.chunks.flatten).1.map .frame ++
          if r.ending.isSome then [.disconnected] else []) := by
  have hnew : Reachable env.codec config.decode (QbtProtocolDecoder.new config.decode) := .new
  rw [(ok_exec hrun).consistent.agrees.stream, transcript]
  refine List.flatMap_congr fun r _ => ?_
  rw [SessionRecord.transcript, SessionRecord.frames, feedAll_eq_feed hnew.ok.1 hnew.settled]
  rfl

/-- Surroundings in which one offer is refused and one handler fails. -/
def busyEnv : RuntimeEnv where
  codec := .bare
  answers n := if n = 2 then .full else .ok
  handlers := [fun _ _ => some "busy".toList]
  save _ _ := .ok ()

/-- A client with one server. -/
def oneServer : RuntimeConfig where
  servers := [("a.example".toList, 2211)]
  serverListPath := none
  followServerListUpdates := false
  decode := .default
  watchdogTimeoutSecs := 20
  maxExceptions := 10

/-- A session that falls silent behind a sync marker, a failed attempt, and the shutdown. -/
def silentActs : List Act :=
  [.turn, .connectOk 0 (.ok ()), .read 1000000000 (.bytes (xorFf (List.replicate 6 0))),
    .telemetryTick, .read 30000000000 .elapsed, .turn, .connectFailed "refused".toList,
    .signal, .turn]

/-- The theorem at this run. -/
theorem stream_tells_history_silent :
    ∃ s, exec (step busyEnv oneServer) (State.start busyEnv oneServer none) silentActs = some s ∧
      s.telemetry.items.filterMap essential? = (sessions s.history).flatMap fun r =>
        .connected (endpointLabel r.endpoint) ::
          ((feed .bare (QbtProtocolDecoder.new .default) r.chunks.flatten).1.map .frame ++
            if r.ending.isSome then [.disconnected] else []) :=
  ⟨_, rfl, @stream_tells_history busyEnv oneServer none silentActs _ rfl⟩

/-- **The telemetry tells the history.**  After every run the shared snapshot shows, of every
kind of thing it counts, how many there were. -/
theorem telemetry_tells_history
    (hrun : exec (step env config) (State.start env config persisted) acts = some s) :
    s.telemetry.sink.toSessionCounters =
        withReports s.telemetry.items s.telemetry.sink.activeServers
          (countersOf env config s.history) ∧
      s.telemetry.sink.backpressureWarningEmittedTotal =
        shown (deliveredWarnings s.telemetry.runtime.sends).length ∧
      s.telemetry.sink.eventQueueDropTotal = shown (fullSends s.telemetry.runtime.sends) := by
  have hok := (ok_exec hrun).consistent
  have hqueue := queueAgrees_exec hrun
  rw [hok.published]
  exact ⟨hok.agrees.counters, hqueue.warned, hqueue.dropped.trans hqueue.accounts.total_shown⟩

/-- The theorem at the run above. -/
theorem telemetry_tells_history_silent :
    ∃ s, exec (step busyEnv oneServer) (State.start busyEnv oneServer none) silentActs = some s ∧
      s.telemetry.sink.toSessionCounters =
        withReports s.telemetry.items s.telemetry.sink.activeServers
          (countersOf busyEnv oneServer s.history) ∧
      s.telemetry.sink.backpressureWarningEmittedTotal =
        shown (deliveredWarnings s.telemetry.runtime.sends).length ∧
      s.telemetry.sink.eventQueueDropTotal = shown (fullSends s.telemetry.runtime.sends) :=
  ⟨_, rfl, @telemetry_tells_history busyEnv oneServer none silentActs _ rfl⟩

/-- **The watchdog.**  In every run, a session that the watchdog has ended had heard nothing for
longer than the timeout; and a session that has heard nothing for so long is ended when the
next read is given up. -/
theorem watchdog_ends_silent_sessions
    (hrun : exec (step env config) (State.start env config persisted) acts = some s) :
    (∀ r ∈ sessions s.history, ∀ now, r.ending = some (.watchdogTimeout now) →
      config.patience < now - r.lastHeard) ∧
    ∀ session n now, s.phase = .connected session n →
      ∃ s', step env config s (.read now .elapsed) = some s' ∧
        ((∃ session' m, s'.phase = .connected session' m) ↔
          s.shutdown = false ∧ now - session.record.lastHeard ≤ config.patience) := by
  have hok := ok_exec hrun
  refine ⟨hok.consistent.silent, fun session n now hphase => ?_⟩
  have hlive := hok.live session n hphase
  have hclose : session.watchdog.shouldCloseAt now =
      decide (config.patience < now - session.record.lastHeard) := by
    rw [hlive.watchdog]
    show (decide (config.maxExceptions < 0) || _) = _
    rw [decide_eq_false (Nat.not_lt_zero _), Bool.false_or]
    rfl
  refine ⟨s.onRead env config session n now .elapsed, ?_, ?_⟩
  · unfold step
    rw [hphase]
  · unfold State.onRead
    dsimp only
    rw [hclose]
    by_cases hlong : config.patience < now - session.record.lastHeard
    · rw [if_pos (decide_eq_true hlong)]
      refine iff_of_false ?_ fun h => absurd h.2 (Nat.not_le.mpr hlong)
      rintro ⟨session', m, hphase'⟩
      cases hphase'
    · rw [if_neg (by simpa using hlong), State.goOn]
      cases hdown : s.shutdown with
      | false =>
          exact iff_of_true ⟨session, n, rfl⟩ ⟨rfl, Nat.not_lt.mp hlong⟩
      | true =>
          refine iff_of_false ?_ fun h => absurd h.1 Bool.noConfusion
          rintro ⟨session', m, hphase'⟩
          cases hphase'

/-- The theorem in the middle of the run above, before the session has been silent for long. -/
theorem watchdog_ends_silent_sessions_silent :
    ∃ s, exec (step busyEnv oneServer) (State.start busyEnv oneServer none)
        (silentActs.take 4) = some s ∧
      (∀ r ∈ sessions s.history, ∀ now, r.ending = some (.watchdogTimeout now) →
        oneServer.patience < now - r.lastHeard) ∧
      ∀ session n now, s.phase = .connected session n →
        ∃ s', step busyEnv oneServer s (.read now .elapsed) = some s' ∧
          ((∃ session' m, s'.phase = .connected session' m) ↔
            s.shutdown = false ∧ now - session.record.lastHeard ≤ oneServer.patience) :=
  ⟨_, rfl, @watchdog_ends_silent_sessions busyEnv oneServer none (silentActs.take 4) _ rfl⟩

end Results

end Client
