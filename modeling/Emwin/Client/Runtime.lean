/-
# The event stream and the telemetry of the client

What `client/runtime.rs` puts into the event queue, and the counters it keeps.  Every event
goes through `try_send_event`, which may drop it, so the counters and the stream are changed
together: `Telemetry` is the state of both, with the snapshot that other tasks can read.

How the queue answers is an input.  An answer depends on how many offers were made before, so
that any consumer, however it interleaves with the client, is covered.
-/
import Emwin.Client.Backpressure
import Emwin.Client.ConnectionLoop

namespace Client

open Qbt Saturating

/-! ## Offers to a queue with given answers -/

section Offers

variable {W E S : Type*}

namespace Reporter

variable (answers : ℕ → TrySend) (hooks : Hooks W S)

/-- `try_send_with_backpressure_warning`, the answers taken in turn. -/
def offer (event : E) (r : Reporter W E S) : Reporter W E S :=
  let reported := r.reportPending hooks (answers r.sends.length)
  r.trySendWithBackpressureWarning hooks (answers r.sends.length)
    (answers reported.sends.length) event

/-- The events among the offers. -/
def events (r : Reporter W E S) : List E :=
  r.sends.filterMap fun send => match send.1 with
    | .event e => some e
    | .warning _ => none

/-- What the queue took, in order. -/
def accepted (r : Reporter W E S) : List (Offer W E) :=
  (r.sends.filter fun send => send.2 = .ok).map Prod.fst

variable {answers hooks}

/-- An offer adds its event to the events, whatever becomes of it. -/
theorem events_offer (event : E) (r : Reporter W E S) :
    (r.offer answers hooks event).events = r.events ++ [event] := by
  have hreported : (r.reportPending hooks (answers r.sends.length)).events = r.events := by
    unfold reportPending
    split
    · -- a warning is no event
      cases answers r.sends.length with
      | ok | full | closed => simp [events, trySend]
    · rfl
  rw [← hreported]
  show List.filterMap _ (_ ++ [_]) = _
  rw [List.filterMap_append]
  rfl

/-- **Offers.**  What both halves of an offer keep, an offer keeps: a report of the drops, if
there is one, and an offer that is no delivered warning. -/
theorem offer_induction {P : Reporter W E S → Prop} {r : Reporter W E S} (hr : P r)
    (hsend : ∀ (r : Reporter W E S) (offer : Offer W E) (answer : TrySend),
      deliveredWarning (offer, answer) = none → P r → P (r.trySend hooks offer answer))
    (hwarning : ∀ r : Reporter W E S, P r → P
      { tracker := r.tracker.clearPendingReport
        caller := hooks.onWarningSent r.caller
        sends := r.sends ++ [(.warning (hooks.buildWarning r.tracker), .ok)] }) (event : E) :
    P (r.offer answers hooks event) := by
  have hreported : P (r.reportPending hooks (answers r.sends.length)) := by
    unfold reportPending
    split
    · cases answers r.sends.length with
      | ok => exact hwarning r hr
      | full | closed => exact hsend _ _ _ rfl hr
    · exact hr
  refine hsend _ _ _ ?_ hreported
  cases answers (r.reportPending hooks (answers r.sends.length)).sends.length <;> rfl

/-- What the closures leave alone, an offer leaves alone. -/
theorem caller_offer {β : Type*} (f : S → β) (hwarning : ∀ s, f (hooks.onWarningSent s) = f s)
    (hdrop : ∀ t s, f (hooks.onDrop t s) = f s) (event : E) (r : Reporter W E S) :
    f (r.offer answers hooks event).caller = f r.caller := by
  refine offer_induction (P := fun s => f s.caller = f r.caller) rfl ?_ ?_ event
  · intro s offer answer _ hs
    show f (if answer = .ok then s.caller else hooks.onDrop _ s.caller) = _
    split
    · exact hs
    · exact (hdrop _ _).trans hs
  · intro s hs
    exact (hwarning _).trans hs

/-- A counter that the closures raise for every warning counts the delivered ones. -/
theorem warned_offer (f : S → ℕ) {k : ℕ}
    (hwarning : ∀ s, f (hooks.onWarningSent s) = saturatingAdd (f s) 1)
    (hdrop : ∀ t s, f (hooks.onDrop t s) = f s) {r : Reporter W E S}
    (h : f r.caller = shown (k + (deliveredWarnings r.sends).length)) (event : E) :
    f (r.offer answers hooks event).caller =
      shown (k + (deliveredWarnings (r.offer answers hooks event).sends).length) := by
  refine offer_induction
    (P := fun s => f s.caller = shown (k + (deliveredWarnings s.sends).length)) h ?_ ?_ event
  · intro s offer answer hnone hs
    have hdelivered : deliveredWarnings (s.sends ++ [(offer, answer)]) =
        deliveredWarnings s.sends := by
      simp [deliveredWarnings, hnone]
    show f (if answer = .ok then s.caller else hooks.onDrop _ s.caller) =
      shown (k + (deliveredWarnings (s.sends ++ [(offer, answer)])).length)
    rw [hdelivered]
    split
    · exact hs
    · exact (hdrop _ _).trans hs
  · intro s hs
    rw [hwarning, hs, deliveredWarnings_append, List.length_append, saturatingAdd_shown,
      Nat.add_assoc]
    rfl

/-- A counter that the closures set for every drop shows the drops of the tracker. -/
theorem dropped_offer (f : S → ℕ) (hwarning : ∀ s, f (hooks.onWarningSent s) = f s)
    (hdrop : ∀ t s, f (hooks.onDrop t s) = t.eventQueueDropTotal) {r : Reporter W E S}
    (h : f r.caller = r.tracker.eventQueueDropTotal) (event : E) :
    f (r.offer answers hooks event).caller =
      (r.offer answers hooks event).tracker.eventQueueDropTotal := by
  refine offer_induction (P := fun s => f s.caller = s.tracker.eventQueueDropTotal) h ?_ ?_ event
  · intro s offer answer _ hs
    show f (if answer = .ok then s.caller else hooks.onDrop _ s.caller) =
      (if answer = .ok then s.tracker
        else s.tracker.recordSendFailure answer).eventQueueDropTotal
    split
    · exact hs
    · exact hdrop _ _
  · intro s hs
    exact (hwarning _).trans hs

end Reporter

end Offers

/-! ## The snapshot -/

/-- The counters of a telemetry snapshot that the client changes itself. -/
structure SessionCounters where
  connectionAttemptsTotal : ℕ := 0
  connectionSuccessTotal : ℕ := 0
  connectionFailTotal : ℕ := 0
  disconnectTotal : ℕ := 0
  watchdogTimeoutsTotal : ℕ := 0
  watchdogExceptionEventsTotal : ℕ := 0
  authLogonSentTotal : ℕ := 0
  bytesInTotal : ℕ := 0
  frameEventsTotal : ℕ := 0
  dataBlocksEmittedTotal : ℕ := 0
  activeServers : ℕ := 0
  serverListUpdatesTotal : ℕ := 0
  checksumMismatchTotal : ℕ := 0
  decompressionFailedTotal : ℕ := 0
  decoderRecoveryEventsTotal : ℕ := 0
  handlerFailuresTotal : ℕ := 0
  telemetryEventsEmittedTotal : ℕ := 0
  deriving DecidableEq, Repr

/-- The counters of a telemetry snapshot that an offer changes. -/
structure QueueCounters where
  backpressureWarningEmittedTotal : ℕ := 0
  eventQueueDropTotal : ℕ := 0
  deriving DecidableEq, Repr

/-- Snapshot of client telemetry counters. -/
structure QbtReceiverTelemetrySnapshot extends SessionCounters, QueueCounters
  deriving DecidableEq, Repr

/-! ## The stream -/

/-- The protocol warnings that are the client's and not the decoder's. -/
inductive ClientWarning where
  | handlerError (message : Str)
  | backpressureDrop (w : BackpressureDrop)
  deriving DecidableEq, Repr

/-- Events emitted by the client.  A frame with a warning of the client is a constructor of
its own. -/
inductive QbtReceiverEvent where
  | frame (event : QbtFrameEvent)
  | clientWarning (w : ClientWarning)
  | connected (endpoint : Str)
  | disconnected
  | telemetry (snapshot : QbtReceiverTelemetrySnapshot)
  deriving DecidableEq, Repr

/-- The errors that the client puts into its stream. -/
inductive ReceiverFailure where
  | receiver (e : QbtReceiverError)
  | writeTimeout
  deriving DecidableEq, Repr

/-- An item of the stream. -/
abbrev StreamItem := Except ReceiverFailure QbtReceiverEvent

/-- The item that an offer stands for. -/
def offeredItem : Offer BackpressureDrop StreamItem → StreamItem
  | .warning w => .ok (.clientWarning (.backpressureDrop w))
  | .event item => item

/-- What a run of the client takes from its surroundings.  The numbers count the offers made
before, so that an answer may depend on the time. -/
structure RuntimeEnv where
  codec : CodecEnv
  /-- The answers of the event queue. -/
  answers : ℕ → TrySend
  /-- The handlers: the message of the error, if one fails. -/
  handlers : List (ℕ → QbtFrameEvent → Option Str)
  /-- Whether a server list of the feed can be saved. -/
  save : ℕ → QbtServerList → Except QbtReceiverError Unit

/-- The closures of `try_send_event`. -/
def telemetryHooks (decoderRecoveryEvents : ℕ) :
    Hooks BackpressureDrop QbtReceiverTelemetrySnapshot where
  buildWarning tracker :=
    ⟨tracker.droppedSinceLastReport, tracker.eventQueueDropTotal, decoderRecoveryEvents⟩
  onWarningSent snapshot :=
    { snapshot with
      backpressureWarningEmittedTotal := saturatingAdd snapshot.backpressureWarningEmittedTotal 1 }
  onDrop tracker snapshot := { snapshot with eventQueueDropTotal := tracker.eventQueueDropTotal }

/-- `RuntimeTelemetry` with the offers so far, and the snapshot that is shared. -/
structure Telemetry where
  runtime : Reporter BackpressureDrop StreamItem QbtReceiverTelemetrySnapshot
  sink : QbtReceiverTelemetrySnapshot

namespace Telemetry

/-- The telemetry before anything is offered. -/
def start : Telemetry := ⟨⟨{}, {}, []⟩, {}⟩

/-- The current counters. -/
def counters (t : Telemetry) : SessionCounters := t.runtime.caller.toSessionCounters

/-- The items offered to the stream, without the warnings about drops. -/
def items (t : Telemetry) : List StreamItem := t.runtime.events

/-- Change counters. -/
def count (f : SessionCounters → SessionCounters) (t : Telemetry) : Telemetry :=
  { t with
    runtime :=
      { t.runtime with
        caller := { t.runtime.caller with toSessionCounters := f t.counters } } }

/-- `update_telemetry_sink`. -/
def updateSink (t : Telemetry) : Telemetry := { t with sink := t.runtime.caller }

variable (env : RuntimeEnv)

/-- `try_send_event`. -/
def trySendEvent (item : StreamItem) (t : Telemetry) : Telemetry :=
  { t with
    runtime := t.runtime.offer env.answers
      (telemetryHooks t.counters.decoderRecoveryEventsTotal) item }

/-- `sync_active_servers`. -/
def syncActiveServers (serverList : ServerListManager) (t : Telemetry) : Telemetry :=
  t.count fun c => { c with activeServers := serverList.endpointCount }

/-- `emit_telemetry`. -/
def emitTelemetry (t : Telemetry) : Telemetry :=
  let t := t.count fun c =>
    { c with telemetryEventsEmittedTotal := saturatingAdd c.telemetryEventsEmittedTotal 1 }
  (t.trySendEvent env (.ok (.telemetry t.runtime.caller))).updateSink

/-- What one handler does with a frame: a failure is counted and reported. -/
def runHandler (event : QbtFrameEvent) (t : Telemetry)
    (handler : ℕ → QbtFrameEvent → Option Str) : Telemetry :=
  match handler t.runtime.sends.length event with
  | none => t
  | some message =>
      (t.count fun c => { c with handlerFailuresTotal := saturatingAdd c.handlerFailuresTotal 1 })
        |>.trySendEvent env (.ok (.clientWarning (.handlerError message)))

/-- `dispatch_events` for one frame. -/
def dispatchEvent (t : Telemetry) (event : QbtFrameEvent) : Telemetry :=
  (env.handlers.foldl (runHandler env event) t).trySendEvent env (.ok (.frame event))

/-- `dispatch_events`. -/
def dispatchEvents (t : Telemetry) (events : List QbtFrameEvent) : Telemetry :=
  events.foldl (dispatchEvent env) t

end Telemetry

/-! ## What changes what -/

namespace Telemetry

variable {env : RuntimeEnv} (t : Telemetry)

@[simp] theorem counters_count (f : SessionCounters → SessionCounters) :
    (t.count f).counters = f t.counters := rfl

@[simp] theorem items_count (f : SessionCounters → SessionCounters) :
    (t.count f).items = t.items := rfl

@[simp] theorem counters_updateSink : t.updateSink.counters = t.counters := rfl

@[simp] theorem items_updateSink : t.updateSink.items = t.items := rfl

@[simp] theorem counters_trySendEvent (item : StreamItem) :
    (t.trySendEvent env item).counters = t.counters :=
  Reporter.caller_offer QbtReceiverTelemetrySnapshot.toSessionCounters (fun _ => rfl)
    (fun _ _ => rfl) item t.runtime

@[simp] theorem items_trySendEvent (item : StreamItem) :
    (t.trySendEvent env item).items = t.items ++ [item] := Reporter.events_offer item t.runtime

end Telemetry

end Client

/-!
# The run of the client

`run_connection_loop` and `run_connected_session` of `client/runtime.rs` as one state machine.
An act is what the loop finds when it stops waiting: the result of a connection attempt, a
tick, a read or its timeout, a signal.  Every branch of the two loops is a step, with the
events and the counters it changes.

The steps keep a record of the attempts and of what was read on each connection; no step
depends on it.
-/

namespace Client

open Qbt Saturating

/-! ## The watchdog -/

/-- Connection health policy used by the runtime read loop, times in nanoseconds. -/
structure Watchdog where
  timeout : ℕ
  maxExceptions : ℕ
  exceptionCount : ℕ
  lastData : ℕ
  deriving DecidableEq, Repr

namespace Watchdog

/-- `Watchdog::new`: the timeout is at least one second. -/
def new (timeoutSecs maxExceptions now : ℕ) : Watchdog where
  timeout := max timeoutSecs 1 * 1000000000
  maxExceptions
  exceptionCount := 0
  lastData := now

/-- `on_data_received`. -/
def onDataReceived (w : Watchdog) (now : ℕ) : Watchdog :=
  { w with exceptionCount := 0, lastData := now }

/-- `on_exception`. -/
def onException (w : Watchdog) : Watchdog :=
  { w with exceptionCount := (w.exceptionCount + 1) % 2 ^ 32 }

/-- `should_close_at`. -/
def shouldCloseAt (w : Watchdog) (now : ℕ) : Bool :=
  w.maxExceptions < w.exceptionCount || w.timeout < now - w.lastData

end Watchdog

/-! ## Attempts and sessions -/

/-- Why a session ended. -/
inductive SessionEnd where
  | closed
  | shutdown
  | writeFailed (e : ReceiverFailure)
  | readFailed (message : Str)
  | watchdogTimeout (now : ℕ)
  deriving DecidableEq, Repr

/-- The error that `run_connected_session` returns. -/
def SessionEnd.error? : SessionEnd → Option ReceiverFailure
  | .closed | .shutdown => none
  | .writeFailed e => some e
  | .readFailed message => some (.receiver (.io message))
  | .watchdogTimeout _ => some (.receiver (.lifecycle "watchdog timeout".toList))

/-- What happened on a connection. -/
structure SessionRecord where
  endpoint : Endpoint
  since : ℕ
  /-- What was read, and when. -/
  reads : List (ℕ × List UInt8)
  /-- How many logon messages were sent. -/
  logons : ℕ
  ending : Option SessionEnd
  deriving DecidableEq, Repr

/-- The record after another read. -/
def SessionRecord.addRead (r : SessionRecord) (now : ℕ) (chunk : List UInt8) : SessionRecord :=
  { r with reads := r.reads ++ [(now, chunk)] }

/-- An attempt to connect. -/
inductive Attempt where
  | connecting (endpoint : Endpoint)
  | failed (endpoint : Endpoint)
  | session (record : SessionRecord)
  deriving DecidableEq, Repr

/-! ## The state -/

/-- The parts of the configuration that the two loops read. -/
structure RuntimeConfig extends QbtReceiverConfig where
  watchdogTimeoutSecs : ℕ
  maxExceptions : ℕ
  deriving DecidableEq, Repr

/-- A session that is running. -/
structure LiveSession where
  decoder : QbtProtocolDecoder
  watchdog : Watchdog
  record : SessionRecord

/-- Where the loop is. -/
inductive Phase where
  /-- Before a turn of the connection loop. -/
  | turn
  | connecting (endpoint : Endpoint) (endpointCount : ℕ)
  | connected (session : LiveSession) (endpointCount : ℕ)
  | stopped

/-- The state of the client. -/
structure State where
  phase : Phase
  serverList : ServerListManager
  attemptsInPass : ℕ
  /-- The value of the shutdown channel. -/
  shutdown : Bool
  telemetry : Telemetry
  /-- The attempts that are over. -/
  finished : List Attempt

/-- What a read returns within a second. -/
inductive ReadResult where
  /-- Nothing at the end of the stream. -/
  | bytes (chunk : List UInt8)
  | error (message : Str)
  | elapsed
  deriving DecidableEq, Repr

/-- What the client meets. -/
inductive Act where
  /-- The shutdown is signalled. -/
  | signal
  /-- The loop goes on. -/
  | turn
  | connectFailed (message : Str)
  /-- The connection is established, and the first logon message is written or not. -/
  | connectOk (now : ℕ) (logon : Except ReceiverFailure Unit)
  /-- The shutdown channel has a new value, or has lost its sender. -/
  | shutdownChanged
  | authTick (write : Except ReceiverFailure Unit)
  | telemetryTick
  | read (now : ℕ) (result : ReadResult)
  deriving DecidableEq, Repr

/-- `endpoint_label`. -/
def endpointLabel (e : Endpoint) : Str := e.1 ++ ':' :: Str.ofNat e.2.toNat

section Steps

variable (env : RuntimeEnv) (config : RuntimeConfig)

/-- A server list that cannot be loaded is reported. -/
def Telemetry.afterLoad : Except QbtReceiverError Unit → Telemetry
  | .ok () => .start
  | .error err => Telemetry.start.trySendEvent env (.error (.receiver err))

/-- The state before the first turn, given what is found at the path of the server list. -/
def State.start (persisted : Option (Except QbtReceiverError (List Endpoint))) : State :=
  let loaded := (ServerListManager.new config.serverListPath config.servers).load persisted
  let serverList :=
    if config.followServerListUpdates then loaded.2
    else ServerListManager.new config.serverListPath config.servers
  let telemetry :=
    if config.followServerListUpdates then Telemetry.afterLoad env loaded.1 else Telemetry.start
  { phase := .turn
    serverList
    attemptsInPass := 0
    shutdown := false
    telemetry := (telemetry.syncActiveServers serverList).emitTelemetry env
    finished := [] }

/-! ## The connection loop -/

/-- The top of the loop: stop, complain about a missing server, or begin to connect. -/
def State.takeTurn (s : State) : State :=
  if s.shutdown then { s with phase := .stopped, telemetry := s.telemetry.updateSink }
  else match s.serverList.nextEndpoint with
    | (none, _) =>
        { s with
          telemetry := (s.telemetry.trySendEvent env
            (.error (.receiver (.lifecycle "no servers configured".toList)))).updateSink }
    | (some endpoint, serverList) =>
        { s with
          phase := .connecting endpoint s.serverList.endpointCount
          serverList
          attemptsInPass := s.attemptsInPass + 1
          telemetry := (s.telemetry.count fun c =>
            { c with
              connectionAttemptsTotal := saturatingAdd c.connectionAttemptsTotal 1 }).updateSink }

/-- The end of a turn: a failed pass starts over. -/
def State.endTurn (s : State) (endpointCount : ℕ) (attempt : Attempt) : State :=
  { s with
    phase := .turn
    attemptsInPass :=
      if !s.shutdown && completedFailedPass s.attemptsInPass endpointCount then 0
      else s.attemptsInPass
    finished := s.finished ++ [attempt] }

/-- The attempt has failed. -/
def State.connectFailed (s : State) (endpoint : Endpoint) (endpointCount : ℕ) (message : Str) :
    State :=
  let telemetry := s.telemetry.count fun c =>
    { c with connectionFailTotal := saturatingAdd c.connectionFailTotal 1 }
  { s with
    telemetry := (telemetry.trySendEvent env (.error (.receiver (.io message)))).updateSink }
    |>.endTurn endpointCount (.failed endpoint)

/-- The end of a session, and of its turn. -/
def State.endSession (s : State) (session : LiveSession) (endpointCount : ℕ)
    (ending : SessionEnd) : State :=
  let telemetry := match ending.error? with
    | none => s.telemetry
    | some err => s.telemetry.trySendEvent env (.error err)
  let telemetry := telemetry.count fun c =>
    { c with disconnectTotal := saturatingAdd c.disconnectTotal 1 }
  { s with telemetry := (telemetry.trySendEvent env (.ok .disconnected)).updateSink }
    |>.endTurn endpointCount (.session { session.record with ending := some ending })

/-! ## The session -/

/-- The top of the session loop: a session ends once the shutdown is signalled. -/
def State.goOn (s : State) (session : LiveSession) (endpointCount : ℕ) : State :=
  if s.shutdown then s.endSession env session endpointCount .shutdown
  else { s with phase := .connected session endpointCount }

/-- A logon message is written or the session ends. -/
def State.writeLogon (s : State) (session : LiveSession) (endpointCount : ℕ)
    (write : Except ReceiverFailure Unit) : State :=
  match write with
  | .error err => s.endSession env session endpointCount (.writeFailed err)
  | .ok () =>
      let telemetry := s.telemetry.count fun c =>
        { c with authLogonSentTotal := saturatingAdd c.authLogonSentTotal 1 }
      { s with telemetry := telemetry.updateSink }.goOn env
        { session with record := { session.record with logons := session.record.logons + 1 } }
        endpointCount

/-- The connection is established: a session begins with a logon message. -/
def State.connectOk (s : State) (endpoint : Endpoint) (endpointCount now : ℕ)
    (logon : Except ReceiverFailure Unit) : State :=
  let telemetry := s.telemetry.count fun c =>
    { c with connectionSuccessTotal := saturatingAdd c.connectionSuccessTotal 1 }
  { s with
    attemptsInPass := 0
    telemetry :=
      (telemetry.trySendEvent env (.ok (.connected (endpointLabel endpoint)))).updateSink }
    |>.writeLogon env
      { decoder := QbtProtocolDecoder.new config.decode
        watchdog := .new config.watchdogTimeoutSecs config.maxExceptions now
        record := ⟨endpoint, now, [], 0, none⟩ }
      endpointCount logon

/-! ### Data -/

/-- Whether an event is a data block. -/
def isDataBlock : QbtFrameEvent → Bool
  | .dataBlock _ => true
  | _ => false

/-- Whether an event is a server list. -/
def isServerListUpdate : QbtFrameEvent → Bool
  | .serverListUpdate _ => true
  | _ => false

/-- Whether an event is the warning about a wrong checksum. -/
def isChecksumMismatch : QbtFrameEvent → Bool
  | .warning (.checksumMismatch _ _) => true
  | _ => false

/-- Whether an event is the warning about a body that does not inflate. -/
def isDecompressionFailure : QbtFrameEvent → Bool
  | .warning (.decompressionFailed _ _ _) => true
  | _ => false

/-- Whether an event is the warning that the decoder has recovered. -/
def isDecoderRecovery : QbtFrameEvent → Bool
  | .warning (.decoderRecovered _) => true
  | _ => false

/-- The counters of the events of a read. -/
def countEvents (events : List QbtFrameEvent) (c : SessionCounters) : SessionCounters :=
  { c with
    decoderRecoveryEventsTotal :=
      saturatingAdd c.decoderRecoveryEventsTotal (events.countP isDecoderRecovery)
    frameEventsTotal := saturatingAdd c.frameEventsTotal events.length
    dataBlocksEmittedTotal := saturatingAdd c.dataBlocksEmittedTotal (events.countP isDataBlock)
    serverListUpdatesTotal :=
      saturatingAdd c.serverListUpdatesTotal (events.countP isServerListUpdate)
    checksumMismatchTotal :=
      saturatingAdd c.checksumMismatchTotal (events.countP isChecksumMismatch)
    decompressionFailedTotal :=
      saturatingAdd c.decompressionFailedTotal (events.countP isDecompressionFailure) }

/-- `apply_server_list_update` for one event, if the client follows the lists of the feed. -/
def followServerList (s : ServerListManager × Telemetry) (event : QbtFrameEvent) :
    ServerListManager × Telemetry :=
  match event with
  | .serverListUpdate list =>
      if config.followServerListUpdates then
        let saved := env.save s.2.runtime.sends.length list
        match s.1.applyServerList list saved with
        | (.error err, m) => (m, s.2.trySendEvent env (.error (.receiver err)))
        | (.ok (), m) => (m, (s.2.syncActiveServers m).emitTelemetry env)
      else s
  | .dataBlock _ | .warning _ => s

/-- Bytes are read. -/
def State.onData (s : State) (session : LiveSession) (endpointCount now : ℕ)
    (chunk : List UInt8) : State :=
  let fed := feed env.codec session.decoder chunk
  let telemetry := s.telemetry.count fun c =>
    countEvents fed.1 { c with bytesInTotal := saturatingAdd c.bytesInTotal chunk.length }
  let followed := fed.1.foldl (followServerList env config) (s.serverList, telemetry)
  { s with
    serverList := followed.1
    telemetry := (followed.2.dispatchEvents env fed.1).updateSink }.goOn env
    { decoder := fed.2
      watchdog := session.watchdog.onDataReceived now
      record := session.record.addRead now chunk }
    endpointCount

/-- A read has returned, or was given up after a second. -/
def State.onRead (s : State) (session : LiveSession) (endpointCount now : ℕ)
    (result : ReadResult) : State :=
  match result with
  | .bytes [] => s.endSession env session endpointCount .closed
  | .bytes (b :: chunk) => s.onData env config session endpointCount now (b :: chunk)
  | .error message =>
      let telemetry := s.telemetry.count fun c =>
        { c with
          watchdogExceptionEventsTotal := saturatingAdd c.watchdogExceptionEventsTotal 1 }
      { s with telemetry := telemetry.updateSink }.endSession env
        { session with watchdog := session.watchdog.onException } endpointCount
        (.readFailed message)
  | .elapsed =>
      if session.watchdog.shouldCloseAt now then
        let telemetry := s.telemetry.count fun c =>
          { c with watchdogTimeoutsTotal := saturatingAdd c.watchdogTimeoutsTotal 1 }
        { s with telemetry := telemetry.updateSink }.endSession env session endpointCount
          (.watchdogTimeout now)
      else s.goOn env session endpointCount

/-! ## The machine -/

/-- One step; `none` where the loop does not wait for the act. -/
def step (s : State) (act : Act) : Option State :=
  match s.phase, act with
  | _, .signal => some { s with shutdown := true }
  | .turn, .turn => some (s.takeTurn env)
  | .connecting endpoint n, .connectFailed message => some (s.connectFailed env endpoint n message)
  | .connecting endpoint n, .connectOk now logon => some (s.connectOk env config endpoint n now logon)
  | .connected session n, .shutdownChanged => some (s.endSession env session n .shutdown)
  | .connected session n, .authTick write => some (s.writeLogon env session n write)
  | .connected session n, .telemetryTick =>
      some ({ s with telemetry := s.telemetry.emitTelemetry env }.goOn env session n)
  | .connected session n, .read now result => some (s.onRead env config session n now result)
  | _, _ => none

end Steps

end Client
