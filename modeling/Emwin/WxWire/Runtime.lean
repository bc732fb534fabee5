/-
# The run of the Weather Wire client

`run_weather_wire_loop` of `wxwire_receiver/client/runtime.rs` as a state machine.  One task
connects, waits longer after every failure, feeds the stanzas of the transport and of the
ingress queue to the decoder, and offers what comes out to the event queue.

An act is what the loop finds when it stops waiting.  The answers of the event queue, the
handlers and the libraries behind the decoder are inputs that may depend on the time; `waits`
and the record of the attempts are kept for the results, and no step depends on them.
-/
import Emwin.Client.Runtime
import Emwin.WxWire.Codec

namespace WxWire

open Client Saturating

/-! ## The snapshot and the stream -/

/-- The counters of a telemetry snapshot that only the loop changes. -/
structure LoopCounters where
  startsTotal : ℕ := 0
  stopsTotal : ℕ := 0
  decodedMessagesTotal : ℕ := 0
  filesEmittedTotal : ℕ := 0
  handlerFailuresTotal : ℕ := 0
  idleReconnectsTotal : ℕ := 0
  reconnectAttemptsTotal : ℕ := 0
  connectAttemptsTotal : ℕ := 0
  telemetryEventsEmittedTotal : ℕ := 0
  deriving DecidableEq, Repr

namespace LoopCounters

/-- One stop more. -/
def addStop (c : LoopCounters) : LoopCounters :=
  { c with stopsTotal := saturatingAdd c.stopsTotal 1 }

/-- One connection attempt more. -/
def addConnectAttempt (c : LoopCounters) : LoopCounters :=
  { c with connectAttemptsTotal := saturatingAdd c.connectAttemptsTotal 1 }

/-- One reconnect attempt more. -/
def addReconnect (c : LoopCounters) : LoopCounters :=
  { c with reconnectAttemptsTotal := saturatingAdd c.reconnectAttemptsTotal 1 }

/-- One telemetry event more. -/
def addTelemetry (c : LoopCounters) : LoopCounters :=
  { c with telemetryEventsEmittedTotal := saturatingAdd c.telemetryEventsEmittedTotal 1 }

/-- One handler failure more. -/
def addHandlerFailure (c : LoopCounters) : LoopCounters :=
  { c with handlerFailuresTotal := saturatingAdd c.handlerFailuresTotal 1 }

end LoopCounters

/-- The counters of a telemetry snapshot that an offer may change. -/
structure OfferCounters where
  warningEventsTotal : ℕ := 0
  eventQueueDropTotal : ℕ := 0
  backpressureWarningEmittedTotal : ℕ := 0
  deriving DecidableEq, Repr

/-- Snapshot of weather wire runtime telemetry counters. -/
structure WxWireReceiverTelemetrySnapshot extends LoopCounters, OfferCounters
  deriving DecidableEq, Repr

/-- Events emitted by the weather wire client. -/
inductive WxWireReceiverEvent where
  | frame (event : WxWireReceiverFrameEvent)
  | connected (endpoint : Str)
  | disconnected
  | telemetry (snapshot : WxWireReceiverTelemetrySnapshot)
  deriving DecidableEq, Repr

/-- The numbers of the warning `BackpressureDrop`. -/
structure DropReport where
  droppedSinceLastReport : ℕ
  totalDroppedEvents : ℕ
  deriving DecidableEq, Repr

/-- The event that an offer stands for. -/
def offeredEvent : Offer DropReport WxWireReceiverEvent → WxWireReceiverEvent
  | .warning w =>
      .frame (.warning (.backpressureDrop w.droppedSinceLastReport w.totalDroppedEvents))
  | .event event => event

/-- What a run takes from its surroundings.  The numbers count the offers made before. -/
structure WxWireRuntimeEnv (Element : Type) where
  /-- The libraries behind the decoder at a time. -/
  decoder : ℕ → WxWireEnv Element
  /-- The answers of the event queue. -/
  answers : ℕ → TrySend
  /-- The handlers: the message of the error, if one fails. -/
  handlers : List (ℕ → WxWireReceiverFrameEvent → Option Str)

/-- The closures of `try_send_event`. -/
def wxWireHooks : Hooks DropReport WxWireReceiverTelemetrySnapshot where
  buildWarning tracker := ⟨tracker.droppedSinceLastReport, tracker.eventQueueDropTotal⟩
  onWarningSent snapshot :=
    { snapshot with
      warningEventsTotal := saturatingAdd snapshot.warningEventsTotal 1
      backpressureWarningEmittedTotal := saturatingAdd snapshot.backpressureWarningEmittedTotal 1 }
  onDrop tracker snapshot := { snapshot with eventQueueDropTotal := tracker.eventQueueDropTotal }

/-- `RuntimeTelemetry` with the offers so far, and the snapshot that is shared. -/
structure WxWireTelemetry where
  runtime : Reporter DropReport WxWireReceiverEvent WxWireReceiverTelemetrySnapshot
  sink : WxWireReceiverTelemetrySnapshot

/-- One more if something is the case. -/
def bump (b : Bool) (n : ℕ) : ℕ := if b then saturatingAdd n 1 else n

/-- Whether a frame is a file. -/
def isFile : WxWireReceiverFrameEvent → Bool
  | .file _ => true
  | .warning _ => false

/-- Whether a frame is a warning. -/
def isWarning : WxWireReceiverFrameEvent → Bool
  | .file _ => false
  | .warning _ => true

namespace WxWireTelemetry

/-- The telemetry before anything is offered. -/
def start : WxWireTelemetry := ⟨⟨{}, {}, []⟩, {}⟩

/-- The counters that only the loop changes. -/
def counters (t : WxWireTelemetry) : LoopCounters := t.runtime.caller.toLoopCounters

/-- The events offered to the stream, without the warnings about drops. -/
def events (t : WxWireTelemetry) : List WxWireReceiverEvent := t.runtime.events

/-- Change counters. -/
def count (f : LoopCounters → LoopCounters) (t : WxWireTelemetry) : WxWireTelemetry :=
  { t with
    runtime :=
      { t.runtime with
        caller := { t.runtime.caller with toLoopCounters := f t.counters } } }

/-- Count a warning, if it is one. -/
def countWarning (b : Bool) (t : WxWireTelemetry) : WxWireTelemetry :=
  { t with
    runtime :=
      { t.runtime with
        caller :=
          { t.runtime.caller with
            warningEventsTotal := bump b t.runtime.caller.warningEventsTotal } } }

/-- `update_telemetry_sink`. -/
def updateSink (t : WxWireTelemetry) : WxWireTelemetry := { t with sink := t.runtime.caller }

variable {Element : Type} (env : WxWireRuntimeEnv Element)

/-- `try_send_event`. -/
def trySendEvent (event : WxWireReceiverEvent) (t : WxWireTelemetry) : WxWireTelemetry :=
  { t with runtime := t.runtime.offer env.answers wxWireHooks event }

/-- What one handler does with a frame: a failure is counted and reported. -/
def runHandler (frame : WxWireReceiverFrameEvent) (t : WxWireTelemetry)
    (handler : ℕ → WxWireReceiverFrameEvent → Option Str) : WxWireTelemetry :=
  match handler t.runtime.sends.length frame with
  | none => t
  | some message =>
      ((t.count LoopCounters.addHandlerFailure).countWarning true)
        |>.trySendEvent env (.frame (.warning (.handlerError message)))

/-- `dispatch_frame_events` for one frame. -/
def dispatchFrame (t : WxWireTelemetry) (frame : WxWireReceiverFrameEvent) : WxWireTelemetry :=
  let t := t.count fun c => { c with filesEmittedTotal := bump (isFile frame) c.filesEmittedTotal }
  let t := t.countWarning (isWarning frame)
  (env.handlers.foldl (runHandler env frame) t).trySendEvent env (.frame frame)

/-- `dispatch_frame_events`. -/
def dispatchFrameEvents (frames : List WxWireReceiverFrameEvent) (t : WxWireTelemetry) :
    WxWireTelemetry := frames.foldl (dispatchFrame env) t

/-- A transport error or a timeout becomes a warning. -/
def dispatchTransportError (message : Str) (t : WxWireTelemetry) : WxWireTelemetry :=
  (t.dispatchFrameEvents env [.warning (.transportError message)]).updateSink

end WxWireTelemetry

/-! ## The state -/

/-- `RECONNECT_BACKOFF_INITIAL`, in seconds. -/
def RECONNECT_BACKOFF_INITIAL : ℕ := 1

/-- `RECONNECT_BACKOFF_MAX`, in seconds. -/
def RECONNECT_BACKOFF_MAX : ℕ := 30

/-- Why a session ended. -/
inductive WxWireEnding where
  | shutdown
  | transportError (message : Str)
  deriving DecidableEq, Repr

/-- What happened on a connection. -/
structure WxWireSession where
  label : Str
  /-- The stanzas that were fed, with the times they were fed at. -/
  stanzas : List (ℕ × Str)
  ending : Option WxWireEnding
  deriving DecidableEq, Repr

/-- The session after its end. -/
def WxWireSession.over (session : WxWireSession) (ending : WxWireEnding) : WxWireSession :=
  { session with ending := some ending }

/-- The session after another stanza. -/
def WxWireSession.addStanza (session : WxWireSession) (now : ℕ) (stanza : Str) : WxWireSession :=
  { session with stanzas := session.stanzas ++ [(now, stanza)] }

/-- An attempt to connect. -/
inductive WxWireAttempt where
  | connecting
  | failed (message : Str)
  | session (session : WxWireSession)
  deriving DecidableEq, Repr

/-- Where the loop is. -/
inductive WxWirePhase where
  /-- At the top, with the session that stays if there is one. -/
  | top (session : Option WxWireSession)
  | connecting
  /-- In `wait_reconnect_backoff`. -/
  | waiting
  /-- In `select!`, with a transport. -/
  | selecting (session : WxWireSession)
  /-- After the loop, which ended in a session or not. -/
  | stopped (inSession : Bool)
  deriving DecidableEq, Repr

/-- The state of the client. -/
structure WxWireState where
  phase : WxWirePhase
  /-- The value of the shutdown channel. -/
  shutdown : Bool
  lastMessageTime : ℕ
  reconnectBackoff : ℕ
  telemetry : WxWireTelemetry
  /-- The attempts that are over. -/
  finished : List WxWireAttempt
  /-- How long was waited since the last connection, in seconds. -/
  waits : List ℕ

/-- What the client meets. -/
inductive WxWireAct where
  /-- The shutdown is signalled. -/
  | signal
  /-- The top of the loop. -/
  | loop
  | connectOk (now : ℕ) (label : Str)
  | connectFailed (message : Str)
  /-- The wait is over. -/
  | waited
  /-- The shutdown channel has a new value, or has lost its sender. -/
  | shutdownChanged
  | telemetryTick
  /-- A stanza of the ingress queue, or nothing if the queue is closed. -/
  | ingress (now : ℕ) (stanza : Option Str)
  /-- A stanza of the transport. -/
  | stanza (now : ℕ) (stanza : Str)
  | transportError (message : Str)
  /-- The transport has nothing for a second. -/
  | quiet (now : ℕ)
  deriving DecidableEq, Repr

section Steps

variable {Element : Type} (env : WxWireRuntimeEnv Element) (idleTimeoutSecs : ℕ)

/-- The state before the first turn of the loop. -/
def WxWireState.start : WxWireState where
  phase := .top none
  shutdown := false
  lastMessageTime := 0
  reconnectBackoff := RECONNECT_BACKOFF_INITIAL
  telemetry := WxWireTelemetry.start.count fun c =>
    { c with startsTotal := saturatingAdd c.startsTotal 1 }
  finished := []
  waits := []

/-- The shutdown: the transport is disconnected, and the stream told. -/
def WxWireState.stop (s : WxWireState) (session : Option WxWireSession) : WxWireState :=
  { s with
    phase := .stopped session.isSome
    telemetry :=
      ((s.telemetry.count LoopCounters.addStop).trySendEvent env .disconnected).updateSink
    finished := s.finished ++ (session.map fun r => .session (r.over .shutdown)).toList }

/-- The top of the loop. -/
def WxWireState.takeTurn (s : WxWireState) (session : Option WxWireSession) : WxWireState :=
  if s.shutdown then s.stop env session
  else match session with
    | some session => { s with phase := .selecting session }
    | none =>
        { s with
          phase := .connecting
          telemetry := s.telemetry.count LoopCounters.addConnectAttempt }

/-- `connect_single_endpoint` has succeeded. -/
def WxWireState.connectOk (s : WxWireState) (now : ℕ) (label : Str) : WxWireState :=
  { s with
    phase := .selecting ⟨label, [], none⟩
    lastMessageTime := now
    reconnectBackoff := RECONNECT_BACKOFF_INITIAL
    telemetry := (s.telemetry.trySendEvent env (.connected label)).updateSink
    waits := [] }

/-- `connect_single_endpoint` has failed. -/
def WxWireState.connectFailed (s : WxWireState) (message : Str) : WxWireState :=
  { s with
    phase := .waiting
    telemetry :=
      (s.telemetry.dispatchTransportError env message).count LoopCounters.addReconnect
    finished := s.finished ++ [.failed message] }

/-- The wait was not interrupted: the next one is longer. -/
def WxWireState.waited (s : WxWireState) : WxWireState :=
  { s with
    phase := .top none
    reconnectBackoff := min (s.reconnectBackoff * 2) RECONNECT_BACKOFF_MAX
    waits := s.waits ++ [s.reconnectBackoff] }

/-- A transport error ends the session. -/
def WxWireState.reconnect (s : WxWireState) (session : WxWireSession) (message : Str) :
    WxWireState :=
  let telemetry :=
    (s.telemetry.dispatchTransportError env message).count LoopCounters.addReconnect
  { s with
    phase := .waiting
    telemetry := (telemetry.trySendEvent env .disconnected).updateSink
    finished := s.finished ++ [.session (session.over (.transportError message))] }

/-- The frames that a stanza leads to, and whether it was decoded; `none` is a panic. -/
def framesOf (decoder : WxWireEnv Element) (stanza : Str) :
    Option (List WxWireReceiverFrameEvent × Bool) :=
  (feed decoder stanza).map fun
    | .ok frames => (frames, true)
    | .error e => ([.warning (.decoderRecovered e.toText)], false)

/-- A stanza is fed to the decoder. -/
def WxWireState.onStanza (s : WxWireState) (session : WxWireSession) (now : ℕ) (stanza : Str) :
    Option WxWireState :=
  (framesOf (env.decoder now) stanza).map fun decoded =>
    let telemetry := s.telemetry.count fun c =>
      { c with decodedMessagesTotal := bump decoded.2 c.decodedMessagesTotal }
    { s with
      phase := .top (some (session.addStanza now stanza))
      lastMessageTime := now
      telemetry := (telemetry.dispatchFrameEvents env decoded.1).updateSink }

/-- The text of the warning about a silent room. -/
def idleMessage : Str :=
  "no accepted room message for ".toList ++ Str.ofNat idleTimeoutSecs ++ ['s']

/-- A second without a stanza. -/
def WxWireState.onQuiet (s : WxWireState) (session : WxWireSession) (now : ℕ) : WxWireState :=
  if idleTimeoutSecs * 1000000000 ≤ now - s.lastMessageTime then
    { s with
      phase := .top (some session)
      lastMessageTime := now
      telemetry := s.telemetry.dispatchTransportError env (idleMessage idleTimeoutSecs) }
  else { s with phase := .top (some session) }

/-- A telemetry snapshot is counted and offered. -/
def WxWireState.onTick (s : WxWireState) (session : WxWireSession) : WxWireState :=
  let telemetry := s.telemetry.count LoopCounters.addTelemetry
  { s with
    phase := .top (some session)
    telemetry := (telemetry.trySendEvent env (.telemetry telemetry.runtime.caller)).updateSink }

/-- One step; `none` where the loop does not wait for the act. -/
def wxWireStep (s : WxWireState) (act : WxWireAct) : Option WxWireState :=
  match s.phase, act with
  | _, .signal => some { s with shutdown := true }
  | .top session, .loop => some (s.takeTurn env session)
  | .connecting, .connectOk now label => some (s.connectOk env now label)
  | .connecting, .connectFailed message => some (s.connectFailed env message)
  | .waiting, .waited => some s.waited
  | .waiting, .shutdownChanged => some { s with phase := .top none }
  | .selecting session, .shutdownChanged => some (s.stop env (some session))
  | .selecting session, .telemetryTick => some (s.onTick env session)
  | .selecting session, .ingress _ none => some { s with phase := .top (some session) }
  | .selecting session, .ingress now (some stanza) => s.onStanza env session now stanza
  | .selecting session, .stanza now stanza => s.onStanza env session now stanza
  | .selecting session, .transportError message => some (s.reconnect env session message)
  | .selecting session, .quiet now => some (s.onQuiet env idleTimeoutSecs session now)
  | _, _ => none

end Steps

end WxWire
