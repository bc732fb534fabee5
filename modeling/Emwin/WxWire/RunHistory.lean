/-
# What a run of the Weather Wire client leads to

The stream of the client, without its warnings and snapshots, is one connection after another
with the files of the stanzas that were fed meanwhile; the counters show the history; and the
waits since the last connection double up to the limit.
-/
import Emwin.Lib.Transition
import Emwin.WxWire.Codec
import Emwin.WxWire.Runtime

namespace WxWire

open Client Saturating Transition

variable {Element : Type} {env : WxWireRuntimeEnv Element} {idleTimeoutSecs : ℕ}

/-! ## The decoder -/

/-- Inserting the namespace does not panic. -/
theorem isSome_addDefaultClientNs (xml : Str) : (addDefaultClientNsOnRoot xml).isSome := by
  rcases exists_firstTag xml with ⟨a, m, t, h⟩ | hopen | ⟨a, tail, rfl, ha, hclose⟩
  · rw [addDefaultClientNs_firstTag h]
    split_ifs <;> rfl
  · unfold addDefaultClientNsOnRoot
    rw [offsetOf_eq_none hopen]
    rfl
  · unfold addDefaultClientNsOnRoot
    rw [offsetOf_append ha]
    simp only [Str.sliceFrom_append, Option.bind_eq_bind, Option.bind_some, offsetOf_eq_none hclose]
    rfl

/-- Feeding a stanza does not panic. -/
theorem isSome_feed (decoder : WxWireEnv Element) (stanza : Str) : (feed decoder stanza).isSome := by
  obtain ⟨xml, hxml⟩ := Option.isSome_iff_exists.mp (isSome_addDefaultClientNs (Str.trim stanza))
  have hparsed : ∃ parsed, parseMessageElement decoder (Str.trim stanza) = some parsed := by
    unfold parseMessageElement
    rw [hxml]
    cases decoder.parseElement (Str.trim stanza) with
    | ok element => exact ⟨_, rfl⟩
    | error reason => exact ⟨_, rfl⟩
  obtain ⟨parsed, hparsed⟩ := hparsed
  unfold feed
  rw [hparsed, Option.bind_eq_bind, Option.bind_some]
  cases parsed with
  | error reason => rfl
  | ok element =>
      dsimp only
      cases decoder.toMessage element <;> rfl

/-- The frames of a stanza. -/
theorem exists_framesOf (decoder : WxWireEnv Element) (stanza : Str) :
    ∃ decoded, framesOf decoder stanza = some decoded := by
  obtain ⟨result, hresult⟩ := Option.isSome_iff_exists.mp (isSome_feed decoder stanza)
  unfold framesOf
  rw [hresult]
  exact ⟨_, rfl⟩

/-! ## The history of a run -/

/-- The file of a frame. -/
def file? : WxWireReceiverFrameEvent → Option WxWireReceiverFile
  | .file file => some file
  | .warning _ => none

/-- The files of a stanza. -/
def filesOf (env : WxWireRuntimeEnv Element) (stanza : ℕ × Str) : List WxWireReceiverFile :=
  ((framesOf (env.decoder stanza.1) stanza.2).map fun decoded => decoded.1.filterMap file?).getD []

/-- Whether a stanza is decoded. -/
def isDecoded (env : WxWireRuntimeEnv Element) (stanza : ℕ × Str) : Bool :=
  ((framesOf (env.decoder stanza.1) stanza.2).map Prod.snd).getD false

/-- What a session looks like in the stream. -/
def WxWireSession.transcript (env : WxWireRuntimeEnv Element) (r : WxWireSession) :
    List WxWireReceiverEvent :=
  .connected r.label :: (r.stanzas.flatMap (filesOf env)).map (fun file => .frame (.file file)) ++
    if r.ending.isSome then [.disconnected] else []

/-- The session of an attempt. -/
def WxWireAttempt.session? : WxWireAttempt → Option WxWireSession
  | .session r => some r
  | .connecting | .failed _ => none

/-- Whether an attempt has failed. -/
def WxWireAttempt.isFailed : WxWireAttempt → Bool
  | .failed _ => true
  | .connecting | .session _ => false

/-- Whether a session ended with a transport error. -/
def WxWireSession.isLost (r : WxWireSession) : Bool :=
  match r.ending with
  | some (.transportError _) => true
  | _ => false

/-- The sessions of some attempts. -/
def wxWireSessions (attempts : List WxWireAttempt) : List WxWireSession :=
  attempts.filterMap WxWireAttempt.session?

/-- The attempt that is not over. -/
def WxWirePhase.attempt : WxWirePhase → List WxWireAttempt
  | .top none | .waiting | .stopped _ => []
  | .connecting => [.connecting]
  | .top (some r) | .selecting r => [.session r]

/-- All attempts so far. -/
def WxWireState.history (s : WxWireState) : List WxWireAttempt := s.finished ++ s.phase.attempt

/-- The end that is announced although no session ended. -/
def WxWirePhase.farewell : WxWirePhase → List WxWireReceiverEvent
  | .stopped false => [.disconnected]
  | _ => []

/-- What the stream should say. -/
def WxWireState.transcript (env : WxWireRuntimeEnv Element) (s : WxWireState) :
    List WxWireReceiverEvent :=
  (wxWireSessions s.history).flatMap (WxWireSession.transcript env) ++ s.phase.farewell

/-! ## What the stream and the counters say -/

/-- What an event says about the connection and the files. -/
def essential? : WxWireReceiverEvent → Option WxWireReceiverEvent
  | .connected label => some (.connected label)
  | .disconnected => some .disconnected
  | .frame (.file file) => some (.frame (.file file))
  | .frame (.warning _) | .telemetry _ => none

/-- Whether an event is a warning. -/
def isWarningEvent : WxWireReceiverEvent → Bool
  | .frame frame => isWarning frame
  | _ => false

/-- Whether a frame reports a failed handler. -/
def isHandlerError : WxWireReceiverFrameEvent → Bool
  | .warning (.handlerError _) => true
  | _ => false

/-- Whether an event reports a failed handler. -/
def isHandlerErrorEvent : WxWireReceiverEvent → Bool
  | .frame frame => isHandlerError frame
  | _ => false

/-- Whether an event is a telemetry snapshot. -/
def isTelemetry : WxWireReceiverEvent → Bool
  | .telemetry _ => true
  | _ => false

/-- All stanzas that were fed. -/
def fedStanzas (attempts : List WxWireAttempt) : List (ℕ × Str) :=
  (wxWireSessions attempts).flatMap WxWireSession.stanzas

/-- The counters that a history leads to. -/
def loopCountersOf (env : WxWireRuntimeEnv Element) (attempts : List WxWireAttempt)
    (stopped : Bool) : LoopCounters where
  startsTotal := 1
  stopsTotal := stopped.toNat
  decodedMessagesTotal := shown ((fedStanzas attempts).countP (isDecoded env))
  filesEmittedTotal := shown ((fedStanzas attempts).flatMap (filesOf env)).length
  reconnectAttemptsTotal := shown (attempts.countP WxWireAttempt.isFailed +
    (wxWireSessions attempts).countP WxWireSession.isLost)
  connectAttemptsTotal := shown attempts.length

/-- Counters with those of the reports among some events. -/
def withReports (events : List WxWireReceiverEvent) (c : LoopCounters) : LoopCounters :=
  { c with
    handlerFailuresTotal := shown (events.countP isHandlerErrorEvent)
    telemetryEventsEmittedTotal := shown (events.countP isTelemetry) }

/-- The stream says this of the connection and the files, and but for the reports these are the
counters.  A warning is counted before it is offered, so the counter may be ahead. -/
structure WxWireAgrees (said : List WxWireReceiverEvent) (c : LoopCounters) (ahead : ℕ)
    (t : WxWireTelemetry) : Prop where
  stream : t.events.filterMap essential? = said
  counters : t.counters = withReports t.events c
  warnings : t.runtime.caller.warningEventsTotal =
    shown (ahead + t.events.countP isWarningEvent + (deliveredWarnings t.runtime.sends).length)

namespace WxWireTelemetry

variable (t : WxWireTelemetry)

@[simp] theorem counters_count (f : LoopCounters → LoopCounters) :
    (t.count f).counters = f t.counters := rfl

@[simp] theorem events_count (f : LoopCounters → LoopCounters) : (t.count f).events = t.events := rfl

@[simp] theorem counters_countWarning (b : Bool) : (t.countWarning b).counters = t.counters := rfl

@[simp] theorem events_countWarning (b : Bool) : (t.countWarning b).events = t.events := rfl

@[simp] theorem counters_trySendEvent (event : WxWireReceiverEvent) :
    (t.trySendEvent env event).counters = t.counters :=
  Reporter.caller_offer WxWireReceiverTelemetrySnapshot.toLoopCounters (fun _ => rfl)
    (fun _ _ => rfl) event t.runtime

@[simp] theorem events_trySendEvent (event : WxWireReceiverEvent) :
    (t.trySendEvent env event).events = t.events ++ [event] := Reporter.events_offer event t.runtime

end WxWireTelemetry

theorem bump_shown (b : Bool) (n : ℕ) : bump b (shown n) = shown (n + b.toNat) := by
  cases b with
  | false => rfl
  | true => exact saturatingAdd_shown n

namespace WxWireAgrees

variable {said : List WxWireReceiverEvent} {c : LoopCounters} {n : ℕ} {t : WxWireTelemetry}

theorem updateSink (h : WxWireAgrees said c n t) : WxWireAgrees said c n t.updateSink :=
  ⟨h.stream, h.counters, h.warnings⟩

/-- Counting what is no report. -/
theorem count (h : WxWireAgrees said c n t) (f : LoopCounters → LoopCounters)
    (hf : ∀ events, f (withReports events c) = withReports events (f c)) :
    WxWireAgrees said (f c) n (t.count f) := by
  refine ⟨h.stream, ?_, h.warnings⟩
  rw [WxWireTelemetry.counters_count, WxWireTelemetry.events_count, ← hf, ← h.counters]

/-- Counting a warning. -/
theorem countWarning (h : WxWireAgrees said c n t) (b : Bool) :
    WxWireAgrees said c (n + b.toNat) (t.countWarning b) := by
  refine ⟨h.stream, h.counters, ?_⟩
  show bump b t.runtime.caller.warningEventsTotal = _
  rw [h.warnings, bump_shown]
  congr 1
  show _ = n + b.toNat + t.events.countP isWarningEvent + _
  show n + t.events.countP isWarningEvent + (deliveredWarnings t.runtime.sends).length + b.toNat =
    n + b.toNat + t.events.countP isWarningEvent + (deliveredWarnings t.runtime.sends).length
  omega

/-- Once an event is offered, the counter of the warnings is no longer ahead of it. -/
theorem warningEventsTotal_trySendEvent {events : ℕ} (event : WxWireReceiverEvent)
    (h : t.runtime.caller.warningEventsTotal = shown
      (n + (isWarningEvent event).toNat + events + (deliveredWarnings t.runtime.sends).length)) :
    (t.trySendEvent env event).runtime.caller.warningEventsTotal = shown
      (n + (events + (isWarningEvent event).toNat) +
        (deliveredWarnings (t.trySendEvent env event).runtime.sends).length) := by
  have hsent : (t.runtime.offer env.answers wxWireHooks event).caller.warningEventsTotal = _ :=
    Reporter.warned_offer (fun c : WxWireReceiverTelemetrySnapshot => c.warningEventsTotal)
      (fun _ => rfl) (fun _ _ => rfl) h event
  refine Eq.trans hsent ?_
  congr 2
  omega

/-- An event that is no report, and was counted if it is a warning. -/
theorem trySendEvent (event : WxWireReceiverEvent)
    (h : WxWireAgrees said c (n + (isWarningEvent event).toNat) t)
    (hhandler : isHandlerErrorEvent event = false) (htelemetry : isTelemetry event = false) :
    WxWireAgrees (said ++ (essential? event).toList) c n (t.trySendEvent env event) := by
  refine ⟨?_, ?_, ?_⟩
  · rw [WxWireTelemetry.events_trySendEvent, List.filterMap_append, h.stream]
    cases hevent : essential? event <;> simp [hevent]
  · rw [WxWireTelemetry.counters_trySendEvent, WxWireTelemetry.events_trySendEvent]
    refine h.counters.trans ?_
    simp [withReports, hhandler, htelemetry]
  · rw [WxWireTelemetry.events_trySendEvent, List.countP_append, List.countP_singleton]
    have hcount : (if isWarningEvent event = true then 1 else 0) = (isWarningEvent event).toNat := by
      cases isWarningEvent event <;> rfl
    rw [hcount]
    exact warningEventsTotal_trySendEvent event h.warnings

/-- A failed handler is counted and reported. -/
theorem runHandler (h : WxWireAgrees said c n t) (frame : WxWireReceiverFrameEvent)
    (handler : ℕ → WxWireReceiverFrameEvent → Option Str) :
    WxWireAgrees said c n (WxWireTelemetry.runHandler env frame t handler) := by
  unfold WxWireTelemetry.runHandler
  cases handler t.runtime.sends.length frame with
  | none => exact h
  | some message =>
      have hcounted := (h.countWarning true)
      refine ⟨?_, ?_, ?_⟩
      · rw [WxWireTelemetry.events_trySendEvent, List.filterMap_append,
          WxWireTelemetry.events_countWarning, WxWireTelemetry.events_count, h.stream]
        simp [essential?]
      · rw [WxWireTelemetry.counters_trySendEvent, WxWireTelemetry.events_trySendEvent,
          WxWireTelemetry.counters_countWarning, WxWireTelemetry.events_countWarning,
          WxWireTelemetry.counters_count, WxWireTelemetry.events_count, h.counters]
        simp [withReports, LoopCounters.addHandlerFailure, isHandlerErrorEvent, isHandlerError,
          isTelemetry]
      · rw [WxWireTelemetry.events_trySendEvent, List.countP_append]
        exact warningEventsTotal_trySendEvent _ hcounted.warnings

/-- The handlers of a frame. -/
theorem foldl_runHandler (h : WxWireAgrees said c n t) (frame : WxWireReceiverFrameEvent)
    (handlers : List (ℕ → WxWireReceiverFrameEvent → Option Str)) :
    WxWireAgrees said c n (handlers.foldl (WxWireTelemetry.runHandler env frame) t) := by
  induction handlers generalizing t with
  | nil => exact h
  | cons handler handlers ih => exact ih (h.runHandler frame handler)

/-- A frame of the decoder or the transport. -/
theorem dispatchFrame (h : WxWireAgrees said c 0 t) (frame : WxWireReceiverFrameEvent)
    (hhandler : isHandlerError frame = false) :
    WxWireAgrees (said ++ (essential? (.frame frame)).toList)
      { c with filesEmittedTotal := bump (isFile frame) c.filesEmittedTotal } 0
      (t.dispatchFrame env frame) := by
  have hcount := (h.count (fun c =>
    { c with filesEmittedTotal := bump (isFile frame) c.filesEmittedTotal })
      fun _ => rfl).countWarning (isWarning frame)
  refine trySendEvent (.frame frame) ?_ hhandler rfl
  exact foldl_runHandler hcount frame env.handlers

/-- The frames of a stanza are offered one after another. -/
theorem dispatchFrameEvents {files : ℕ} (frames : List WxWireReceiverFrameEvent)
    (hhandler : ∀ frame ∈ frames, isHandlerError frame = false)
    (hfiles : c.filesEmittedTotal = shown files) (h : WxWireAgrees said c 0 t) :
    WxWireAgrees (said ++ (frames.filterMap file?).map fun file => .frame (.file file))
      { c with filesEmittedTotal := shown (files + (frames.filterMap file?).length) } 0
      (t.dispatchFrameEvents env frames) := by
  induction frames generalizing said c files t with
  | nil =>
      rw [List.filterMap_nil, List.map_nil, List.append_nil, List.length_nil, Nat.add_zero,
        ← hfiles]
      exact h
  | cons frame frames ih =>
      rw [List.forall_mem_cons] at hhandler
      have hone : WxWireAgrees _ _ 0 (t.dispatchFrame env frame) :=
        h.dispatchFrame frame hhandler.1
      rw [hfiles, bump_shown] at hone
      have hrest := ih hhandler.2 rfl hone
      cases frame with
      | warning w =>
          rw [show essential? (.frame (.warning w)) = none from rfl, Option.toList_none,
            List.append_nil] at hrest
          exact hrest
      | file file =>
          have hcons : (WxWireReceiverFrameEvent.file file :: frames).filterMap file? =
              file :: frames.filterMap file? := rfl
          rw [hcons, List.map_cons, List.length_cons, List.append_cons,
            Nat.add_comm (List.length _) 1, ← Nat.add_assoc]
          exact hrest

/-- A transport error is one warning. -/
theorem dispatchTransportError (h : WxWireAgrees said c 0 t) (message : Str) :
    WxWireAgrees said c 0 (t.dispatchTransportError env message) := by
  have hone : WxWireAgrees _ _ 0 (t.dispatchFrame env (.warning (.transportError message))) :=
    h.dispatchFrame _ rfl
  rw [show essential? (.frame (.warning (.transportError message))) = none from rfl,
    Option.toList_none, List.append_nil] at hone
  exact hone.updateSink

end WxWireAgrees

/-! ## Longer histories -/

/-- The only warning beside a file is about its time. -/
theorem warning_of_parseMessageToFile {decoder : WxWireEnv Element} {message : Message}
    {file : WxWireReceiverFile} {w : WxWireReceiverWarning}
    (h : parseMessageToFile decoder message = .ok (file, some w)) :
    ∃ raw, w = .timestampParseFallback raw := by
  unfold parseMessageToFile at h
  cases hpayload : nwwsPayload message with
  | none => rw [hpayload] at h; cases h
  | some payload =>
      rw [hpayload] at h
      dsimp only at h
      split_ifs at h
      have hw : (parseTimestampOrNow decoder (trimmedAttr payload "issue")).2 = some w :=
        congrArg Prod.snd (Except.ok.inj h)
      unfold parseTimestampOrNow at hw
      split at hw
      · cases hw
      · dsimp only at hw
        split_ifs at hw
        exact ⟨_, (Option.some.inj hw).symm⟩

/-- No frame of a stanza reports a failed handler. -/
theorem isHandlerError_of_framesOf {decoder : WxWireEnv Element} {stanza : Str}
    {decoded : List WxWireReceiverFrameEvent × Bool} (h : framesOf decoder stanza = some decoded) :
    ∀ frame ∈ decoded.1, isHandlerError frame = false := by
  obtain ⟨result, hfeed, rfl⟩ := Option.map_eq_some_iff.mp h
  cases result with
  | error e => exact List.forall_mem_singleton.mpr rfl
  | ok frames =>
      -- the frames of a message
      obtain ⟨message, rfl⟩ : ∃ message, frames = feedMessage decoder message := by
        unfold feed at hfeed
        obtain ⟨parsed, -, hparsed⟩ := Option.bind_eq_some_iff.mp hfeed
        cases parsed with
        | error reason => cases Option.some.inj hparsed
        | ok element =>
            dsimp only at hparsed
            cases hm : decoder.toMessage element with
            | none => rw [hm] at hparsed; cases Option.some.inj hparsed
            | some message =>
                rw [hm] at hparsed
                exact ⟨message, (Except.ok.inj (Option.some.inj hparsed)).symm⟩
      intro frame hframe
      unfold feedMessage at hframe
      cases hparse : parseMessageToFile decoder message with
      | error e =>
          rw [hparse] at hframe
          obtain rfl := List.mem_singleton.mp hframe
          cases e <;> rfl
      | ok parsed =>
          rw [hparse] at hframe
          rcases List.mem_append.mp hframe with hwarning | hfile
          · -- the only warning is about the time
            obtain ⟨w, hw, rfl⟩ := Option.map_eq_some_iff.mp (Option.mem_toList.mp hwarning)
            obtain ⟨file, warning⟩ := parsed
            obtain rfl : warning = some w := hw
            obtain ⟨raw, rfl⟩ := warning_of_parseMessageToFile hparse
            rfl
          · obtain rfl := List.mem_singleton.mp hfile
            rfl

@[simp] theorem wxWireSessions_append (attempts attempts' : List WxWireAttempt) :
    wxWireSessions (attempts ++ attempts') =
      wxWireSessions attempts ++ wxWireSessions attempts' := List.filterMap_append

@[simp] theorem wxWireSessions_session (r : WxWireSession) :
    wxWireSessions [.session r] = [r] := rfl

@[simp] theorem wxWireSessions_connecting : wxWireSessions [.connecting] = [] := rfl

@[simp] theorem wxWireSessions_failed (message : Str) : wxWireSessions [.failed message] = [] := rfl

section Histories

variable (attempts : List WxWireAttempt) (r : WxWireSession)

theorem loopCountersOf_connecting :
    loopCountersOf env (attempts ++ [.connecting]) false =
      (loopCountersOf env attempts false).addConnectAttempt := by
  simp [loopCountersOf, LoopCounters.addConnectAttempt, fedStanzas, WxWireAttempt.isFailed]

theorem loopCountersOf_failed (message : Str) :
    loopCountersOf env (attempts ++ [.failed message]) false =
      (loopCountersOf env (attempts ++ [.connecting]) false).addReconnect := by
  simp [loopCountersOf, LoopCounters.addReconnect, fedStanzas, WxWireAttempt.isFailed]
  congr 1
  omega

theorem loopCountersOf_connected (label : Str) :
    loopCountersOf env (attempts ++ [.session ⟨label, [], none⟩]) false =
      loopCountersOf env (attempts ++ [.connecting]) false := by
  simp [loopCountersOf, fedStanzas, WxWireAttempt.isFailed, WxWireSession.isLost]

theorem loopCountersOf_lost (hopen : r.ending = none) (message : Str) :
    loopCountersOf env (attempts ++ [.session (r.over (.transportError message))]) false =
      (loopCountersOf env (attempts ++ [.session r]) false).addReconnect := by
  simp [loopCountersOf, LoopCounters.addReconnect, fedStanzas, WxWireAttempt.isFailed,
    WxWireSession.isLost, WxWireSession.over, hopen, Nat.add_assoc]

theorem loopCountersOf_addStanza (now : ℕ) (stanza : Str)
    {decoded : List WxWireReceiverFrameEvent × Bool}
    (hdecoded : framesOf (env.decoder now) stanza = some decoded) :
    loopCountersOf env (attempts ++ [.session (r.addStanza now stanza)]) false =
      { loopCountersOf env (attempts ++ [.session r]) false with
        decodedMessagesTotal := bump decoded.2
          (loopCountersOf env (attempts ++ [.session r]) false).decodedMessagesTotal
        filesEmittedTotal := shown
          (((fedStanzas (attempts ++ [.session r])).flatMap (filesOf env)).length +
            (decoded.1.filterMap file?).length) } := by
  have hfed : fedStanzas (attempts ++ [.session (r.addStanza now stanza)]) =
      fedStanzas (attempts ++ [.session r]) ++ [(now, stanza)] := by
    simp [fedStanzas, WxWireSession.addStanza]
  have hfiles : filesOf env (now, stanza) = decoded.1.filterMap file? := by
    simp [filesOf, hdecoded]
  have hone : isDecoded env (now, stanza) = decoded.2 := by simp [isDecoded, hdecoded]
  have hlost : (r.addStanza now stanza).isLost = r.isLost := rfl
  have hcount : (if decoded.2 = true then 1 else 0) = decoded.2.toNat := by
    cases decoded.2 <;> rfl
  simp [loopCountersOf, hfed, hfiles, hone, hlost, WxWireAttempt.isFailed, bump_shown, hcount,
    List.countP_cons]

/-- The session of a client that stops, if there is one, is over. -/
theorem loopCountersOf_stopped (session : Option WxWireSession)
    (hopen : ∀ r ∈ session, r.ending = none) :
    loopCountersOf env
        (attempts ++ (session.map fun r => WxWireAttempt.session (r.over .shutdown)).toList) true =
      (loopCountersOf env
        (attempts ++ (session.map WxWireAttempt.session).toList) false).addStop := by
  have hone : saturatingAdd 0 1 = 1 := rfl
  cases session with
  | none => simp [loopCountersOf, LoopCounters.addStop, hone]
  | some r =>
      simp [loopCountersOf, LoopCounters.addStop, fedStanzas, hone, WxWireAttempt.isFailed, WxWireSession.isLost,
        WxWireSession.over, hopen r rfl]

end Histories

/-! ## The invariant of a run -/

/-- Whether the loop is over. -/
def WxWirePhase.isStopped : WxWirePhase → Bool
  | .stopped _ => true
  | _ => false

/-- The wait after so many waits. -/
def backoff (n : ℕ) : ℕ := min (RECONNECT_BACKOFF_INITIAL * 2 ^ n) RECONNECT_BACKOFF_MAX

/-- The invariant of the client. -/
structure WxWireState.Ok (env : WxWireRuntimeEnv Element) (s : WxWireState) : Prop where
  agrees : WxWireAgrees (s.transcript env) (loopCountersOf env s.history s.phase.isStopped) 0
    s.telemetry
  ending : ∀ r, .session r ∈ s.phase.attempt → r.ending = none
  backoff : s.reconnectBackoff = backoff s.waits.length
  waits : s.waits = (List.range s.waits.length).map WxWire.backoff

/-- The wait doubles, up to the limit. -/
theorem backoff_succ (n : ℕ) : min (backoff n * 2) RECONNECT_BACKOFF_MAX = backoff (n + 1) := by
  unfold backoff RECONNECT_BACKOFF_INITIAL RECONNECT_BACKOFF_MAX
  rw [Nat.pow_succ]
  omega

/-- The transcript of the sessions of some attempts. -/
def saidOf (env : WxWireRuntimeEnv Element) (attempts : List WxWireAttempt) :
    List WxWireReceiverEvent :=
  (wxWireSessions attempts).flatMap (WxWireSession.transcript env)

@[simp] theorem saidOf_append (attempts attempts' : List WxWireAttempt) :
    saidOf env (attempts ++ attempts') = saidOf env attempts ++ saidOf env attempts' := by
  unfold saidOf
  rw [wxWireSessions_append, List.flatMap_append]

@[simp] theorem saidOf_session (r : WxWireSession) : saidOf env [.session r] = r.transcript env :=
  List.flatMap_singleton ..

/-- The transcript of a session that ends. -/
theorem transcript_over (r : WxWireSession) (hopen : r.ending = none) (ending : WxWireEnding) :
    (r.over ending).transcript env = r.transcript env ++ [.disconnected] := by
  simp [WxWireSession.transcript, WxWireSession.over, hopen]

/-- The transcript of a session with another stanza. -/
theorem transcript_addStanza (r : WxWireSession) (hopen : r.ending = none) (now : ℕ)
    (stanza : Str) : (r.addStanza now stanza).transcript env =
      r.transcript env ++ (filesOf env (now, stanza)).map fun file => .frame (.file file) := by
  simp [WxWireSession.transcript, WxWireSession.addStanza, hopen]

section Steps

variable {s s' : WxWireState} {r : WxWireSession}

/-- A client that waits for something with these attempts behind it. -/
structure Running (env : WxWireRuntimeEnv Element) (s : WxWireState)
    (attempts : List WxWireAttempt) : Prop where
  agrees : WxWireAgrees (saidOf env attempts) (loopCountersOf env attempts false) 0 s.telemetry
  backoff : s.reconnectBackoff = backoff s.waits.length
  waits : s.waits = (List.range s.waits.length).map WxWire.backoff

/-- What the invariant says of a client that has not stopped. -/
theorem WxWireState.Ok.running (h : s.Ok env) (hstopped : s.phase.isStopped = false) :
    Running env s s.history := by
  have hagrees := h.agrees
  have hfarewell : s.phase.farewell = [] := by
    cases hp : s.phase with
    | stopped b => rw [hp] at hstopped; cases hstopped
    | _ => rfl
  rw [hstopped, WxWireState.transcript, hfarewell, List.append_nil] at hagrees
  exact ⟨hagrees, h.backoff, h.waits⟩

/-- A client that has not stopped and whose attempts are these is as it should be. -/
theorem Running.ok (h : Running env s s.history) (hstopped : s.phase.isStopped = false)
    (hending : ∀ r, .session r ∈ s.phase.attempt → r.ending = none) : s.Ok env := by
  have hfarewell : s.phase.farewell = [] := by
    cases hp : s.phase with
    | stopped b => rw [hp] at hstopped; cases hstopped
    | _ => rfl
  refine ⟨?_, hending, h.backoff, h.waits⟩
  rw [hstopped, WxWireState.transcript, hfarewell, List.append_nil]
  exact h.agrees

/-- The shutdown. -/
theorem ok_stop (session : Option WxWireSession) (hopen : ∀ r ∈ session, r.ending = none)
    (h : Running env s (s.finished ++ (session.map .session).toList)) :
    (s.stop env session).Ok env := by
  have hcount := h.agrees.count LoopCounters.addStop fun _ => rfl
  have hsent : WxWireAgrees (saidOf env (s.finished ++ (session.map .session).toList) ++
      [.disconnected]) _ 0 (WxWireTelemetry.trySendEvent env .disconnected _) :=
    WxWireAgrees.trySendEvent .disconnected hcount rfl rfl
  refine ⟨?_, ?_, h.backoff, h.waits⟩
  · have hsaid : (s.stop env session).transcript env =
        saidOf env (s.finished ++ (session.map .session).toList) ++ [.disconnected] := by
      show saidOf env ((s.finished ++ (session.map fun r => .session (r.over .shutdown)).toList) ++ [])
        ++ (WxWirePhase.stopped session.isSome).farewell = _
      rw [List.append_nil]
      cases session with
      | none => rfl
      | some r =>
          rw [Option.map_some, Option.map_some, Option.toList_some, Option.toList_some,
            saidOf_append, saidOf_append, saidOf_session, saidOf_session,
            transcript_over r (hopen r rfl), ← List.append_assoc]
          exact List.append_nil _
    rw [hsaid]
    show WxWireAgrees _ (loopCountersOf env ((s.finished ++
      (session.map fun r => .session (r.over .shutdown)).toList) ++ []) true) 0 _
    rw [List.append_nil, loopCountersOf_stopped s.finished session hopen]
    exact hsent.updateSink
  · intro r hr
    cases hr

/-- The top of the loop. -/
theorem ok_takeTurn {session : Option WxWireSession} (hphase : s.phase = .top session)
    (h : s.Ok env) : (s.takeTurn env session).Ok env := by
  have hrunning := h.running (by rw [hphase]; rfl)
  have hattempt : s.phase.attempt = (session.map .session).toList := by
    rw [hphase]
    cases session <;> rfl
  have hopen : ∀ r ∈ session, r.ending = none := by
    intro r hr
    refine h.ending r ?_
    rw [hattempt, hr]
    exact List.mem_singleton_self _
  rw [WxWireState.history, hattempt] at hrunning
  unfold WxWireState.takeTurn
  split_ifs
  · exact ok_stop session hopen hrunning
  · cases session with
    | some r =>
        refine Running.ok ⟨hrunning.agrees, h.backoff, h.waits⟩ rfl fun r' hr' => ?_
        obtain rfl := WxWireAttempt.session.inj (List.mem_singleton.mp hr')
        exact hopen r' rfl
    | none =>
        refine Running.ok ⟨?_, h.backoff, h.waits⟩ rfl fun r' hr' => ?_
        · show WxWireAgrees (saidOf env (s.finished ++ [.connecting]))
            (loopCountersOf env (s.finished ++ [.connecting]) false) 0 _
          have hsaid : saidOf env (s.finished ++ [.connecting]) =
              saidOf env (s.finished ++ ((none : Option WxWireSession).map .session).toList) := by
            rw [saidOf_append, saidOf_append]
            rfl
          rw [hsaid, loopCountersOf_connecting]
          have hagrees := hrunning.agrees
          rw [Option.map_none, Option.toList_none, List.append_nil] at hagrees ⊢
          exact hagrees.count LoopCounters.addConnectAttempt fun _ => rfl
        · cases List.mem_singleton.mp hr'

/-- A connection is made. -/
theorem ok_connectOk (now : ℕ) (label : Str) (h : Running env s (s.finished ++ [.connecting])) :
    (s.connectOk env now label).Ok env := by
  have hsent : WxWireAgrees (saidOf env (s.finished ++ [.connecting]) ++ [.connected label]) _ 0
      (s.telemetry.trySendEvent env (.connected label)) :=
    WxWireAgrees.trySendEvent (.connected label) h.agrees rfl rfl
  refine Running.ok ⟨?_, rfl, rfl⟩ rfl fun r hr => ?_
  · show WxWireAgrees (saidOf env (s.finished ++ [.session ⟨label, [], none⟩]))
      (loopCountersOf env (s.finished ++ [.session ⟨label, [], none⟩]) false) 0 _
    have hsaid : saidOf env (s.finished ++ [.session ⟨label, [], none⟩]) =
        saidOf env (s.finished ++ [.connecting]) ++ [.connected label] := by
      rw [saidOf_append, saidOf_append, saidOf_session]
      simp [saidOf, WxWireSession.transcript]
    rw [hsaid, loopCountersOf_connected]
    exact hsent.updateSink
  · obtain rfl := WxWireAttempt.session.inj (List.mem_singleton.mp hr)
    rfl

/-- An attempt fails. -/
theorem ok_connectFailed (message : Str) (h : Running env s (s.finished ++ [.connecting])) :
    (s.connectFailed env message).Ok env := by
  refine Running.ok ⟨?_, h.backoff, h.waits⟩ rfl fun r hr => by cases hr
  show WxWireAgrees (saidOf env ((s.finished ++ [.failed message]) ++ []))
    (loopCountersOf env ((s.finished ++ [.failed message]) ++ []) false) 0 _
  have hsaid : saidOf env (s.finished ++ [.failed message]) =
      saidOf env (s.finished ++ [.connecting]) := by
    rw [saidOf_append, saidOf_append]
    rfl
  rw [List.append_nil, hsaid, loopCountersOf_failed]
  exact (h.agrees.dispatchTransportError message).count LoopCounters.addReconnect fun _ => rfl

/-- A wait is over. -/
theorem ok_waited (h : Running env s s.finished) : s.waited.Ok env := by
  refine Running.ok ⟨?_, ?_, ?_⟩ rfl fun r hr => by cases hr
  · show WxWireAgrees (saidOf env (s.finished ++ [])) (loopCountersOf env (s.finished ++ []) false) 0
      s.telemetry
    rw [List.append_nil]
    exact h.agrees
  · show min (s.reconnectBackoff * 2) RECONNECT_BACKOFF_MAX =
      WxWire.backoff (s.waits ++ [s.reconnectBackoff]).length
    rw [h.backoff, backoff_succ, List.length_append]
    rfl
  · show s.waits ++ [s.reconnectBackoff] =
      (List.range (s.waits ++ [s.reconnectBackoff]).length).map WxWire.backoff
    rw [List.length_append, List.length_singleton, List.range_succ, List.map_append, ← h.waits,
      h.backoff]
    rfl

/-- A transport error. -/
theorem ok_reconnect (message : Str) (hopen : r.ending = none)
    (h : Running env s (s.finished ++ [.session r])) : (s.reconnect env r message).Ok env := by
  have htransport : WxWireAgrees _ _ 0 (s.telemetry.dispatchTransportError env message) :=
    h.agrees.dispatchTransportError message
  have hcount := htransport.count LoopCounters.addReconnect fun _ => rfl
  have hsent : WxWireAgrees (saidOf env (s.finished ++ [.session r]) ++ [.disconnected]) _ 0
      (WxWireTelemetry.trySendEvent env .disconnected _) :=
    WxWireAgrees.trySendEvent .disconnected hcount rfl rfl
  refine Running.ok ⟨?_, h.backoff, h.waits⟩ rfl fun r hr => by cases hr
  show WxWireAgrees (saidOf env ((s.finished ++ [.session (r.over (.transportError message))]) ++ []))
    (loopCountersOf env ((s.finished ++ [.session (r.over (.transportError message))]) ++ []) false) 0 _
  have hsaid : saidOf env (s.finished ++ [.session (r.over (.transportError message))]) =
      saidOf env (s.finished ++ [.session r]) ++ [.disconnected] := by
    rw [saidOf_append, saidOf_append, saidOf_session, saidOf_session, transcript_over r hopen,
      List.append_assoc]
  rw [List.append_nil, hsaid, loopCountersOf_lost _ _ hopen]
  exact hsent.updateSink

/-- A stanza is fed. -/
theorem ok_onStanza {now : ℕ} {stanza : Str} (hopen : r.ending = none)
    (h : Running env s (s.finished ++ [.session r]))
    (hstep : s.onStanza env r now stanza = some s') : s'.Ok env := by
  obtain ⟨decoded, hdecoded, rfl⟩ := Option.map_eq_some_iff.mp hstep
  have hcount := h.agrees.count (fun c =>
    { c with decodedMessagesTotal := bump decoded.2 c.decodedMessagesTotal }) fun _ => rfl
  have hsent : WxWireAgrees _ _ 0 (WxWireTelemetry.dispatchFrameEvents env decoded.1 _) :=
    WxWireAgrees.dispatchFrameEvents decoded.1 (isHandlerError_of_framesOf hdecoded) rfl hcount
  refine Running.ok ⟨?_, h.backoff, h.waits⟩ rfl fun r' hr' => ?_
  · show WxWireAgrees (saidOf env (s.finished ++ [.session (r.addStanza now stanza)]))
      (loopCountersOf env (s.finished ++ [.session (r.addStanza now stanza)]) false) 0 _
    have hfiles : filesOf env (now, stanza) = decoded.1.filterMap file? := by
      simp [filesOf, hdecoded]
    have hsaid : saidOf env (s.finished ++ [.session (r.addStanza now stanza)]) =
        saidOf env (s.finished ++ [.session r]) ++
          (decoded.1.filterMap file?).map fun file => .frame (.file file) := by
      rw [saidOf_append, saidOf_append, saidOf_session, saidOf_session,
        transcript_addStanza r hopen, hfiles, List.append_assoc]
    rw [hsaid, loopCountersOf_addStanza _ _ _ _ hdecoded]
    exact hsent.updateSink
  · obtain rfl := WxWireAttempt.session.inj (List.mem_singleton.mp hr')
    exact hopen

/-- A step in a session that leaves the session as it is. -/
theorem Running.stays {t : WxWireTelemetry} {now : ℕ} (hopen : r.ending = none)
    (h : Running env s (s.finished ++ [.session r]))
    (ht : WxWireAgrees (saidOf env (s.finished ++ [.session r]))
      (loopCountersOf env (s.finished ++ [.session r]) false) 0 t) :
    WxWireState.Ok env
      { s with phase := .top (some r), lastMessageTime := now, telemetry := t } := by
  refine Running.ok ⟨ht, h.backoff, h.waits⟩ rfl fun r' hr' => ?_
  obtain rfl := WxWireAttempt.session.inj (List.mem_singleton.mp hr')
  exact hopen

/-- A telemetry snapshot. -/
theorem ok_onTick (hopen : r.ending = none) (h : Running env s (s.finished ++ [.session r])) :
    (s.onTick env r).Ok env := by
  refine Running.stays hopen h (WxWireAgrees.updateSink ⟨?_, ?_, ?_⟩)
  · rw [WxWireTelemetry.events_trySendEvent, List.filterMap_append, WxWireTelemetry.events_count,
      h.agrees.stream]
    simp [essential?]
  · rw [WxWireTelemetry.counters_trySendEvent, WxWireTelemetry.events_trySendEvent,
      WxWireTelemetry.counters_count, WxWireTelemetry.events_count, h.agrees.counters]
    simp [withReports, LoopCounters.addTelemetry, isHandlerErrorEvent, isTelemetry]
  · rw [WxWireTelemetry.events_trySendEvent, List.countP_append]
    exact WxWireAgrees.warningEventsTotal_trySendEvent _ h.agrees.warnings

/-- A second without a stanza. -/
theorem ok_onQuiet (now : ℕ) (hopen : r.ending = none)
    (h : Running env s (s.finished ++ [.session r])) :
    (s.onQuiet env idleTimeoutSecs r now).Ok env := by
  unfold WxWireState.onQuiet
  split_ifs
  · exact h.stays hopen (h.agrees.dispatchTransportError _)
  · exact h.stays hopen h.agrees

/-- What the invariant says during a session. -/
theorem WxWireState.Ok.selecting (hphase : s.phase = .selecting r) (h : s.Ok env) :
    r.ending = none ∧ Running env s (s.finished ++ [.session r]) := by
  have hrunning := h.running (by rw [hphase]; rfl)
  rw [WxWireState.history, hphase] at hrunning
  refine ⟨h.ending r ?_, hrunning⟩
  rw [hphase]
  exact List.mem_singleton_self _

/-- **Step.**  Every step keeps the invariant. -/
theorem ok_wxWireStep {act : WxWireAct} (h : s.Ok env)
    (hstep : wxWireStep env idleTimeoutSecs s act = some s') : s'.Ok env := by
  unfold wxWireStep at hstep
  split at hstep
  · obtain rfl := Option.some.inj hstep
    exact ⟨h.agrees, h.ending, h.backoff, h.waits⟩
  · next session hphase =>
      obtain rfl := Option.some.inj hstep
      exact ok_takeTurn hphase h
  · next now label hphase =>
      obtain rfl := Option.some.inj hstep
      have hrunning := h.running (by rw [hphase]; rfl)
      rw [WxWireState.history, hphase] at hrunning
      exact ok_connectOk now label hrunning
  · next message hphase =>
      obtain rfl := Option.some.inj hstep
      have hrunning := h.running (by rw [hphase]; rfl)
      rw [WxWireState.history, hphase] at hrunning
      exact ok_connectFailed message hrunning
  · next hphase =>
      obtain rfl := Option.some.inj hstep
      have hrunning := h.running (by rw [hphase]; rfl)
      rw [WxWireState.history, hphase] at hrunning
      exact ok_waited (List.append_nil s.finished ▸ hrunning)
  · next hphase =>
      obtain rfl := Option.some.inj hstep
      have hrunning := h.running (by rw [hphase]; rfl)
      rw [WxWireState.history, hphase] at hrunning
      exact Running.ok ⟨hrunning.agrees, h.backoff, h.waits⟩ rfl fun r hr => by cases hr
  · next r hphase =>
      obtain ⟨hopen, hrunning⟩ := h.selecting hphase
      obtain rfl := Option.some.inj hstep
      refine ok_stop (some r) (fun r' hr' => ?_) hrunning
      obtain rfl := Option.some.inj hr'
      exact hopen
  · next r hphase =>
      obtain ⟨hopen, hrunning⟩ := h.selecting hphase
      obtain rfl := Option.some.inj hstep
      exact ok_onTick hopen hrunning
  · next r now hphase =>
      obtain ⟨hopen, hrunning⟩ := h.selecting hphase
      obtain rfl := Option.some.inj hstep
      exact hrunning.stays hopen hrunning.agrees
  · next r now stanza hphase =>
      obtain ⟨hopen, hrunning⟩ := h.selecting hphase
      exact ok_onStanza hopen hrunning hstep
  · next r now stanza hphase =>
      obtain ⟨hopen, hrunning⟩ := h.selecting hphase
      exact ok_onStanza hopen hrunning hstep
  · next r message hphase =>
      obtain ⟨hopen, hrunning⟩ := h.selecting hphase
      obtain rfl := Option.some.inj hstep
      exact ok_reconnect message hopen hrunning
  · next r now hphase =>
      obtain ⟨hopen, hrunning⟩ := h.selecting hphase
      obtain rfl := Option.some.inj hstep
      exact ok_onQuiet now hopen hrunning
  · cases hstep

/-- The invariant at the start. -/
theorem ok_start : WxWireState.start.Ok env := by
  refine ⟨⟨rfl, rfl, rfl⟩, fun r hr => ?_, rfl, rfl⟩
  cases hr

/-- **Run.**  The invariant holds after every run. -/
theorem ok_exec {acts : List WxWireAct}
    (hrun : exec (wxWireStep env idleTimeoutSecs) WxWireState.start acts = some s) : s.Ok env :=
  exec_invariant (fun _ _ _ h hstep => ok_wxWireStep h hstep) hrun ok_start

end Steps

end WxWire

/-!
# The results about the Weather Wire client

What its stream says, what its telemetry shows, and how long it waits, after every run.
-/

namespace WxWire

open Client Saturating Transition

variable {Element : Type} {env : WxWireRuntimeEnv Element} {idleTimeoutSecs : ℕ}
  {acts : List WxWireAct} {s : WxWireState}

/-- **Every stanza is answered with its files.**  After every run the stream is, but for
warnings and telemetry, one connection after another with the files of all stanzas that were
fed meanwhile, in order; and a client in a session can be fed any stanza. -/
theorem files_of_every_stanza
    (hrun : exec (wxWireStep env idleTimeoutSecs) .start acts = some s) :
    s.telemetry.events.filterMap essential? =
        ((wxWireSessions s.history).flatMap fun r =>
          .connected r.label ::
            ((r.stanzas.flatMap (filesOf env)).map (fun file => .frame (.file file)) ++
              if r.ending.isSome then [.disconnected] else [])) ++
          s.phase.farewell ∧
      ∀ r now stanza, s.phase = .selecting r → ∃ decoded s',
        framesOf (env.decoder now) stanza = some decoded ∧
        wxWireStep env idleTimeoutSecs s (.stanza now stanza) = some s' ∧
        s'.phase = .top (some (r.addStanza now stanza)) := by
  refine ⟨(ok_exec hrun).agrees.stream, fun r now stanza hphase => ?_⟩
  obtain ⟨decoded, hdecoded⟩ := exists_framesOf (env.decoder now) stanza
  obtain ⟨s', hs'⟩ : ∃ s', s.onStanza env r now stanza = some s' := by
    unfold WxWireState.onStanza
    rw [hdecoded]
    exact ⟨_, rfl⟩
  refine ⟨decoded, s', hdecoded, ?_, ?_⟩
  · unfold wxWireStep
    rw [hphase]
    exact hs'
  · obtain ⟨decoded', -, rfl⟩ := Option.map_eq_some_iff.mp hs'
    rfl

/-- **The telemetry of the client.**  After every run the counters are those of the history,
and the warnings that were offered and the warnings about drops that were delivered add up to
the number of warnings. -/
theorem loop_counters_agree (hrun : exec (wxWireStep env idleTimeoutSecs) .start acts = some s) :
    s.telemetry.counters = withReports s.telemetry.events
        (loopCountersOf env s.history s.phase.isStopped) ∧
      s.telemetry.runtime.caller.warningEventsTotal =
        shown (s.telemetry.events.countP isWarningEvent +
          (deliveredWarnings s.telemetry.runtime.sends).length) := by
  have hagrees := (ok_exec hrun).agrees
  have hwarnings := hagrees.warnings
  rw [Nat.zero_add] at hwarnings
  exact ⟨hagrees.counters, hwarnings⟩

/-- **The waits double.**  In every run the waits since the last connection are 1, 2, 4 and so
on seconds, and none is longer than the limit; the wait that comes next is the next of these. -/
theorem waits_double (hrun : exec (wxWireStep env idleTimeoutSecs) .start acts = some s) :
    (∀ k, (hk : k < s.waits.length) → s.waits.get ⟨k, hk⟩ =
        min (RECONNECT_BACKOFF_INITIAL * 2 ^ k) RECONNECT_BACKOFF_MAX) ∧
      s.reconnectBackoff =
        min (RECONNECT_BACKOFF_INITIAL * 2 ^ s.waits.length) RECONNECT_BACKOFF_MAX := by
  have hok := ok_exec hrun
  refine ⟨fun k hk => ?_, hok.backoff⟩
  have hget : s.waits[k]? = some (backoff k) := by
    rw [hok.waits, List.getElem?_map, List.getElem?_range hk]
    rfl
  exact Option.some.inj ((List.getElem?_eq_getElem hk).symm.trans hget)

/-! ## A run -/

/-- Surroundings in which an element is the text of a stanza, a message has one payload with
it, and one offer is refused. -/
def echoEnv : WxWireRuntimeEnv Str where
  decoder now :=
    { parseElement := .ok
      toMessage := fun text => some ⟨none, none, [⟨"x".toList, "nwws-oi".toList, [], text⟩]⟩
      parseRfc3339 := fun _ => none
      delayStamp := fun _ => none
      now := now }
  answers n := if n = 3 then .full else .ok
  handlers := []

/-- Two failed attempts with their waits, a connection with a stanza and a silence, a lost
connection, and the shutdown during the wait. -/
def wxWireActs : List WxWireAct :=
  [.loop, .connectFailed "refused".toList, .waited, .loop, .connectFailed "refused".toList, .waited,
    .loop, .connectOk 5 "nwws".toList, .stanza 6 "HELLO".toList, .loop, .quiet 100000000000, .loop,
    .transportError "reset".toList, .signal, .shutdownChanged, .loop]

theorem files_of_every_stanza_sample :
    ∃ s, exec (wxWireStep echoEnv 90) .start (wxWireActs.take 10) = some s ∧
      (s.telemetry.events.filterMap essential? =
          ((wxWireSessions s.history).flatMap fun r =>
            .connected r.label ::
              ((r.stanzas.flatMap (filesOf echoEnv)).map (fun file => .frame (.file file)) ++
                if r.ending.isSome then [.disconnected] else [])) ++
            s.phase.farewell ∧
        ∀ r now stanza, s.phase = .selecting r → ∃ decoded s',
          framesOf (echoEnv.decoder now) stanza = some decoded ∧
          wxWireStep echoEnv 90 s (.stanza now stanza) = some s' ∧
          s'.phase = .top (some (r.addStanza now stanza))) :=
  ⟨_, rfl, @files_of_every_stanza _ echoEnv 90 (wxWireActs.take 10) _ rfl⟩

theorem loop_counters_agree_sample :
    ∃ s, exec (wxWireStep echoEnv 90) .start wxWireActs = some s ∧
      s.telemetry.counters = withReports s.telemetry.events
        (loopCountersOf echoEnv s.history s.phase.isStopped) ∧
      s.telemetry.runtime.caller.warningEventsTotal =
        shown (s.telemetry.events.countP isWarningEvent +
          (deliveredWarnings s.telemetry.runtime.sends).length) :=
  ⟨_, rfl, @loop_counters_agree _ echoEnv 90 wxWireActs _ rfl⟩

theorem waits_double_sample :
    ∃ s, exec (wxWireStep echoEnv 90) .start (wxWireActs.take 6) = some s ∧ s.waits = [1, 2] ∧
      ((∀ k, (hk : k < s.waits.length) → s.waits.get ⟨k, hk⟩ =
          min (RECONNECT_BACKOFF_INITIAL * 2 ^ k) RECONNECT_BACKOFF_MAX) ∧
        s.reconnectBackoff =
          min (RECONNECT_BACKOFF_INITIAL * 2 ^ s.waits.length) RECONNECT_BACKOFF_MAX) :=
  ⟨_, rfl, rfl, @waits_double _ echoEnv 90 (wxWireActs.take 6) _ rfl⟩

end WxWire
