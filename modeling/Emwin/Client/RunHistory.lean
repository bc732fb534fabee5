/-
# What the stream and the counters say about a run

Two views of a run of the client are compared with what happened in it: the items it offers to
its stream, and the counters of its telemetry.

The stream, without the reports of the client about itself, is the attempts one after another:
for each connection, that it was made, the frames that a fresh decoder reads from its bytes,
and that it was lost (`stream_agrees`).  And each counter of the shared snapshot is the number
of things of its kind in the history (`counters_agree`).
-/
import Emwin.Client.Runtime
import Emwin.Lib.Transition
import Emwin.Qbt.Chunking

namespace Client

open Qbt Saturating Transition

variable {env : RuntimeEnv} {config : RuntimeConfig}

/-- Chunks that come later are fed to the decoder that the earlier ones leave. -/
theorem feedAll_append (codec : CodecEnv) (d : QbtProtocolDecoder) (chunks chunks' : List (List UInt8)) :
    feedAll codec d (chunks ++ chunks') =
      ((feedAll codec d chunks).1 ++ (feedAll codec (feedAll codec d chunks).2 chunks').1,
        (feedAll codec (feedAll codec d chunks).2 chunks').2) := by
  induction chunks generalizing d with
  | nil => rfl
  | cons chunk chunks ih =>
      rw [List.cons_append, feedAll, ih, feedAll, List.append_assoc]

/-! ## The history of a run -/

/-- The bytes that a session has read. -/
def SessionRecord.chunks (r : SessionRecord) : List (List UInt8) := r.reads.map Prod.snd

/-- How many bytes a session has read. -/
def SessionRecord.bytesIn (r : SessionRecord) : ℕ := r.chunks.flatten.length

/-- When a session last had news of the server. -/
def SessionRecord.lastHeard (r : SessionRecord) : ℕ :=
  ((r.reads.map Prod.fst).getLast?).getD r.since

/-- The frames that a fresh decoder reads from the bytes of a session. -/
def SessionRecord.frames (env : RuntimeEnv) (config : RuntimeConfig) (r : SessionRecord) :
    List QbtFrameEvent :=
  (feedAll env.codec (QbtProtocolDecoder.new config.decode) r.chunks).1

/-- What a session looks like in the stream. -/
def SessionRecord.transcript (env : RuntimeEnv) (config : RuntimeConfig) (r : SessionRecord) :
    List QbtReceiverEvent :=
  .connected (endpointLabel r.endpoint) :: (r.frames env config).map .frame ++
    if r.ending.isSome then [.disconnected] else []

/-- The session of an attempt. -/
def Attempt.session? : Attempt → Option SessionRecord
  | .session r => some r
  | .connecting _ | .failed _ => none

/-- Whether an attempt has failed. -/
def Attempt.isFailed : Attempt → Bool
  | .failed _ => true
  | .connecting _ | .session _ => false

/-- The sessions of some attempts. -/
def sessions (attempts : List Attempt) : List SessionRecord := attempts.filterMap Attempt.session?

/-- The attempt that is not over. -/
def Phase.attempt : Phase → List Attempt
  | .turn | .stopped => []
  | .connecting endpoint _ => [.connecting endpoint]
  | .connected session _ => [.session session.record]

/-- All attempts so far. -/
def State.history (s : State) : List Attempt := s.finished ++ s.phase.attempt

/-! ## What the stream says -/

/-- What an item of the stream says about the connection. -/
def essential? : StreamItem → Option QbtReceiverEvent
  | .ok (.connected endpoint) => some (.connected endpoint)
  | .ok .disconnected => some .disconnected
  | .ok (.frame event) => some (.frame event)
  | _ => none

/-- Whether an item reports a failed handler. -/
def isHandlerError : StreamItem → Bool
  | .ok (.clientWarning (.handlerError _)) => true
  | _ => false

/-- Whether an item is a telemetry snapshot. -/
def isTelemetry : StreamItem → Bool
  | .ok (.telemetry _) => true
  | _ => false

/-- Whether a session was ended by the watchdog. -/
def SessionEnd.isWatchdogTimeout : SessionEnd → Bool
  | .watchdogTimeout _ => true
  | _ => false

/-- Whether a session was ended by a failed read. -/
def SessionEnd.isReadFailed : SessionEnd → Bool
  | .readFailed _ => true
  | _ => false

/-- The counters that a history leads to.  The reports of the client about itself and the
active servers are no matter of the history. -/
def countersOf (env : RuntimeEnv) (config : RuntimeConfig) (attempts : List Attempt) :
    SessionCounters :=
  let frames := (sessions attempts).flatMap (SessionRecord.frames env config)
  { connectionAttemptsTotal := shown attempts.length
    connectionSuccessTotal := shown (sessions attempts).length
    connectionFailTotal := shown (attempts.countP Attempt.isFailed)
    disconnectTotal := shown ((sessions attempts).countP fun r => r.ending.isSome)
    watchdogTimeoutsTotal :=
      shown ((sessions attempts).countP fun r => r.ending.any SessionEnd.isWatchdogTimeout)
    watchdogExceptionEventsTotal :=
      shown ((sessions attempts).countP fun r => r.ending.any SessionEnd.isReadFailed)
    authLogonSentTotal := shown ((sessions attempts).map SessionRecord.logons).sum
    bytesInTotal := shown ((sessions attempts).map SessionRecord.bytesIn).sum
    frameEventsTotal := shown frames.length
    dataBlocksEmittedTotal := shown (frames.countP isDataBlock)
    serverListUpdatesTotal := shown (frames.countP isServerListUpdate)
    checksumMismatchTotal := shown (frames.countP isChecksumMismatch)
    decompressionFailedTotal := shown (frames.countP isDecompressionFailure)
    decoderRecoveryEventsTotal := shown (frames.countP isDecoderRecovery) }

/-- Counters with those of the reports among some items. -/
def withReports (items : List StreamItem) (activeServers : ℕ) (c : SessionCounters) :
    SessionCounters :=
  { c with
    activeServers
    handlerFailuresTotal := shown (items.countP isHandlerError)
    telemetryEventsEmittedTotal := shown (items.countP isTelemetry) }

/-- The stream says this of the connection, and but for the reports these are the counters. -/
structure Agrees (said : List QbtReceiverEvent) (c : SessionCounters) (t : Telemetry) : Prop where
  stream : t.items.filterMap essential? = said
  counters : t.counters = withReports t.items t.counters.activeServers c

/-! ## Offers keep the agreement -/

namespace Agrees

variable {said : List QbtReceiverEvent} {c : SessionCounters} {t : Telemetry}

/-- Publishing the snapshot. -/
theorem updateSink (h : Agrees said c t) : Agrees said c t.updateSink := ⟨h.stream, h.counters⟩

/-- Counting what is no report. -/
theorem count (h : Agrees said c t) (f : SessionCounters → SessionCounters)
    (hf : ∀ items n, f (withReports items n c) = withReports items n (f c)) :
    Agrees said (f c) (t.count f) := by
  refine ⟨h.stream, ?_⟩
  have hactive : (f t.counters).activeServers = t.counters.activeServers := by
    rw [h.counters, hf]
    rfl
  rw [Telemetry.counters_count, Telemetry.items_count, hactive, ← hf, ← h.counters]

/-- An item that is no report. -/
theorem trySendEvent (h : Agrees said c t) (item : StreamItem)
    (hhandler : isHandlerError item = false) (htelemetry : isTelemetry item = false) :
    Agrees (said ++ (essential? item).toList) c (t.trySendEvent env item) := by
  constructor
  · rw [Telemetry.items_trySendEvent, List.filterMap_append, h.stream]
    cases hitem : essential? item <;> simp [hitem]
  · rw [Telemetry.counters_trySendEvent, Telemetry.items_trySendEvent]
    refine h.counters.trans ?_
    simp [withReports, hhandler, htelemetry]

/-- An error. -/
theorem trySendError (h : Agrees said c t) (err : ReceiverFailure) :
    Agrees said c (t.trySendEvent env (.error err)) := by
  have hsent : Agrees (said ++ []) c (t.trySendEvent env (.error err)) :=
    h.trySendEvent (.error err) rfl rfl
  rwa [List.append_nil] at hsent

/-- The number of active servers is free. -/
theorem syncActiveServers (h : Agrees said c t) (m : ServerListManager) :
    Agrees said c (t.syncActiveServers m) := by
  refine ⟨h.stream, ?_⟩
  unfold Telemetry.syncActiveServers
  rw [Telemetry.counters_count, Telemetry.items_count, h.counters]
  rfl

/-- A telemetry snapshot is counted and offered. -/
theorem emitTelemetry (h : Agrees said c t) : Agrees said c (t.emitTelemetry env) := by
  unfold Telemetry.emitTelemetry
  refine updateSink ⟨?_, ?_⟩
  · rw [Telemetry.items_trySendEvent, List.filterMap_append, Telemetry.items_count, h.stream]
    simp [essential?]
  · rw [Telemetry.counters_trySendEvent, Telemetry.items_trySendEvent, Telemetry.counters_count,
      Telemetry.items_count, h.counters]
    simp [withReports, isHandlerError, isTelemetry]

/-- A failed handler is counted and reported. -/
theorem runHandler (h : Agrees said c t) (event : QbtFrameEvent)
    (handler : ℕ → QbtFrameEvent → Option Str) :
    Agrees said c (Telemetry.runHandler env event t handler) := by
  unfold Telemetry.runHandler
  cases handler t.runtime.sends.length event with
  | none => exact h
  | some message =>
      constructor
      · rw [Telemetry.items_trySendEvent, List.filterMap_append, Telemetry.items_count, h.stream]
        simp [essential?]
      · rw [Telemetry.counters_trySendEvent, Telemetry.items_trySendEvent,
          Telemetry.counters_count, Telemetry.items_count, h.counters]
        simp [withReports, isHandlerError, isTelemetry]

/-- Following a server list of the feed. -/
theorem followServerList (m : ServerListManager) (h : Agrees said c t) (event : QbtFrameEvent) :
    Agrees said c (Client.followServerList env config (m, t) event).2 := by
  unfold Client.followServerList
  cases event with
  | dataBlock segment => exact h
  | warning w => exact h
  | serverListUpdate list =>
      dsimp only
      split_ifs
      · split
        · exact h.trySendError _
        · exact (h.syncActiveServers _).emitTelemetry
      · exact h

/-- Following the server lists among some events. -/
theorem foldl_followServerList (events : List QbtFrameEvent) (s : ServerListManager × Telemetry)
    (h : Agrees said c s.2) :
    Agrees said c (events.foldl (Client.followServerList env config) s).2 := by
  induction events generalizing s with
  | nil => exact h
  | cons event events ih => exact ih _ (h.followServerList s.1 event)

/-- The handlers of a frame. -/
theorem foldl_runHandler (h : Agrees said c t) (event : QbtFrameEvent)
    (handlers : List (ℕ → QbtFrameEvent → Option Str)) :
    Agrees said c (handlers.foldl (Telemetry.runHandler env event) t) := by
  induction handlers generalizing t with
  | nil => exact h
  | cons handler handlers ih => exact ih (h.runHandler event handler)

/-- The frames of a read are said one after another. -/
theorem dispatchEvents (h : Agrees said c t) (events : List QbtFrameEvent) :
    Agrees (said ++ events.map .frame) c (t.dispatchEvents env events) := by
  induction events generalizing said t with
  | nil =>
      rw [List.map_nil, List.append_nil]
      exact h
  | cons event events ih =>
      have hone : Agrees (said ++ [.frame event]) c (t.dispatchEvent env event) :=
        (h.foldl_runHandler event env.handlers).trySendEvent (.ok (.frame event)) rfl rfl
      rw [List.map_cons, List.append_cons]
      exact ih hone

end Agrees

/-! ## The counters of a longer history -/

@[simp] theorem sessions_append (attempts attempts' : List Attempt) :
    sessions (attempts ++ attempts') = sessions attempts ++ sessions attempts' :=
  List.filterMap_append

@[simp] theorem sessions_connecting (e : Endpoint) : sessions [.connecting e] = [] := rfl

@[simp] theorem sessions_failed (e : Endpoint) : sessions [.failed e] = [] := rfl

@[simp] theorem sessions_session (r : SessionRecord) : sessions [.session r] = [r] := rfl

/-- The counter that is raised before a session ends. -/
def SessionEnd.counted (ending : SessionEnd) (c : SessionCounters) : SessionCounters :=
  match ending with
  | .readFailed _ =>
      { c with
        watchdogExceptionEventsTotal := saturatingAdd c.watchdogExceptionEventsTotal 1 }
  | .watchdogTimeout _ =>
      { c with watchdogTimeoutsTotal := saturatingAdd c.watchdogTimeoutsTotal 1 }
  | .closed | .shutdown | .writeFailed _ => c

section Histories

variable (attempts : List Attempt)

theorem countersOf_connecting (e : Endpoint) :
    countersOf env config (attempts ++ [.connecting e]) =
      { countersOf env config attempts with
        connectionAttemptsTotal :=
          saturatingAdd (countersOf env config attempts).connectionAttemptsTotal 1 } := by
  simp [countersOf, Attempt.isFailed]

theorem countersOf_failed (e : Endpoint) :
    countersOf env config (attempts ++ [.failed e]) =
      { countersOf env config (attempts ++ [.connecting e]) with
        connectionFailTotal := saturatingAdd
          (countersOf env config (attempts ++ [.connecting e])).connectionFailTotal 1 } := by
  simp [countersOf, Attempt.isFailed]

theorem countersOf_connected (e : Endpoint) (now : ℕ) :
    countersOf env config (attempts ++ [.session ⟨e, now, [], 0, none⟩]) =
      { countersOf env config (attempts ++ [.connecting e]) with
        connectionSuccessTotal := saturatingAdd
          (countersOf env config (attempts ++ [.connecting e])).connectionSuccessTotal 1 } := by
  simp [countersOf, Attempt.isFailed, SessionRecord.frames, SessionRecord.bytesIn,
    SessionRecord.chunks, feedAll]

theorem countersOf_logon (r : SessionRecord) :
    countersOf env config (attempts ++ [.session { r with logons := r.logons + 1 }]) =
      { countersOf env config (attempts ++ [.session r]) with
        authLogonSentTotal := saturatingAdd
          (countersOf env config (attempts ++ [.session r])).authLogonSentTotal 1 } := by
  simp [countersOf, Attempt.isFailed, SessionRecord.frames, SessionRecord.bytesIn,
    SessionRecord.chunks, Nat.add_assoc]

theorem countersOf_ended (r : SessionRecord) (hopen : r.ending = none) (ending : SessionEnd) :
    countersOf env config (attempts ++ [.session { r with ending := some ending }]) =
      { ending.counted (countersOf env config (attempts ++ [.session r])) with
        disconnectTotal := saturatingAdd
          (ending.counted (countersOf env config (attempts ++ [.session r]))).disconnectTotal 1 } := by
  cases ending <;>
    simp [countersOf, Attempt.isFailed, SessionRecord.frames, SessionRecord.bytesIn,
      SessionRecord.chunks, hopen, SessionEnd.counted, SessionEnd.isWatchdogTimeout,
      SessionEnd.isReadFailed, List.countP_cons]

/-- The frames of a session after another read. -/
theorem frames_addRead (r : SessionRecord) (now : ℕ) (chunk : List UInt8) :
    (r.addRead now chunk).frames env config =
      r.frames env config ++ (feed env.codec
        (feedAll env.codec (QbtProtocolDecoder.new config.decode) r.chunks).2 chunk).1 := by
  unfold SessionRecord.frames SessionRecord.chunks SessionRecord.addRead
  rw [List.map_append, feedAll_append]
  simp [feedAll]

theorem countersOf_addRead (r : SessionRecord) (now : ℕ) (chunk : List UInt8)
    {events : List QbtFrameEvent} (hevents : events = (feed env.codec
      (feedAll env.codec (QbtProtocolDecoder.new config.decode) r.chunks).2 chunk).1) :
    countersOf env config
        (attempts ++ [.session (r.addRead now chunk)]) =
      countEvents events { countersOf env config (attempts ++ [.session r]) with
        bytesInTotal := saturatingAdd
          (countersOf env config (attempts ++ [.session r])).bytesInTotal chunk.length } := by
  have hbytes : (r.addRead now chunk).bytesIn = r.bytesIn + chunk.length := by
    simp [SessionRecord.bytesIn, SessionRecord.chunks, SessionRecord.addRead]
  have hlogons : (r.addRead now chunk).logons = r.logons := rfl
  have hending : (r.addRead now chunk).ending = r.ending := rfl
  simp [countersOf, Attempt.isFailed, countEvents, frames_addRead, hbytes, hlogons, hending,
    ← hevents, saturatingAdd_shown_left, Nat.add_assoc]

end Histories

/-! ## The invariant of a run -/

/-- What the stream should say of some attempts. -/
def transcript (env : RuntimeEnv) (config : RuntimeConfig) (attempts : List Attempt) :
    List QbtReceiverEvent := (sessions attempts).flatMap (SessionRecord.transcript env config)

/-- How long a session may be silent, in nanoseconds. -/
def RuntimeConfig.patience (config : RuntimeConfig) : ℕ :=
  max config.watchdogTimeoutSecs 1 * 1000000000

/-- A running session is what its record says. -/
structure Live (env : RuntimeEnv) (config : RuntimeConfig) (session : LiveSession) : Prop where
  decoder : session.decoder =
    (feedAll env.codec (QbtProtocolDecoder.new config.decode) session.record.chunks).2
  watchdog : session.watchdog =
    .new config.watchdogTimeoutSecs config.maxExceptions session.record.lastHeard
  ending : session.record.ending = none

/-- Sessions are ended by the watchdog when they were silent for too long. -/
def OnlySilentClosed (config : RuntimeConfig) (attempts : List Attempt) : Prop :=
  ∀ r ∈ sessions attempts, ∀ now, r.ending = some (.watchdogTimeout now) →
    config.patience < now - r.lastHeard

/-- A history and the telemetry where the client waits: they agree, and the shared snapshot
shows the counters. -/
structure Consistent (env : RuntimeEnv) (config : RuntimeConfig) (attempts : List Attempt)
    (t : Telemetry) : Prop where
  agrees : Agrees (transcript env config attempts) (countersOf env config attempts) t
  published : t.sink = t.runtime.caller
  silent : OnlySilentClosed config attempts

/-- The invariant of the client. -/
structure State.Ok (env : RuntimeEnv) (config : RuntimeConfig) (s : State) : Prop where
  consistent : Consistent env config s.history s.telemetry
  live : ∀ session n, s.phase = .connected session n → Live env config session

@[simp] theorem transcript_append (attempts attempts' : List Attempt) :
    transcript env config (attempts ++ attempts') =
      transcript env config attempts ++ transcript env config attempts' := by
  unfold transcript
  rw [sessions_append, List.flatMap_append]

@[simp] theorem transcript_connecting (e : Endpoint) : transcript env config [.connecting e] = [] :=
  rfl

@[simp] theorem transcript_failed (e : Endpoint) : transcript env config [.failed e] = [] := rfl

@[simp] theorem transcript_session (r : SessionRecord) :
    transcript env config [.session r] = r.transcript env config := List.flatMap_singleton ..

theorem onlySilentClosed_append {attempts attempts' : List Attempt} :
    OnlySilentClosed config (attempts ++ attempts') ↔
      OnlySilentClosed config attempts ∧ OnlySilentClosed config attempts' := by
  unfold OnlySilentClosed
  rw [sessions_append]
  exact List.forall_mem_append

section Sessions

variable {s : State} {session : LiveSession} {n : ℕ}

/-- **The end of a session**, whose counters may be ahead of its record. -/
theorem ok_endSession (ending : SessionEnd) (hopen : session.record.ending = none)
    (h : Agrees (transcript env config (s.finished ++ [.session session.record]))
      (ending.counted (countersOf env config (s.finished ++ [.session session.record])))
      s.telemetry)
    (hsilent : OnlySilentClosed config s.finished)
    (hending : ∀ now, ending = .watchdogTimeout now →
      config.patience < now - session.record.lastHeard) :
    (s.endSession env session n ending).Ok env config := by
  -- the session is over, and the stream says so
  set r : SessionRecord := { session.record with ending := some ending } with hr
  have hover : ∀ t : Telemetry,
      Agrees (transcript env config (s.finished ++ [.session session.record]))
        (ending.counted (countersOf env config (s.finished ++ [.session session.record]))) t →
      Agrees _ _ (Telemetry.trySendEvent env _ _) := fun t ht =>
    (ht.count (fun c => { c with disconnectTotal := saturatingAdd c.disconnectTotal 1 })
      fun _ _ => rfl).trySendEvent (.ok .disconnected) rfl rfl
  have hsaid : transcript env config (s.finished ++ [.session session.record]) ++ [.disconnected] =
      transcript env config (s.finished ++ [.session r]) := by
    rw [transcript_append, transcript_append, transcript_session, transcript_session]
    simp [SessionRecord.transcript, hr, hopen, SessionRecord.frames, SessionRecord.chunks]
  refine ⟨⟨?_, rfl, ?_⟩, ?_⟩
  · show Agrees (transcript env config ((s.finished ++ [.session r]) ++ []))
      (countersOf env config ((s.finished ++ [.session r]) ++ [])) _
    rw [List.append_nil, ← hsaid, countersOf_ended s.finished session.record hopen ending]
    unfold State.endSession
    cases ending.error? with
    | none => exact (hover _ h).updateSink
    | some err => exact (hover _ (h.trySendError err)).updateSink
  · show OnlySilentClosed config ((s.finished ++ [.session r]) ++ [])
    rw [List.append_nil, onlySilentClosed_append]
    refine ⟨hsilent, fun r' hr' now hnow => ?_⟩
    obtain rfl := List.mem_singleton.mp hr'
    exact hending now (Option.some.inj hnow)
  · intro session' n' hphase
    cases hphase

/-- The session goes on, unless the shutdown is signalled. -/
theorem ok_goOn (hlive : Live env config session)
    (h : Consistent env config (s.finished ++ [.session session.record]) s.telemetry) :
    (s.goOn env session n).Ok env config := by
  have hsilent := (onlySilentClosed_append.mp h.silent).1
  unfold State.goOn
  split_ifs
  · exact ok_endSession .shutdown hlive.ending h.agrees hsilent fun _ hnow => by cases hnow
  · refine ⟨h, fun session' n' hphase => ?_⟩
    cases hphase
    exact hlive

/-- A logon message is counted, or its failure ends the session. -/
theorem ok_writeLogon (write : Except ReceiverFailure Unit) (hlive : Live env config session)
    (h : Consistent env config (s.finished ++ [.session session.record]) s.telemetry) :
    (s.writeLogon env session n write).Ok env config := by
  have hsilent := onlySilentClosed_append.mp h.silent
  cases write with
  | error err =>
      exact ok_endSession (.writeFailed err) hlive.ending h.agrees hsilent.1
        fun _ hnow => by cases hnow
  | ok _ =>
      refine ok_goOn ⟨hlive.decoder, hlive.watchdog, hlive.ending⟩ ⟨?_, rfl, ?_⟩
      · have hcount := h.agrees.count (fun c =>
          { c with authLogonSentTotal := saturatingAdd c.authLogonSentTotal 1 }) fun _ _ => rfl
        rw [countersOf_logon, transcript_append]
        rw [transcript_append] at hcount
        exact hcount.updateSink
      · rw [onlySilentClosed_append]
        refine ⟨hsilent.1, fun r hr now hnow => ?_⟩
        obtain rfl := List.mem_singleton.mp hr
        exact absurd (hlive.ending.symm.trans hnow) (Option.some_ne_none _).symm

/-- Bytes are decoded, counted and dispatched. -/
theorem ok_onData (now : ℕ) (chunk : List UInt8) (hlive : Live env config session)
    (h : Consistent env config (s.finished ++ [.session session.record]) s.telemetry) :
    (s.onData env config session n now chunk).Ok env config := by
  have hsilent := (onlySilentClosed_append.mp h.silent).1
  set r := session.record.addRead now chunk with hr
  set fed := feed env.codec session.decoder chunk with hfed
  have hevents : fed.1 = (feed env.codec (feedAll env.codec
      (QbtProtocolDecoder.new config.decode) session.record.chunks).2 chunk).1 := by
    rw [hfed, hlive.decoder]
  refine ok_goOn ⟨?_, ?_, hlive.ending⟩ ⟨?_, rfl, ?_⟩
  · -- the decoder has one chunk more behind it
    show fed.2 = (feedAll env.codec _ (r.reads.map Prod.snd)).2
    rw [hr, SessionRecord.addRead, List.map_append, feedAll_append, hfed, hlive.decoder]
    rfl
  · show session.watchdog.onDataReceived now = .new _ _ r.lastHeard
    rw [hlive.watchdog]
    simp [SessionRecord.lastHeard, hr, SessionRecord.addRead, Watchdog.onDataReceived,
      Watchdog.new]
  · have hcount := h.agrees.count (fun c =>
      countEvents fed.1 { c with bytesInTotal := saturatingAdd c.bytesInTotal chunk.length })
        fun _ _ => rfl
    have hdone := (((Agrees.foldl_followServerList fed.1 (s.serverList, _) hcount :
      Agrees _ _ (fed.1.foldl (followServerList env config) _).2).dispatchEvents fed.1 :
      Agrees _ _ (Telemetry.dispatchEvents env _ _)).updateSink)
    rw [countersOf_addRead s.finished session.record now chunk hevents]
    have hsaid : transcript env config (s.finished ++ [.session session.record]) ++
        fed.1.map .frame = transcript env config (s.finished ++ [.session r]) := by
      rw [transcript_append, transcript_append, transcript_session, transcript_session]
      have hopen : r.ending = none := hlive.ending
      have hendpoint : r.endpoint = session.record.endpoint := rfl
      rw [SessionRecord.transcript, SessionRecord.transcript, hopen, hlive.ending, hendpoint, hr,
        frames_addRead, ← hevents]
      simp
    rw [← hsaid]
    exact hdone
  · rw [onlySilentClosed_append]
    refine ⟨hsilent, fun r' hr' now' hnow => ?_⟩
    obtain rfl := List.mem_singleton.mp hr'
    exact absurd (hlive.ending.symm.trans hnow) (Option.some_ne_none _).symm

/-- A read returns or is given up. -/
theorem ok_onRead (now : ℕ) (result : ReadResult) (hlive : Live env config session)
    (h : Consistent env config (s.finished ++ [.session session.record]) s.telemetry) :
    (s.onRead env config session n now result).Ok env config := by
  have hsilent := (onlySilentClosed_append.mp h.silent).1
  unfold State.onRead
  match result with
  | .bytes [] =>
      exact ok_endSession .closed hlive.ending h.agrees hsilent fun _ hnow => by cases hnow
  | .bytes (b :: chunk) => exact ok_onData now (b :: chunk) hlive h
  | .error message =>
      refine ok_endSession (.readFailed message) hlive.ending ?_ hsilent fun _ hnow => by cases hnow
      exact (h.agrees.count (fun c =>
        { c with
          watchdogExceptionEventsTotal := saturatingAdd c.watchdogExceptionEventsTotal 1 })
        fun _ _ => rfl).updateSink
  | .elapsed =>
      dsimp only
      split_ifs with hclose
      · refine ok_endSession (.watchdogTimeout now) hlive.ending ?_ hsilent ?_
        · exact (h.agrees.count (fun c =>
            { c with watchdogTimeoutsTotal := saturatingAdd c.watchdogTimeoutsTotal 1 })
            fun _ _ => rfl).updateSink
        · rintro now' hnow
          cases hnow
          -- no exception was counted, so it is the silence
          rw [hlive.watchdog] at hclose
          simp only [Watchdog.shouldCloseAt, Watchdog.new, Nat.not_lt_zero, decide_false,
            Bool.false_or] at hclose
          exact of_decide_eq_true hclose
      · exact ok_goOn hlive h

end Sessions

/-! ## Every run -/

section Runs

variable {s s' : State} {act : Act}

/-- The counters and the stream before the first turn. -/
theorem ok_start (env : RuntimeEnv) (config : RuntimeConfig)
    (persisted : Option (Except QbtReceiverError (List Endpoint))) :
    (State.start env config persisted).Ok env config := by
  have hstart : Agrees [] (countersOf env config []) Telemetry.start := ⟨rfl, rfl⟩
  have hload : ∀ loaded, Agrees [] (countersOf env config []) (Telemetry.afterLoad env loaded) := by
    rintro (err | _)
    · exact hstart.trySendError _
    · exact hstart
  refine ⟨⟨?_, rfl, fun r hr => by cases hr⟩, fun session n hphase => by cases hphase⟩
  refine Agrees.emitTelemetry (Agrees.syncActiveServers ?_ _)
  split_ifs
  · exact hload _
  · exact hstart

/-- The top of the connection loop. -/
theorem ok_takeTurn (hphase : s.phase = .turn) (h : s.Ok env config) :
    (s.takeTurn env).Ok env config := by
  have hhistory : s.history = s.finished := by
    rw [State.history, hphase]
    exact List.append_nil _
  have hc := h.consistent
  rw [hhistory] at hc
  unfold State.takeTurn
  split_ifs
  · refine ⟨⟨?_, rfl, ?_⟩, fun session n hphase' => by cases hphase'⟩
    · show Agrees (transcript env config (s.finished ++ [])) (countersOf env config (s.finished ++ []))
        s.telemetry.updateSink
      rw [List.append_nil]
      exact hc.agrees.updateSink
    · show OnlySilentClosed config (s.finished ++ [])
      rw [List.append_nil]
      exact hc.silent
  · split
    · refine ⟨⟨?_, rfl, h.consistent.silent⟩, fun session n hphase' => ?_⟩
      · exact (h.consistent.agrees.trySendError _).updateSink
      · exact absurd (hphase.symm.trans hphase') Phase.noConfusion
    · next endpoint serverList hnext =>
        refine ⟨⟨?_, rfl, ?_⟩, fun session n hphase' => by cases hphase'⟩
        · show Agrees (transcript env config (s.finished ++ [.connecting endpoint]))
            (countersOf env config (s.finished ++ [.connecting endpoint])) _
          rw [transcript_append, transcript_connecting, List.append_nil, countersOf_connecting]
          exact (hc.agrees.count (fun c =>
            { c with
              connectionAttemptsTotal := saturatingAdd c.connectionAttemptsTotal 1 })
            fun _ _ => rfl).updateSink
        · exact onlySilentClosed_append.mpr ⟨hc.silent, fun r hr => by cases hr⟩

/-- A failed attempt. -/
theorem ok_connectFailed {endpoint : Endpoint} {n : ℕ} (message : Str)
    (h : Consistent env config (s.finished ++ [.connecting endpoint]) s.telemetry) :
    (s.connectFailed env endpoint n message).Ok env config := by
  have hsaid : transcript env config (s.finished ++ [.connecting endpoint]) =
      transcript env config (s.finished ++ [.failed endpoint]) := by
    rw [transcript_append, transcript_append]
    rfl
  refine ⟨⟨?_, rfl, ?_⟩, fun session m hphase => by cases hphase⟩
  · show Agrees (transcript env config ((s.finished ++ [.failed endpoint]) ++ []))
      (countersOf env config ((s.finished ++ [.failed endpoint]) ++ [])) _
    rw [List.append_nil, countersOf_failed, ← hsaid]
    exact ((h.agrees.count (fun c =>
      { c with connectionFailTotal := saturatingAdd c.connectionFailTotal 1 })
      fun _ _ => rfl).trySendError _).updateSink
  · show OnlySilentClosed config ((s.finished ++ [.failed endpoint]) ++ [])
    rw [List.append_nil]
    exact onlySilentClosed_append.mpr
      ⟨(onlySilentClosed_append.mp h.silent).1, fun r hr => by cases hr⟩

/-- A connection is established. -/
theorem ok_connectOk {endpoint : Endpoint} {n : ℕ} (now : ℕ) (logon : Except ReceiverFailure Unit)
    (h : Consistent env config (s.finished ++ [.connecting endpoint]) s.telemetry) :
    (s.connectOk env config endpoint n now logon).Ok env config := by
  refine ok_writeLogon logon ⟨rfl, rfl, rfl⟩ ⟨?_, rfl, ?_⟩
  · show Agrees (transcript env config (s.finished ++ [.session ⟨endpoint, now, [], 0, none⟩]))
      (countersOf env config (s.finished ++ [.session ⟨endpoint, now, [], 0, none⟩])) _
    have hsaid : transcript env config (s.finished ++ [.connecting endpoint]) ++
        [.connected (endpointLabel endpoint)] =
        transcript env config (s.finished ++ [.session ⟨endpoint, now, [], 0, none⟩]) := by
      rw [transcript_append, transcript_append]
      simp [SessionRecord.transcript, SessionRecord.frames, SessionRecord.chunks, feedAll]
    rw [countersOf_connected, ← hsaid]
    exact ((h.agrees.count (fun c =>
      { c with connectionSuccessTotal := saturatingAdd c.connectionSuccessTotal 1 })
      fun _ _ => rfl).trySendEvent (.ok (.connected (endpointLabel endpoint))) rfl rfl).updateSink
  · refine onlySilentClosed_append.mpr ⟨(onlySilentClosed_append.mp h.silent).1, ?_⟩
    intro r hr now' hnow
    obtain rfl := List.mem_singleton.mp hr
    cases hnow

/-- What the invariant says during a session. -/
theorem State.Ok.connected {session : LiveSession} {n : ℕ} (h : s.Ok env config)
    (hphase : s.phase = .connected session n) : Live env config session ∧
      Consistent env config (s.finished ++ [.session session.record]) s.telemetry := by
  have hc := h.consistent
  rw [State.history, hphase] at hc
  exact ⟨h.live session n hphase, hc⟩

/-- **Step.**  Every step keeps the invariant. -/
theorem ok_step (h : s.Ok env config) (hstep : step env config s act = some s') :
    s'.Ok env config := by
  unfold step at hstep
  split at hstep
  · obtain rfl := Option.some.inj hstep
    exact ⟨h.consistent, h.live⟩
  · next hphase =>
      obtain rfl := Option.some.inj hstep
      exact ok_takeTurn hphase h
  · next endpoint n message hphase =>
      obtain rfl := Option.some.inj hstep
      refine ok_connectFailed message ?_
      have hc := h.consistent
      rwa [State.history, hphase] at hc
  · next endpoint n now logon hphase =>
      obtain rfl := Option.some.inj hstep
      refine ok_connectOk now logon ?_
      have hc := h.consistent
      rwa [State.history, hphase] at hc
  · next session n hphase =>
      obtain ⟨hlive, hc⟩ := h.connected hphase
      obtain rfl := Option.some.inj hstep
      exact ok_endSession .shutdown hlive.ending hc.agrees
        (onlySilentClosed_append.mp hc.silent).1 fun _ hnow => by cases hnow
  · next session n write hphase =>
      obtain ⟨hlive, hc⟩ := h.connected hphase
      obtain rfl := Option.some.inj hstep
      exact ok_writeLogon write hlive hc
  · next session n hphase =>
      obtain ⟨hlive, hc⟩ := h.connected hphase
      obtain rfl := Option.some.inj hstep
      exact ok_goOn hlive ⟨hc.agrees.emitTelemetry, rfl, hc.silent⟩
  · next session n now result hphase =>
      obtain ⟨hlive, hc⟩ := h.connected hphase
      obtain rfl := Option.some.inj hstep
      exact ok_onRead now result hlive hc
  · cases hstep

/-- **Run.**  The invariant holds after every run. -/
theorem ok_exec {persisted : Option (Except QbtReceiverError (List Endpoint))} {acts : List Act}
    (hrun : exec (step env config) (State.start env config persisted) acts = some s) :
    s.Ok env config :=
  exec_invariant (fun _ _ _ h hstep => ok_step h hstep) hrun (ok_start env config persisted)

end Runs

end Client
