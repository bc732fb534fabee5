/-
# The connection loop of the client

`run_connection_loop` of `client/runtime.rs` takes the next endpoint in turn, connects to it
and runs a session until the connection is lost, and waits for `reconnect_delay_secs` once
as many attempts in a row have failed as there are endpoints.

One turn of the loop is `turn`; what the network does in it is its input.  The trace of a
run consists of the attempts and the delays.  The events and the telemetry the loop emits on
the way are left out.
-/
import Emwin.Qbt.Codec
import Emwin.Client.ServerListManager

namespace Client

open Qbt

/-- The part of the receiver configuration that the loop reads. -/
structure QbtReceiverConfig where
  servers : List Endpoint
  serverListPath : Option Str
  followServerListUpdates : Bool
  decode : QbtDecodeConfig
  deriving DecidableEq, Repr

/-! ## Sessions -/

/-- What happens on a connection. -/
structure Session where
  /-- The bytes that the reads of the session return. -/
  reads : List (List UInt8)
  /-- Whether a server list of the feed can be saved. -/
  save : QbtServerList → Except QbtReceiverError Unit

/-- How many bytes the session receives. -/
def Session.bytesIn (session : Session) : ℕ := session.reads.flatten.length

/-- `apply_server_list_update` for one event of the decoder; a failure is only reported. -/
def applyEvent (config : QbtReceiverConfig) (save : QbtServerList → Except QbtReceiverError Unit)
    (m : ServerListManager) : QbtFrameEvent → ServerListManager
  | .serverListUpdate list =>
      if config.followServerListUpdates then (m.applyServerList list (save list)).2 else m
  | .dataBlock _ | .warning _ => m

/-- What `run_connected_session` does to the server list. -/
def runConnectedSession (env : CodecEnv) (config : QbtReceiverConfig) (session : Session)
    (m : ServerListManager) : ServerListManager :=
  (feedAll env (QbtProtocolDecoder.new config.decode) session.reads).1.foldl
    (applyEvent config session.save) m

/-! ## The loop -/

/-- `completed_failed_pass`. -/
def completedFailedPass (attemptsInPass endpointCount : ℕ) : Bool :=
  0 < endpointCount && endpointCount ≤ attemptsInPass

/-- What the loop keeps from turn to turn. -/
structure LoopState where
  serverList : ServerListManager
  attemptsInPass : ℕ
  deriving DecidableEq, Repr

/-- What happens during a turn. -/
structure Turn where
  /-- The session, if the connection is established. -/
  connect : Option Session
  /-- Whether the shutdown is signalled before the turn ends. -/
  shutdown : Bool

/-- How an attempt went. -/
inductive Outcome where
  | connectFailed
  | session (bytesIn : ℕ)
  deriving DecidableEq, Repr

/-- The outcome of the attempt of a turn. -/
def Turn.outcome (t : Turn) : Outcome :=
  match t.connect with
  | none => .connectFailed
  | some session => .session session.bytesIn

/-- Whether the attempt led to a session that received data. -/
def Outcome.received : Outcome → Bool
  | .connectFailed => false
  | .session bytesIn => 0 < bytesIn

/-- What the loop does. -/
inductive LoopEvent where
  | attempt (endpoint : Endpoint) (outcome : Outcome)
  /-- Sleeping for the reconnect delay. -/
  | delay
  deriving DecidableEq, Repr

section Loop

variable (env : CodecEnv) (config : QbtReceiverConfig)

/-- The state before the first turn, given what is found at the path of the server list. -/
def LoopState.start (persisted : Option (Except QbtReceiverError (List Endpoint))) : LoopState where
  serverList :=
    let m := ServerListManager.new config.serverListPath config.servers
    if config.followServerListUpdates then (m.load persisted).2 else m
  attemptsInPass := 0

/-- One turn of the loop. -/
def turn (s : LoopState) (t : Turn) : List LoopEvent × LoopState :=
  let endpointCount := s.serverList.endpointCount
  match s.serverList.nextEndpoint with
  -- no servers are configured
  | (none, _) => ([.delay], s)
  | (some endpoint, serverList) =>
      let attemptsInPass := s.attemptsInPass + 1
      let (serverList, attemptsInPass) := match t.connect with
        | some session => (runConnectedSession env config session serverList, 0)
        | none => (serverList, attemptsInPass)
      if !t.shutdown && completedFailedPass attemptsInPass endpointCount then
        ([.attempt endpoint t.outcome, .delay], ⟨serverList, 0⟩)
      else ([.attempt endpoint t.outcome], ⟨serverList, attemptsInPass⟩)

/-- `run_connection_loop`: the attempts and delays of a run. -/
def runConnectionLoop : LoopState → List Turn → List LoopEvent
  | _, [] => []
  | s, t :: ts =>
      (turn env config s t).1 ++
        if t.shutdown then [] else runConnectionLoop (turn env config s t).2 ts

end Loop

end Client
