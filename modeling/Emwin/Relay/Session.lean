/-
# Client sessions of the relay

`run_client_session` of `relay/runtime.rs` receives the chunks of the upstream loop from
a broadcast channel and hands them to `run_client_writer` through a bounded queue; each
queued chunk carries permits of a semaphore, one for each of its bytes, which are
returned when the chunk is dropped.

The tasks interleave, so every access to something shared is one step: a label names the
client and what its session or its writer does next, and `step` says what comes of it, or
`none` where the task is not at that point.  The select of the session is nondeterministic
in the same way.  The byte counters do not wrap here.

`receipts`, `start` and `enqueued` record the history; no step depends on them.
-/
import Emwin.Lib.Transition

namespace Relay

/-- The size of the buffer of one upstream read. -/
def UPSTREAM_READ_BUFFER_BYTES : ℕ := 8192

/-- How many chunks the broadcast channel keeps. -/
def UPSTREAM_CHANNEL_CAPACITY : ℕ := 4096

/-- How many chunks the queue of a writer holds. -/
def CLIENT_WRITER_QUEUE_CAPACITY : ℕ := 1024

/-- A chunk on its way to the socket. -/
structure QueuedChunk where
  bytes : List UInt8
  /-- The permits that are returned when the chunk is dropped. -/
  permit : ℕ
  deriving DecidableEq, Repr

/-- Where a session is in its loop. -/
inductive Session where
  /-- At the select. -/
  | polling
  /-- A chunk was received; whether forwarding is paused has not been looked at. -/
  | received (chunk : List UInt8)
  /-- Forwarding was not paused; the bytes are not counted as attempted yet. -/
  | unpaused (chunk : List UInt8)
  /-- The bytes are counted as attempted; the permits are not acquired yet. -/
  | attempted (chunk : List UInt8)
  /-- The permits are acquired; the chunk is not in the queue yet. -/
  | permitted (item : QueuedChunk)
  /-- There were no permits, or the queue was full; the bytes are not counted as dropped
  yet.  The permits that were acquired are still held. -/
  | refused (item : QueuedChunk)
  /-- The loop is left, and the sender of the queue is dropped. -/
  | ended
  deriving DecidableEq, Repr

/-- Where a writer is in its loop. -/
inductive Writer where
  /-- Waiting for a chunk. -/
  | waiting
  /-- Writing a chunk, of which some bytes are written. -/
  | writing (item : QueuedChunk) (written : ℕ)
  /-- A chunk is written; its bytes are not counted as forwarded yet. -/
  | wrote (item : QueuedChunk)
  /-- A write failed; the bytes of the chunk are not counted as dropped yet. -/
  | failed (item : QueuedChunk)
  /-- The loop is left after a failed write; the receiver is not dropped yet. -/
  | closing
  /-- The loop is left, and the receiver of the queue is dropped. -/
  | ended
  deriving DecidableEq, Repr

/-- What a session knew when it decided about a chunk. -/
structure Receipt where
  chunk : List UInt8
  isAuthenticated : Bool
  forwardingPaused : Bool
  deriving DecidableEq, Repr

/-- A session, its writer, and what they share. -/
structure Client where
  session : Session
  writer : Writer
  isAuthenticated : Bool
  /-- How many of the published chunks the broadcast receiver has passed. -/
  cursor : ℕ
  /-- The permits that are available. -/
  queuePermits : ℕ
  queue : List QueuedChunk
  /-- The bytes written to the socket. -/
  socket : List UInt8
  /-- How many chunks were published before the client subscribed. -/
  start : ℕ
  /-- The chunks received so far. -/
  receipts : List Receipt
  /-- The chunks put into the queue so far. -/
  enqueued : List (List UInt8)
  deriving DecidableEq, Repr

/-- What the clients share: the published chunks and the metrics. -/
structure Shared where
  published : List (List UInt8)
  forwardingPaused : Bool
  bytesAttemptedTotal : ℕ
  bytesForwardedTotal : ℕ
  bytesDroppedTotal : ℕ
  deriving DecidableEq, Repr

/-- The relay. -/
structure State where
  shared : Shared
  clients : List Client
  deriving DecidableEq, Repr

/-- What a session does next. -/
inductive SessionAct where
  /-- A read from the client completes a logon. -/
  | authenticate
  /-- The loop is left for one of the reasons outside: shutdown, a timeout, the end or a
  failure of the client's stream, the end of the upstream channel. -/
  | leave
  | recv
  | loadPaused
  | addAttempted
  | tryAcquire
  | trySend
  | addDropped
  deriving DecidableEq, Repr

/-- What a writer does next. -/
inductive WriterAct where
  | recv
  /-- Some more bytes are written to the socket. -/
  | write (count : ℕ)
  | writeDone
  | writeError
  | addForwarded
  | addDropped
  | dropReceiver
  deriving DecidableEq, Repr

/-- What one client does next. -/
inductive ClientAct where
  | session (act : SessionAct)
  | writer (act : WriterAct)
  deriving DecidableEq, Repr

/-- What happens next. -/
inductive Label where
  /-- The upstream loop publishes a chunk. -/
  | publish (chunk : List UInt8)
  /-- The quality monitor sets or clears the pause. -/
  | setPaused (paused : Bool)
  /-- A client is accepted. -/
  | connect
  /-- A client takes a step. -/
  | client (index : ℕ) (act : ClientAct)
  deriving DecidableEq, Repr

/-! ## Steps of a session -/

/-- `recv` of the broadcast receiver: an error if chunks were overwritten before they were
received, else the next chunk; it waits if there is none. -/
def Client.recv (sh : Shared) (c : Client) : Option Client :=
  if UPSTREAM_CHANNEL_CAPACITY < sh.published.length - c.cursor then
    some { c with session := .ended }
  else
    sh.published[c.cursor]?.map fun chunk =>
      { c with session := .received chunk, cursor := c.cursor + 1 }

/-- `forwarding_paused` is looked at: a chunk received while it is set is passed over. -/
def Client.loadPaused (sh : Shared) (c : Client) (chunk : List UInt8) : Client :=
  { c with
    session := if sh.forwardingPaused then .polling else .unpaused chunk
    receipts := c.receipts ++ [⟨chunk, c.isAuthenticated, sh.forwardingPaused⟩] }

/-- `try_acquire_many_owned`, with the length as a `u32`. -/
def Client.tryAcquire (c : Client) (chunk : List UInt8) : Client :=
  if chunk.length % 2 ^ 32 ≤ c.queuePermits then
    { c with
      session := .permitted ⟨chunk, chunk.length % 2 ^ 32⟩
      queuePermits := c.queuePermits - chunk.length % 2 ^ 32 }
  else { c with session := .refused ⟨chunk, 0⟩ }

/-- `try_send`: the queue may be closed or full. -/
def Client.trySend (c : Client) (item : QueuedChunk) : Client :=
  if c.writer = .ended then
    -- the chunk is dropped here, and its bytes are not counted as dropped
    { c with session := .ended, queuePermits := c.queuePermits + item.permit }
  else if c.queue.length < CLIENT_WRITER_QUEUE_CAPACITY then
    { c with
      session := .polling
      queue := c.queue ++ [item]
      enqueued := c.enqueued ++ [item.bytes] }
  else { c with session := .refused item }

/-- One step of `run_client_session`. -/
def sessionStep (sh : Shared) (c : Client) (act : SessionAct) : Option (Shared × Client) :=
  match act, c.session with
  | .authenticate, .polling => some (sh, { c with isAuthenticated := true })
  | .leave, .polling => some (sh, { c with session := .ended })
  | .recv, .polling =>
      -- this branch of the select is disabled before authentication
      if c.isAuthenticated then (c.recv sh).map fun c' => (sh, c') else none
  | .loadPaused, .received chunk => some (sh, c.loadPaused sh chunk)
  | .addAttempted, .unpaused chunk =>
      some ({ sh with bytesAttemptedTotal := sh.bytesAttemptedTotal + chunk.length },
        { c with session := .attempted chunk })
  | .tryAcquire, .attempted chunk => some (sh, c.tryAcquire chunk)
  | .trySend, .permitted item => some (sh, c.trySend item)
  | .addDropped, .refused item =>
      some ({ sh with bytesDroppedTotal := sh.bytesDroppedTotal + item.bytes.length },
        { c with session := .ended, queuePermits := c.queuePermits + item.permit })
  | _, _ => none

/-! ## Steps of a writer -/

/-- The permits of a queue. -/
def permitsOf (queue : List QueuedChunk) : ℕ := (queue.map QueuedChunk.permit).sum

/-- The bytes of a queue. -/
def bytesOf (queue : List QueuedChunk) : ℕ := (queue.map fun item => item.bytes.length).sum

/-- `recv` of the queue: the next chunk; the end once the sender is dropped; else it
waits. -/
def Client.dequeue (c : Client) : Option Client :=
  match c.queue with
  | item :: queue => some { c with writer := .writing item 0, queue := queue }
  | [] => if c.session = .ended then some { c with writer := .ended } else none

/-- `write_all` writes some of what is left of the chunk. -/
def Client.write (c : Client) (item : QueuedChunk) (written count : ℕ) : Option Client :=
  if 0 < count ∧ written + count ≤ item.bytes.length then
    some { c with
      writer := .writing item (written + count)
      socket := c.socket ++ (item.bytes.drop written).take count }
  else none

/-- One step of `run_client_writer`.  A chunk is dropped, and its permits are returned, in
the step that counts its bytes: no task reads the counters in between.  What is left in
the queue is dropped with the receiver. -/
def writerStep (sh : Shared) (c : Client) (act : WriterAct) : Option (Shared × Client) :=
  match act, c.writer with
  | .recv, .waiting => c.dequeue.map fun c' => (sh, c')
  | .write count, .writing item written => (c.write item written count).map fun c' => (sh, c')
  | .writeDone, .writing item written =>
      if written = item.bytes.length then some (sh, { c with writer := .wrote item }) else none
  | .writeError, .writing item written =>
      if written < item.bytes.length then some (sh, { c with writer := .failed item }) else none
  | .addForwarded, .wrote item =>
      some ({ sh with bytesForwardedTotal := sh.bytesForwardedTotal + item.bytes.length },
        { c with writer := .waiting, queuePermits := c.queuePermits + item.permit })
  | .addDropped, .failed item =>
      some ({ sh with bytesDroppedTotal := sh.bytesDroppedTotal + item.bytes.length },
        { c with writer := .closing, queuePermits := c.queuePermits + item.permit })
  | .dropReceiver, .closing =>
      some (sh, { c with
        writer := .ended
        queue := []
        queuePermits := c.queuePermits + permitsOf c.queue })
  | _, _ => none

/-! ## Steps of the relay -/

/-- One step of a client. -/
def clientStep (sh : Shared) (c : Client) : ClientAct → Option (Shared × Client)
  | .session act => sessionStep sh c act
  | .writer act => writerStep sh c act

/-- A client that has just been accepted. -/
def Client.accepted (clientBufferBytes : ℕ) (published : List (List UInt8)) : Client where
  session := .polling
  writer := .waiting
  isAuthenticated := false
  cursor := published.length
  queuePermits := clientBufferBytes
  queue := []
  socket := []
  start := published.length
  receipts := []
  enqueued := []

/-- One step of the relay. -/
def step (clientBufferBytes : ℕ) (s : State) : Label → Option State
  | .publish chunk =>
      if 0 < chunk.length ∧ chunk.length ≤ UPSTREAM_READ_BUFFER_BYTES then
        some { s with shared := { s.shared with published := s.shared.published ++ [chunk] } }
      else none
  | .setPaused paused =>
      some { s with shared := { s.shared with forwardingPaused := paused } }
  | .connect =>
      -- the receiver of a new client gets what is sent from now on
      some { s with clients := s.clients ++ [.accepted clientBufferBytes s.shared.published] }
  | .client index act =>
      s.clients[index]?.bind fun c =>
        (clientStep s.shared c act).map fun r => ⟨r.1, s.clients.set index r.2⟩

/-- The relay before the first client and the first chunk. -/
def initial : State := ⟨⟨[], false, 0, 0, 0⟩, []⟩

/-- The steps in which a client takes a chunk up and queues it. -/
def queueChunk (index : ℕ) : List Label :=
  [.recv, .loadPaused, .addAttempted, .tryAcquire, .trySend].map fun act =>
    .client index (.session act)

end Relay
