/-
# What a step of the relay can do

`Moves` lists what one step of a client can do, with the conditions under which it does
it; every step of the model is one of these (`moves_of_clientStep`).  Invariants of the
clients are proved from it, and hold in every state of every run
(`allClients_of_exec`).

The first such invariant is about sizes: every queued chunk holds as many permits as it
has bytes, and the permits that are available and held add up to the size of the client
buffer (`Sized`).
-/
import Emwin.Relay.Session

namespace Relay

open Transition

/-! ## Steps -/

/-- What a step of a client can do. -/
inductive Moves (sh : Shared) (c : Client) : ClientAct → Shared → Client → Prop
  | authenticate : c.session = .polling →
      Moves sh c (.session .authenticate) sh { c with isAuthenticated := true }
  | leave : c.session = .polling → Moves sh c (.session .leave) sh { c with session := .ended }
  | lagged : c.session = .polling →
      UPSTREAM_CHANNEL_CAPACITY < sh.published.length - c.cursor →
      Moves sh c (.session .recv) sh { c with session := .ended }
  | receive {chunk : List UInt8} : c.session = .polling → c.isAuthenticated = true →
      sh.published[c.cursor]? = some chunk →
      Moves sh c (.session .recv) sh
        { c with session := .received chunk, cursor := c.cursor + 1 }
  | passOver {chunk : List UInt8} : c.session = .received chunk → sh.forwardingPaused = true →
      Moves sh c (.session .loadPaused) sh
        { c with session := .polling, receipts := c.receipts ++ [⟨chunk, c.isAuthenticated, true⟩] }
  | takeUp {chunk : List UInt8} : c.session = .received chunk → sh.forwardingPaused = false →
      Moves sh c (.session .loadPaused) sh
        { c with
          session := .unpaused chunk
          receipts := c.receipts ++ [⟨chunk, c.isAuthenticated, false⟩] }
  | attempt {chunk : List UInt8} : c.session = .unpaused chunk →
      Moves sh c (.session .addAttempted)
        { sh with bytesAttemptedTotal := sh.bytesAttemptedTotal + chunk.length }
        { c with session := .attempted chunk }
  | acquire {chunk : List UInt8} : c.session = .attempted chunk →
      chunk.length % 2 ^ 32 ≤ c.queuePermits →
      Moves sh c (.session .tryAcquire) sh
        { c with
          session := .permitted ⟨chunk, chunk.length % 2 ^ 32⟩
          queuePermits := c.queuePermits - chunk.length % 2 ^ 32 }
  | noPermits {chunk : List UInt8} : c.session = .attempted chunk →
      c.queuePermits < chunk.length % 2 ^ 32 →
      Moves sh c (.session .tryAcquire) sh { c with session := .refused ⟨chunk, 0⟩ }
  | sendClosed {item : QueuedChunk} : c.session = .permitted item → c.writer = .ended →
      Moves sh c (.session .trySend) sh
        { c with session := .ended, queuePermits := c.queuePermits + item.permit }
  | send {item : QueuedChunk} : c.session = .permitted item → c.writer ≠ .ended →
      c.queue.length < CLIENT_WRITER_QUEUE_CAPACITY →
      Moves sh c (.session .trySend) sh
        { c with
          session := .polling
          queue := c.queue ++ [item]
          enqueued := c.enqueued ++ [item.bytes] }
  | sendFull {item : QueuedChunk} : c.session = .permitted item → c.writer ≠ .ended →
      CLIENT_WRITER_QUEUE_CAPACITY ≤ c.queue.length →
      Moves sh c (.session .trySend) sh { c with session := .refused item }
  | refuse {item : QueuedChunk} : c.session = .refused item →
      Moves sh c (.session .addDropped)
        { sh with bytesDroppedTotal := sh.bytesDroppedTotal + item.bytes.length }
        { c with session := .ended, queuePermits := c.queuePermits + item.permit }
  | dequeue {item : QueuedChunk} {queue : List QueuedChunk} : c.writer = .waiting →
      c.queue = item :: queue →
      Moves sh c (.writer .recv) sh { c with writer := .writing item 0, queue := queue }
  | finish : c.writer = .waiting → c.queue = [] → c.session = .ended →
      Moves sh c (.writer .recv) sh { c with writer := .ended }
  | write {item : QueuedChunk} {written count : ℕ} : c.writer = .writing item written →
      written + count ≤ item.bytes.length →
      Moves sh c (.writer (.write count)) sh
        { c with
          writer := .writing item (written + count)
          socket := c.socket ++ (item.bytes.drop written).take count }
  | writeDone {item : QueuedChunk} : c.writer = .writing item item.bytes.length →
      Moves sh c (.writer .writeDone) sh { c with writer := .wrote item }
  | writeError {item : QueuedChunk} {written : ℕ} : c.writer = .writing item written →
      Moves sh c (.writer .writeError) sh { c with writer := .failed item }
  | forward {item : QueuedChunk} : c.writer = .wrote item →
      Moves sh c (.writer .addForwarded)
        { sh with bytesForwardedTotal := sh.bytesForwardedTotal + item.bytes.length }
        { c with writer := .waiting, queuePermits := c.queuePermits + item.permit }
  | giveUp {item : QueuedChunk} : c.writer = .failed item →
      Moves sh c (.writer .addDropped)
        { sh with bytesDroppedTotal := sh.bytesDroppedTotal + item.bytes.length }
        { c with writer := .closing, queuePermits := c.queuePermits + item.permit }
  | close : c.writer = .closing →
      Moves sh c (.writer .dropReceiver) sh
        { c with
          writer := .ended
          queue := []
          queuePermits := c.queuePermits + permitsOf c.queue }

section Steps

variable {sh sh' : Shared} {c c' : Client}

theorem moves_of_sessionStep {act : SessionAct} (h : sessionStep sh c act = some (sh', c')) :
    Moves sh c (.session act) sh' c' := by
  unfold sessionStep at h
  split at h
  case h_1 hs =>
    cases h
    exact .authenticate hs
  case h_2 hs =>
    cases h
    exact .leave hs
  case h_3 hs =>
    split_ifs at h with hauth
    obtain ⟨c'', hrecv, heq⟩ := Option.map_eq_some_iff.mp h
    cases heq
    rw [Client.recv] at hrecv
    split_ifs at hrecv with hlag
    · cases hrecv
      exact .lagged hs hlag
    · obtain ⟨chunk, hchunk, rfl⟩ := Option.map_eq_some_iff.mp hrecv
      exact .receive hs hauth hchunk
  case h_4 chunk hs =>
    cases h
    rw [Client.loadPaused]
    cases hpaused : sh.forwardingPaused with
    | true => exact .passOver hs hpaused
    | false => exact .takeUp hs hpaused
  case h_5 chunk hs =>
    cases h
    exact .attempt hs
  case h_6 chunk hs =>
    cases h
    rw [Client.tryAcquire]
    split_ifs with hle
    · exact .acquire hs hle
    · exact .noPermits hs (Nat.not_le.mp hle)
  case h_7 item hs =>
    cases h
    rw [Client.trySend]
    split_ifs with hended hlt
    · exact .sendClosed hs hended
    · exact .send hs hended hlt
    · exact .sendFull hs hended (Nat.not_lt.mp hlt)
  case h_8 item hs =>
    cases h
    exact .refuse hs
  case h_9 => cases h

theorem moves_of_writerStep {act : WriterAct} (h : writerStep sh c act = some (sh', c')) :
    Moves sh c (.writer act) sh' c' := by
  unfold writerStep at h
  split at h
  case h_1 hw =>
    obtain ⟨c'', hdequeue, heq⟩ := Option.map_eq_some_iff.mp h
    cases heq
    unfold Client.dequeue at hdequeue
    split at hdequeue
    · rename_i item queue hqueue
      cases hdequeue
      exact .dequeue hw hqueue
    · rename_i hqueue
      split_ifs at hdequeue with hended
      cases hdequeue
      exact .finish hw hqueue hended
  case h_2 count item written hw =>
    obtain ⟨c'', hwrite, heq⟩ := Option.map_eq_some_iff.mp h
    cases heq
    rw [Client.write] at hwrite
    split_ifs at hwrite with hcount
    cases hwrite
    exact .write hw hcount.2
  case h_3 item written hw =>
    split_ifs at h with hdone
    cases h
    subst hdone
    exact .writeDone hw
  case h_4 item written hw =>
    split_ifs at h
    cases h
    exact .writeError hw
  case h_5 item hw =>
    cases h
    exact .forward hw
  case h_6 item hw =>
    cases h
    exact .giveUp hw
  case h_7 hw =>
    cases h
    exact .close hw
  case h_8 => cases h

/-- Every step of a client is one of the moves. -/
theorem moves_of_clientStep {act : ClientAct} (h : clientStep sh c act = some (sh', c')) :
    Moves sh c act sh' c' := by
  cases act with
  | session act => exact moves_of_sessionStep h
  | writer act => exact moves_of_writerStep h

/-- Clients publish nothing. -/
theorem Moves.published {act : ClientAct} (h : Moves sh c act sh' c') :
    sh'.published = sh.published := by
  cases h <;> rfl

/-- What a step of the relay can do. -/
theorem step_cases {clientBufferBytes : ℕ} {s t : State} {l : Label}
    (h : step clientBufferBytes s l = some t) :
    (∃ chunk, 0 < chunk.length ∧ chunk.length ≤ UPSTREAM_READ_BUFFER_BYTES ∧ l = .publish chunk ∧
      t = { s with shared := { s.shared with published := s.shared.published ++ [chunk] } }) ∨
    (∃ paused, l = .setPaused paused ∧
      t = { s with shared := { s.shared with forwardingPaused := paused } }) ∨
    (l = .connect ∧
      t = { s with clients := s.clients ++ [.accepted clientBufferBytes s.shared.published] }) ∨
    ∃ index act c sh' c', l = .client index act ∧ s.clients[index]? = some c ∧
      Moves s.shared c act sh' c' ∧ t = ⟨sh', s.clients.set index c'⟩ := by
  cases l with
  | publish chunk =>
      left
      rw [step] at h
      split_ifs at h with hsize
      cases h
      exact ⟨chunk, hsize.1, hsize.2, rfl, rfl⟩
  | setPaused paused =>
      right; left
      cases h
      exact ⟨paused, rfl, rfl⟩
  | connect =>
      right; right; left
      cases h
      exact ⟨rfl, rfl⟩
  | client index act =>
      right; right; right
      obtain ⟨c, hc, hrest⟩ := Option.bind_eq_some_iff.mp h
      obtain ⟨⟨sh', c'⟩, hstep, rfl⟩ := Option.map_eq_some_iff.mp hrest
      exact ⟨index, act, c, sh', c', rfl, hc, moves_of_clientStep hstep, rfl⟩

end Steps

/-! ## Invariants of the clients -/

/-- The upstream loop publishes what one read can bring. -/
def ReadSized (published : List (List UInt8)) : Prop :=
  ∀ chunk ∈ published, 0 < chunk.length ∧ chunk.length ≤ UPSTREAM_READ_BUFFER_BYTES

/-- A property of each client, given what has been published. -/
def AllClients (I : List (List UInt8) → Client → Prop) (s : State) : Prop :=
  ReadSized s.shared.published ∧ ∀ c ∈ s.clients, I s.shared.published c

section Lifting

variable {clientBufferBytes : ℕ} {I : List (List UInt8) → Client → Prop}
  (haccepted : ∀ published, I published (.accepted clientBufferBytes published))
  (hpublish : ∀ published chunk c, I published c → I (published ++ [chunk]) c)
  (hmoves : ∀ sh c act sh' c', ReadSized sh.published → Moves sh c act sh' c' →
    I sh.published c → I sh.published c')

include haccepted hpublish hmoves in
/-- A property of the clients that every move keeps is kept by every step. -/
theorem allClients_of_step {s t : State} {l : Label} (hs : AllClients I s)
    (h : step clientBufferBytes s l = some t) : AllClients I t := by
  obtain ⟨hsized, hclients⟩ := hs
  rcases step_cases h with ⟨chunk, hpos, hle, -, rfl⟩ | ⟨paused, -, rfl⟩ | ⟨-, rfl⟩ |
    ⟨index, act, c, sh', c', -, hc, hmove, rfl⟩
  · refine ⟨?_, fun c hc => hpublish _ _ _ (hclients c hc)⟩
    intro chunk' hmem
    rcases List.mem_append.mp hmem with hmem | hmem
    · exact hsized chunk' hmem
    · rw [List.mem_singleton.mp hmem]
      exact ⟨hpos, hle⟩
  · exact ⟨hsized, hclients⟩
  · refine ⟨hsized, fun c hc => ?_⟩
    rcases List.mem_append.mp hc with hc | hc
    · exact hclients c hc
    · rw [List.mem_singleton.mp hc]
      exact haccepted _
  · unfold AllClients
    dsimp only
    rw [hmove.published]
    refine ⟨hsized, fun d hd => ?_⟩
    rcases List.mem_or_eq_of_mem_set hd with hd | rfl
    · exact hclients d hd
    · exact hmoves _ _ _ _ _ hsized hmove (hclients c (List.mem_of_getElem? hc))

/-- Before the first client there is nothing to hold of the clients. -/
theorem allClients_initial : AllClients I initial :=
  ⟨fun _ hmem => absurd hmem List.not_mem_nil, fun _ hmem => absurd hmem List.not_mem_nil⟩

include haccepted hpublish hmoves in
/-- A property of the clients that every move keeps holds in every state of every run. -/
theorem allClients_of_exec {s : State} {ls : List Label}
    (h : exec (step clientBufferBytes) initial ls = some s) : AllClients I s :=
  exec_invariant (fun _ _ _ hs hstep => allClients_of_step haccepted hpublish hmoves hs hstep) h
    allClients_initial

end Lifting

/-! ## Sizes and permits -/

/-- The chunk a writer is at. -/
def Writer.items : Writer → List QueuedChunk
  | .writing item _ => [item]
  | .wrote item => [item]
  | .failed item => [item]
  | _ => []

/-- The permits a session holds. -/
def Session.permits : Session → ℕ
  | .permitted item => item.permit
  | .refused item => item.permit
  | _ => 0

/-- The chunk of a session is one that was read, with as many permits as bytes. -/
def Session.Sized : Session → Prop
  | .received chunk => 0 < chunk.length ∧ chunk.length ≤ UPSTREAM_READ_BUFFER_BYTES
  | .unpaused chunk => 0 < chunk.length ∧ chunk.length ≤ UPSTREAM_READ_BUFFER_BYTES
  | .attempted chunk => 0 < chunk.length ∧ chunk.length ≤ UPSTREAM_READ_BUFFER_BYTES
  | .permitted item => 0 < item.bytes.length ∧ item.permit = item.bytes.length
  | _ => True

/-- The sizes of the chunks of a client, and its permits. -/
structure Sized (clientBufferBytes : ℕ) (c : Client) : Prop where
  /-- The chunk of the session. -/
  session : c.session.Sized
  /-- The chunks on their way to the socket. -/
  items : ∀ item ∈ c.writer.items ++ c.queue,
    0 < item.bytes.length ∧ item.permit = item.bytes.length
  /-- The permits are available or held. -/
  permits : c.queuePermits + c.session.permits + permitsOf (c.writer.items ++ c.queue) =
    clientBufferBytes
  /-- A queue without a receiver is empty. -/
  closed : c.writer = .ended → c.queue = []

@[simp]
theorem permitsOf_nil : permitsOf [] = 0 := rfl

@[simp]
theorem permitsOf_cons (item : QueuedChunk) (queue : List QueuedChunk) :
    permitsOf (item :: queue) = item.permit + permitsOf queue := rfl

@[simp]
theorem permitsOf_append (q q' : List QueuedChunk) :
    permitsOf (q ++ q') = permitsOf q + permitsOf q' := by
  simp [permitsOf]

@[simp]
theorem bytesOf_nil : bytesOf [] = 0 := rfl

@[simp]
theorem bytesOf_cons (item : QueuedChunk) (queue : List QueuedChunk) :
    bytesOf (item :: queue) = item.bytes.length + bytesOf queue := rfl

@[simp]
theorem bytesOf_append (q q' : List QueuedChunk) : bytesOf (q ++ q') = bytesOf q + bytesOf q' := by
  simp [bytesOf]

/-- An upstream read fits in a `u32`. -/
theorem length_mod_of_read {chunk : List UInt8} (h : chunk.length ≤ UPSTREAM_READ_BUFFER_BYTES) :
    chunk.length % 2 ^ 32 = chunk.length := by
  rw [UPSTREAM_READ_BUFFER_BYTES] at h
  exact Nat.mod_eq_of_lt (by omega)

theorem sized_accepted (clientBufferBytes : ℕ) (published : List (List UInt8)) :
    Sized clientBufferBytes (.accepted clientBufferBytes published) where
  session := trivial
  items _ hmem := absurd hmem List.not_mem_nil
  permits := rfl
  closed _ := rfl

/-- Every move keeps the sizes and the permits. -/
theorem sized_of_moves {clientBufferBytes : ℕ} {sh sh' : Shared} {c c' : Client} {act : ClientAct}
    (hread : ReadSized sh.published) (h : Moves sh c act sh' c') (hc : Sized clientBufferBytes c) :
    Sized clientBufferBytes c' := by
  obtain ⟨hsession, hitems, hpermits, hclosed⟩ := hc
  cases h with
  | authenticate _ => exact ⟨hsession, hitems, hpermits, hclosed⟩
  | leave hs =>
      rw [hs] at hpermits
      exact ⟨trivial, hitems, hpermits, hclosed⟩
  | lagged hs _ | passOver hs _ | noPermits hs _ =>
      rw [hs] at hpermits
      exact ⟨trivial, hitems, hpermits, hclosed⟩
  | receive hs _ hchunk =>
      rw [hs] at hpermits
      exact ⟨hread _ (List.mem_of_getElem? hchunk), hitems, hpermits, hclosed⟩
  | takeUp hs _ =>
      rw [hs] at hpermits hsession
      exact ⟨hsession, hitems, hpermits, hclosed⟩
  | attempt hs =>
      rw [hs] at hpermits hsession
      exact ⟨hsession, hitems, hpermits, hclosed⟩
  | @acquire chunk hs hle =>
      -- a read is too short for the length to be truncated, so the permits are the bytes
      rw [hs] at hpermits hsession
      have hmod := length_mod_of_read hsession.2
      refine ⟨⟨hsession.1, hmod⟩, hitems, ?_, hclosed⟩
      simp only [Session.permits] at hpermits ⊢
      omega
  | @send item hs hwriter _ =>
      -- the permits move from the session to the queue
      rw [hs] at hpermits hsession
      refine ⟨trivial, ?_, ?_, fun hended => absurd hended hwriter⟩
      · intro item' hmem
        rw [← List.append_assoc] at hmem
        rcases List.mem_append.mp hmem with hmem | hmem
        · exact hitems item' hmem
        · rw [List.mem_singleton.mp hmem]
          exact hsession
      · simp only [Session.permits, permitsOf_append, permitsOf_cons, permitsOf_nil] at hpermits ⊢
        omega
  | sendFull hs _ _ =>
      rw [hs] at hpermits
      exact ⟨trivial, hitems, hpermits, hclosed⟩
  | sendClosed hs _ =>
      rw [hs] at hpermits
      refine ⟨trivial, hitems, ?_, hclosed⟩
      simp only [Session.permits] at hpermits ⊢
      omega
  | refuse hs =>
      rw [hs] at hpermits
      refine ⟨trivial, hitems, ?_, hclosed⟩
      simp only [Session.permits] at hpermits ⊢
      omega
  | dequeue hw hqueue =>
      rw [hw, hqueue] at hitems hpermits
      exact ⟨hsession, hitems, hpermits, fun hended => by cases hended⟩
  | finish hw hqueue _ =>
      rw [hw] at hitems hpermits
      exact ⟨hsession, hitems, hpermits, fun _ => hqueue⟩
  | write hw _ =>
      rw [hw] at hitems hpermits
      exact ⟨hsession, hitems, hpermits, fun hended => by cases hended⟩
  | writeDone hw | writeError hw =>
      rw [hw] at hitems hpermits
      exact ⟨hsession, hitems, hpermits, fun hended => by cases hended⟩
  | forward hw | giveUp hw =>
      -- the chunk is dropped, and returns its permits
      rw [hw] at hitems hpermits
      refine ⟨hsession, fun item hmem => hitems item (List.mem_cons_of_mem _ hmem), ?_,
        fun hended => by cases hended⟩
      simp only [Writer.items, permitsOf_append, permitsOf_cons, permitsOf_nil] at hpermits ⊢
      omega
  | close hw =>
      rw [hw] at hpermits
      refine ⟨hsession, fun _ hmem => absurd hmem List.not_mem_nil, ?_, fun _ => rfl⟩
      simp only [Writer.items, permitsOf_append, permitsOf_nil] at hpermits ⊢
      omega

/-- The sizes and the permits are kept by every step. -/
theorem sized_of_step {clientBufferBytes : ℕ} {s t : State} {l : Label}
    (hs : AllClients (fun _ => Sized clientBufferBytes) s)
    (h : step clientBufferBytes s l = some t) : AllClients (fun _ => Sized clientBufferBytes) t :=
  allClients_of_step (sized_accepted clientBufferBytes) (fun _ _ _ hc => hc)
    (fun _ _ _ _ _ hread hmove hc => sized_of_moves hread hmove hc) hs h

/-- The sizes and the permits are kept in every run. -/
theorem sized_of_exec {clientBufferBytes : ℕ} {s : State} {ls : List Label}
    (h : exec (step clientBufferBytes) initial ls = some s) :
    AllClients (fun _ => Sized clientBufferBytes) s :=
  exec_invariant (fun _ _ _ => sized_of_step) h allClients_initial

end Relay
