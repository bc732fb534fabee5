/-
# Passthrough of the upstream bytes

What a client reads from its socket is what the upstream sent: the chunks the session
received after authentication, in the order in which they were published, without those
that came while forwarding was paused.

The argument follows a chunk through the four parts it passes.  The receipts of a session
are the published chunks since it subscribed, without a gap (`SessionFaithful`).  Those
that were not passed over are in the queue's history or in the hands of the session, as
long as the session goes on.  What was queued is on the socket, being written or in the
queue, as long as no write failed (`WriterFaithful`).  The permits bound what is queued
and being written (`Sized`).
-/
import Emwin.Relay.Invariant

namespace Relay

open Transition

/-! ## Where a chunk can be -/

/-- The chunk that a session has received and not decided about. -/
def Session.undecided : Session → List (List UInt8)
  | .received chunk => [chunk]
  | _ => []

/-- The chunk that a session has taken up and not put into the queue. -/
def Session.inHand : Session → List (List UInt8)
  | .unpaused chunk => [chunk]
  | .attempted chunk => [chunk]
  | .permitted item => [item.bytes]
  | .refused item => [item.bytes]
  | _ => []

/-- No write has failed, and the writer goes on. -/
def Writer.intact : Writer → Bool
  | .waiting => true
  | .writing _ _ => true
  | .wrote _ => true
  | _ => false

/-- What is left to write of the chunk that is being written. -/
def Writer.unwritten : Writer → List UInt8
  | .writing item written => item.bytes.drop written
  | _ => []

/-- The chunks that a session received while forwarding was not paused. -/
def Client.forwardable (c : Client) : List (List UInt8) :=
  (c.receipts.filter fun r => !r.forwardingPaused).map Receipt.chunk

/-- The bytes in the queue, in their order. -/
def Client.queuedBytes (c : Client) : List UInt8 := (c.queue.map QueuedChunk.bytes).flatten

/-- A session receives the chunks published since it subscribed, after authentication, and
queues those it does not pass over. -/
structure SessionFaithful (published : List (List UInt8)) (c : Client) : Prop where
  start_le : c.start ≤ c.cursor
  cursor_le : c.cursor ≤ published.length
  /-- No chunk is missed. -/
  received : c.receipts.map Receipt.chunk ++ c.session.undecided =
    (published.take c.cursor).drop c.start
  /-- Chunks are received after authentication. -/
  authenticated : ∀ r ∈ c.receipts, r.isAuthenticated = true
  /-- Also the last one. -/
  undecided : c.session.undecided ≠ [] → c.isAuthenticated = true
  /-- As long as the session goes on, no chunk is skipped. -/
  kept : c.session ≠ .ended → c.forwardable = c.enqueued ++ c.session.inHand
  /-- No chunk is queued out of order. -/
  queued : c.enqueued <+: c.forwardable

/-- A writer writes what is queued. -/
structure WriterFaithful (c : Client) : Prop where
  /-- As long as the writer goes on, what was queued is on the socket, being written or in
  the queue. -/
  intact : c.writer.intact = true →
    c.enqueued.flatten = c.socket ++ c.writer.unwritten ++ c.queuedBytes
  /-- Nothing else is written, also after a failed write. -/
  written : c.socket <+: c.enqueued.flatten

/-! ## One step -/

section Step

variable {sh sh' : Shared} {c c' : Client} {act : ClientAct}

/-- A chunk that is passed over is not forwardable. -/
theorem forwardable_passOver {chunk : List UInt8} {session : Session} :
    ({ c with
        session := session
        receipts := c.receipts ++ [⟨chunk, c.isAuthenticated, true⟩] } : Client).forwardable =
      c.forwardable := by
  simp [Client.forwardable]

/-- A chunk that is taken up is. -/
theorem forwardable_takeUp {chunk : List UInt8} {session : Session} :
    ({ c with
        session := session
        receipts := c.receipts ++ [⟨chunk, c.isAuthenticated, false⟩] } : Client).forwardable =
      c.forwardable ++ [chunk] := by
  simp [Client.forwardable]

/-- Receiving the next chunk. -/
theorem received_next {published received : List (List UInt8)} {start cursor : ℕ}
    {chunk : List UInt8} (hstart : start ≤ cursor) (hchunk : published[cursor]? = some chunk)
    (h : received = (published.take cursor).drop start) :
    received ++ [chunk] = (published.take (cursor + 1)).drop start := by
  obtain ⟨hlt, -⟩ := List.getElem?_eq_some_iff.mp hchunk
  have hlen : start ≤ (published.take cursor).length := by
    rw [List.length_take]
    omega
  rw [List.take_add_one, hchunk, Option.toList_some, List.drop_append_of_le_length hlen, h]

theorem authenticated_append {chunk : List UInt8} {paused : Bool}
    (h : ∀ r ∈ c.receipts, r.isAuthenticated = true) (hlogin : c.isAuthenticated = true) :
    ∀ r ∈ c.receipts ++ [⟨chunk, c.isAuthenticated, paused⟩], r.isAuthenticated = true := by
  intro r hr
  rcases List.mem_append.mp hr with hr | hr
  · exact h r hr
  · rw [List.mem_singleton.mp hr]
    exact hlogin

/-- Every move of a session keeps it faithful. -/
theorem sessionFaithful_of_moves (h : Moves sh c act sh' c')
    (hc : SessionFaithful sh.published c) : SessionFaithful sh.published c' := by
  obtain ⟨hstart, hcursor, hreceived, hauth, hundecided, hkept, hqueued⟩ := hc
  cases h with
  | authenticate _ => exact ⟨hstart, hcursor, hreceived, hauth, fun _ => rfl, hkept, hqueued⟩
  | @receive chunk hs hlogin hchunk =>
      -- the next published chunk is received, and nothing is decided about it
      rw [hs] at hreceived hkept
      obtain ⟨hlt, -⟩ := List.getElem?_eq_some_iff.mp hchunk
      have hall := (List.append_nil _).symm.trans hreceived
      exact ⟨Nat.le_succ_of_le hstart, hlt, received_next hstart hchunk hall, hauth,
        fun _ => hlogin, fun _ => hkept Session.noConfusion, hqueued⟩
  | @passOver chunk hs _ =>
      rw [hs] at hreceived hkept hundecided
      have hlogin := hundecided (List.cons_ne_nil _ _)
      refine ⟨hstart, hcursor, ?_, authenticated_append hauth hlogin, fun hne => absurd rfl hne,
        fun _ => ?_, ?_⟩
      · rw [List.map_append]
        exact (List.append_nil _).trans hreceived
      · rw [forwardable_passOver]
        exact hkept Session.noConfusion
      · rw [forwardable_passOver]
        exact hqueued
  | @takeUp chunk hs _ =>
      rw [hs] at hreceived hkept hundecided
      have hlogin := hundecided (List.cons_ne_nil _ _)
      have hall : c.forwardable = c.enqueued :=
        (hkept Session.noConfusion).trans (List.append_nil _)
      refine ⟨hstart, hcursor, ?_, authenticated_append hauth hlogin, fun hne => absurd rfl hne,
        fun _ => ?_, ?_⟩
      · rw [List.map_append]
        exact (List.append_nil _).trans hreceived
      · rw [forwardable_takeUp, hall]
        rfl
      · rw [forwardable_takeUp]
        exact hqueued.trans (List.prefix_append _ _)
  -- the chunk stays in the hands of the session
  | attempt hs =>
      rw [hs] at hreceived hkept
      exact ⟨hstart, hcursor, hreceived, hauth, fun hne => absurd rfl hne,
        fun _ => hkept Session.noConfusion, hqueued⟩
  | acquire hs _ | noPermits hs _ =>
      rw [hs] at hreceived hkept
      exact ⟨hstart, hcursor, hreceived, hauth, fun hne => absurd rfl hne,
        fun _ => hkept Session.noConfusion, hqueued⟩
  | sendFull hs _ _ =>
      rw [hs] at hreceived hkept
      exact ⟨hstart, hcursor, hreceived, hauth, fun hne => absurd rfl hne,
        fun _ => hkept Session.noConfusion, hqueued⟩
  | @send item hs _ _ =>
      rw [hs] at hreceived hkept
      have hall : c.forwardable = c.enqueued ++ [item.bytes] := hkept Session.noConfusion
      refine ⟨hstart, hcursor, hreceived, hauth, fun hne => absurd rfl hne, fun _ => ?_, ?_⟩
      · exact hall.trans (List.append_nil _).symm
      · exact hall ▸ List.prefix_refl _
  -- the session ends, so nothing more is claimed about skipped chunks
  | leave hs | refuse hs =>
      rw [hs] at hreceived
      exact ⟨hstart, hcursor, hreceived, hauth, fun hne => absurd rfl hne,
        fun hne => absurd rfl hne, hqueued⟩
  | lagged hs _ | sendClosed hs _ =>
      rw [hs] at hreceived
      exact ⟨hstart, hcursor, hreceived, hauth, fun hne => absurd rfl hne,
        fun hne => absurd rfl hne, hqueued⟩
  | _ => exact ⟨hstart, hcursor, hreceived, hauth, hundecided, hkept, hqueued⟩

/-- Every move of a writer keeps it faithful. -/
theorem writerFaithful_of_moves (h : Moves sh c act sh' c') (hc : WriterFaithful c) :
    WriterFaithful c' := by
  obtain ⟨hintact, hwritten⟩ := hc
  cases h with
  | @send item hs _ _ =>
      refine ⟨fun hgoes => ?_, ?_⟩
      · change (c.enqueued ++ [item.bytes]).flatten =
          c.socket ++ c.writer.unwritten ++ ((c.queue ++ [item]).map QueuedChunk.bytes).flatten
        rw [List.flatten_append, hintact hgoes, List.map_append, List.flatten_append,
          Client.queuedBytes, List.append_assoc]
        rfl
      · change c.socket <+: (c.enqueued ++ [item.bytes]).flatten
        rw [List.flatten_append]
        exact hwritten.trans (List.prefix_append _ _)
  | @dequeue item queue hw hqueue =>
      rw [hw] at hintact
      refine ⟨fun _ => ?_, hwritten⟩
      rw [hintact rfl, Client.queuedBytes, hqueue]
      simp [Writer.unwritten, Client.queuedBytes]
  | @write item written count hw hle =>
      -- the next bytes of the chunk move to the socket
      rw [hw] at hintact
      have hall : c.enqueued.flatten = c.socket ++ item.bytes.drop written ++ c.queuedBytes :=
        hintact rfl
      have hmore : c.enqueued.flatten =
          (c.socket ++ (item.bytes.drop written).take count) ++ item.bytes.drop (written + count) ++
            c.queuedBytes := by
        rw [hall, ← List.drop_drop, List.append_assoc c.socket (_ : List UInt8) (List.drop count _),
          List.take_append_drop]
      refine ⟨fun _ => hmore, ?_⟩
      rw [hmore, List.append_assoc]
      exact List.prefix_append _ _
  | @writeDone item hw =>
      rw [hw] at hintact
      refine ⟨fun _ => ?_, hwritten⟩
      rw [hintact rfl, Writer.unwritten, List.drop_length]
      rfl
  | forward hw =>
      rw [hw] at hintact
      exact ⟨fun _ => hintact rfl, hwritten⟩
  -- the writer stops, and only the prefix remains
  | finish _ _ _ => exact ⟨fun hgoes => absurd hgoes Bool.false_ne_true, hwritten⟩
  | writeError hw | giveUp hw | close hw =>
      exact ⟨fun hgoes => absurd hgoes Bool.false_ne_true, hwritten⟩
  | _ => exact ⟨hintact, hwritten⟩

end Step

/-! ## Runs -/

/-- A client is faithful to what is published. -/
def Faithful (clientBufferBytes : ℕ) (published : List (List UInt8)) (c : Client) : Prop :=
  SessionFaithful published c ∧ WriterFaithful c ∧ Sized clientBufferBytes c

theorem faithful_accepted (clientBufferBytes : ℕ) (published : List (List UInt8)) :
    Faithful clientBufferBytes published (.accepted clientBufferBytes published) := by
  refine ⟨⟨Nat.le_refl _, Nat.le_refl _, ?_, ?_, fun hne => absurd rfl hne, fun _ => rfl,
    List.nil_prefix⟩, ⟨fun _ => rfl, List.nil_prefix⟩, sized_accepted clientBufferBytes published⟩
  · simp [Client.accepted, Session.undecided]
  · exact fun _ hmem => absurd hmem List.not_mem_nil

/-- What is published later changes nothing about what was received. -/
theorem sessionFaithful_publish {published : List (List UInt8)} {chunk : List UInt8} {c : Client}
    (h : SessionFaithful published c) : SessionFaithful (published ++ [chunk]) c := by
  obtain ⟨hstart, hcursor, hreceived, hauth, hundecided, hkept, hqueued⟩ := h
  refine ⟨hstart, ?_, ?_, hauth, hundecided, hkept, hqueued⟩
  · rw [List.length_append]
    omega
  · rw [List.take_append_of_le_length hcursor]
    exact hreceived

/-- Every client is faithful in every run. -/
theorem faithful_of_exec {clientBufferBytes : ℕ} {s : State} {ls : List Label}
    (h : exec (step clientBufferBytes) initial ls = some s) :
    AllClients (Faithful clientBufferBytes) s := by
  refine allClients_of_exec (faithful_accepted clientBufferBytes) ?_ ?_ h
  · rintro published chunk c ⟨hsession, hwriter, hsized⟩
    exact ⟨sessionFaithful_publish hsession, hwriter, hsized⟩
  · rintro sh c act sh' c' hread hmove ⟨hsession, hwriter, hsized⟩
    exact ⟨sessionFaithful_of_moves hmove hsession, writerFaithful_of_moves hmove hwriter,
      sized_of_moves hread hmove hsized⟩

/-- Chunks that weigh their bytes hold as many permits as they have bytes. -/
theorem bytesOf_eq_permitsOf {items : List QueuedChunk}
    (h : ∀ item ∈ items, item.permit = item.bytes.length) : bytesOf items = permitsOf items := by
  induction items with
  | nil => rfl
  | cons item items ih =>
      rw [bytesOf_cons, permitsOf_cons, h item List.mem_cons_self,
        ih fun item' hmem => h item' (List.mem_cons_of_mem _ hmem)]

/-- What is queued and being written is bounded by the permits. -/
theorem Sized.bytesOf_le {clientBufferBytes : ℕ} {c : Client} (h : Sized clientBufferBytes c) :
    bytesOf (c.writer.items ++ c.queue) ≤ clientBufferBytes := by
  have hpermits := h.permits
  rw [bytesOf_eq_permitsOf fun item hmem => (h.items item hmem).2]
  omega

/-- **Passthrough.**  In every state of every run, a client has received the chunks
published since it subscribed, in order, each once, and after authentication; its socket
carries a prefix of those that came while forwarding was not paused; as long as its session
goes on, each of these is queued or in the session's hands, and as long as its writer goes
on, what is queued is on the socket, being written or in the queue; and what is queued and
being written fits in the client buffer. -/
theorem passthrough_faithful {clientBufferBytes : ℕ} {s : State} {ls : List Label}
    (h : exec (step clientBufferBytes) initial ls = some s) {c : Client} (hc : c ∈ s.clients) :
    c.receipts.map Receipt.chunk <+: s.shared.published.drop c.start ∧
      (∀ r ∈ c.receipts, r.isAuthenticated = true) ∧
      c.socket <+: c.forwardable.flatten ∧
      (c.session ≠ .ended → c.forwardable = c.enqueued ++ c.session.inHand) ∧
      (c.writer.intact = true →
        c.enqueued.flatten = c.socket ++ c.writer.unwritten ++ c.queuedBytes) ∧
      bytesOf (c.writer.items ++ c.queue) ≤ clientBufferBytes := by
  obtain ⟨hsession, hwriter, hsized⟩ := (faithful_of_exec h).2 c hc
  refine ⟨?_, hsession.authenticated, ?_, hsession.kept, hwriter.intact, hsized.bytesOf_le⟩
  · have hreceived := hsession.received
    rw [List.drop_take] at hreceived
    have hpart : c.receipts.map Receipt.chunk <+:
        (s.shared.published.drop c.start).take (c.cursor - c.start) :=
      hreceived ▸ List.prefix_append _ _
    exact hpart.trans (List.take_prefix _ _)
  · obtain ⟨later, hlater⟩ := hsession.queued
    rw [← hlater, List.flatten_append]
    exact hwriter.written.trans (List.prefix_append _ _)

/-- A client that is connected while forwarding is paused and resumed, and has one byte of
the second chunk on its socket. -/
def pausedRun : List Label :=
  [.connect, .client 0 (.session .authenticate), .publish [1, 2], .setPaused true,
    .client 0 (.session .recv), .client 0 (.session .loadPaused), .setPaused false,
    .publish [3, 4]] ++ queueChunk 0 ++
    [.client 0 (.writer .recv), .client 0 (.writer (.write 1))]

/-- The client received both chunks and is sent the second. -/
theorem passthrough_faithful_pausedRun :
    ∃ s, ∃ c ∈ s.clients, exec (step 64) initial pausedRun = some s ∧
      c.receipts.map Receipt.chunk = [[1, 2], [3, 4]] ∧ c.forwardable = [[3, 4]] ∧
      c.socket = [3] ∧ c.session = .polling ∧ c.writer.unwritten = [4] ∧
      c.socket <+: c.forwardable.flatten ∧ bytesOf (c.writer.items ++ c.queue) ≤ 64 := by
  have hvalues : (exec (step 64) initial pausedRun).map (fun s =>
      s.clients.map fun c => (c.receipts.map Receipt.chunk, c.forwardable, c.socket, c.session,
        c.writer.unwritten)) = some [([[1, 2], [3, 4]], [[3, 4]], [3], .polling, [4])] := by rfl
  obtain ⟨s, hexec, hclients⟩ := Option.map_eq_some_iff.mp hvalues
  obtain ⟨c, hc, hvalue⟩ := List.mem_map.mp (hclients ▸ List.mem_singleton_self _)
  simp only [Prod.mk.injEq] at hvalue
  obtain ⟨hreceipts, hforwardable, hsocket, hsession, hunwritten⟩ := hvalue
  obtain ⟨-, -, hprefixed, -, -, hfits⟩ := passthrough_faithful hexec hc
  exact ⟨s, c, hc, hexec, hreceipts, hforwardable, hsocket, hsession, hunwritten, hprefixed, hfits⟩

end Relay
