/-
# Accounting of forwarded and dropped bytes

The relay counts the bytes of every chunk a session attempts to forward, and means to
count them once more when they are forwarded or dropped.  Two exits are missed: a session
that finds the queue of its writer closed leaves without counting its chunk, and a writer
that stops after a failed write counts the chunk it was writing but not the ones left in
the queue.

Once all sessions and writers have ended, the attempted bytes are the forwarded and the
dropped ones exactly if no step of the run took one of these exits
(`attempted_eq_forwarded_add_dropped_iff`).
-/
import Emwin.Relay.Invariant

namespace Relay

open Transition

/-! ## Pending and lost bytes -/

/-- The bytes that a session has counted as attempted and not passed on. -/
def Session.pending : Session → ℕ
  | .attempted chunk => chunk.length
  | .permitted item => item.bytes.length
  | .refused item => item.bytes.length
  | _ => 0

/-- The bytes of a client that are attempted, and neither forwarded nor dropped yet. -/
def Client.pending (c : Client) : ℕ := c.session.pending + bytesOf (c.writer.items ++ c.queue)

/-- The bytes that a step of a client throws away without counting them. -/
def Client.lostBytes (c : Client) : ClientAct → ℕ
  -- `try_send` returns `Closed`, and the branch for it only breaks
  | .session .trySend => if c.writer = .ended then c.session.pending else 0
  -- the chunks behind the one whose write failed are dropped with the receiver
  | .writer .dropReceiver => bytesOf c.queue
  | _ => 0

/-- A session sends to a writer that has ended, or a writer drops its receiver with
chunks in the queue. -/
def Client.LosesChunk (c : Client) : ClientAct → Prop
  | .session .trySend => c.writer = .ended
  | .writer .dropReceiver => c.queue ≠ []
  | _ => False

/-- The bytes that a step of the relay throws away without counting them. -/
def lostBytes (s : State) : Label → ℕ
  | .client index act => (s.clients[index]?.map fun c => c.lostBytes act).getD 0
  | _ => 0

/-- A step of the relay loses no chunk. -/
def Lossless (s : State) : Label → Prop
  | .client index act => ∀ c ∈ s.clients[index]?, ¬ c.LosesChunk act
  | _ => True

/-! ## One step -/

section Step

variable {sh sh' : Shared} {c c' : Client} {act : ClientAct}

/-- What a client attempts is pending until it is forwarded, dropped or lost. -/
theorem Moves.ledger (h : Moves sh c act sh' c') :
    sh'.bytesAttemptedTotal + (sh.bytesForwardedTotal + sh.bytesDroppedTotal + c.pending) =
      sh.bytesAttemptedTotal + (sh'.bytesForwardedTotal + sh'.bytesDroppedTotal + c'.pending) +
        c.lostBytes act := by
  unfold Client.pending
  cases h with
  | authenticate hs => rfl
  | leave hs | attempt hs | refuse hs =>
      simp only [hs, Session.pending, Client.lostBytes]
      omega
  | lagged hs _ | passOver hs _ | takeUp hs _ | acquire hs _ | noPermits hs _ =>
      simp only [hs, Session.pending, Client.lostBytes]
      omega
  | receive hs _ _ =>
      simp only [hs, Session.pending, Client.lostBytes]
      omega
  | sendClosed hs hw =>
      simp only [hs, hw, Session.pending, Client.lostBytes, if_true]
      omega
  | send hs hw _ =>
      simp only [hs, Session.pending, Client.lostBytes, if_neg hw, bytesOf_append, bytesOf_cons,
        bytesOf_nil]
      omega
  | sendFull hs hw _ =>
      simp only [hs, Session.pending, Client.lostBytes, if_neg hw]
      omega
  | dequeue hw hqueue =>
      simp only [hw, hqueue, Writer.items, Client.lostBytes, List.nil_append, List.singleton_append]
      omega
  | finish hw _ _ =>
      simp only [hw, Writer.items, Client.lostBytes]
      omega
  | write hw _ =>
      simp only [hw, Writer.items, Client.lostBytes]
      omega
  | writeDone hw | writeError hw =>
      simp only [hw, Writer.items, Client.lostBytes]
      omega
  | forward hw | giveUp hw =>
      simp only [hw, Writer.items, Client.lostBytes, List.singleton_append, List.nil_append,
        bytesOf_cons]
      omega
  | close hw =>
      simp only [hw, Writer.items, Client.lostBytes, List.nil_append, bytesOf_nil]
      omega

/-- Chunks in a queue are not empty, so a queue without bytes has no chunks. -/
theorem bytesOf_eq_zero_iff {queue : List QueuedChunk}
    (h : ∀ item ∈ queue, 0 < item.bytes.length) : bytesOf queue = 0 ↔ queue = [] := by
  constructor
  · intro hzero
    rcases queue with _ | ⟨item, queue⟩
    · rfl
    · have hpos := h item List.mem_cons_self
      rw [bytesOf_cons] at hzero
      omega
  · rintro rfl
    rfl

/-- A move throws no bytes away exactly if it loses no chunk. -/
theorem Moves.lostBytes_eq_zero_iff {clientBufferBytes : ℕ} (h : Moves sh c act sh' c')
    (hc : Sized clientBufferBytes c) : c.lostBytes act = 0 ↔ ¬ c.LosesChunk act := by
  cases h with
  | sendClosed hs hw =>
      have hpos := hc.session
      rw [hs] at hpos
      rw [Client.lostBytes, if_pos hw, hs]
      exact ⟨fun hzero => absurd hzero (Nat.ne_of_gt hpos.1), fun hnot => absurd hw hnot⟩
  | send _ hw _ | sendFull _ hw _ =>
      simp only [Client.lostBytes, Client.LosesChunk, if_neg hw]
      exact ⟨fun _ => hw, fun _ => trivial⟩
  | close hw =>
      have hpos : ∀ item ∈ c.queue, 0 < item.bytes.length := fun item hmem =>
        (hc.items item (List.mem_append_right _ hmem)).1
      simp only [Client.lostBytes, Client.LosesChunk]
      rw [bytesOf_eq_zero_iff hpos, not_not]
  | _ => simp only [Client.lostBytes, Client.LosesChunk, not_false_eq_true]

end Step

/-! ## Runs -/

/-- The bytes of the relay that are attempted, and neither forwarded nor dropped yet. -/
def State.pending (s : State) : ℕ := (s.clients.map Client.pending).sum

/-- Replacing one client changes the sum by that client. -/
theorem sum_map_set {f : Client → ℕ} {clients : List Client} {index : ℕ} {c c' : Client}
    (h : clients[index]? = some c) :
    ((clients.set index c').map f).sum + f c = (clients.map f).sum + f c' := by
  induction clients generalizing index with
  | nil => cases h
  | cons d clients ih =>
      rcases index with _ | index
      · obtain rfl : d = c := Option.some.inj h
        simp only [List.set_cons_zero, List.map_cons, List.sum_cons]
        omega
      · have hrest := ih h
        simp only [List.set_cons_succ, List.map_cons, List.sum_cons]
        omega

/-- A client that has just been accepted has attempted nothing. -/
theorem pending_accepted (clientBufferBytes : ℕ) (published : List (List UInt8)) :
    (Client.accepted clientBufferBytes published).pending = 0 := rfl

variable {clientBufferBytes : ℕ}

/-- What the relay attempts is pending until it is forwarded, dropped or lost. -/
theorem step_ledger {s t : State} {l : Label} (h : step clientBufferBytes s l = some t) :
    t.shared.bytesAttemptedTotal +
        (s.shared.bytesForwardedTotal + s.shared.bytesDroppedTotal + s.pending) =
      s.shared.bytesAttemptedTotal +
        (t.shared.bytesForwardedTotal + t.shared.bytesDroppedTotal + t.pending) +
          lostBytes s l := by
  rcases step_cases h with ⟨chunk, -, -, rfl, rfl⟩ | ⟨paused, rfl, rfl⟩ | ⟨rfl, rfl⟩ |
    ⟨index, act, c, sh', c', rfl, hc, hmove, rfl⟩
  · rfl
  · rfl
  · simp only [State.pending, lostBytes, List.map_append, List.sum_append, List.map_cons,
      List.map_nil, List.sum_cons, List.sum_nil, pending_accepted]
    omega
  · have hledger := hmove.ledger
    have hsum : ((s.clients.set index c').map Client.pending).sum + c.pending =
        (s.clients.map Client.pending).sum + c'.pending := sum_map_set hc
    simp only [State.pending, lostBytes, hc, Option.map_some, Option.getD_some]
    omega

/-- All sessions and writers of the relay have ended. -/
def AllEnded (s : State) : Prop := ∀ c ∈ s.clients, c.session = .ended ∧ c.writer = .ended

instance (s : State) : Decidable (AllEnded s) :=
  inferInstanceAs (Decidable (∀ c ∈ s.clients, _))

/-- Nothing is pending once all sessions and writers have ended. -/
theorem pending_eq_zero_of_ended {s : State} (hsized : ∀ c ∈ s.clients, Sized clientBufferBytes c)
    (h : AllEnded s) : s.pending = 0 := by
  rw [State.pending]
  apply List.sum_eq_zero
  intro n hn
  obtain ⟨c, hc, rfl⟩ := List.mem_map.mp hn
  obtain ⟨hsession, hwriter⟩ := h c hc
  rw [Client.pending, hsession, hwriter, (hsized c hc).closed hwriter]
  rfl

/-- A step throws no bytes away exactly if it loses no chunk. -/
theorem lostBytes_eq_zero_iff {s t : State} {l : Label}
    (hs : AllClients (fun _ => Sized clientBufferBytes) s)
    (h : step clientBufferBytes s l = some t) : lostBytes s l = 0 ↔ Lossless s l := by
  rcases step_cases h with ⟨chunk, -, -, rfl, -⟩ | ⟨paused, rfl, -⟩ | ⟨rfl, -⟩ |
    ⟨index, act, c, sh', c', rfl, hc, hmove, -⟩
  · exact ⟨fun _ => trivial, fun _ => rfl⟩
  · exact ⟨fun _ => trivial, fun _ => rfl⟩
  · exact ⟨fun _ => trivial, fun _ => rfl⟩
  · have hiff := hmove.lostBytes_eq_zero_iff (hs.2 c (List.mem_of_getElem? hc))
    rw [lostBytes, hc, Option.map_some, Option.getD_some, hiff, Lossless, hc]
    constructor
    · rintro hkeeps d hd
      obtain rfl : c = d := Option.some.inj hd
      exact hkeeps
    · intro hall
      exact hall c rfl

/-- **Accounting.**  Once all sessions and writers have ended, every attempted byte is
counted as forwarded or as dropped, if and only if no step of the run lost a chunk. -/
theorem attempted_eq_forwarded_add_dropped_iff {s : State} {ls : List Label}
    (h : exec (step clientBufferBytes) initial ls = some s) (hended : AllEnded s) :
    s.shared.bytesAttemptedTotal =
        s.shared.bytesForwardedTotal + s.shared.bytesDroppedTotal ↔
      Always (step clientBufferBytes) Lossless initial ls := by
  have hpending := pending_eq_zero_of_ended (sized_of_exec h).2 hended
  have hledger : s.shared.bytesAttemptedTotal + 0 =
      0 + (s.shared.bytesForwardedTotal + s.shared.bytesDroppedTotal + s.pending) +
        total (step clientBufferBytes) lostBytes initial ls :=
    exec_ledger (fun _ _ _ => sized_of_step) (fun _ _ _ _ => step_ledger) h allClients_initial
  -- nothing is pending, so the counters differ by what was lost
  have hfree : total (step clientBufferBytes) lostBytes initial ls = 0 ↔
      Always (step clientBufferBytes) Lossless initial ls :=
    total_eq_zero_iff (fun _ _ _ => sized_of_step) (fun _ _ _ => lostBytes_eq_zero_iff) h
      allClients_initial
  rw [← hfree]
  omega

/-- A client that forwards one chunk of two bytes and leaves. -/
def forwardingRun : List Label :=
  [.connect, .client 0 (.session .authenticate), .publish [7, 8]] ++ queueChunk 0 ++
    [.recv, .write 2, .writeDone, .addForwarded].map (fun act => .client 0 (.writer act)) ++
    [.client 0 (.session .leave), .client 0 (.writer .recv)]

/-- In this run nothing is lost, and the counters agree. -/
theorem attempted_eq_forwarded_forwardingRun :
    ∃ s, exec (step 64) initial forwardingRun = some s ∧ AllEnded s ∧
      s.shared.bytesAttemptedTotal = 2 ∧ s.shared.bytesForwardedTotal = 2 ∧
      s.shared.bytesDroppedTotal = 0 ∧ Always (step 64) Lossless initial forwardingRun := by
  have hcounts : (exec (step 64) initial forwardingRun).map (fun s =>
      (decide (AllEnded s), s.shared.bytesAttemptedTotal, s.shared.bytesForwardedTotal,
        s.shared.bytesDroppedTotal)) = some (true, 2, 2, 0) := by decide
  obtain ⟨s, hexec, heq⟩ := Option.map_eq_some_iff.mp hcounts
  simp only [Prod.mk.injEq, decide_eq_true_iff] at heq
  obtain ⟨hended, hattempted, hforwarded, hdropped⟩ := heq
  refine ⟨s, hexec, hended, hattempted, hforwarded, hdropped, ?_⟩
  apply (attempted_eq_forwarded_add_dropped_iff hexec hended).mp
  rw [hattempted, hforwarded, hdropped]

/-- A client whose socket fails while it writes the first of two chunks. -/
def failingRun : List Label :=
  [.connect, .client 0 (.session .authenticate), .publish [7, 8], .publish [9]] ++
    queueChunk 0 ++ queueChunk 0 ++
    [.recv, .writeError, .addDropped, .dropReceiver].map (fun act => .client 0 (.writer act)) ++
    [.client 0 (.session .leave)]

/-- In this run the second chunk is attempted, and neither forwarded nor dropped. -/
theorem attempted_ne_dropped_failingRun :
    ∃ s, exec (step 64) initial failingRun = some s ∧ AllEnded s ∧
      s.shared.bytesAttemptedTotal = 3 ∧ s.shared.bytesForwardedTotal = 0 ∧
      s.shared.bytesDroppedTotal = 2 ∧
      s.shared.bytesAttemptedTotal ≠ s.shared.bytesForwardedTotal + s.shared.bytesDroppedTotal := by
  have hcounts : (exec (step 64) initial failingRun).map (fun s =>
      (decide (AllEnded s), s.shared.bytesAttemptedTotal, s.shared.bytesForwardedTotal,
        s.shared.bytesDroppedTotal)) = some (true, 3, 0, 2) := by decide
  obtain ⟨s, hexec, heq⟩ := Option.map_eq_some_iff.mp hcounts
  simp only [Prod.mk.injEq, decide_eq_true_iff] at heq
  obtain ⟨hended, hattempted, hforwarded, hdropped⟩ := heq
  refine ⟨s, hexec, hended, hattempted, hforwarded, hdropped, ?_⟩
  rw [hattempted, hforwarded, hdropped]
  decide

end Relay
