/-
# The product processor drains its queue

What one step of the system can do is said once, in `Moves`.  The invariant `Drains` ties
the permits to the length of the queue, the history to the queue and the processor, and the
counters to the history.  While the queue is open the permits match the pending products
exactly; `close` leaves one permit more, and no step uses it up before the queue is empty.
-/
import Emwin.Live.ProductProcessor
import Mathlib.Data.List.Perm.Basic

namespace Live

open Transition

variable {D : Type*}

/-! ## What a step can do -/

/-- The steps of the system from states whose queue has a capacity. -/
inductive Moves (s : System D) : Label D → System D → Prop
  | refuse (item : ProductWorkItem D) (hclosed : s.queue.state.closed = true) :
      Moves s (.enqueue item) s
  | accept (item : ProductWorkItem D) (hopen : s.queue.state.closed = false)
      (hroom : s.queue.state.pending.length ≠ s.queue.capacity) :
      Moves s (.enqueue item) { s with
        queue := { s.queue with
          state := { s.queue.state with pending := s.queue.state.pending ++ [item] }
          available := s.queue.available + 1
          enqueuedTotal := s.queue.enqueuedTotal + 1 }
        history := { s.history with accepted := s.history.accepted ++ [item] } }
  | evict (item oldest : ProductWorkItem D) (rest : List (ProductWorkItem D))
      (hopen : s.queue.state.closed = false) (hpending : s.queue.state.pending = oldest :: rest) :
      Moves s (.enqueue item) { s with
        queue := { s.queue with
          state := { s.queue.state with pending := rest ++ [item] }
          evictedTotal := s.queue.evictedTotal + 1
          enqueuedTotal := s.queue.enqueuedTotal + 1 }
        history := { s.history with
          accepted := s.history.accepted ++ [item]
          removed := s.history.removed ++ [(oldest, .evicted)] } }
  | close : Moves s .close { s with queue := close s.queue }
  | acquire (hprocessor : s.processor = .selecting) (hpermit : 0 < s.queue.available) :
      Moves s .acquire { s with
        queue := { s.queue with available := s.queue.available - 1 }
        processor := .proceeding true }
  | shutdown (hprocessor : s.processor = .selecting) :
      Moves s .shutdown { s with queue := close s.queue, processor := .proceeding false }
  | pop (permit : Bool) (item : ProductWorkItem D) (rest : List (ProductWorkItem D))
      (hprocessor : s.processor = .proceeding permit)
      (hpending : s.queue.state.pending = item :: rest) :
      Moves s .pop { s with
        queue := { s.queue with state := { s.queue.state with pending := rest } }
        processor := .processing item
        history := { s.history with removed := s.history.removed ++ [(item, .popped)] } }
  | popNothing (permit : Bool) (hprocessor : s.processor = .proceeding permit)
      (hpending : s.queue.state.pending = []) :
      Moves s .pop { s with processor := .unserved }
  | stop (hprocessor : s.processor = .unserved) (hclosed : s.queue.state.closed = true)
      (hpending : s.queue.state.pending = []) :
      Moves s .checkClosed { s with processor := .stopped }
  | goOn (hprocessor : s.processor = .unserved)
      (hgoes : s.queue.state.closed = true → s.queue.state.pending ≠ []) :
      Moves s .checkClosed { s with processor := .selecting }
  | finish (item : ProductWorkItem D) (outcome : ProcessOutcome)
      (hprocessor : s.processor = .processing item) :
      Moves s (.finish outcome) { s with
        queue := noteOutcome s.queue outcome
        processor := .selecting
        history := { s.history with finished := s.history.finished ++ [(item, outcome)] } }

section Inversion

variable {s t : System D}

theorem moves_of_enqueue {item : ProductWorkItem D} (hcapacity : 0 < s.queue.capacity)
    (h : step s (.enqueue item) = some t) : Moves s (.enqueue item) t := by
  obtain ⟨⟨⟨pending, closed⟩, available, capacity, _, _, _, _⟩, processor, history⟩ := s
  cases closed with
  | true =>
      obtain rfl : _ = t := by simpa [step, enqueue] using h
      exact .refuse item rfl
  | false =>
      by_cases hfull : pending.length = capacity
      · cases pending with
        | nil =>
            obtain rfl : 0 = capacity := hfull
            exact absurd hcapacity (lt_irrefl 0)
        | cons oldest rest =>
            have hlength : rest.length + 1 = capacity := hfull
            obtain rfl : _ = t := by simpa [step, enqueue, hlength] using h
            exact .evict item oldest rest rfl rfl
      · obtain rfl : _ = t := by simpa [step, enqueue, hfull] using h
        exact .accept item rfl hfull

theorem moves_of_pop (h : step s .pop = some t) : Moves s .pop t := by
  cases hprocessor : s.processor with
  | proceeding permit =>
      cases hpending : s.queue.state.pending with
      | nil =>
          have hnothing := Moves.popNothing (s := s) permit hprocessor hpending
          obtain rfl : _ = t := by simpa [step, hprocessor, pop, hpending] using h
          rw [← hpending]
          exact hnothing
      | cons item rest =>
          have hpop := Moves.pop (s := s) permit item rest hprocessor hpending
          obtain rfl : _ = t := by simpa [step, hprocessor, pop, hpending] using h
          exact hpop
  | selecting | unserved | processing _ | stopped => simp [step, hprocessor] at h

theorem moves_of_checkClosed (h : step s .checkClosed = some t) : Moves s .checkClosed t := by
  cases hprocessor : s.processor with
  | unserved =>
      obtain rfl : _ = t := by simpa [step, hprocessor] using h
      cases hclosed : isClosed s.queue with
      | true =>
          unfold isClosed at hclosed
          rw [Bool.and_eq_true, List.isEmpty_iff] at hclosed
          exact .stop hprocessor hclosed.1 hclosed.2
      | false =>
          refine .goOn hprocessor ?_
          intro hshut hempty
          simp [isClosed, hshut, hempty] at hclosed
  | selecting | proceeding _ | processing _ | stopped => simp [step, hprocessor] at h

/-- Every step is one of the moves. -/
theorem moves_of_step (hcapacity : 0 < s.queue.capacity) {l : Label D}
    (h : step s l = some t) : Moves s l t := by
  cases l with
  | enqueue item => exact moves_of_enqueue hcapacity h
  | close =>
      obtain rfl := Option.some.inj h
      exact .close
  | acquire =>
      cases hprocessor : s.processor with
      | selecting =>
          by_cases hpermit : 0 < s.queue.available
          · obtain rfl : _ = t := by simpa [step, hprocessor, hpermit] using h
            exact .acquire hprocessor hpermit
          · simp [step, hprocessor, hpermit] at h
      | proceeding _ | unserved | processing _ | stopped => simp [step, hprocessor] at h
  | shutdown =>
      cases hprocessor : s.processor with
      | selecting =>
          obtain rfl : _ = t := by simpa [step, hprocessor] using h
          exact .shutdown hprocessor
      | proceeding _ | unserved | processing _ | stopped => simp [step, hprocessor] at h
  | pop => exact moves_of_pop h
  | checkClosed => exact moves_of_checkClosed h
  | finish outcome =>
      cases hprocessor : s.processor with
      | processing item =>
          obtain rfl : _ = t := by simpa [step, hprocessor] using h
          exact .finish item outcome hprocessor
      | selecting | proceeding _ | unserved | stopped => simp [step, hprocessor] at h

end Inversion

/-! ## The invariant -/

/-- The permits the processor has taken and not used to pop. -/
def Processor.unused : Processor D → ℕ
  | .proceeding true => 1
  | _ => 0

/-- The product in flight. -/
def Processor.inFlight : Processor D → List (ProductWorkItem D)
  | .processing item => [item]
  | _ => []

/-- Whether the processor has found the queue empty or left its loop. -/
def Processor.isDone : Processor D → Bool
  | .unserved | .stopped => true
  | .selecting | .proceeding _ | .processing _ => false

/-- The products that left the queue in one way, in that order. -/
def History.removedAs (how : Removal) (h : History D) : List (ProductWorkItem D) :=
  (h.removed.filter fun r => r.2 = how).map Prod.fst

/-- How many products ended in one way. -/
def History.finishedAs (outcome : ProcessOutcome) (h : History D) : ℕ :=
  h.finished.countP fun f => f.2 = outcome

/-- What holds in every state of every run. -/
structure Drains (capacity : ℕ) (s : System D) : Prop where
  capacity_eq : s.queue.capacity = max capacity 1
  bounded : s.queue.state.pending.length ≤ s.queue.capacity
  permits : s.queue.state.closed = false →
    s.queue.available + s.processor.unused = s.queue.state.pending.length
  unpermitted : s.processor = .proceeding false → s.queue.state.closed = true
  done : s.processor.isDone = true →
    s.queue.state.closed = true ∧ s.queue.state.pending = []
  wakes : s.queue.state.closed = true → s.processor.isDone = false →
    s.queue.state.pending.length < s.queue.available + s.processor.unused
  fifo : s.history.removed.map Prod.fst ++ s.queue.state.pending = s.history.accepted
  inFlight : s.history.removedAs .popped =
    s.history.finished.map Prod.fst ++ s.processor.inFlight
  enqueued : s.queue.enqueuedTotal = .ofNat s.history.accepted.length
  evicted : s.queue.evictedTotal = .ofNat (s.history.removedAs .evicted).length
  completed : s.queue.completedTotal = .ofNat (s.history.finishedAs .completed)
  failed : s.queue.failedTotal = .ofNat (s.history.finishedAs .failed)

theorem drains_initial (capacity : ℕ) : Drains capacity (initial capacity : System D) where
  capacity_eq := rfl
  bounded := Nat.zero_le _
  permits := fun _ => rfl
  unpermitted := by rintro ⟨⟩
  done := by rintro ⟨⟩
  wakes := by rintro ⟨⟩
  fifo := rfl
  inFlight := rfl
  enqueued := rfl
  evicted := rfl
  completed := rfl
  failed := rfl

section Steps

variable {capacity : ℕ} {s t : System D}

/-- The capacity is at least one. -/
theorem Drains.capacity_pos (hs : Drains capacity s) : 0 < s.queue.capacity := by
  rw [hs.capacity_eq]
  exact Nat.lt_of_lt_of_le Nat.zero_lt_one (Nat.le_max_right _ _)

/-- Open or closed, the permits cover the pending products. -/
theorem Drains.covered (hs : Drains capacity s) :
    s.queue.state.pending.length ≤ s.queue.available + s.processor.unused := by
  cases hclosed : s.queue.state.closed with
  | false => exact (hs.permits hclosed).ge
  | true =>
      cases hdone : s.processor.isDone with
      | false => exact (hs.wakes hclosed hdone).le
      | true =>
          rw [(hs.done hdone).2]
          exact Nat.zero_le _

/-- A counter after one more event. -/
theorem ofNat_length_concat {α : Type*} (l : List α) (a : α) :
    UInt64.ofNat (l ++ [a]).length = .ofNat l.length + 1 := by
  rw [List.length_append, List.length_singleton, UInt64.ofNat_add]
  rfl

/-- Accepting a product into a queue with room adds it and a permit. -/
theorem drains_accept (hs : Drains capacity s) {item : ProductWorkItem D}
    (hopen : s.queue.state.closed = false)
    (hroom : s.queue.state.pending.length ≠ s.queue.capacity) :
    Drains capacity { s with
      queue := { s.queue with
        state := { s.queue.state with pending := s.queue.state.pending ++ [item] }
        available := s.queue.available + 1
        enqueuedTotal := s.queue.enqueuedTotal + 1 }
      history := { s.history with accepted := s.history.accepted ++ [item] } } :=
  { hs with
    bounded := by
      have hbounded := hs.bounded
      show (s.queue.state.pending ++ [item]).length ≤ s.queue.capacity
      rw [List.length_append, List.length_singleton]
      omega
    permits := by
      intro _
      have hpermits := hs.permits hopen
      show s.queue.available + 1 + s.processor.unused = (s.queue.state.pending ++ [item]).length
      rw [List.length_append, List.length_singleton]
      omega
    done := by
      intro hdone
      exact absurd (hs.done hdone).1 (by simp [hopen])
    wakes := by
      intro hclosed
      exact absurd hclosed (by simp [hopen])
    fifo := by
      show _ ++ (s.queue.state.pending ++ [item]) = _ ++ [item]
      rw [← hs.fifo, List.append_assoc]
    enqueued := by
      show s.queue.enqueuedTotal + 1 = .ofNat (s.history.accepted ++ [item]).length
      rw [hs.enqueued, ofNat_length_concat] }

/-- A full queue loses its oldest product to the new one; the permits stay as they are. -/
theorem drains_evict (hs : Drains capacity s) {item oldest : ProductWorkItem D}
    {rest : List (ProductWorkItem D)} (hopen : s.queue.state.closed = false)
    (hpending : s.queue.state.pending = oldest :: rest) :
    Drains capacity { s with
      queue := { s.queue with
        state := { s.queue.state with pending := rest ++ [item] }
        evictedTotal := s.queue.evictedTotal + 1
        enqueuedTotal := s.queue.enqueuedTotal + 1 }
      history := { s.history with
        accepted := s.history.accepted ++ [item]
        removed := s.history.removed ++ [(oldest, .evicted)] } } :=
  have hlength : (rest ++ [item]).length = s.queue.state.pending.length := by
    rw [hpending, List.length_append, List.length_singleton, List.length_cons]
  { hs with
    bounded := by
      show (rest ++ [item]).length ≤ s.queue.capacity
      rw [hlength]
      exact hs.bounded
    permits := by
      intro _
      show s.queue.available + s.processor.unused = (rest ++ [item]).length
      rw [hlength]
      exact hs.permits hopen
    done := by
      intro hdone
      exact absurd (hs.done hdone).1 (by simp [hopen])
    wakes := by
      intro hclosed
      exact absurd hclosed (by simp [hopen])
    fifo := by
      have hfifo := hs.fifo
      rw [hpending] at hfifo
      show (s.history.removed ++ [(oldest, Removal.evicted)]).map Prod.fst ++ (rest ++ [item]) =
        s.history.accepted ++ [item]
      rw [← hfifo]
      simp
    inFlight := by
      have hflight := hs.inFlight
      simpa [History.removedAs] using hflight
    enqueued := by
      show s.queue.enqueuedTotal + 1 = .ofNat (s.history.accepted ++ [item]).length
      rw [hs.enqueued, ofNat_length_concat]
    evicted := by
      have hremoved : (History.removedAs .evicted { s.history with
          accepted := s.history.accepted ++ [item]
          removed := s.history.removed ++ [(oldest, .evicted)] }) =
            s.history.removedAs .evicted ++ [oldest] := by
        simp [History.removedAs]
      show s.queue.evictedTotal + 1 = _
      rw [hremoved, hs.evicted, ofNat_length_concat] }

/-- Closing leaves a permit that no pending product needs. -/
theorem drains_close (hs : Drains capacity s) :
    Drains capacity { s with queue := close s.queue } := by
  cases hclosed : s.queue.state.closed with
  | true =>
      rw [close, if_pos hclosed]
      exact hs
  | false =>
      rw [close, if_neg (by simp [hclosed])]
      exact { hs with
        permits := by rintro ⟨⟩
        unpermitted := fun _ => rfl
        done := fun hdone => ⟨rfl, (hs.done hdone).2⟩
        wakes := by
          intro _ _
          have hpermits := hs.permits hclosed
          show s.queue.state.pending.length < s.queue.available + 1 + s.processor.unused
          omega }

/-- Closing is what it says. -/
theorem closed_close (q : SharedProductQueue D) : (close q).state.closed = true := by
  unfold close
  split
  · next hclosed => exact hclosed
  · rfl

/-- Popping hands the oldest product to the product in flight. -/
theorem drains_pop (hs : Drains capacity s) {permit : Bool} {item : ProductWorkItem D}
    {rest : List (ProductWorkItem D)} (hprocessor : s.processor = .proceeding permit)
    (hpending : s.queue.state.pending = item :: rest) :
    Drains capacity { s with
      queue := { s.queue with state := { s.queue.state with pending := rest } }
      processor := .processing item
      history := { s.history with removed := s.history.removed ++ [(item, .popped)] } } :=
  have hlength : s.queue.state.pending.length = rest.length + 1 := by
    rw [hpending, List.length_cons]
  { hs with
    bounded := by
      have hbounded := hs.bounded
      rw [hlength] at hbounded
      exact Nat.le_of_succ_le hbounded
    permits := by
      intro (hopen : s.queue.state.closed = false)
      -- while the queue is open only a permit leads here
      cases permit with
      | true =>
          have hpermits := hs.permits hopen
          rw [hlength, hprocessor] at hpermits
          exact Nat.succ.inj hpermits
      | false => exact absurd (hs.unpermitted hprocessor) (by simp [hopen])
    unpermitted := by rintro ⟨⟩
    done := by rintro ⟨⟩
    wakes := by
      intro hclosed _
      have hwakes := hs.wakes hclosed (by rw [hprocessor]; rfl)
      have hunused : s.processor.unused ≤ 1 := by
        rw [hprocessor]
        cases permit with
        | true => exact le_rfl
        | false => exact Nat.zero_le _
      show rest.length < s.queue.available + 0
      omega
    fifo := by
      have hfifo := hs.fifo
      rw [hpending] at hfifo
      show (s.history.removed ++ [(item, Removal.popped)]).map Prod.fst ++ rest =
        s.history.accepted
      rw [← hfifo]
      simp
    inFlight := by
      have hflight := hs.inFlight
      rw [hprocessor] at hflight
      unfold History.removedAs Processor.inFlight at hflight ⊢
      simpa using hflight
    evicted := by
      have hevicted := hs.evicted
      unfold History.removedAs at hevicted ⊢
      simpa using hevicted }

/-- The product in flight gets the outcome that is counted. -/
theorem drains_finish (hs : Drains capacity s) {item : ProductWorkItem D}
    {outcome : ProcessOutcome} (hprocessor : s.processor = .processing item) :
    Drains capacity { s with
      queue := noteOutcome s.queue outcome
      processor := .selecting
      history := { s.history with finished := s.history.finished ++ [(item, outcome)] } } :=
  have hcount : ∀ counted : ProcessOutcome,
      (History.finishedAs counted { s.history with
        finished := s.history.finished ++ [(item, outcome)] }) =
      s.history.finishedAs counted + if outcome = counted then 1 else 0 := by
    intro counted
    simp [History.finishedAs, List.countP_append]
  { capacity_eq := by cases outcome <;> exact hs.capacity_eq
    bounded := by cases outcome <;> exact hs.bounded
    permits := by
      have hpermits := hs.permits
      rw [hprocessor] at hpermits
      cases outcome <;> exact hpermits
    unpermitted := by rintro ⟨⟩
    done := by rintro ⟨⟩
    wakes := by
      have hwakes := hs.wakes
      rw [hprocessor] at hwakes
      cases outcome <;> exact hwakes
    fifo := by cases outcome <;> exact hs.fifo
    inFlight := by
      have hflight := hs.inFlight
      rw [hprocessor] at hflight
      show s.history.removedAs .popped = _
      rw [hflight]
      simp [Processor.inFlight]
    enqueued := by cases outcome <;> exact hs.enqueued
    evicted := by cases outcome <;> exact hs.evicted
    completed := by
      rw [hcount, UInt64.ofNat_add, ← hs.completed]
      cases outcome <;> simp [noteOutcome]
    failed := by
      rw [hcount, UInt64.ofNat_add, ← hs.failed]
      cases outcome <;> simp [noteOutcome] }

/-- The steps keep the invariant. -/
theorem drains_of_moves {l : Label D} (hs : Drains capacity s) (h : Moves s l t) :
    Drains capacity t := by
  cases h with
  | refuse => exact hs
  | accept item hopen hroom => exact drains_accept hs hopen hroom
  | evict item oldest rest hopen hpending => exact drains_evict hs hopen hpending
  | close => exact drains_close hs
  | pop permit item rest hprocessor hpending => exact drains_pop hs hprocessor hpending
  | finish item outcome hprocessor => exact drains_finish hs hprocessor
  | acquire hprocessor hpermit =>
      refine { hs with
        permits := ?_, unpermitted := ?_, done := ?_, wakes := ?_, inFlight := ?_ }
      · intro hopen
        have hpermits := hs.permits hopen
        rw [hprocessor] at hpermits
        show s.queue.available - 1 + 1 = _
        rw [Nat.sub_add_cancel hpermit]
        exact hpermits
      · rintro ⟨⟩
      · rintro ⟨⟩
      · intro hclosed _
        have hwakes := hs.wakes hclosed (by rw [hprocessor]; rfl)
        rw [hprocessor] at hwakes
        show _ < s.queue.available - 1 + 1
        rw [Nat.sub_add_cancel hpermit]
        exact hwakes
      · rw [hs.inFlight, hprocessor]
        rfl
  | shutdown hprocessor =>
      have hclose := drains_close hs
      have hclosed := closed_close s.queue
      refine { hclose with
        permits := ?_, unpermitted := fun _ => hclosed, done := ?_, wakes := ?_, inFlight := ?_ }
      · intro (hopen : (close s.queue).state.closed = false)
        exact absurd hclosed (by simp [hopen])
      · rintro ⟨⟩
      · intro _ _
        have hwakes := hclose.wakes hclosed (by rw [hprocessor]; rfl)
        rw [hprocessor] at hwakes
        exact hwakes
      · rw [hs.inFlight, hprocessor]
        rfl
  | popNothing permit hprocessor hpending =>
      -- an open queue with a permit out is not empty
      have hclosed : s.queue.state.closed = true := by
        by_contra hopen
        rw [Bool.not_eq_true] at hopen
        cases permit with
        | true =>
            have hpermits := hs.permits hopen
            rw [hprocessor, hpending] at hpermits
            cases hpermits
        | false => exact absurd (hs.unpermitted hprocessor) (by simp [hopen])
      refine { hs with
        permits := ?_, unpermitted := ?_, done := fun _ => ⟨hclosed, hpending⟩, wakes := ?_,
        inFlight := ?_ }
      · intro (hopen : s.queue.state.closed = false)
        exact absurd hclosed (by simp [hopen])
      · rintro ⟨⟩
      · rintro _ ⟨⟩
      · rw [hs.inFlight, hprocessor]
        rfl
  | stop hprocessor hclosed hpending =>
      refine { hs with
        permits := ?_, unpermitted := ?_, done := fun _ => ⟨hclosed, hpending⟩, wakes := ?_,
        inFlight := ?_ }
      · intro (hopen : s.queue.state.closed = false)
        exact absurd hclosed (by simp [hopen])
      · rintro ⟨⟩
      · rintro _ ⟨⟩
      · rw [hs.inFlight, hprocessor]
        rfl
  | goOn hprocessor hgoes =>
      obtain ⟨hclosed, hpending⟩ := hs.done (by rw [hprocessor]; rfl)
      exact absurd hpending (hgoes hclosed)

/-- The invariant holds in every state of every run. -/
theorem drains_of_exec {ls : List (Label D)}
    (h : exec step (initial capacity) ls = some s) : Drains capacity s :=
  exec_invariant (fun _ _ _ hs hstep => drains_of_moves hs (moves_of_step hs.capacity_pos hstep))
    h (drains_initial capacity)

/-! ## Progress -/

/-- Until it stops, the processor of a queue with a pending product, or of a closed queue,
can go on without the shutdown signal. -/
theorem exists_processor_step (hs : Drains capacity s) (hrunning : s.processor ≠ .stopped)
    (hwork : s.queue.state.pending ≠ [] ∨ s.queue.state.closed = true) :
    ∃ l : Label D, l.isProcessor = true ∧ l ≠ .shutdown ∧ ∃ t, step s l = some t := by
  cases hprocessor : s.processor with
  | selecting =>
      have hpermit : 0 < s.queue.available := by
        rcases hwork with hpending | hclosed
        · have hcovered := hs.covered
          rw [hprocessor] at hcovered
          exact Nat.lt_of_lt_of_le (List.length_pos_iff.mpr hpending) hcovered
        · have hwakes := hs.wakes hclosed (by rw [hprocessor]; rfl)
          rw [hprocessor] at hwakes
          exact Nat.zero_lt_of_lt hwakes
      exact ⟨.acquire, rfl, by rintro ⟨⟩, by simp [step, hprocessor, hpermit]⟩
  | proceeding permit =>
      refine ⟨.pop, rfl, by rintro ⟨⟩, ?_⟩
      cases hpending : s.queue.state.pending <;> simp [step, hprocessor, pop, hpending]
  | unserved => exact ⟨.checkClosed, rfl, by rintro ⟨⟩, by simp [step, hprocessor]⟩
  | processing item => exact ⟨.finish .completed, rfl, by rintro ⟨⟩, by simp [step, hprocessor]⟩
  | stopped => exact absurd hprocessor hrunning

/-- How many steps the processor takes at most once the queue is closed. -/
def System.stepsLeft (s : System D) : ℕ :=
  3 * s.queue.state.pending.length + match s.processor with
    | .processing _ => 4
    | .selecting => 3
    | .proceeding _ => 2
    | .unserved => 1
    | .stopped => 0

/-- A closed queue accepts nothing, and each step of the processor brings it closer to its
end. -/
theorem Moves.of_closed {l : Label D} (hs : Drains capacity s)
    (hclosed : s.queue.state.closed = true) (h : Moves s l t) :
    t.queue.state.closed = true ∧ t.history.accepted = s.history.accepted ∧
      (if l.isProcessor then 1 else 0) + t.stepsLeft ≤ s.stepsLeft := by
  have hclose : Live.close s.queue = s.queue := if_pos hclosed
  cases h with
  | refuse => exact ⟨hclosed, rfl, by simp [Label.isProcessor]⟩
  | accept item hopen | evict item oldest rest hopen => exact absurd hclosed (by simp [hopen])
  | close =>
      rw [hclose]
      exact ⟨hclosed, rfl, by simp [Label.isProcessor]⟩
  | acquire hprocessor =>
      refine ⟨hclosed, rfl, ?_⟩
      simp only [System.stepsLeft, hprocessor, Label.isProcessor, if_true]
      omega
  | shutdown hprocessor =>
      rw [hclose]
      refine ⟨hclosed, rfl, ?_⟩
      simp only [System.stepsLeft, hprocessor, Label.isProcessor, if_true]
      omega
  | pop permit item rest hprocessor hpending =>
      refine ⟨hclosed, rfl, ?_⟩
      simp only [System.stepsLeft, hprocessor, hpending, Label.isProcessor, if_true,
        List.length_cons]
      omega
  | popNothing permit hprocessor hpending =>
      refine ⟨hclosed, rfl, ?_⟩
      simp only [System.stepsLeft, hprocessor, Label.isProcessor, if_true]
      omega
  | stop hprocessor =>
      refine ⟨hclosed, rfl, ?_⟩
      simp only [System.stepsLeft, hprocessor, Label.isProcessor, if_true]
      omega
  | goOn hprocessor hgoes =>
      exact absurd (hs.done (by rw [hprocessor]; rfl)).2 (hgoes hclosed)
  | finish item outcome hprocessor =>
      refine ⟨by cases outcome <;> exact hclosed, rfl, ?_⟩
      cases outcome <;>
        simp only [System.stepsLeft, hprocessor, noteOutcome, Label.isProcessor, if_true] <;>
        omega

/-- What holds of a run from a closed queue. -/
theorem exec_of_closed {ls : List (Label D)} (hs : Drains capacity s)
    (hclosed : s.queue.state.closed = true) (h : exec step s ls = some t) :
    t.history.accepted = s.history.accepted ∧
      ls.countP Label.isProcessor + t.stepsLeft ≤ s.stepsLeft := by
  induction ls generalizing s with
  | nil =>
      obtain rfl : s = t := Option.some.inj h
      exact ⟨rfl, by simp⟩
  | cons l ls ih =>
      obtain ⟨u, hu, hrest⟩ := exec_cons.mp h
      have hmove := moves_of_step hs.capacity_pos hu
      obtain ⟨hclosed', haccepted, hleft⟩ := hmove.of_closed hs hclosed
      obtain ⟨haccepted', hleft'⟩ := ih (drains_of_moves hs hmove) hclosed' hrest
      refine ⟨haccepted'.trans haccepted, ?_⟩
      rw [List.countP_cons]
      omega

end Steps

/-! ## Every accepted product has one fate -/

/-- Every product that left the queue was either popped or evicted. -/
theorem History.removed_perm (h : History D) :
    (h.removedAs .evicted ++ h.removedAs .popped).Perm (h.removed.map Prod.fst) := by
  have hpopped : ∀ r : ProductWorkItem D × Removal,
      decide (r.2 = .popped) = !decide (r.2 = .evicted) := by
    rintro ⟨item, how⟩
    cases how <;> rfl
  unfold History.removedAs
  simp only [hpopped]
  rw [← List.map_append]
  exact (List.filter_append_perm _ h.removed).map _

/-- Every product the processor is done with was either completed or failed. -/
theorem History.length_finished (h : History D) :
    h.finished.length = h.finishedAs .completed + h.finishedAs .failed := by
  have hfailed : ∀ f : ProductWorkItem D × ProcessOutcome,
      decide (f.2 = .failed) = decide (¬ f.2 = .completed) := by
    rintro ⟨item, outcome⟩
    cases outcome <;> rfl
  unfold History.finishedAs
  simp only [hfailed]
  rw [List.length_eq_countP_add_countP fun f : ProductWorkItem D × ProcessOutcome =>
    decide (f.2 = .completed)]
  simp

/-- Every accepted product has one place. -/
theorem Drains.accepted_perm {capacity : ℕ} {s : System D} (hs : Drains capacity s) :
    (s.history.removedAs .evicted ++ s.history.finished.map Prod.fst ++ s.processor.inFlight ++
      s.queue.state.pending).Perm s.history.accepted := by
  have hremoved := s.history.removed_perm
  rw [hs.inFlight, ← List.append_assoc] at hremoved
  rw [← hs.fifo]
  exact hremoved.append_right _

/-- The accepted products in numbers. -/
theorem Drains.length_accepted {capacity : ℕ} {s : System D} (hs : Drains capacity s) :
    s.history.accepted.length = (s.history.removedAs .evicted).length +
      s.history.finishedAs .completed + s.history.finishedAs .failed +
      s.queue.state.pending.length + s.processor.inFlight.length := by
  have hlength := hs.accepted_perm.length_eq
  have hfinished := s.history.length_finished
  simp only [List.length_append, List.length_map] at hlength
  omega

/-- **The processor drains what it accepted.**  In every state of every run the queue is
bounded, its products are popped in the order in which they were accepted, every accepted
product is counted where it is, and the permits cover the pending products, so that the
processor is not blocked while there are any.  It leaves its loop only when the queue is
closed and empty, which it reaches in a bounded number of its steps after `close`; then every
accepted product is completed, failed or evicted once. -/
theorem product_queue_drains {capacity : ℕ} {s : System D} {ls : List (Label D)}
    (h : exec step (initial capacity) ls = some s) :
    (s.queue.state.pending.length ≤ s.queue.capacity ∧ s.queue.capacity = max capacity 1) ∧
    (s.history.removed.map Prod.fst ++ s.queue.state.pending = s.history.accepted ∧
      s.history.removedAs .popped = s.history.finished.map Prod.fst ++ s.processor.inFlight ∧
      (s.history.removedAs .popped).Sublist s.history.accepted) ∧
    (s.queue.enqueuedTotal = s.queue.evictedTotal + s.queue.completedTotal +
        s.queue.failedTotal + .ofNat s.queue.state.pending.length +
        .ofNat s.processor.inFlight.length ∧
      (s.history.accepted.length < 2 ^ 64 →
        s.queue.enqueuedTotal.toNat = s.queue.evictedTotal.toNat +
          s.queue.completedTotal.toNat + s.queue.failedTotal.toNat +
          s.queue.state.pending.length + s.processor.inFlight.length)) ∧
    (s.queue.state.pending.length ≤ s.queue.available + s.processor.unused ∧
      (s.queue.state.pending ≠ [] → s.processor ≠ .stopped ∧
        ∃ l : Label D, l.isProcessor = true ∧ l ≠ .shutdown ∧ ∃ t, step s l = some t)) ∧
    (s.queue.state.closed = true →
      (∀ (ls' : List (Label D)) (t : System D), exec step s ls' = some t →
        t.history.accepted = s.history.accepted ∧
        ls'.countP Label.isProcessor + t.stepsLeft ≤ s.stepsLeft) ∧
      (s.processor ≠ .stopped →
        ∃ l : Label D, l.isProcessor = true ∧ l ≠ .shutdown ∧ ∃ t, step s l = some t)) ∧
    (s.processor = .stopped → s.queue.state.closed = true ∧ s.queue.state.pending = [] ∧
      (s.history.removedAs .evicted ++ s.history.finished.map Prod.fst).Perm
        s.history.accepted) := by
  have hs := drains_of_exec h
  refine ⟨⟨hs.bounded, hs.capacity_eq⟩, ⟨hs.fifo, hs.inFlight, ?_⟩, ⟨?_, ?_⟩,
    ⟨hs.covered, ?_⟩, ?_, ?_⟩
  · have hpopped : (s.history.removedAs .popped).Sublist (s.history.removed.map Prod.fst) :=
      List.filter_sublist.map Prod.fst
    rw [← hs.fifo]
    exact hpopped.trans (List.sublist_append_left _ _)
  · rw [hs.enqueued, hs.evicted, hs.completed, hs.failed, hs.length_accepted]
    simp only [UInt64.ofNat_add]
  · intro hfits
    have hlength := hs.length_accepted
    have hshown : ∀ n ≤ s.history.accepted.length, (UInt64.ofNat n).toNat = n :=
      fun n hn => UInt64.toNat_ofNat_of_lt' (Nat.lt_of_le_of_lt hn hfits)
    rw [hs.enqueued, hs.evicted, hs.completed, hs.failed, hshown _ le_rfl, hshown _ (by omega),
      hshown _ (by omega), hshown _ (by omega)]
    exact hlength
  · intro hpending
    have hrunning : s.processor ≠ .stopped := by
      intro hstopped
      exact hpending (hs.done (by rw [hstopped]; rfl)).2
    exact ⟨hrunning, exists_processor_step hs hrunning (.inl hpending)⟩
  · intro hclosed
    exact ⟨fun _ _ => exec_of_closed hs hclosed,
      fun hrunning => exists_processor_step hs hrunning (.inr hclosed)⟩
  · intro hstopped
    obtain ⟨hclosed, hpending⟩ := hs.done (by rw [hstopped]; rfl)
    have hperm := hs.accepted_perm
    rw [hstopped, hpending] at hperm
    simp only [Processor.inFlight, List.append_nil] at hperm
    exact ⟨hclosed, hpending, hperm⟩

/-- A run with an eviction that the shutdown signal ends while a product is pending. -/
def shutdownRun : List (Label Unit) :=
  [.enqueue ⟨"one".toList, ()⟩, .enqueue ⟨"two".toList, ()⟩, .acquire, .pop,
    .enqueue ⟨"three".toList, ()⟩, .finish .completed, .shutdown, .pop, .finish .failed,
    .acquire, .pop, .checkClosed]

/-- The processor stops with all three products accounted for. -/
theorem product_queue_drains_shutdownRun :
    ∃ s : System Unit, exec step (initial 1) shutdownRun = some s ∧ s.processor = .stopped ∧
      s.queue.state.pending = [] ∧ s.history.accepted.length = 3 ∧
      (s.history.removedAs .evicted ++ s.history.finished.map Prod.fst).Perm
        s.history.accepted := by
  have hvalues : (exec step (initial 1) shutdownRun).map (fun s =>
      (s.processor, s.history.accepted.length)) = some (.stopped, 3) := by rfl
  obtain ⟨s, hexec, hvalue⟩ := Option.map_eq_some_iff.mp hvalues
  simp only [Prod.mk.injEq] at hvalue
  obtain ⟨hstopped, haccepted⟩ := hvalue
  obtain ⟨-, -, -, -, -, hdrained⟩ := product_queue_drains hexec
  obtain ⟨-, hpending, hperm⟩ := hdrained hstopped
  exact ⟨s, hexec, hstopped, hpending, haccepted, hperm⟩

end Live
