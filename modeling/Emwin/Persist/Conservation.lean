/-
# Conservation of the persistence queue

What one step of the system can do is said once, in `Moves`; the invariant `Conserves` ties
the permits to the length of the queue, the history to the queue and the worker, and the
counters to the history.  After `close` the worker has at most four steps left, and until
it stops one of them is possible.
-/
import Emwin.Persist.Queue

namespace Persist

open Saturating Transition

variable {M : Type*}

/-! ## What a step can do -/

/-- The steps of the system from states whose queue has a capacity. -/
inductive Moves (s : System M) : Label M → System M → Prop
  | refuse (request : PersistRequest M) (hclosed : s.queue.state.closed = true) :
      Moves s (.enqueue request) s
  | accept (request : PersistRequest M) (hopen : s.queue.state.closed = false)
      (hroom : s.queue.state.pending.length ≠ s.queue.capacity) :
      Moves s (.enqueue request) { s with
        queue := { s.queue with
          state := { s.queue.state with
            pending := s.queue.state.pending ++ [request]
            stats := { s.queue.state.stats with
              enqueuedTotal := saturatingAdd s.queue.state.stats.enqueuedTotal 1 } }
          available := s.queue.available + 1 }
        history := { s.history with accepted := s.history.accepted ++ [request] } }
  | evict (request oldest : PersistRequest M) (rest : List (PersistRequest M))
      (hopen : s.queue.state.closed = false) (hpending : s.queue.state.pending = oldest :: rest)
      (hfull : s.queue.state.pending.length = s.queue.capacity) :
      Moves s (.enqueue request) { s with
        queue := { s.queue with
          state := { s.queue.state with
            pending := rest ++ [request]
            stats := { s.queue.state.stats with
              enqueuedTotal := saturatingAdd s.queue.state.stats.enqueuedTotal 1
              evictedTotal := saturatingAdd s.queue.state.stats.evictedTotal 1 } } }
        history := { s.history with
          accepted := s.history.accepted ++ [request]
          removed := s.history.removed ++ [(oldest, .evicted)] } }
  | closeAgain (hclosed : s.queue.state.closed = true) : Moves s .close s
  | close (hopen : s.queue.state.closed = false) :
      Moves s .close { s with
        queue := { s.queue with
          state := { s.queue.state with closed := true, pending := [] }
          available := s.queue.available + 1 }
        history := { s.history with cleared := s.queue.state.pending } }
  | acquire (hworker : s.worker = .waiting) (hpermit : 0 < s.queue.available) :
      Moves s .acquire { s with
        queue := { s.queue with available := s.queue.available - 1 }
        worker := .permitted }
  | pop (request : PersistRequest M) (rest : List (PersistRequest M))
      (hworker : s.worker = .permitted) (hpending : s.queue.state.pending = request :: rest) :
      Moves s .pop { s with
        queue := { s.queue with state := { s.queue.state with pending := rest } }
        worker := .persisting request
        history := { s.history with removed := s.history.removed ++ [(request, .popped)] } }
  | popNothing (hworker : s.worker = .permitted) (hpending : s.queue.state.pending = []) :
      Moves s .pop { s with worker := .unserved }
  | stop (hworker : s.worker = .unserved) (hclosed : s.queue.state.closed = true) :
      Moves s .checkClosed { s with worker := .stopped }
  | goOn (hworker : s.worker = .unserved)
      (hopen : s.queue.state.closed = true → s.queue.state.pending ≠ []) :
      Moves s .checkClosed { s with worker := .waiting }
  | finish (request : PersistRequest M) (outcome : PersistOutcome)
      (hworker : s.worker = .persisting request) :
      Moves s (.finish outcome) { s with
        queue := { s.queue with
          state := { s.queue.state with stats := noteOutcome s.queue.state.stats outcome } }
        worker := .waiting
        history := { s.history with finished := s.history.finished ++ [(request, outcome)] } }

section Inversion

variable {s t : System M}

theorem moves_of_enqueue {request : PersistRequest M} (hcapacity : 0 < s.queue.capacity)
    (h : step s (.enqueue request) = some t) : Moves s (.enqueue request) t := by
  obtain ⟨⟨⟨pending, closed, stats⟩, available, capacity⟩, worker, history⟩ := s
  cases closed with
  | true =>
      obtain rfl : _ = t := by simpa [step, enqueue] using h
      exact .refuse request rfl
  | false =>
      by_cases hfull : pending.length = capacity
      · cases pending with
        | nil =>
            obtain rfl : 0 = capacity := hfull
            exact absurd hcapacity (lt_irrefl 0)
        | cons oldest rest =>
            have hlength : rest.length + 1 = capacity := hfull
            obtain rfl : _ = t := by simpa [step, enqueue, hlength] using h
            exact .evict request oldest rest rfl rfl hfull
      · obtain rfl : _ = t := by simpa [step, enqueue, hfull] using h
        exact .accept request rfl hfull

theorem moves_of_close (h : step s .close = some t) : Moves s .close t := by
  obtain ⟨⟨⟨pending, closed, stats⟩, available, capacity⟩, worker, history⟩ := s
  obtain rfl := Option.some.inj h
  cases closed with
  | true => exact .closeAgain rfl
  | false => exact .close rfl

theorem moves_of_pop (h : step s .pop = some t) : Moves s .pop t := by
  cases hworker : s.worker with
  | permitted =>
      cases hpending : s.queue.state.pending with
      | nil =>
          have hnothing := Moves.popNothing (s := s) hworker hpending
          obtain rfl : _ = t := by simpa [step, hworker, popRequest, hpending] using h
          rw [← hpending]
          exact hnothing
      | cons request rest =>
          have hpop := Moves.pop (s := s) request rest hworker hpending
          obtain rfl : _ = t := by simpa [step, hworker, popRequest, hpending] using h
          exact hpop
  | waiting | unserved | persisting _ | stopped => simp [step, hworker] at h

theorem moves_of_checkClosed (h : step s .checkClosed = some t) : Moves s .checkClosed t := by
  cases hworker : s.worker with
  | unserved =>
      obtain rfl : _ = t := by simpa [step, hworker] using h
      cases hclosed : isClosed s.queue with
      | true =>
          unfold isClosed at hclosed
          rw [Bool.and_eq_true] at hclosed
          exact .stop hworker hclosed.1
      | false =>
          refine .goOn hworker ?_
          intro hshut hempty
          simp [isClosed, hshut, hempty] at hclosed
  | waiting | permitted | persisting _ | stopped => simp [step, hworker] at h

/-- Every step is one of the moves. -/
theorem moves_of_step (hcapacity : 0 < s.queue.capacity) {l : Label M}
    (h : step s l = some t) : Moves s l t := by
  cases l with
  | enqueue request => exact moves_of_enqueue hcapacity h
  | close => exact moves_of_close h
  | acquire =>
      cases hworker : s.worker with
      | waiting =>
          by_cases hpermit : 0 < s.queue.available
          · obtain rfl : _ = t := by simpa [step, hworker, hpermit] using h
            exact .acquire hworker hpermit
          · simp [step, hworker, hpermit] at h
      | permitted | unserved | persisting _ | stopped => simp [step, hworker] at h
  | pop => exact moves_of_pop h
  | checkClosed => exact moves_of_checkClosed h
  | finish outcome =>
      cases hworker : s.worker with
      | persisting request =>
          obtain rfl : _ = t := by simpa [step, hworker] using h
          exact .finish request outcome hworker
      | waiting | permitted | unserved | stopped => simp [step, hworker] at h

end Inversion

/-! ## The invariant -/

/-- The permits the worker has taken and not used to pop. -/
def Worker.unused : Worker M → ℕ
  | .permitted => 1
  | _ => 0

/-- The request in flight. -/
def Worker.inFlight : Worker M → List (PersistRequest M)
  | .persisting request => [request]
  | _ => []

/-- Whether the worker is going to wait for a permit. -/
def Worker.needsPermit : Worker M → Bool
  | .waiting | .persisting _ => true
  | _ => false

/-- The requests that left the queue in one way, in that order. -/
def History.removedAs (how : Removal) (h : History M) : List (PersistRequest M) :=
  (h.removed.filter fun r => r.2 = how).map Prod.fst

/-- How many requests ended in one way. -/
def History.finishedAs (outcome : PersistOutcome) (h : History M) : ℕ :=
  h.finished.countP fun f => f.2 = outcome

/-- What holds in every state of every run. -/
structure Conserves (capacity : ℕ) (s : System M) : Prop where
  capacity_eq : s.queue.capacity = max capacity 1
  bounded : s.queue.state.pending.length ≤ s.queue.capacity
  permits : s.queue.state.closed = false →
    s.queue.available + s.worker.unused = s.queue.state.pending.length
  served : s.worker = .unserved → s.queue.state.closed = true
  drained : s.queue.state.closed = true → s.queue.state.pending = []
  wakes : s.queue.state.closed = true → s.worker.needsPermit = true → 0 < s.queue.available
  uncleared : s.queue.state.closed = false → s.history.cleared = []
  fifo : s.history.removed.map Prod.fst ++ s.history.cleared ++ s.queue.state.pending =
    s.history.accepted
  inFlight : s.history.removedAs .popped = s.history.finished.map Prod.fst ++ s.worker.inFlight
  enqueued : s.queue.state.stats.enqueuedTotal = shown s.history.accepted.length
  evicted : s.queue.state.stats.evictedTotal = shown (s.history.removedAs .evicted).length
  persisted : s.queue.state.stats.persistedTotal = shown (s.history.finishedAs .persisted)
  failed : s.queue.state.stats.failedTotal = shown (s.history.finishedAs .failed)
  staleDropped : s.queue.state.stats.staleDroppedTotal = shown (s.history.finishedAs .staleDropped)

theorem conserves_initial (capacity : ℕ) : Conserves capacity (initial capacity : System M) where
  capacity_eq := rfl
  bounded := Nat.zero_le _
  permits := fun _ => rfl
  served := by rintro ⟨⟩
  drained := by rintro ⟨⟩
  wakes := by rintro ⟨⟩
  uncleared := fun _ => rfl
  fifo := rfl
  inFlight := rfl
  enqueued := rfl
  evicted := rfl
  persisted := rfl
  failed := rfl
  staleDropped := rfl

section Steps

variable {capacity : ℕ} {s t : System M}

/-- The capacity is at least one. -/
theorem Conserves.capacity_pos (hs : Conserves capacity s) : 0 < s.queue.capacity := by
  rw [hs.capacity_eq]
  exact Nat.lt_of_lt_of_le Nat.zero_lt_one (Nat.le_max_right _ _)

/-- Accepting a request into a queue with room adds it and a permit. -/
theorem conserves_accept (hs : Conserves capacity s) {request : PersistRequest M}
    (hopen : s.queue.state.closed = false)
    (hroom : s.queue.state.pending.length ≠ s.queue.capacity) :
    Conserves capacity { s with
      queue := { s.queue with
        state := { s.queue.state with
          pending := s.queue.state.pending ++ [request]
          stats := { s.queue.state.stats with
            enqueuedTotal := saturatingAdd s.queue.state.stats.enqueuedTotal 1 } }
        available := s.queue.available + 1 }
      history := { s.history with accepted := s.history.accepted ++ [request] } } :=
  { hs with
    bounded := by
      have hbounded := hs.bounded
      show (s.queue.state.pending ++ [request]).length ≤ s.queue.capacity
      rw [List.length_append, List.length_singleton]
      omega
    permits := by
      intro _
      have hpermits := hs.permits hopen
      show s.queue.available + 1 + s.worker.unused = (s.queue.state.pending ++ [request]).length
      rw [List.length_append, List.length_singleton]
      omega
    drained := by
      intro hclosed
      exact absurd hclosed (by simp [hopen])
    wakes := fun _ _ => Nat.succ_pos _
    fifo := by
      show _ ++ s.history.cleared ++ (s.queue.state.pending ++ [request]) = _ ++ [request]
      rw [← hs.fifo]
      simp only [List.append_assoc]
    enqueued := by
      show saturatingAdd s.queue.state.stats.enqueuedTotal 1 =
        shown (s.history.accepted ++ [request]).length
      rw [hs.enqueued, saturatingAdd_shown, List.length_append, List.length_singleton] }

/-- A full queue loses its oldest request to the new one; the permits stay as they are. -/
theorem conserves_evict (hs : Conserves capacity s) {request oldest : PersistRequest M}
    {rest : List (PersistRequest M)} (hopen : s.queue.state.closed = false)
    (hpending : s.queue.state.pending = oldest :: rest) :
    Conserves capacity { s with
      queue := { s.queue with
        state := { s.queue.state with
          pending := rest ++ [request]
          stats := { s.queue.state.stats with
            enqueuedTotal := saturatingAdd s.queue.state.stats.enqueuedTotal 1
            evictedTotal := saturatingAdd s.queue.state.stats.evictedTotal 1 } } }
      history := { s.history with
        accepted := s.history.accepted ++ [request]
        removed := s.history.removed ++ [(oldest, .evicted)] } } :=
  have hlength : (rest ++ [request]).length = s.queue.state.pending.length := by
    rw [hpending, List.length_append, List.length_singleton, List.length_cons]
  { hs with
    bounded := by
      show (rest ++ [request]).length ≤ s.queue.capacity
      rw [hlength]
      exact hs.bounded
    permits := by
      intro _
      show s.queue.available + s.worker.unused = (rest ++ [request]).length
      rw [hlength]
      exact hs.permits hopen
    drained := by
      intro hclosed
      exact absurd hclosed (by simp [hopen])
    fifo := by
      have hfifo := hs.fifo
      rw [hs.uncleared hopen, hpending] at hfifo
      show (s.history.removed ++ [(oldest, Removal.evicted)]).map Prod.fst ++ s.history.cleared ++
        (rest ++ [request]) = s.history.accepted ++ [request]
      rw [hs.uncleared hopen, ← hfifo]
      simp
    inFlight := by
      have hflight := hs.inFlight
      simpa [History.removedAs] using hflight
    enqueued := by
      show saturatingAdd s.queue.state.stats.enqueuedTotal 1 =
        shown (s.history.accepted ++ [request]).length
      rw [hs.enqueued, saturatingAdd_shown, List.length_append, List.length_singleton]
    evicted := by
      have hevicted := hs.evicted
      unfold History.removedAs at hevicted ⊢
      simp [hevicted] }

/-- Closing drops what is pending and leaves a permit for the worker. -/
theorem conserves_close (hs : Conserves capacity s) (hopen : s.queue.state.closed = false) :
    Conserves capacity { s with
      queue := { s.queue with
        state := { s.queue.state with closed := true, pending := [] }
        available := s.queue.available + 1 }
      history := { s.history with cleared := s.queue.state.pending } } :=
  { hs with
    bounded := Nat.zero_le _
    permits := by rintro ⟨⟩
    served := fun _ => rfl
    drained := fun _ => rfl
    wakes := fun _ _ => Nat.succ_pos _
    uncleared := by rintro ⟨⟩
    fifo := by
      have hfifo := hs.fifo
      rw [hs.uncleared hopen, List.append_nil] at hfifo
      show _ ++ s.queue.state.pending ++ [] = _
      rw [List.append_nil, hfifo] }

/-- Popping hands the oldest request and the permit to the request in flight. -/
theorem conserves_pop (hs : Conserves capacity s) {request : PersistRequest M}
    {rest : List (PersistRequest M)} (hworker : s.worker = .permitted)
    (hpending : s.queue.state.pending = request :: rest) :
    Conserves capacity { s with
      queue := { s.queue with state := { s.queue.state with pending := rest } }
      worker := .persisting request
      history := { s.history with removed := s.history.removed ++ [(request, .popped)] } } :=
  have hopen : s.queue.state.closed = false := by
    by_contra hclosed
    rw [Bool.not_eq_false] at hclosed
    rw [hs.drained hclosed] at hpending
    cases hpending
  { hs with
    bounded := by
      have hbounded := hs.bounded
      rw [hpending, List.length_cons] at hbounded
      exact Nat.le_of_succ_le hbounded
    permits := by
      intro _
      have hpermits := hs.permits hopen
      rw [hworker, hpending, List.length_cons] at hpermits
      exact Nat.succ.inj hpermits
    served := by rintro ⟨⟩
    drained := by
      intro hclosed
      exact absurd hclosed (by simp [hopen])
    wakes := by
      intro hclosed
      exact absurd hclosed (by simp [hopen])
    fifo := by
      have hfifo := hs.fifo
      rw [hs.uncleared hopen, hpending] at hfifo
      show (s.history.removed ++ [(request, Removal.popped)]).map Prod.fst ++ s.history.cleared ++
          rest =
        s.history.accepted
      rw [hs.uncleared hopen, ← hfifo]
      simp
    inFlight := by
      have hflight := hs.inFlight
      rw [hworker] at hflight
      unfold History.removedAs Worker.inFlight at hflight ⊢
      simpa using hflight
    evicted := by
      have hevicted := hs.evicted
      unfold History.removedAs at hevicted ⊢
      simp [hevicted] }

/-- The request in flight gets the outcome that is counted. -/
theorem conserves_finish (hs : Conserves capacity s) {request : PersistRequest M}
    {outcome : PersistOutcome} (hworker : s.worker = .persisting request) :
    Conserves capacity { s with
      queue := { s.queue with
        state := { s.queue.state with stats := noteOutcome s.queue.state.stats outcome } }
      worker := .waiting
      history := { s.history with finished := s.history.finished ++ [(request, outcome)] } } :=
  { hs with
    permits := by
      intro hopen
      have hpermits := hs.permits hopen
      rw [hworker] at hpermits
      exact hpermits
    served := by rintro ⟨⟩
    wakes := by
      intro hclosed _
      exact hs.wakes hclosed (by rw [hworker]; rfl)
    inFlight := by
      have hflight := hs.inFlight
      rw [hworker] at hflight
      show s.history.removedAs .popped = _
      rw [hflight]
      simp [Worker.inFlight]
    enqueued := by cases outcome <;> exact hs.enqueued
    evicted := by cases outcome <;> exact hs.evicted
    persisted := by
      have hcount := hs.persisted
      unfold History.finishedAs at hcount ⊢
      cases outcome <;> simp [noteOutcome, hcount]
    failed := by
      have hcount := hs.failed
      unfold History.finishedAs at hcount ⊢
      cases outcome <;> simp [noteOutcome, hcount]
    staleDropped := by
      have hcount := hs.staleDropped
      unfold History.finishedAs at hcount ⊢
      cases outcome <;> simp [noteOutcome, hcount] }

/-- The steps keep the invariant. -/
theorem conserves_of_moves {l : Label M} (hs : Conserves capacity s) (h : Moves s l t) :
    Conserves capacity t := by
  cases h with
  | refuse | closeAgain => exact hs
  | accept request hopen hroom => exact conserves_accept hs hopen hroom
  | evict request oldest rest hopen hpending _ => exact conserves_evict hs hopen hpending
  | close hopen => exact conserves_close hs hopen
  | pop request rest hworker hpending => exact conserves_pop hs hworker hpending
  | finish request outcome hworker => exact conserves_finish hs hworker
  | acquire hworker hpermit =>
      refine { hs with permits := ?_, served := ?_, wakes := ?_, inFlight := ?_ }
      · intro hopen
        have hpermits := hs.permits hopen
        rw [hworker] at hpermits
        show s.queue.available - 1 + 1 = _
        rw [Nat.sub_add_cancel hpermit]
        exact hpermits
      · rintro ⟨⟩
      · rintro _ ⟨⟩
      · rw [hs.inFlight, hworker]
        rfl
  | popNothing hworker hpending =>
      -- an open queue with a permit out is not empty
      have hclosed : s.queue.state.closed = true := by
        by_contra hopen
        rw [Bool.not_eq_true] at hopen
        have hpermits := hs.permits hopen
        rw [hworker, hpending] at hpermits
        cases hpermits
      refine { hs with permits := ?_, served := ?_, wakes := ?_, inFlight := ?_ }
      · intro (hopen : s.queue.state.closed = false)
        exact absurd hclosed (by simp [hopen])
      · exact fun _ => hclosed
      · rintro _ ⟨⟩
      · rw [hs.inFlight, hworker]
        rfl
  | stop hworker hclosed =>
      refine { hs with permits := ?_, served := ?_, wakes := ?_, inFlight := ?_ }
      · intro (hopen : s.queue.state.closed = false)
        exact absurd hclosed (by simp [hopen])
      · rintro ⟨⟩
      · rintro _ ⟨⟩
      · rw [hs.inFlight, hworker]
        rfl
  | goOn hworker hopen =>
      have hclosed := hs.served hworker
      exact absurd (hs.drained hclosed) (hopen hclosed)

/-- The invariant holds in every state of every run. -/
theorem conserves_of_exec {ls : List (Label M)}
    (h : exec step (initial capacity) ls = some s) : Conserves capacity s :=
  exec_invariant (fun _ _ _ hs hstep => conserves_of_moves hs (moves_of_step hs.capacity_pos hstep))
    h (conserves_initial capacity)

/-! ## After closing -/

/-- How many steps the worker takes at most once the queue is closed. -/
def Worker.stepsLeft : Worker M → ℕ
  | .persisting _ => 4
  | .waiting => 3
  | .permitted => 2
  | .unserved => 1
  | .stopped => 0

/-- A closed queue accepts and hands out nothing, and each step of the worker brings it
closer to its end. -/
theorem Moves.of_closed {l : Label M} (hs : Conserves capacity s)
    (hclosed : s.queue.state.closed = true) (h : Moves s l t) :
    t.queue.state.closed = true ∧ t.history.accepted = s.history.accepted ∧
      t.history.removedAs .popped = s.history.removedAs .popped ∧
      (if l.isWorker then 1 else 0) + t.worker.stepsLeft ≤ s.worker.stepsLeft := by
  cases h with
  | refuse | closeAgain => exact ⟨hclosed, rfl, rfl, by simp [Label.isWorker]⟩
  | accept request hopen | evict request oldest rest hopen | close hopen =>
      exact absurd hclosed (by simp [hopen])
  | pop request rest hworker hpending =>
      rw [hs.drained hclosed] at hpending
      cases hpending
  | acquire hworker | popNothing hworker | stop hworker =>
      refine ⟨hclosed, rfl, rfl, ?_⟩
      rw [hworker]
      exact le_rfl
  | goOn hworker hopen => exact absurd (hs.drained hclosed) (hopen hclosed)
  | finish request outcome hworker =>
      refine ⟨hclosed, rfl, rfl, ?_⟩
      rw [hworker]
      exact le_rfl

/-- What holds of a run from a closed queue. -/
theorem exec_of_closed {ls : List (Label M)} (hs : Conserves capacity s)
    (hclosed : s.queue.state.closed = true) (h : exec step s ls = some t) :
    t.history.accepted = s.history.accepted ∧
      t.history.removedAs .popped = s.history.removedAs .popped ∧
      ls.countP Label.isWorker + t.worker.stepsLeft ≤ s.worker.stepsLeft := by
  induction ls generalizing s with
  | nil =>
      obtain rfl : s = t := Option.some.inj h
      exact ⟨rfl, rfl, by simp⟩
  | cons l ls ih =>
      obtain ⟨u, hu, hrest⟩ := exec_cons.mp h
      have hmove := moves_of_step hs.capacity_pos hu
      obtain ⟨hclosed', haccepted, hpopped, hleft⟩ := hmove.of_closed hs hclosed
      obtain ⟨haccepted', hpopped', hleft'⟩ :=
        ih (conserves_of_moves hs hmove) hclosed' hrest
      refine ⟨haccepted'.trans haccepted, hpopped'.trans hpopped, ?_⟩
      rw [List.countP_cons]
      omega

/-- Until it stops, the worker of a closed queue can go on. -/
theorem exists_worker_step (hs : Conserves capacity s)
    (hclosed : s.queue.state.closed = true) (hworker : s.worker ≠ .stopped) :
    ∃ l : Label M, l.isWorker = true ∧ ∃ t, step s l = some t := by
  cases hw : s.worker with
  | waiting =>
      have hpermit : 0 < s.queue.available := hs.wakes hclosed (by rw [hw]; rfl)
      exact ⟨.acquire, rfl, by simp [step, hw, hpermit]⟩
  | permitted => exact ⟨.pop, rfl, by simp [step, hw, popRequest, hs.drained hclosed]⟩
  | unserved => exact ⟨.checkClosed, rfl, by simp [step, hw]⟩
  | persisting request => exact ⟨.finish .persisted, rfl, by simp [step, hw]⟩
  | stopped => exact absurd hw hworker

end Steps

/-! ## Conservation -/

/-- Every request that left the queue was either popped or evicted. -/
theorem History.length_removed (h : History M) :
    (h.removedAs .popped).length + (h.removedAs .evicted).length = h.removed.length := by
  unfold History.removedAs
  induction h.removed with
  | nil => rfl
  | cons r rs ih =>
      rcases r with ⟨request, how⟩
      cases how <;> simp at ih ⊢ <;> omega

/-- Every request the worker is done with has one of the outcomes. -/
theorem History.length_finished (h : History M) :
    h.finishedAs .persisted + h.finishedAs .failed + h.finishedAs .staleDropped =
      h.finished.length := by
  unfold History.finishedAs
  induction h.finished with
  | nil => rfl
  | cons f fs ih =>
      rcases f with ⟨request, outcome⟩
      cases outcome <;> simp at ih ⊢ <;> omega

/-- Every accepted request has one place. -/
theorem Conserves.length_accepted {capacity : ℕ} {s : System M} (hs : Conserves capacity s) :
    s.history.accepted.length = (s.history.removedAs .evicted).length +
      s.history.finishedAs .persisted + s.history.finishedAs .failed +
      s.history.finishedAs .staleDropped + s.queue.state.pending.length +
      s.worker.inFlight.length + s.history.cleared.length := by
  have hfifo := congrArg List.length hs.fifo
  have hflight := congrArg List.length hs.inFlight
  have hremoved := s.history.length_removed
  have hfinished := s.history.length_finished
  simp only [List.length_append, List.length_map] at hfifo hflight
  omega

/-- **Conservation and wake-up.**  In every state of every run the permits match the
pending requests, every accepted request has exactly one outcome or place, the requests are
popped in the order in which they were accepted, and after `close` nothing is accepted or
popped any more while the worker comes to its end. -/
theorem queue_conserves {capacity : ℕ} {s : System M} {ls : List (Label M)}
    (h : exec step (initial capacity) ls = some s)
    (hfits : s.history.accepted.length ≤ U64_MAX) :
    ((s.queue.state.closed = false →
        s.queue.available + s.worker.unused = s.queue.state.pending.length) ∧
      s.queue.state.pending.length ≤ s.queue.capacity ∧ s.queue.capacity = max capacity 1 ∧
      (s.worker = .unserved → s.queue.state.closed = true)) ∧
    s.queue.state.stats.enqueuedTotal =
      s.queue.state.stats.evictedTotal + s.queue.state.stats.persistedTotal +
        s.queue.state.stats.failedTotal + s.queue.state.stats.staleDroppedTotal +
        s.queue.state.pending.length + s.worker.inFlight.length + s.history.cleared.length ∧
    (s.history.removed.map Prod.fst ++ s.history.cleared ++ s.queue.state.pending =
        s.history.accepted ∧
      s.history.removedAs .popped = s.history.finished.map Prod.fst ++ s.worker.inFlight ∧
      (s.history.removedAs .popped).Sublist s.history.accepted) ∧
    (s.queue.state.closed = true →
      (∀ (ls' : List (Label M)) (t : System M), exec step s ls' = some t →
        t.history.accepted = s.history.accepted ∧
        t.history.removedAs .popped = s.history.removedAs .popped ∧
        ls'.countP Label.isWorker + t.worker.stepsLeft ≤ s.worker.stepsLeft) ∧
      (s.worker ≠ .stopped → ∃ l : Label M, l.isWorker = true ∧ ∃ t, step s l = some t)) := by
  have hs := conserves_of_exec h
  refine ⟨⟨hs.permits, hs.bounded, hs.capacity_eq, hs.served⟩, ?_, ⟨hs.fifo, hs.inFlight, ?_⟩, ?_⟩
  · have hlength := hs.length_accepted
    rw [hs.enqueued, hs.evicted, hs.persisted, hs.failed, hs.staleDropped, shown_eq_self hfits,
      shown_eq_self (by omega), shown_eq_self (by omega), shown_eq_self (by omega),
      shown_eq_self (by omega)]
    exact hlength
  · have hpopped : (s.history.removedAs .popped).Sublist (s.history.removed.map Prod.fst) :=
      List.filter_sublist.map Prod.fst
    rw [← hs.fifo, List.append_assoc]
    exact hpopped.trans (List.sublist_append_left _ _)
  · intro hclosed
    exact ⟨fun _ _ => exec_of_closed hs hclosed, exists_worker_step hs hclosed⟩

/-- A run with an eviction, a request that is persisted, and one that `close` drops. -/
def evictingRun : List (Label Unit) :=
  [.enqueue ⟨"one".toList, ()⟩, .enqueue ⟨"two".toList, ()⟩, .acquire, .pop,
    .enqueue ⟨"three".toList, ()⟩, .finish .persisted, .close]

/-- The counters and the order of the run with an eviction. -/
theorem queue_conserves_evictingRun :
    ∃ s : System Unit, exec step (initial 1) evictingRun = some s ∧
      s.history.accepted.length ≤ U64_MAX ∧
      s.queue.state.stats.enqueuedTotal =
        s.queue.state.stats.evictedTotal + s.queue.state.stats.persistedTotal +
          s.queue.state.stats.failedTotal + s.queue.state.stats.staleDroppedTotal +
          s.queue.state.pending.length + s.worker.inFlight.length + s.history.cleared.length ∧
      (s.history.removedAs .popped).Sublist s.history.accepted ∧
      s.queue.state.stats.enqueuedTotal = 3 ∧ s.history.cleared.length = 1 := by
  have hvalues : (exec step (initial 1) evictingRun).map (fun s =>
      (s.history.accepted.length, s.queue.state.stats.enqueuedTotal, s.history.cleared.length)) =
        some (3, 3, 1) := by rfl
  obtain ⟨s, hexec, hvalue⟩ := Option.map_eq_some_iff.mp hvalues
  simp only [Prod.mk.injEq] at hvalue
  obtain ⟨haccepted, henqueued, hcleared⟩ := hvalue
  have hfits : s.history.accepted.length ≤ U64_MAX := by rw [haccepted]; decide
  obtain ⟨-, htotal, ⟨-, -, horder⟩, -⟩ := queue_conserves hexec hfits
  exact ⟨s, hexec, hfits, htotal, horder, henqueued, hcleared⟩

end Persist
