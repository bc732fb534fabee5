/-
# The persistence queue

`runtime/queue.rs` keeps the requests that wait to be persisted in a bounded queue behind
a lock, and counts them a second time in the permits of a semaphore: a producer that makes
the queue longer adds a permit, one that evicts the oldest request does not.  The loop of
`run_worker` in `runtime/worker.rs` takes a permit and then, in a second step, a request.

Producers, the worker and `close` interleave: every access to the lock or the semaphore is
one step of `step`, and a label says whose.  `History` records what happened to the
accepted requests; no step depends on it.
-/
import Emwin.Lib.Saturating
import Emwin.Lib.Text
import Emwin.Lib.Transition

namespace Persist

open Saturating

variable {M : Type*}

/-- A request submitted to the persistence runtime.  The blobs are not read here. -/
structure PersistRequest (M : Type*) where
  /-- The identifier used in logs, metrics, and eviction reporting. -/
  requestKey : Str
  metadata : M
  deriving DecidableEq, Repr

/-- The queue and outcome counters. -/
structure PersistenceStats where
  queueLen : ℕ
  queueCapacity : ℕ
  enqueuedTotal : ℕ
  evictedTotal : ℕ
  persistedTotal : ℕ
  failedTotal : ℕ
  retryExhaustedTotal : ℕ
  staleDroppedTotal : ℕ
  deriving DecidableEq, Repr

/-- `PersistenceStats::default`. -/
def PersistenceStats.default : PersistenceStats := ⟨0, 0, 0, 0, 0, 0, 0, 0⟩

/-- What the lock protects. -/
structure QueueState (M : Type*) where
  pending : List (PersistRequest M)
  closed : Bool
  stats : PersistenceStats
  deriving DecidableEq, Repr

/-- The queue that producers and the worker share. -/
structure SharedQueue (M : Type*) where
  state : QueueState M
  /-- The permits of the semaphore. -/
  available : ℕ
  capacity : ℕ
  deriving DecidableEq, Repr

/-- `SharedQueue::new`. -/
def SharedQueue.new (capacity : ℕ) : SharedQueue M where
  state := { pending := [], closed := false, stats := .default }
  available := 0
  capacity := max capacity 1

/-- The answer to a producer. -/
structure EnqueueResult where
  accepted : Bool
  evictedOldestKey : Option Str
  queueLen : ℕ
  deriving DecidableEq, Repr

/-! ## Producers -/

/-- `PersistenceProducer::enqueue`. -/
def enqueue (q : SharedQueue M) (request : PersistRequest M) : EnqueueResult × SharedQueue M :=
  if q.state.closed then (⟨false, none, q.state.pending.length⟩, q)
  else
    let stats := q.state.stats
    if q.state.pending.length = q.capacity then
      let evicted := q.state.pending.head?.map PersistRequest.requestKey
      let pending := q.state.pending.tail ++ [request]
      let stats := { stats with evictedTotal := saturatingAdd stats.evictedTotal 1 }
      -- the request is counted only if one was evicted for it
      let stats := if evicted.isSome
        then { stats with enqueuedTotal := saturatingAdd stats.enqueuedTotal 1 } else stats
      (⟨true, evicted, pending.length⟩, { q with state := { q.state with pending, stats } })
    else
      let pending := q.state.pending ++ [request]
      let stats := { stats with enqueuedTotal := saturatingAdd stats.enqueuedTotal 1 }
      (⟨true, none, pending.length⟩,
        { q with state := { q.state with pending, stats }, available := q.available + 1 })

/-- `PersistenceProducer::close`. -/
def close (q : SharedQueue M) : ℕ × SharedQueue M :=
  if q.state.closed then (0, q)
  else (q.state.pending.length,
    { q with
      state := { q.state with closed := true, pending := [] }
      available := q.available + 1 })

/-! ## The worker -/

/-- `pop_request`. -/
def popRequest (q : SharedQueue M) : Option (PersistRequest M) × SharedQueue M :=
  (q.state.pending.head?,
    { q with state := { q.state with pending := q.state.pending.tail } })

/-- `is_closed`. -/
def isClosed (q : SharedQueue M) : Bool := q.state.closed && q.state.pending.isEmpty

/-- How `persist_request_with_retry` ends. -/
inductive PersistOutcome where
  | persisted
  | staleDropped
  | failed
  deriving DecidableEq, Repr

/-- Count the outcome of a request. -/
def noteOutcome (stats : PersistenceStats) : PersistOutcome → PersistenceStats
  | .persisted => { stats with persistedTotal := saturatingAdd stats.persistedTotal 1 }
  | .staleDropped =>
      { stats with
        retryExhaustedTotal := saturatingAdd stats.retryExhaustedTotal 1
        staleDroppedTotal := saturatingAdd stats.staleDroppedTotal 1 }
  | .failed => { stats with failedTotal := saturatingAdd stats.failedTotal 1 }

/-- Where the worker is in its loop. -/
inductive Worker (M : Type*) where
  /-- Waiting for a permit. -/
  | waiting
  /-- A permit is acquired and forgotten; nothing is popped yet. -/
  | permitted
  /-- The queue was empty; whether it is closed has not been looked at. -/
  | unserved
  /-- A request is in flight. -/
  | persisting (request : PersistRequest M)
  /-- The loop is left. -/
  | stopped
  deriving DecidableEq, Repr

/-! ## The system -/

/-- How a request left the queue. -/
inductive Removal where
  | popped
  | evicted
  deriving DecidableEq, Repr

/-- What happened so far. -/
structure History (M : Type*) where
  /-- The requests that were accepted, in that order. -/
  accepted : List (PersistRequest M)
  /-- The requests that left the queue at its front, in that order. -/
  removed : List (PersistRequest M × Removal)
  /-- The requests that `close` dropped. -/
  cleared : List (PersistRequest M)
  /-- The requests the worker is done with, in that order. -/
  finished : List (PersistRequest M × PersistOutcome)
  deriving DecidableEq, Repr

/-- The queue, the worker, and the history. -/
structure System (M : Type*) where
  queue : SharedQueue M
  worker : Worker M
  history : History M
  deriving DecidableEq, Repr

/-- The runtime as it is spawned. -/
def initial (capacity : ℕ) : System M where
  queue := .new capacity
  worker := .waiting
  history := ⟨[], [], [], []⟩

/-- What happens next. -/
inductive Label (M : Type*) where
  /-- Some producer enqueues a request. -/
  | enqueue (request : PersistRequest M)
  | close
  /-- The worker acquires a permit and forgets it. -/
  | acquire
  | pop
  | checkClosed
  /-- The worker is done with the request in flight. -/
  | finish (outcome : PersistOutcome)
  deriving DecidableEq, Repr

/-- Whether a step is one of the worker. -/
def Label.isWorker : Label M → Bool
  | .enqueue _ | .close => false
  | .acquire | .pop | .checkClosed | .finish _ => true

/-- One step of the system. -/
def step (s : System M) : Label M → Option (System M)
  | .enqueue request =>
      let (result, queue) := enqueue s.queue request
      let history := if result.accepted then
          { s.history with
            accepted := s.history.accepted ++ [request]
            removed := s.history.removed ++ (if result.evictedOldestKey.isSome
              then s.queue.state.pending.head?.toList.map (·, .evicted) else []) }
        else s.history
      some { s with queue, history }
  | .close =>
      let (_, queue) := close s.queue
      let history := if s.queue.state.closed then s.history
        else { s.history with cleared := s.queue.state.pending }
      some { s with queue, history }
  | .acquire =>
      match s.worker with
      | .waiting => if 0 < s.queue.available
          then some { s with
            queue := { s.queue with available := s.queue.available - 1 }
            worker := .permitted }
          else none
      | _ => none
  | .pop =>
      match s.worker with
      | .permitted =>
          match popRequest s.queue with
          | (some request, queue) => some { s with
              queue
              worker := .persisting request
              history := { s.history with removed := s.history.removed ++ [(request, .popped)] } }
          | (none, queue) => some { s with queue, worker := .unserved }
      | _ => none
  | .checkClosed =>
      match s.worker with
      | .unserved =>
          some { s with worker := if isClosed s.queue then .stopped else .waiting }
      | _ => none
  | .finish outcome =>
      match s.worker with
      | .persisting request => some { s with
          queue := { s.queue with
            state := { s.queue.state with stats := noteOutcome s.queue.state.stats outcome } }
          worker := .waiting
          history := { s.history with finished := s.history.finished ++ [(request, outcome)] } }
      | _ => none

end Persist
