/-
# The product processor

`product_processor.rs` keeps the products that wait to be processed in a bounded queue
behind a lock and counts them a second time in the permits of a semaphore.  The loop of
`run_product_processor` takes a permit, or sees the shutdown signal, closes the queue and
goes on without one; either way it then pops.

Callers of `enqueue`, the processor and `close` interleave: every access to the lock or the
semaphore is one step of `step`.  `History` records what happened to the accepted
products; no step depends on it.
-/
import Emwin.Lib.Text
import Emwin.Lib.Transition

namespace Live

variable {D : Type*}

/-- A product that waits to be processed.  What it carries besides its name is not read
here. -/
structure ProductWorkItem (D : Type*) where
  filename : Str
  content : D
  deriving DecidableEq, Repr

/-- What the lock protects. -/
structure ProductQueueState (D : Type*) where
  pending : List (ProductWorkItem D)
  closed : Bool
  deriving DecidableEq, Repr

/-- The queue that callers and the processor share.  The counters wrap around. -/
structure SharedProductQueue (D : Type*) where
  state : ProductQueueState D
  /-- The permits of the semaphore. -/
  available : ℕ
  capacity : ℕ
  enqueuedTotal : UInt64
  evictedTotal : UInt64
  completedTotal : UInt64
  failedTotal : UInt64
  deriving DecidableEq

/-- `ProductProcessorProducer::new`. -/
def SharedProductQueue.new (capacity : ℕ) : SharedProductQueue D where
  state := { pending := [], closed := false }
  available := 0
  capacity := max capacity 1
  enqueuedTotal := 0
  evictedTotal := 0
  completedTotal := 0
  failedTotal := 0

/-- The answer to a caller. -/
structure ProductEnqueueResult where
  accepted : Bool
  evictedOldestFilename : Option Str
  queueLen : ℕ
  deriving DecidableEq, Repr

/-! ## Callers -/

/-- `ProductProcessorProducer::enqueue`. -/
def enqueue (q : SharedProductQueue D) (item : ProductWorkItem D) :
    ProductEnqueueResult × SharedProductQueue D :=
  if q.state.closed then (⟨false, none, q.state.pending.length⟩, q)
  else if q.state.pending.length = q.capacity then
    let pending := q.state.pending.tail ++ [item]
    (⟨true, q.state.pending.head?.map ProductWorkItem.filename, pending.length⟩,
      { q with
        state := { q.state with pending }
        evictedTotal := q.evictedTotal + 1
        enqueuedTotal := q.enqueuedTotal + 1 })
  else
    let pending := q.state.pending ++ [item]
    (⟨true, none, pending.length⟩,
      { q with
        state := { q.state with pending }
        available := q.available + 1
        enqueuedTotal := q.enqueuedTotal + 1 })

/-- `ProductProcessorProducer::close`: the pending products stay. -/
def close (q : SharedProductQueue D) : SharedProductQueue D :=
  if q.state.closed then q
  else { q with state := { q.state with closed := true }, available := q.available + 1 }

/-! ## The processor -/

/-- `ProductProcessorProducer::pop`. -/
def pop (q : SharedProductQueue D) : Option (ProductWorkItem D) × SharedProductQueue D :=
  (q.state.pending.head?,
    { q with state := { q.state with pending := q.state.pending.tail } })

/-- `ProductProcessorProducer::is_closed`. -/
def isClosed (q : SharedProductQueue D) : Bool := q.state.closed && q.state.pending.isEmpty

/-- How processing a product ends. -/
inductive ProcessOutcome where
  | completed
  | failed
  deriving DecidableEq, Repr

/-- `note_completed` and `note_failed`. -/
def noteOutcome (q : SharedProductQueue D) : ProcessOutcome → SharedProductQueue D
  | .completed => { q with completedTotal := q.completedTotal + 1 }
  | .failed => { q with failedTotal := q.failedTotal + 1 }

/-- Where the processor is in its loop. -/
inductive Processor (D : Type*) where
  /-- At the `select!`: waiting for a permit or for the shutdown signal. -/
  | selecting
  /-- Past the `select!`, with a permit or, after the shutdown signal, without one. -/
  | proceeding (permit : Bool)
  /-- The queue was empty; whether it is closed has not been looked at. -/
  | unserved
  /-- A product is in flight. -/
  | processing (item : ProductWorkItem D)
  /-- The loop is left. -/
  | stopped
  deriving DecidableEq, Repr

/-! ## The system -/

/-- How a product left the queue. -/
inductive Removal where
  | popped
  | evicted
  deriving DecidableEq, Repr

/-- What happened so far. -/
structure History (D : Type*) where
  /-- The products that were accepted, in that order. -/
  accepted : List (ProductWorkItem D)
  /-- The products that left the queue at its front, in that order. -/
  removed : List (ProductWorkItem D × Removal)
  /-- The products the processor is done with, in that order. -/
  finished : List (ProductWorkItem D × ProcessOutcome)
  deriving DecidableEq, Repr

/-- The queue, the processor, and the history. -/
structure System (D : Type*) where
  queue : SharedProductQueue D
  processor : Processor D
  history : History D
  deriving DecidableEq

/-- The runtime as it is spawned. -/
def initial (capacity : ℕ) : System D where
  queue := .new capacity
  processor := .selecting
  history := ⟨[], [], []⟩

/-- What happens next. -/
inductive Label (D : Type*) where
  /-- Some caller enqueues a product. -/
  | enqueue (item : ProductWorkItem D)
  /-- `ProductProcessorRuntime::shutdown` closes the queue. -/
  | close
  /-- The processor acquires a permit and forgets it. -/
  | acquire
  /-- The processor takes the shutdown branch. -/
  | shutdown
  | pop
  | checkClosed
  /-- The processor is done with the product in flight. -/
  | finish (outcome : ProcessOutcome)
  deriving DecidableEq, Repr

/-- Whether a step is one of the processor. -/
def Label.isProcessor : Label D → Bool
  | .enqueue _ | .close => false
  | .acquire | .shutdown | .pop | .checkClosed | .finish _ => true

/-- One step of the system. -/
def step (s : System D) : Label D → Option (System D)
  | .enqueue item =>
      let (result, queue) := enqueue s.queue item
      let history := if result.accepted then
          { s.history with
            accepted := s.history.accepted ++ [item]
            removed := s.history.removed ++ (if result.evictedOldestFilename.isSome
              then s.queue.state.pending.head?.toList.map (·, .evicted) else []) }
        else s.history
      some { s with queue, history }
  | .close => some { s with queue := close s.queue }
  | .acquire =>
      match s.processor with
      | .selecting => if 0 < s.queue.available
          then some { s with
            queue := { s.queue with available := s.queue.available - 1 }
            processor := .proceeding true }
          else none
      | _ => none
  | .shutdown =>
      match s.processor with
      | .selecting => some { s with queue := close s.queue, processor := .proceeding false }
      | _ => none
  | .pop =>
      match s.processor with
      | .proceeding _ =>
          match pop s.queue with
          | (some item, queue) => some { s with
              queue
              processor := .processing item
              history := { s.history with removed := s.history.removed ++ [(item, .popped)] } }
          | (none, queue) => some { s with queue, processor := .unserved }
      | _ => none
  | .checkClosed =>
      match s.processor with
      | .unserved =>
          some { s with processor := if isClosed s.queue then .stopped else .selecting }
      | _ => none
  | .finish outcome =>
      match s.processor with
      | .processing item => some { s with
          queue := noteOutcome s.queue outcome
          processor := .selecting
          history := { s.history with finished := s.history.finished ++ [(item, outcome)] } }
      | _ => none

end Live
