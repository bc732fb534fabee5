/-
# Persisting one request

`runtime/worker.rs` writes the blobs of a request, then its metadata, and repeats either
phase after failures that may pass, up to a number of attempts.  When the attempts are used
up it deletes the blobs the request has stored.  `writer.rs` derives the key of an object from
the relative path of its blob, and reads it back from the location it has handed out.

The backends are a script: what they answer to the first call, to the second, and so on.  The
calls are kept, so a run shows which call got which answer.  Delays and log throttling are
left out; they change neither the calls nor the outcome.
-/
import Emwin.Persist.Queue

namespace Persist

variable {M : Type*}

/-! ## Blobs -/

/-- What a blob is for. -/
inductive BlobRole where
  | payload
  | metadataSidecar
  deriving DecidableEq, Repr

/-- A blob to be written. -/
structure BlobEntry where
  role : BlobRole
  relativePath : Str
  bytes : List UInt8
  contentType : Option Str
  deriving DecidableEq, Repr

/-- The reference to a blob that was written. -/
structure StoredBlob where
  role : BlobRole
  location : Str
  sizeBytes : ℕ
  contentType : Option Str
  deriving DecidableEq, Repr

/-- A request with the blobs it asks for. -/
structure BlobRequest (M : Type*) extends PersistRequest M where
  blobs : List BlobEntry
  deriving DecidableEq, Repr

/-- What the metadata sink is given. -/
structure PersistedRequest (M : Type*) where
  requestKey : Str
  metadata : M
  blobs : List StoredBlob
  deriving DecidableEq, Repr

/-! ## Keys and locations -/

/-- The writer for an object store, below a root and an optional path prefix. -/
structure ObjectStoreBlobWriter where
  pathPrefix : Option Str
  rootLocation : Str
  deriving DecidableEq, Repr

/-- `normalize_relative_path`. -/
def normalizeRelativePath (relativePath : Str) : Str :=
  (relativePath.map fun c => if c = '\\' then '/' else c).dropWhile (· = '/')

/-- `build_object_key`. -/
def buildObjectKey (pathPrefix : Option Str) (relativePath : Str) : Str :=
  match pathPrefix with
  | none | some [] => normalizeRelativePath relativePath
  | some stem => stem ++ '/' :: normalizeRelativePath relativePath

/-- `format_object_store_location`. -/
def formatObjectStoreLocation (rootLocation relativePath : Str) : Str :=
  match Str.trimEndMatches ['/'] rootLocation with
  | [] => normalizeRelativePath relativePath
  | root => root ++ '/' :: normalizeRelativePath relativePath

/-- `strip_object_store_root`: `none` if the location is not below the root. -/
def stripObjectStoreRoot (location rootLocation : Str) : Option Str :=
  (Str.stripPrefix (Str.trimEndMatches ['/'] rootLocation ++ ['/']) location).map
    normalizeRelativePath

/-- The key under which a blob is written. -/
def ObjectStoreBlobWriter.key (w : ObjectStoreBlobWriter) (entry : BlobEntry) : Str :=
  buildObjectKey w.pathPrefix entry.relativePath

/-- The reference that is handed out for a blob. -/
def ObjectStoreBlobWriter.stored (w : ObjectStoreBlobWriter) (entry : BlobEntry) : StoredBlob where
  role := entry.role
  location := formatObjectStoreLocation w.rootLocation entry.relativePath
  sizeBytes := entry.bytes.length
  contentType := entry.contentType

/-- The key that is deleted for a stored blob, if its location is below the root. -/
def ObjectStoreBlobWriter.deletedKey (w : ObjectStoreBlobWriter) (blob : StoredBlob) : Option Str :=
  (stripObjectStoreRoot blob.location w.rootLocation).map (buildObjectKey w.pathPrefix)

/-! ## Backends -/

/-- The objects of a store by their keys. -/
abbrev Objects := Str → Option (List UInt8)

/-- How a backend answers a call. -/
inductive Answer where
  | ok
  /-- An error with `is_retryable`. -/
  | retryable
  /-- Any other error. -/
  | permanent
  deriving DecidableEq, Repr

/-- A call of a backend. -/
inductive Call (M : Type*) where
  | write (entry : BlobEntry)
  | delete (blob : StoredBlob)
  | persist (request : PersistedRequest M)
  deriving DecidableEq, Repr

/-- What the backends answer to each call, and whether the queue is closed after it. -/
structure Script where
  answer : ℕ → Answer
  closed : ℕ → Bool

/-- The store, and the calls so far with their answers. -/
structure Backend (M : Type*) where
  objects : Objects
  calls : List (Call M × Answer)

/-- The store before any call. -/
def Backend.empty : Backend M := ⟨fun _ => none, []⟩

/-- The effect of a call that is answered with `ok`. -/
def applyCall (w : ObjectStoreBlobWriter) (objects : Objects) : Call M → Objects
  | .write entry => Function.update objects (w.key entry) (some entry.bytes)
  | .delete blob =>
      match w.deletedKey blob with
      | some key => Function.update objects key none
      | none => objects
  | .persist _ => objects

/-- Make a call. -/
def Backend.call (w : ObjectStoreBlobWriter) (script : Script) (b : Backend M) (c : Call M) :
    Answer × Backend M :=
  let answer := script.answer b.calls.length
  (answer,
    { objects := if answer = .ok then applyCall w b.objects c else b.objects
      calls := b.calls ++ [(c, answer)] })

/-- `should_abort_retry`, as it is read after the last call. -/
def Backend.shouldAbortRetry (script : Script) (b : Backend M) : Bool :=
  script.closed b.calls.length

/-! ## The request -/

/-- The configuration that the retries read. -/
structure PersistenceConfig where
  retryMaxAttempts : ℕ
  deriving DecidableEq, Repr

/-- `retry_budget_exhausted`. -/
def retryBudgetExhausted (config : PersistenceConfig) (attempt : ℕ) : Bool :=
  max config.retryMaxAttempts 1 ≤ attempt + 1

/-- An attempt that was not the last leaves one less. -/
theorem left_of_not_exhausted {config : PersistenceConfig} {attempt : ℕ}
    (h : ¬ retryBudgetExhausted config attempt = true) :
    config.retryMaxAttempts - (attempt + 1) < config.retryMaxAttempts - attempt := by
  rw [retryBudgetExhausted, decide_eq_true_eq] at h
  omega

/-- `write_blobs`: the blobs stored, and the error that stopped the round, if any. -/
def writeBlobs (w : ObjectStoreBlobWriter) (script : Script) :
    List StoredBlob → List BlobEntry → Backend M → (List StoredBlob × Option Answer) × Backend M
  | stored, [], b => ((stored, none), b)
  | stored, entry :: entries, b =>
      match b.call w script (.write entry) with
      | (.ok, b') => writeBlobs w script (stored ++ [w.stored entry]) entries b'
      | (error, b') => ((stored, some error), b')

/-- `cleanup_stored_blobs`: an error is logged and the next blob is tried. -/
def cleanupStoredBlobs (w : ObjectStoreBlobWriter) (script : Script) :
    List StoredBlob → Backend M → Backend M
  | [], b => b
  | blob :: blobs, b => cleanupStoredBlobs w script blobs (b.call w script (.delete blob)).2

/-- The first loop of `persist_request_with_retry`: write all blobs, from some attempt on,
with the blobs that earlier attempts stored.  It ends with the stored blobs or an outcome. -/
def writeWithRetry (w : ObjectStoreBlobWriter) (script : Script) (config : PersistenceConfig)
    (blobs : List BlobEntry) (attempt : ℕ) (candidates : List StoredBlob) (b : Backend M) :
    Except PersistOutcome (List StoredBlob) × Backend M :=
  match writeBlobs w script [] blobs b with
  | ((stored, none), b') => (.ok stored, b')
  | ((stored, some error), b') =>
      if error = .retryable ∧ b'.shouldAbortRetry script = false then
        if _ : retryBudgetExhausted config attempt then
          (.error .staleDropped, cleanupStoredBlobs w script (candidates ++ stored) b')
        else writeWithRetry w script config blobs (attempt + 1) (candidates ++ stored) b'
      else (.error .failed, b')
termination_by config.retryMaxAttempts - attempt
decreasing_by exact left_of_not_exhausted ‹_›

/-- The second loop of `persist_request_with_retry`: persist the metadata with the stored
blobs, from some attempt on. -/
def persistWithRetry (w : ObjectStoreBlobWriter) (script : Script) (config : PersistenceConfig)
    (request : PersistedRequest M) (attempt : ℕ) (b : Backend M) : PersistOutcome × Backend M :=
  match b.call w script (.persist request) with
  | (.ok, b') => (.persisted, b')
  | (error, b') =>
      if error = .retryable ∧ b'.shouldAbortRetry script = false then
        if _ : retryBudgetExhausted config attempt then
          (.staleDropped, cleanupStoredBlobs w script request.blobs b')
        else persistWithRetry w script config request (attempt + 1) b'
      else (.failed, b')
termination_by config.retryMaxAttempts - attempt
decreasing_by exact left_of_not_exhausted ‹_›

/-- `persist_request_with_retry`. -/
def persistRequestWithRetry (w : ObjectStoreBlobWriter) (script : Script)
    (config : PersistenceConfig) (request : BlobRequest M) (b : Backend M) :
    PersistOutcome × Backend M :=
  match writeWithRetry w script config request.blobs 0 [] b with
  | (.error outcome, b') => (outcome, b')
  | (.ok stored, b') =>
      persistWithRetry w script config ⟨request.requestKey, request.metadata, stored⟩ 0 b'

/-! ## Requests one after another -/

/-- The backends, and the requests the worker is done with. -/
structure WorkerState (M : Type*) where
  backend : Backend M
  done : List (BlobRequest M × PersistOutcome)

/-- The worker before its first request. -/
def WorkerState.initial : WorkerState M := ⟨.empty, []⟩

/-- The worker handles a request that it popped. -/
def handleRequest (w : ObjectStoreBlobWriter) (script : Script) (config : PersistenceConfig)
    (s : WorkerState M) (request : BlobRequest M) : WorkerState M :=
  let (outcome, backend) := persistRequestWithRetry w script config request s.backend
  ⟨backend, s.done ++ [(request, outcome)]⟩

/-- The worker handles one request after another. -/
def runWorker (w : ObjectStoreBlobWriter) (script : Script) (config : PersistenceConfig)
    (requests : List (BlobRequest M)) : WorkerState M :=
  requests.foldl (handleRequest w script config) .initial

end Persist
