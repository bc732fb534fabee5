/-
# Which objects a cleanup deletes

The calls of a run determine the objects of the store (`replay`).  Handling a request first
makes calls that delete nothing and then, if the script uses up the retries, calls that only
delete (`Handling`).  So the objects of the persisted requests are kept throughout a run exactly
if no script that uses up the retries of a request says `ok` to deleting under a key that a
persisted request has too (`persistedKept_iff`), and they are kept under every pattern of
failures if the requests have no key in common (`persistedKept_of_fresh`).
-/
import Emwin.Persist.RetryProtocol

namespace Persist

variable {M : Type*} {w : ObjectStoreBlobWriter} {script : Script} {config : PersistenceConfig}

/-! ## Keys that are read back -/

/-- A normalized path is not changed any more. -/
@[simp] theorem normalizeRelativePath_idem (path : Str) :
    normalizeRelativePath (normalizeRelativePath path) = normalizeRelativePath path := by
  have hslash : ∀ c ∈ normalizeRelativePath path, c ≠ '\\' := by
    intro c hc
    obtain ⟨a, -, rfl⟩ := List.mem_map.mp ((List.dropWhile_suffix _).subset hc)
    by_cases ha : a = '\\'
    · simp [ha]
    · simp [ha]
  have hmap : ((normalizeRelativePath path).map fun c => if c = '\\' then '/' else c) =
      normalizeRelativePath path := by
    conv_rhs => rw [← List.map_id (normalizeRelativePath path)]
    exact List.map_congr_left fun c hc => if_neg (hslash c hc)
  conv_lhs => rw [normalizeRelativePath, hmap]
  exact List.dropWhile_idempotent (p := _) _

@[simp] theorem buildObjectKey_normalize (stem : Option Str) (path : Str) :
    buildObjectKey stem (normalizeRelativePath path) = buildObjectKey stem path := by
  unfold buildObjectKey
  split <;> simp

/-- The location of a blob is below the root, unless there is no root. -/
theorem stripObjectStoreRoot_format (root path : Str) :
    stripObjectStoreRoot (formatObjectStoreLocation root path) root =
      if Str.trimEndMatches ['/'] root = [] then none else some (normalizeRelativePath path) := by
  unfold stripObjectStoreRoot formatObjectStoreLocation Str.stripPrefix
  split
  · next hroot =>
      have hhead : ¬ ['/'] <+: normalizeRelativePath path := by
        rintro ⟨rest, hrest⟩
        have := List.head?_dropWhile_not (· = '/')
          (path.map fun c => if c = '\\' then '/' else c)
        rw [← normalizeRelativePath, ← hrest] at this
        simp at this
      simp [hroot, hhead]
  · next hroot =>
      rw [if_neg hroot, if_pos ⟨normalizeRelativePath path, by simp⟩]
      simp

/-- What a cleanup deletes for a blob is the object that was written for it. -/
theorem deletedKey_stored (entry : BlobEntry) :
    w.deletedKey (w.stored entry) =
      if Str.trimEndMatches ['/'] w.rootLocation = [] then none else some (w.key entry) := by
  unfold ObjectStoreBlobWriter.deletedKey ObjectStoreBlobWriter.stored
  rw [stripObjectStoreRoot_format]
  split
  · rfl
  · simp [ObjectStoreBlobWriter.key]

/-! ## The objects after some calls -/

/-- A deletion concerns one key. -/
theorem applyCall_delete (objects : Objects) (blob : StoredBlob) (key : Str) :
    applyCall w objects (Call.delete (M := M) blob) key =
      if w.deletedKey blob = some key then none else objects key := by
  rw [applyCall]
  cases w.deletedKey blob with
  | none => rfl
  | some key' =>
      by_cases he : key = key'
      · simp [he]
      · simp [he, Ne.symm he]

/-- The calls of the set delete nothing. -/
def NoDelete (calls : List (Call M × Answer)) : Prop :=
  ∀ c ∈ calls, ∀ blob, c.1 ≠ .delete blob

/-- Some of the calls have deleted the key. -/
def Deletes (w : ObjectStoreBlobWriter) (calls : List (Call M × Answer)) (key : Str) : Prop :=
  ∃ blob, (Call.delete blob, Answer.ok) ∈ calls ∧ w.deletedKey blob = some key

/-- An object that is not deleted stays. -/
theorem replay_isSome {objects : Objects} {calls : List (Call M × Answer)} {key : Str}
    (hkey : (objects key).isSome) (hdel : ¬ Deletes w calls key) :
    (replay w objects calls key).isSome := by
  induction calls generalizing objects with
  | nil => exact hkey
  | cons c calls ih =>
      refine ih ?_ fun ⟨blob, hmem, hblob⟩ => hdel ⟨blob, List.mem_cons_of_mem _ hmem, hblob⟩
      obtain ⟨call, answer⟩ := c
      unfold replayCall
      split
      · next hok =>
          cases call with
          | write entry =>
              by_cases he : key = w.key entry
              · subst he
                simp [applyCall]
              · simpa [applyCall, he] using hkey
          | delete blob =>
              obtain rfl : answer = .ok := hok
              have hne : w.deletedKey blob ≠ some key := fun h =>
                hdel ⟨blob, List.mem_cons_self, h⟩
              rw [applyCall_delete, if_neg hne]
              exact hkey
          | persist request => exact hkey
      · exact hkey

/-- An object that was written is there if nothing is deleted. -/
theorem replay_written {objects : Objects} {calls : List (Call M × Answer)} {entry : BlobEntry}
    (hmem : (Call.write entry, Answer.ok) ∈ calls) (hdel : NoDelete calls) :
    (replay w objects calls (w.key entry)).isSome := by
  obtain ⟨before, behind, rfl⟩ := List.append_of_mem hmem
  have hsplit : replay w objects (before ++ (Call.write entry, Answer.ok) :: behind) =
      replay w (Function.update (replay w objects before) (w.key entry) (some entry.bytes))
        behind := by
    simp [replay, replayCall, applyCall]
  rw [hsplit]
  refine replay_isSome (by simp) ?_
  rintro ⟨blob, hblob, -⟩
  exact hdel (.delete blob, .ok) (by simp [hblob]) blob rfl

/-- An object that was deleted is gone if nothing is written behind. -/
theorem replay_deleted {objects : Objects} {calls : List (Call M × Answer)} {key : Str}
    (hall : ∀ c ∈ calls, ∃ blob, c.1 = .delete blob)
    (hgone : objects key = none ∨ Deletes w calls key) : replay w objects calls key = none := by
  induction calls generalizing objects with
  | nil =>
      rcases hgone with hgone | ⟨_, hmem, -⟩
      · exact hgone
      · cases hmem
  | cons c calls ih =>
      refine ih (fun c' hc' => hall c' (List.mem_cons_of_mem _ hc')) ?_
      obtain ⟨call, answer⟩ := c
      obtain ⟨blob, rfl⟩ : ∃ blob, call = .delete blob := hall _ List.mem_cons_self
      have hstep : objects key = none → replayCall w objects (Call.delete (M := M) blob, answer)
          key = none := by
        intro hnone
        rw [replayCall]
        split
        · simp [applyCall_delete, hnone]
        · exact hnone
      rcases hgone with hnone | ⟨blob', hmem, hblob'⟩
      · exact .inl (hstep hnone)
      · rcases List.mem_cons.mp hmem with heq | hmem
        · obtain ⟨rfl, rfl⟩ : blob' = blob ∧ Answer.ok = answer := by simpa using heq
          left
          simp [replayCall, applyCall_delete, hblob']
        · exact .inr ⟨blob', hmem, hblob'⟩

/-! ## The calls for one request -/

/-- Calls that delete nothing, followed by the deletions of the script that uses up the retries of
a request with the entries, if it does. -/
structure Handling (w : ObjectStoreBlobWriter) (script : Script) (config : PersistenceConfig)
    (entries : List BlobEntry) (n : ℕ) (grow shrink : List (Call M × Answer)) : Prop where
  grow : NoDelete grow
  usesUp : shrink ≠ [] → ∃ dropped m, script.UsesUp config entries n dropped m
  shrink : ∀ dropped m, script.UsesUp config entries n dropped m →
    shrink = deletions script m (dropped.map w.stored)

/-- What the script has deleted behind a request whose retries it uses up: the keys of the blobs
whose deletion it answers with `ok`, if there is a root to strip from their locations. -/
def Script.Deletes (w : ObjectStoreBlobWriter) (script : Script) (config : PersistenceConfig)
    (entries : List BlobEntry) (n : ℕ) (key : Str) : Prop :=
  Str.trimEndMatches ['/'] w.rootLocation ≠ [] ∧
    ∃ dropped m, script.UsesUp config entries n dropped m ∧
      ∃ i entry, dropped[i]? = some entry ∧ script.answer (m + i) = .ok ∧ w.key entry = key

/-- The last calls delete nothing but entries. -/
theorem Handling.of_mem_shrink {entries : List BlobEntry} {n : ℕ}
    {grow shrink : List (Call M × Answer)} (h : Handling w script config entries n grow shrink)
    {c : Call M × Answer} (hc : c ∈ shrink) :
    ∃ entry ∈ entries, c.1 = .delete (w.stored entry) := by
  obtain ⟨dropped, m, husesUp⟩ := h.usesUp (List.ne_nil_of_mem hc)
  rw [h.shrink dropped m husesUp] at hc
  obtain ⟨entry, hentry, heq⟩ := delete_of_mem_deletions hc
  exact ⟨entry, husesUp.subset hentry, heq⟩

/-- The calls delete what the script says. -/
theorem Handling.deletes_iff {entries : List BlobEntry} {n : ℕ}
    {grow shrink : List (Call M × Answer)} (h : Handling w script config entries n grow shrink)
    (key : Str) :
    Deletes w (grow ++ shrink) key ↔ script.Deletes w config entries n key := by
  constructor
  · rintro ⟨blob, hmem, hkey⟩
    have hshrink : (Call.delete blob, Answer.ok) ∈ shrink :=
      (List.mem_append.mp hmem).resolve_left fun hgrow => h.grow _ hgrow blob rfl
    obtain ⟨dropped, m, husesUp⟩ := h.usesUp (List.ne_nil_of_mem hshrink)
    rw [h.shrink dropped m husesUp, mem_deletions] at hshrink
    obtain ⟨i, hblob, hok⟩ := hshrink
    rw [List.getElem?_map, Option.map_eq_some_iff] at hblob
    obtain ⟨entry, hentry, rfl⟩ := hblob
    rw [deletedKey_stored] at hkey
    split at hkey
    · cases hkey
    · next hroot => exact ⟨hroot, dropped, m, husesUp, i, entry, hentry, hok, Option.some.inj hkey⟩
  · rintro ⟨hroot, dropped, m, husesUp, i, entry, hentry, hok, rfl⟩
    refine ⟨w.stored entry, List.mem_append_right _ ?_, by rw [deletedKey_stored, if_neg hroot]⟩
    rw [h.shrink dropped m husesUp, mem_deletions]
    exact ⟨i, by rw [List.getElem?_map, hentry, Option.map_some], hok⟩

/-- A persisted request has written all its blobs and deleted nothing; any request first
deletes nothing and then deletes at most its own blobs. -/
theorem persistRequestWithRetry_spec (w : ObjectStoreBlobWriter) (script : Script)
    (config : PersistenceConfig) (request : BlobRequest M) (b : Backend M) :
    ∃ grow shrink,
      b.After w (grow ++ shrink) (persistRequestWithRetry w script config request b).2 ∧
      Handling w script config request.blobs b.calls.length grow shrink ∧
      ((persistRequestWithRetry w script config request b).1 = .persisted →
        shrink = [] ∧ ∀ entry ∈ request.blobs, (Call.write entry, Answer.ok) ∈ grow) := by
  obtain ⟨rounds, sinkCalls, cleanup, hafter, h⟩ :=
    persistRequestWithRetry_calls w script config request b
  refine ⟨rounds.flatten ++ sinkCalls, cleanup, hafter, ⟨?_, h.usesUp, h.cleanup_eq⟩, ?_⟩
  · intro c hc blob hdelete
    rcases List.mem_append.mp hc with hc | hc
    · obtain ⟨round, hround, hc⟩ := List.mem_flatten.mp hc
      obtain ⟨entry, -, heq⟩ := (h.round round hround).write _ hc
      rw [heq] at hdelete
      cases hdelete
    · rw [h.sink c hc] at hdelete
      cases hdelete
  · intro hout
    obtain ⟨c, hc, -⟩ := h.persisted_iff.mp hout
    obtain ⟨earlier, hlast⟩ := h.sink_after (List.ne_nil_of_mem hc)
    refine ⟨?_, fun entry hentry => List.mem_append_left _ ?_⟩
    · rw [List.eq_nil_iff_forall_not_mem]
      intro d hd
      exact (h.deletes d hd).1 hout
    · rw [hlast, List.flatten_append, List.flatten_singleton]
      exact List.mem_append_right _ (List.mem_map_of_mem hentry)

/-! ## The objects of persisted requests -/

/-- A request that was persisted has a blob with the key. -/
def Persisted (w : ObjectStoreBlobWriter) (s : WorkerState M) (key : Str) : Prop :=
  ∃ request, (request, PersistOutcome.persisted) ∈ s.done ∧
    ∃ entry ∈ request.blobs, w.key entry = key

/-- Every blob of a persisted request is in the store. -/
def PersistedKept (w : ObjectStoreBlobWriter) (s : WorkerState M) : Prop :=
  ∀ key, Persisted w s key → (s.backend.objects key).isSome

/-- Behind the calls made so far, the script uses up the retries of no request with a blob that it
then deletes under a key of a request persisted before. -/
def Spares (w : ObjectStoreBlobWriter) (script : Script) (config : PersistenceConfig)
    (s : WorkerState M) (request : BlobRequest M) : Prop :=
  ∀ key, Persisted w s key →
    ¬ script.Deletes w config request.blobs s.backend.calls.length key

/-- The keys of the requests persisted so far, and those of a request persisted now. -/
theorem persisted_handleRequest {s : WorkerState M} {request : BlobRequest M} {key : Str} :
    Persisted w (handleRequest w script config s request) key ↔ Persisted w s key ∨
      ((persistRequestWithRetry w script config request s.backend).1 = .persisted ∧
        ∃ entry ∈ request.blobs, w.key entry = key) := by
  unfold Persisted handleRequest
  constructor
  · rintro ⟨request', hmem, hkey⟩
    rcases List.mem_append.mp hmem with hmem | hmem
    · exact .inl ⟨request', hmem, hkey⟩
    · obtain ⟨rfl, hout⟩ : request' = request ∧ _ = _ := by simpa using hmem
      exact .inr ⟨hout.symm, hkey⟩
  · rintro (⟨request', hmem, hkey⟩ | ⟨hout, hkey⟩)
    · exact ⟨request', List.mem_append_left _ hmem, hkey⟩
    · exact ⟨request, by simp [hout], hkey⟩

/-- **Step.**  One more request keeps the objects exactly if the script spares them. -/
theorem persistedKept_handleRequest {s : WorkerState M} (hs : PersistedKept w s)
    (request : BlobRequest M) :
    PersistedKept w (handleRequest w script config s request) ↔
      Spares w script config s request := by
  obtain ⟨grow, shrink, hafter, hhandling, hpersisted⟩ :=
    persistRequestWithRetry_spec w script config request s.backend
  have hobjects : (handleRequest w script config s request).backend.objects =
      replay w s.backend.objects (grow ++ shrink) := hafter.objects_eq
  constructor
  · intro hkept key hkey hdeletes
    have hthere := hkept key (persisted_handleRequest.mpr (.inl hkey))
    rw [← hhandling.deletes_iff] at hdeletes
    have hgone : replay w s.backend.objects (grow ++ shrink) key = none := by
      rw [replay, List.foldl_append, ← replay, ← replay]
      refine replay_deleted (fun c hc => ?_) (.inr ?_)
      · obtain ⟨entry, -, hdelete⟩ := hhandling.of_mem_shrink hc
        exact ⟨_, hdelete⟩
      · obtain ⟨blob, hmem, hblob⟩ := hdeletes
        refine ⟨blob, (List.mem_append.mp hmem).resolve_left fun hgrow => ?_, hblob⟩
        exact hhandling.grow _ hgrow blob rfl
    rw [hobjects, hgone] at hthere
    simp at hthere
  · intro hspares key hkey
    rw [hobjects]
    rcases persisted_handleRequest.mp hkey with hold | ⟨hout, entry, hentry, rfl⟩
    · refine replay_isSome (hs key hold) ?_
      rw [hhandling.deletes_iff]
      exact hspares key hold
    · obtain ⟨rfl, hall⟩ := hpersisted hout
      rw [List.append_nil]
      exact replay_written (hall entry hentry) hhandling.grow

theorem runWorker_append (processed : List (BlobRequest M)) (request : BlobRequest M) :
    runWorker w script config (processed ++ [request]) =
      handleRequest w script config (runWorker w script config processed) request := by
  simp [runWorker]

/-- **Run.**  The objects are kept throughout a run exactly if the script spares them at every
request. -/
theorem persistedKept_iff (requests : List (BlobRequest M)) :
    (∀ processed, processed <+: requests → PersistedKept w (runWorker w script config processed)) ↔
      ∀ processed request, processed ++ [request] <+: requests →
        Spares w script config (runWorker w script config processed) request := by
  constructor
  · intro hkept processed request hprefix
    have hs := hkept processed ((List.prefix_append _ _).trans hprefix)
    rw [← persistedKept_handleRequest hs, ← runWorker_append]
    exact hkept _ hprefix
  · intro hspares processed hprefix
    induction processed using List.reverseRecOn with
    | nil =>
        rintro key ⟨request, hmem, -⟩
        cases hmem
    | append_singleton processed request ih =>
        have hs := ih ((List.prefix_append _ _).trans hprefix)
        rw [runWorker_append, persistedKept_handleRequest hs]
        exact hspares processed request hprefix

/-- A request spares the objects of others if it has no key in common with them. -/
theorem spares_of_fresh {s : WorkerState M} {request : BlobRequest M}
    (hfresh : ∀ entry ∈ request.blobs, ¬ Persisted w s (w.key entry)) :
    Spares w script config s request := by
  rintro key hkey ⟨-, dropped, m, husesUp, i, entry, hentry, -, rfl⟩
  exact hfresh entry (husesUp.subset (List.mem_of_getElem? hentry)) hkey

/-- The requests that have been persisted are among the requests of the run. -/
theorem mem_of_mem_done {requests : List (BlobRequest M)} {request : BlobRequest M}
    {outcome : PersistOutcome}
    (h : (request, outcome) ∈ (runWorker w script config requests).done) :
    request ∈ requests := by
  induction requests using List.reverseRecOn with
  | nil => cases h
  | append_singleton processed request' ih =>
      rw [runWorker_append, handleRequest] at h
      rcases List.mem_append.mp h with h | h
      · exact List.mem_append_left _ (ih h)
      · obtain ⟨rfl, -⟩ : request = request' ∧ _ := by simpa using h
        simp

/-- Requests that pairwise have no key in common are kept under every pattern of failures. -/
theorem persistedKept_of_fresh {requests : List (BlobRequest M)}
    (hfresh : requests.Pairwise fun earlier later =>
      ∀ a ∈ earlier.blobs, ∀ b ∈ later.blobs, w.key a ≠ w.key b) :
    PersistedKept w (runWorker w script config requests) := by
  refine (persistedKept_iff requests).mpr (fun processed request hprefix => ?_) _
    (List.prefix_refl _)
  refine spares_of_fresh fun entry hentry ⟨earlier, hdone, entry', hentry', hkey⟩ => ?_
  have hpair := (hfresh.sublist hprefix.sublist)
  exact (List.pairwise_append.mp hpair).2.2 earlier (mem_of_mem_done hdone) request (by simp)
    entry' hentry' entry hentry hkey

end Persist
