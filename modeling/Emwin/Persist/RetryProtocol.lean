/-
# The calls for one request

What the worker calls for a request, with the answers: rounds of writes, then calls of the
metadata sink, then deletions (`RequestCalls`).  A round stores all blobs, or it ends with a
write that fails (`WriteRound`).  Each loop is described by the calls it adds
(`writeWithRetry_cases`, `persistWithRetry_cases`), for every script of answers, also one in
which the queue is closed on the way.  `retry_protocol` says what the calls of a request and its
outcome have to do with each other.

Which scripts use up the retries, and which blobs are deleted then, is said without the loops
(`Script.UsesUp`).
-/
import Emwin.Persist.Worker

namespace Persist

variable {M : Type*} {w : ObjectStoreBlobWriter} {script : Script} {config : PersistenceConfig}

/-! ## Backends after some calls -/

/-- The effect of a call with its answer. -/
def replayCall (w : ObjectStoreBlobWriter) (objects : Objects) (c : Call M × Answer) : Objects :=
  if c.2 = .ok then applyCall w objects c.1 else objects

/-- The objects after some calls. -/
def replay (w : ObjectStoreBlobWriter) (objects : Objects) (calls : List (Call M × Answer)) :
    Objects :=
  calls.foldl (replayCall w) objects

/-- The calls lead from one backend to another. -/
structure Backend.After (w : ObjectStoreBlobWriter) (b : Backend M)
    (calls : List (Call M × Answer)) (b' : Backend M) : Prop where
  calls_eq : b'.calls = b.calls ++ calls
  objects_eq : b'.objects = replay w b.objects calls

theorem Backend.After.refl (b : Backend M) : b.After w [] b := ⟨by simp, rfl⟩

theorem Backend.After.trans {b b' b'' : Backend M} {cs ds : List (Call M × Answer)}
    (h : b.After w cs b') (h' : b'.After w ds b'') : b.After w (cs ++ ds) b'' := by
  constructor
  · rw [h'.calls_eq, h.calls_eq, List.append_assoc]
  · rw [h'.objects_eq, h.objects_eq, replay, replay, replay, List.foldl_append]

/-- A call is recorded with its answer. -/
theorem Backend.call_after (w : ObjectStoreBlobWriter) (script : Script) (b : Backend M)
    (c : Call M) :
    b.After w [(c, (b.call w script c).1)] (b.call w script c).2 :=
  ⟨rfl, rfl⟩

/-! ## Scripts that use up the retries -/

/-- From call `n` on, so many calls are answered with `ok`. -/
def Script.Grants (script : Script) (n size : ℕ) : Prop := ∀ i < size, script.answer (n + i) = .ok

/-- Call `n` fails, and is tried again. -/
def Script.Retries (script : Script) (n : ℕ) : Prop :=
  script.answer n = .retryable ∧ script.closed (n + 1) = false

/-- From call `n` on, a round of writes stores so many of its blobs, and the next write fails. -/
structure Script.BreaksOff (script : Script) (n size stored : ℕ) : Prop where
  lt : stored < size
  grants : script.Grants n stored
  ne_ok : script.answer (n + stored) ≠ .ok

/-- Rounds of writes from call `n` up to call `m`.  In each so many of the blobs are stored, and
the write of the next one fails and is tried again. -/
inductive Script.Broken (script : Script) (size : ℕ) : ℕ → List ℕ → ℕ → Prop
  | nil {n : ℕ} : Broken script size n [] n
  | cons {n m stored : ℕ} {rounds : List ℕ} : script.BreaksOff n size stored →
      script.Retries (n + stored) → Broken script size (n + stored + 1) rounds m →
      Broken script size n (stored :: rounds) m

/-- From call `n` on, the retries of a request with some blobs are used up: by its writes, or by
the calls of the sink behind a round that has stored all.  Some of the blobs are deleted then, from
call `m` on. -/
inductive Script.UsesUp (script : Script) (config : PersistenceConfig) (entries : List BlobEntry)
    (n : ℕ) : List BlobEntry → ℕ → Prop
  | writing {rounds : List ℕ} {m : ℕ} : script.Broken entries.length n rounds m →
      rounds.length = max config.retryMaxAttempts 1 →
      UsesUp script config entries n (rounds.flatMap fun stored => entries.take stored) m
  | persisting {rounds : List ℕ} {k : ℕ} : script.Broken entries.length n rounds k →
      rounds.length < max config.retryMaxAttempts 1 → script.Grants k entries.length →
      (∀ i < max config.retryMaxAttempts 1, script.Retries (k + entries.length + i)) →
      UsesUp script config entries n entries
        (k + entries.length + max config.retryMaxAttempts 1)

theorem Script.Grants.cons {n size : ℕ} (h : script.Grants (n + 1) size)
    (hfirst : script.answer n = .ok) : script.Grants n (size + 1) := by
  intro i hi
  cases i with
  | zero => exact hfirst
  | succ i =>
      rw [← h i (by omega)]
      congr 1
      omega

/-- Where a round breaks off is decided by the script. -/
theorem Script.BreaksOff.unique {n size stored stored' : ℕ} (h : script.BreaksOff n size stored)
    (h' : script.BreaksOff n size stored') : stored = stored' := by
  rcases lt_trichotomy stored stored' with hlt | heq | hgt
  · exact absurd (h'.grants stored hlt) h.ne_ok
  · exact heq
  · exact absurd (h.grants stored' hgt) h'.ne_ok

/-- Of two lists of broken rounds from one call on, the longer one goes on behind the shorter. -/
theorem Script.Broken.split {size n m m' : ℕ} {rounds rounds' : List ℕ}
    (h : script.Broken size n rounds m) (h' : script.Broken size n rounds' m')
    (hle : rounds.length ≤ rounds'.length) :
    ∃ more, rounds' = rounds ++ more ∧ script.Broken size m more m' := by
  induction h generalizing rounds' with
  | nil => exact ⟨rounds', rfl, h'⟩
  | cons hstored _ _ ih =>
      cases h' with
      | nil => simp at hle
      | cons hstored' _ hrest' =>
          obtain rfl := hstored.unique hstored'
          obtain ⟨more, rfl, hmore⟩ := ih hrest' (Nat.le_of_succ_le_succ hle)
          exact ⟨more, rfl, hmore⟩

/-- From call `n` on, a round of writes stores all its blobs, or the write that fails is not
tried again. -/
def Script.Stops (script : Script) (n size : ℕ) : Prop :=
  script.Grants n size ∨
    ∃ stored, script.BreaksOff n size stored ∧ ¬ script.Retries (n + stored)

/-- There are no broken rounds from a call on at which they stop. -/
theorem Script.Broken.eq_nil {size n m : ℕ} {rounds : List ℕ} (h : script.Broken size n rounds m)
    (hstops : script.Stops n size) : rounds = [] := by
  cases h with
  | nil => rfl
  | cons hstored hretries _ =>
      rcases hstops with hgrants | ⟨stored', hstored', hnot⟩
      · exact absurd (hgrants _ hstored.lt) hstored.ne_ok
      · obtain rfl := hstored.unique hstored'
        exact absurd hretries hnot

/-- Broken rounds do not go on behind the call at which they stop. -/
theorem Script.Broken.length_le {size n m m' : ℕ} {rounds rounds' : List ℕ}
    (h : script.Broken size n rounds m) (hstops : script.Stops m size)
    (h' : script.Broken size n rounds' m') : rounds'.length ≤ rounds.length := by
  by_contra hlt
  obtain ⟨more, rfl, hmore⟩ := h.split h' (by omega)
  rw [hmore.eq_nil hstops, List.append_nil] at hlt
  exact hlt le_rfl

/-- So many broken rounds from one call on lead to one call. -/
theorem Script.Broken.unique {size n m m' : ℕ} {rounds rounds' : List ℕ}
    (h : script.Broken size n rounds m) (h' : script.Broken size n rounds' m')
    (hlength : rounds.length = rounds'.length) : rounds' = rounds ∧ m' = m := by
  obtain ⟨more, rfl, hmore⟩ := h.split h' hlength.le
  obtain rfl : more = [] := by simpa using hlength
  cases hmore
  exact ⟨List.append_nil _, rfl⟩

section UsesUp

variable {entries : List BlobEntry} {n m k : ℕ} {rounds : List ℕ} {dropped : List BlobEntry}

/-- The retries are not used up if a write fails for good. -/
theorem Script.UsesUp.not_of_breaksOff {stored : ℕ}
    (hbroken : script.Broken entries.length n rounds k)
    (hleft : rounds.length < max config.retryMaxAttempts 1)
    (hoff : script.BreaksOff k entries.length stored) (hnot : ¬ script.Retries (k + stored)) :
    ¬ script.UsesUp config entries n dropped m := by
  have hstops : script.Stops k entries.length := .inr ⟨stored, hoff, hnot⟩
  intro h
  cases h with
  | writing hbroken' hlength =>
      have := hbroken.length_le hstops hbroken'
      omega
  | persisting hbroken' _ hgrants _ =>
      have hlength := (hbroken'.length_le (.inl hgrants) hbroken).antisymm
        (hbroken.length_le hstops hbroken')
      obtain ⟨-, rfl⟩ := hbroken.unique hbroken' hlength
      exact hoff.ne_ok (hgrants stored hoff.lt)

/-- Behind a round that has stored all blobs, the retries are used up by the calls of the sink. -/
theorem Script.UsesUp.iff_of_grants (hbroken : script.Broken entries.length n rounds k)
    (hleft : rounds.length < max config.retryMaxAttempts 1)
    (hgrants : script.Grants k entries.length) :
    script.UsesUp config entries n dropped m ↔
      (∀ i < max config.retryMaxAttempts 1, script.Retries (k + entries.length + i)) ∧
        dropped = entries ∧ m = k + entries.length + max config.retryMaxAttempts 1 := by
  constructor
  · intro h
    cases h with
    | writing hbroken' hlength =>
        have := hbroken.length_le (.inl hgrants) hbroken'
        omega
    | persisting hbroken' _ hgrants' hretries =>
        have hlength := (hbroken'.length_le (.inl hgrants') hbroken).antisymm
          (hbroken.length_le (.inl hgrants) hbroken')
        obtain ⟨-, rfl⟩ := hbroken.unique hbroken' hlength
        exact ⟨hretries, rfl, rfl⟩
  · rintro ⟨hretries, rfl, rfl⟩
    exact .persisting hbroken hleft hgrants hretries

/-- Behind as many broken rounds as attempts, the retries are used up by the writes. -/
theorem Script.UsesUp.iff_of_spent (hbroken : script.Broken entries.length n rounds k)
    (hspent : rounds.length = max config.retryMaxAttempts 1) :
    script.UsesUp config entries n dropped m ↔
      dropped = (rounds.flatMap fun stored => entries.take stored) ∧ m = k := by
  constructor
  · intro h
    cases h with
    | writing hbroken' hlength =>
        obtain ⟨rfl, rfl⟩ := hbroken.unique hbroken' (by omega)
        exact ⟨rfl, rfl⟩
    | persisting hbroken' hleft hgrants _ =>
        have := hbroken'.length_le (.inl hgrants) hbroken
        omega
  · rintro ⟨rfl, rfl⟩
    exact .writing hbroken hspent

/-- The blobs that are deleted are blobs of the request. -/
theorem Script.UsesUp.subset (h : script.UsesUp config entries n dropped m) :
    dropped ⊆ entries := by
  cases h with
  | writing _ _ =>
      intro entry hentry
      obtain ⟨stored, -, hentry⟩ := List.mem_flatMap.mp hentry
      exact List.mem_of_mem_take hentry
  | persisting _ _ _ _ => exact List.Subset.refl _

end UsesUp

/-! ## Rounds of writes -/

/-- The calls that store blobs. -/
def storedAll (entries : List BlobEntry) : List (Call M × Answer) :=
  entries.map fun entry => (.write entry, .ok)

/-- The blobs that some calls have stored. -/
def written (calls : List (Call M × Answer)) : List BlobEntry :=
  calls.filterMap fun c =>
    match c with
    | (.write entry, .ok) => some entry
    | _ => none

@[simp] theorem written_append (cs ds : List (Call M × Answer)) :
    written (cs ++ ds) = written cs ++ written ds := List.filterMap_append

@[simp] theorem written_storedAll (entries : List BlobEntry) :
    written (storedAll (M := M) entries) = entries := by
  simp [written, storedAll, List.filterMap_map]

theorem mem_written {calls : List (Call M × Answer)} {entry : BlobEntry} :
    entry ∈ written calls ↔ (Call.write entry, Answer.ok) ∈ calls := by
  rw [written, List.mem_filterMap]
  constructor
  · rintro ⟨⟨call, answer⟩, hmem, hc⟩
    split at hc
    · next heq =>
        obtain rfl := Option.some.inj hc
        exact heq ▸ hmem
    · cases hc
  · intro hmem
    exact ⟨_, hmem, rfl⟩

/-- The calls of a round of writes: all blobs are stored, or those in front of one whose write
fails. -/
inductive WriteRound (blobs : List BlobEntry) : List (Call M × Answer) → Prop
  | complete : WriteRound blobs (storedAll blobs)
  | broken {front back : List BlobEntry} {entry : BlobEntry} {error : Answer} :
      blobs = front ++ entry :: back → error ≠ .ok →
      WriteRound blobs (storedAll front ++ [(.write entry, error)])

/-- A failed write stores nothing. -/
theorem written_broken {front : List BlobEntry} {entry : BlobEntry} {error : Answer}
    (herror : error ≠ .ok) :
    written (storedAll (M := M) front ++ [(.write entry, error)]) = front := by
  rw [written_append, written_storedAll]
  cases error with
  | ok => exact absurd rfl herror
  | retryable => exact List.append_nil _
  | permanent => exact List.append_nil _

/-- A round writes blobs of its request only. -/
theorem WriteRound.write {blobs : List BlobEntry} {round : List (Call M × Answer)}
    (h : WriteRound blobs round) : ∀ c ∈ round, ∃ entry ∈ blobs, c.1 = .write entry := by
  cases h with
  | complete =>
      intro c hc
      obtain ⟨entry, hentry, rfl⟩ := List.mem_map.mp hc
      exact ⟨entry, hentry, rfl⟩
  | @broken front back entry error hblobs _ =>
      intro c hc
      rcases List.mem_append.mp hc with hc | hc
      · obtain ⟨entry', hentry', rfl⟩ := List.mem_map.mp hc
        exact ⟨entry', by simp [hblobs, hentry'], rfl⟩
      · obtain rfl := List.mem_singleton.mp hc
        exact ⟨entry, by simp [hblobs], rfl⟩

/-- A round of `write_blobs` stores all blobs, or those in front of one whose write fails. -/
theorem writeBlobs_cases (w : ObjectStoreBlobWriter) (script : Script) (stored : List StoredBlob)
    (entries : List BlobEntry) (b : Backend M) :
    (∃ b', writeBlobs w script stored entries b = ((stored ++ entries.map w.stored, none), b') ∧
      b.After w (storedAll entries) b' ∧ script.Grants b.calls.length entries.length) ∨
    ∃ front entry back error b', entries = front ++ entry :: back ∧ error ≠ .ok ∧
      writeBlobs w script stored entries b = ((stored ++ front.map w.stored, some error), b') ∧
      b.After w (storedAll front ++ [(.write entry, error)]) b' ∧
      script.Grants b.calls.length front.length ∧
      script.answer (b.calls.length + front.length) = error := by
  induction entries generalizing stored b with
  | nil =>
      exact Or.inl ⟨b, by simp [writeBlobs], .refl b, fun i hi => absurd hi (Nat.not_lt_zero i)⟩
  | cons entry entries ih =>
      have hcall := Backend.call_after w script b (.write entry)
      have hanswer : (b.call w script (.write entry)).1 = script.answer b.calls.length := rfl
      rw [writeBlobs]
      split
      · next b' heq =>
          rw [heq] at hcall hanswer
          have hcount : b'.calls.length = b.calls.length + 1 := by
            rw [hcall.calls_eq, List.length_append, List.length_singleton]
          rcases ih (stored ++ [w.stored entry]) b' with
            ⟨u, hrun, hafter, hgrants⟩ |
            ⟨front, failed, back, error, u, rfl, herror, hrun, hafter, hgrants, hbroken⟩
          · rw [hcount] at hgrants
            exact Or.inl ⟨u, by rw [hrun]; simp, hcall.trans hafter, hgrants.cons hanswer.symm⟩
          · rw [hcount] at hgrants hbroken
            refine Or.inr ⟨entry :: front, failed, back, error, u, rfl, herror, ?_,
              hcall.trans hafter, hgrants.cons hanswer.symm, ?_⟩
            · rw [hrun]
              simp
            · rw [← hbroken, List.length_cons, Nat.add_assoc, Nat.add_comm 1]
      · next error b' herror heq =>
          rw [heq] at hcall hanswer
          refine Or.inr ⟨[], entry, entries, error, b', rfl, ?_, by simp, hcall,
            fun i hi => absurd hi (Nat.not_lt_zero i), hanswer.symm⟩
          rintro rfl
          exact herror rfl

/-- A round without an error has stored all blobs. -/
theorem after_of_writeBlobs_none {blobs : List BlobEntry} {stored : List StoredBlob}
    {b b' : Backend M} (h : writeBlobs w script [] blobs b = ((stored, none), b')) :
    stored = blobs.map w.stored ∧ b.After w (storedAll blobs) b' ∧
      script.Grants b.calls.length blobs.length := by
  rcases writeBlobs_cases w script [] blobs b with
    ⟨u, hrun, hafter, hgrants⟩ | ⟨front, entry, back, error, u, -, -, hrun, -⟩
  · obtain ⟨rfl, rfl⟩ : blobs.map w.stored = stored ∧ u = b' := by simpa using hrun.symm.trans h
    exact ⟨rfl, hafter, hgrants⟩
  · rw [hrun] at h
    simp at h

/-- A round that broke off with an error behind so many blobs. -/
structure FailedRound (w : ObjectStoreBlobWriter) (script : Script) (blobs : List BlobEntry)
    (b b' : Backend M) (error : Answer) (round : List (Call M × Answer)) (count : ℕ) : Prop where
  writeRound : WriteRound blobs round
  after : b.After w round b'
  breaksOff : script.BreaksOff b.calls.length blobs.length count
  written_eq : written round = blobs.take count
  calls_eq : b'.calls.length = b.calls.length + count + 1
  retries_iff : script.Retries (b.calls.length + count) ↔
    error = .retryable ∧ b'.shouldAbortRetry script = false

/-- A round with an error hands out the blobs that it has stored. -/
theorem failedRound_of_writeBlobs {blobs : List BlobEntry} {stored : List StoredBlob}
    {error : Answer} {b b' : Backend M}
    (h : writeBlobs w script [] blobs b = ((stored, some error), b')) :
    ∃ round count, FailedRound w script blobs b b' error round count ∧
      stored = (written round).map w.stored := by
  rcases writeBlobs_cases w script [] blobs b with
    ⟨u, hrun, -⟩ | ⟨front, entry, back, error', u, hblobs, herror, hrun, hafter, hgrants, hbroken⟩
  · rw [hrun] at h
    simp at h
  · obtain ⟨⟨rfl, rfl⟩, rfl⟩ : (front.map w.stored = stored ∧ error' = error) ∧ u = b' := by
      simpa using hrun.symm.trans h
    have hcalls : u.calls.length = b.calls.length + front.length + 1 := by
      rw [hafter.calls_eq]
      simp [storedAll, Nat.add_assoc]
    refine ⟨_, front.length, ⟨.broken hblobs herror, hafter, ⟨?_, hgrants, ?_⟩, ?_, hcalls, ?_⟩,
      by rw [written_broken herror]⟩
    · rw [hblobs, List.length_append, List.length_cons]
      omega
    · rwa [hbroken]
    · rw [written_broken herror, hblobs, List.take_left]
    · rw [Script.Retries, hbroken, ← hcalls]
      rfl

/-- A round that broke off and is tried again, in front of others. -/
theorem FailedRound.cons {blobs : List BlobEntry} {b b' : Backend M} {error : Answer}
    {round : List (Call M × Answer)} {count m : ℕ} {counts : List ℕ}
    (h : FailedRound w script blobs b b' error round count)
    (hretries : script.Retries (b.calls.length + count))
    (hbroken : script.Broken blobs.length b'.calls.length counts m) :
    script.Broken blobs.length b.calls.length (count :: counts) m := by
  rw [h.calls_eq] at hbroken
  exact .cons h.breaksOff hretries hbroken

theorem FailedRound.length_add {blobs : List BlobEntry} {b b' : Backend M} {error : Answer}
    {round : List (Call M × Answer)} {count : ℕ}
    (h : FailedRound w script blobs b b' error round count) :
    b.calls.length + round.length = b'.calls.length := by
  rw [h.after.calls_eq, List.length_append]

/-- The deletions of some blobs from call `n` on. -/
def deletions (script : Script) (n : ℕ) (blobs : List StoredBlob) : List (Call M × Answer) :=
  (blobs.zipIdx n).map fun (blob, i) => (.delete blob, script.answer i)

theorem map_fst_deletions (n : ℕ) (blobs : List StoredBlob) :
    (deletions (M := M) script n blobs).map Prod.fst = blobs.map .delete := by
  rw [deletions, List.map_map]
  conv_rhs => rw [← List.zipIdx_map_fst n blobs, List.map_map]
  rfl

/-- The deletions that are answered with `ok`. -/
theorem mem_deletions {n : ℕ} {blobs : List StoredBlob} {blob : StoredBlob} :
    (Call.delete (M := M) blob, Answer.ok) ∈ deletions script n blobs ↔
      ∃ i, blobs[i]? = some blob ∧ script.answer (n + i) = .ok := by
  simp only [deletions, List.mem_map, Prod.exists, List.mem_zipIdx_iff_le_and_getElem?_sub]
  constructor
  · rintro ⟨blob', k, ⟨hle, hblob⟩, heq⟩
    obtain ⟨rfl, hok⟩ : blob' = blob ∧ script.answer k = .ok := by simpa using heq
    exact ⟨k - n, hblob, by rwa [Nat.add_sub_cancel' hle]⟩
  · rintro ⟨i, hblob, hok⟩
    exact ⟨blob, n + i, ⟨Nat.le_add_right n i, by rwa [Nat.add_sub_cancel_left]⟩, by rw [hok]⟩

/-- A cleanup makes one deletion for each blob it is given. -/
theorem cleanupStoredBlobs_calls (w : ObjectStoreBlobWriter) (script : Script)
    (blobs : List StoredBlob) (b : Backend M) :
    b.After w (deletions script b.calls.length blobs) (cleanupStoredBlobs w script blobs b) := by
  induction blobs generalizing b with
  | nil => exact .refl b
  | cons blob blobs ih =>
      have hcall := Backend.call_after w script b (.delete blob)
      have hrest := ih (b.call w script (.delete blob)).2
      rw [hcall.calls_eq, List.length_append, List.length_singleton] at hrest
      exact hcall.trans hrest

/-! ## The loops -/

/-- The last attempt is the one behind which the budget is exhausted. -/
theorem succ_eq_of_exhausted {attempt : ℕ} (hattempt : attempt < max config.retryMaxAttempts 1)
    (hlast : retryBudgetExhausted config attempt = true) :
    attempt + 1 = max config.retryMaxAttempts 1 := by
  rw [retryBudgetExhausted, decide_eq_true_eq] at hlast
  omega

/-- How the first loop ends, from some attempt and call `n` on: what it hands out, its rounds, and
its deletions. -/
inductive WriteResult (w : ObjectStoreBlobWriter) (script : Script) (config : PersistenceConfig)
    (blobs : List BlobEntry) (attempt : ℕ) (candidates : List StoredBlob) (n : ℕ) :
    Except PersistOutcome (List StoredBlob) → List (List (Call M × Answer)) →
      List (Call M × Answer) → Prop
  /-- A round has stored all blobs, behind rounds that broke off. -/
  | stored {earlier : List (List (Call M × Answer))} {counts : List ℕ} :
      earlier.length = counts.length →
      script.Broken blobs.length n counts (n + earlier.flatten.length) →
      script.Grants (n + earlier.flatten.length) blobs.length →
      WriteResult w script config blobs attempt candidates n (.ok (blobs.map w.stored))
        (earlier ++ [storedAll blobs]) []
  /-- A write failed for good. -/
  | failed {rounds : List (List (Call M × Answer))} {counts : List ℕ} {k count : ℕ} :
      attempt + counts.length < max config.retryMaxAttempts 1 →
      script.Broken blobs.length n counts k → script.BreaksOff k blobs.length count →
      ¬ script.Retries (k + count) →
      WriteResult w script config blobs attempt candidates n (.error .failed) rounds []
  /-- All rounds broke off, and what they and the candidates have stored is deleted. -/
  | dropped {rounds : List (List (Call M × Answer))} {counts : List ℕ} :
      attempt + counts.length = max config.retryMaxAttempts 1 →
      script.Broken blobs.length n counts (n + rounds.flatten.length) →
      written rounds.flatten = (counts.flatMap fun count => blobs.take count) →
      WriteResult w script config blobs attempt candidates n (.error .staleDropped) rounds
        (deletions script (n + rounds.flatten.length)
          (candidates ++ (written rounds.flatten).map w.stored))

/-- A further round that broke off, in front of the others. -/
theorem WriteResult.cons {blobs : List BlobEntry} {attempt : ℕ} {candidates : List StoredBlob}
    {b b' : Backend M} {error : Answer} {round : List (Call M × Answer)} {count : ℕ}
    {out : Except PersistOutcome (List StoredBlob)} {rounds : List (List (Call M × Answer))}
    {cleanup : List (Call M × Answer)} (hfailed : FailedRound w script blobs b b' error round count)
    (hretries : script.Retries (b.calls.length + count))
    (h : WriteResult w script config blobs (attempt + 1)
      (candidates ++ (written round).map w.stored) b'.calls.length out rounds cleanup) :
    WriteResult w script config blobs attempt candidates b.calls.length out (round :: rounds)
      cleanup := by
  have hlength : ∀ rounds : List (List (Call M × Answer)),
      b.calls.length + (round :: rounds).flatten.length =
        b'.calls.length + rounds.flatten.length := by
    intro rounds
    rw [List.flatten_cons, List.length_append, ← Nat.add_assoc, hfailed.length_add]
  cases h with
  | @stored earlier counts hcount hbroken hgrants =>
      rw [← hlength] at hbroken hgrants
      have hcount' : (round :: earlier).length = (count :: counts).length :=
        congrArg Nat.succ hcount
      exact .stored hcount' (hfailed.cons hretries hbroken) hgrants
  | failed hleft hbroken hoff hnot =>
      refine .failed ?_ (hfailed.cons hretries hbroken) hoff hnot
      rw [List.length_cons]
      omega
  | @dropped _ counts hspent hbroken hstored =>
      have hcleanup : candidates ++ (written round).map w.stored ++
          (written rounds.flatten).map w.stored =
            candidates ++ (written (round :: rounds).flatten).map w.stored := by
        rw [List.flatten_cons, written_append, List.map_append, List.append_assoc]
      rw [hcleanup]
      rw [← hlength] at hbroken ⊢
      refine .dropped ?_ (hfailed.cons hretries hbroken) ?_
      · rw [List.length_cons]
        omega
      · rw [List.flatten_cons, written_append, hfailed.written_eq, hstored, List.flatMap_cons]

/-- The first loop hands out all blobs after a round that stored them, or fails, or deletes
what all rounds and the candidates have stored. -/
theorem writeWithRetry_cases (w : ObjectStoreBlobWriter) (script : Script)
    (config : PersistenceConfig) (blobs : List BlobEntry) (attempt : ℕ)
    (candidates : List StoredBlob) (b : Backend M)
    (hattempt : attempt < max config.retryMaxAttempts 1) :
    ∃ rounds cleanup,
      b.After w (rounds.flatten ++ cleanup)
        (writeWithRetry w script config blobs attempt candidates b).2 ∧
      (∀ round ∈ rounds, WriteRound blobs round) ∧
      attempt + rounds.length ≤ max config.retryMaxAttempts 1 ∧
      WriteResult w script config blobs attempt candidates b.calls.length
        (writeWithRetry w script config blobs attempt candidates b).1 rounds cleanup := by
  induction attempt, candidates, b using writeWithRetry.induct w script config blobs with
  | case1 attempt candidates b stored b' heq =>
      obtain ⟨rfl, hafter, hgrants⟩ := after_of_writeBlobs_none heq
      have hrun : writeWithRetry w script config blobs attempt candidates b =
          (.ok (blobs.map w.stored), b') := by
        rw [writeWithRetry, heq]
      have hresult : WriteResult w script config blobs attempt candidates b.calls.length
          (.ok (blobs.map w.stored)) ([] ++ [storedAll (M := M) blobs]) [] :=
        .stored rfl .nil hgrants
      rw [hrun]
      refine ⟨[storedAll blobs], [], by simpa using hafter, ?_, hattempt, hresult⟩
      intro round hround
      obtain rfl := List.mem_singleton.mp hround
      exact .complete
  | case2 attempt candidates b stored error b' heq hretry hlast =>
      obtain ⟨round, count, hfailed, rfl⟩ := failedRound_of_writeBlobs heq
      have hcleanup := cleanupStoredBlobs_calls w script
        (candidates ++ (written round).map w.stored) b'
      have hrun : writeWithRetry w script config blobs attempt candidates b =
          (.error .staleDropped,
            cleanupStoredBlobs w script (candidates ++ (written round).map w.stored) b') := by
        rw [writeWithRetry, heq]
        simp only [if_pos hretry, dif_pos hlast]
      have hbroken := hfailed.cons (hfailed.retries_iff.mpr hretry) .nil
      have hspent : attempt + [count].length = max config.retryMaxAttempts 1 :=
        succ_eq_of_exhausted hattempt hlast
      have hflat : [round].flatten = round := List.flatten_singleton
      rw [← hfailed.length_add] at hcleanup hbroken
      rw [hrun]
      refine ⟨[round], deletions script (b.calls.length + [round].flatten.length)
        (candidates ++ (written [round].flatten).map w.stored), ?_,
        List.forall_mem_singleton.mpr hfailed.writeRound, hattempt, .dropped hspent ?_ ?_⟩
      · rw [hflat]
        exact hfailed.after.trans hcleanup
      · rwa [hflat]
      · rw [hflat, hfailed.written_eq, List.flatMap_singleton]
  | case3 attempt candidates b stored error b' heq hretry hlast ih =>
      obtain ⟨round, count, hfailed, rfl⟩ := failedRound_of_writeBlobs heq
      have hnext : attempt + 1 < max config.retryMaxAttempts 1 := by
        simpa [retryBudgetExhausted] using hlast
      obtain ⟨rounds, cleanup, hafter, hrounds, hle, hresult⟩ := ih hnext
      have hrun : writeWithRetry w script config blobs attempt candidates b =
          writeWithRetry w script config blobs (attempt + 1)
            (candidates ++ (written round).map w.stored) b' := by
        rw [writeWithRetry, heq]
        simp only [if_pos hretry, dif_neg hlast]
      rw [hrun]
      refine ⟨round :: rounds, cleanup, ?_,
        List.forall_mem_cons.mpr ⟨hfailed.writeRound, hrounds⟩, ?_,
        hresult.cons hfailed (hfailed.retries_iff.mpr hretry)⟩
      · rw [List.flatten_cons, List.append_assoc]
        exact hfailed.after.trans hafter
      · rw [List.length_cons]
        omega
  | case4 attempt candidates b stored error b' heq hretry =>
      obtain ⟨round, count, hfailed, rfl⟩ := failedRound_of_writeBlobs heq
      have hrun : writeWithRetry w script config blobs attempt candidates b =
          (.error .failed, b') := by
        rw [writeWithRetry, heq]
        simp only [if_neg hretry]
      have hleft : attempt + ([] : List ℕ).length < max config.retryMaxAttempts 1 := hattempt
      rw [hrun]
      refine ⟨[round], [], by simpa using hfailed.after,
        List.forall_mem_singleton.mpr hfailed.writeRound, hattempt,
        .failed hleft .nil hfailed.breaksOff ?_⟩
      rwa [hfailed.retries_iff]

/-- How the second loop ends, from some attempt and call `n` on: its outcome, its calls of the sink,
and its deletions. -/
inductive SinkResult (script : Script) (config : PersistenceConfig) (blobs : List StoredBlob)
    (attempt n : ℕ) :
    PersistOutcome → List (Call M × Answer) → List (Call M × Answer) → Prop
  | persisted {sinkCalls : List (Call M × Answer)} {i : ℕ} : (∃ c ∈ sinkCalls, c.2 = .ok) →
      attempt + i < max config.retryMaxAttempts 1 → ¬ script.Retries (n + i) →
      SinkResult script config blobs attempt n .persisted sinkCalls []
  | failed {sinkCalls : List (Call M × Answer)} {i : ℕ} : (∀ c ∈ sinkCalls, c.2 ≠ .ok) →
      attempt + i < max config.retryMaxAttempts 1 → ¬ script.Retries (n + i) →
      SinkResult script config blobs attempt n .failed sinkCalls []
  /-- All calls are tried again, and the blobs are deleted. -/
  | dropped {sinkCalls : List (Call M × Answer)} : (∀ c ∈ sinkCalls, c.2 ≠ .ok) →
      attempt + sinkCalls.length = max config.retryMaxAttempts 1 →
      (∀ i < sinkCalls.length, script.Retries (n + i)) →
      SinkResult script config blobs attempt n .staleDropped sinkCalls
        (deletions script (n + sinkCalls.length) blobs)

/-- A further call that is tried again, in front of the others. -/
theorem SinkResult.cons {blobs : List StoredBlob} {attempt n : ℕ} {c : Call M × Answer}
    {out : PersistOutcome} {sinkCalls cleanup : List (Call M × Answer)} (hc : c.2 ≠ .ok)
    (hretries : script.Retries n)
    (h : SinkResult script config blobs (attempt + 1) (n + 1) out sinkCalls cleanup) :
    SinkResult script config blobs attempt n out (c :: sinkCalls) cleanup := by
  have hcall : ∀ i, n + 1 + i = n + (i + 1) := by
    intro i
    omega
  cases h with
  | persisted hok hi hnot =>
      obtain ⟨d, hd, hdok⟩ := hok
      rw [hcall] at hnot
      exact .persisted ⟨d, List.mem_cons_of_mem _ hd, hdok⟩ (by omega) hnot
  | failed hnone hi hnot =>
      rw [hcall] at hnot
      exact .failed (List.forall_mem_cons.mpr ⟨hc, hnone⟩) (by omega) hnot
  | dropped hnone hspent hall =>
      rw [hcall, ← List.length_cons (a := c)]
      refine .dropped (List.forall_mem_cons.mpr ⟨hc, hnone⟩) ?_ ?_
      · rw [List.length_cons]
        omega
      · intro i hi
        cases i with
        | zero => exact hretries
        | succ i =>
            rw [← hcall]
            exact hall i (Nat.lt_of_succ_lt_succ hi)

/-- The call of the sink is tried again if its answer says so and the queue is open. -/
theorem sinkCall_spec {request : PersistedRequest M} {answer : Answer} {b b' : Backend M}
    (h : b.call w script (.persist request) = (answer, b')) :
    b.After w [(.persist request, answer)] b' ∧ b'.calls.length = b.calls.length + 1 ∧
      (script.Retries b.calls.length ↔
        answer = .retryable ∧ b'.shouldAbortRetry script = false) := by
  have hcall := Backend.call_after w script b (.persist request)
  have hanswer : (b.call w script (.persist request)).1 = script.answer b.calls.length := rfl
  rw [h] at hcall hanswer
  have hcalls : b'.calls.length = b.calls.length + 1 := by
    rw [hcall.calls_eq, List.length_append, List.length_singleton]
  refine ⟨hcall, hcalls, ?_⟩
  rw [Script.Retries, ← hcalls, ← hanswer]
  rfl

/-- The second loop ends with the first call of the sink that is answered with `ok`, or fails,
or deletes the blobs of the request, which is when all calls of the sink are tried again. -/
theorem persistWithRetry_cases (w : ObjectStoreBlobWriter) (script : Script)
    (config : PersistenceConfig) (request : PersistedRequest M) (attempt : ℕ) (b : Backend M)
    (hattempt : attempt < max config.retryMaxAttempts 1) :
    ∃ sinkCalls cleanup,
      b.After w (sinkCalls ++ cleanup) (persistWithRetry w script config request attempt b).2 ∧
      (∀ c ∈ sinkCalls, c.1 = .persist request) ∧
      attempt + sinkCalls.length ≤ max config.retryMaxAttempts 1 ∧
      SinkResult script config request.blobs attempt b.calls.length
        (persistWithRetry w script config request attempt b).1 sinkCalls cleanup := by
  induction attempt, b using persistWithRetry.induct w script config request with
  | case1 attempt b b' heq =>
      obtain ⟨hcall, -, hretries⟩ := sinkCall_spec heq
      have hrun : persistWithRetry w script config request attempt b = (.persisted, b') := by
        rw [persistWithRetry, heq]
      have hleft : attempt + 0 < max config.retryMaxAttempts 1 := hattempt
      rw [hrun]
      refine ⟨[(.persist request, .ok)], [], by simpa using hcall,
        List.forall_mem_singleton.mpr rfl, hattempt,
        .persisted ⟨_, List.mem_singleton_self _, rfl⟩ hleft ?_⟩
      rw [Nat.add_zero, hretries]
      rintro ⟨hanswer, -⟩
      cases hanswer
  | case2 attempt b error b' hok heq hretry hlast =>
      obtain ⟨hcall, hcalls, hretries⟩ := sinkCall_spec heq
      have hcleanup := cleanupStoredBlobs_calls w script request.blobs b'
      have hrun : persistWithRetry w script config request attempt b =
          (.staleDropped, cleanupStoredBlobs w script request.blobs b') := by
        rw [persistWithRetry, heq]
        simp only [if_pos hretry, dif_pos hlast]
      rw [hrun]
      rw [hcalls] at hcleanup
      refine ⟨[(.persist request, error)], _, hcall.trans hcleanup,
        List.forall_mem_singleton.mpr rfl, hattempt,
        .dropped (List.forall_mem_singleton.mpr hok) (succ_eq_of_exhausted hattempt hlast) ?_⟩
      intro i hi
      obtain rfl : i = 0 := Nat.lt_one_iff.mp hi
      exact hretries.mpr hretry
  | case3 attempt b error b' hok heq hretry hlast ih =>
      obtain ⟨hcall, hcalls, hretries⟩ := sinkCall_spec heq
      have hnext : attempt + 1 < max config.retryMaxAttempts 1 := by
        simpa [retryBudgetExhausted] using hlast
      obtain ⟨sinkCalls, cleanup, hafter, hsink, hle, hresult⟩ := ih hnext
      have hrun : persistWithRetry w script config request attempt b =
          persistWithRetry w script config request (attempt + 1) b' := by
        rw [persistWithRetry, heq]
        simp only [if_pos hretry, dif_neg hlast]
      rw [hrun]
      rw [hcalls] at hresult
      refine ⟨(.persist request, error) :: sinkCalls, cleanup, hcall.trans hafter,
        List.forall_mem_cons.mpr ⟨rfl, hsink⟩, ?_, hresult.cons hok (hretries.mpr hretry)⟩
      rw [List.length_cons]
      omega
  | case4 attempt b error b' hok heq hretry =>
      obtain ⟨hcall, -, hretries⟩ := sinkCall_spec heq
      have hrun : persistWithRetry w script config request attempt b = (.failed, b') := by
        rw [persistWithRetry, heq]
        simp only [if_neg hretry]
      have hleft : attempt + 0 < max config.retryMaxAttempts 1 := hattempt
      rw [hrun]
      refine ⟨[(.persist request, error)], [], by simpa using hcall,
        List.forall_mem_singleton.mpr rfl, hattempt,
        .failed (List.forall_mem_singleton.mpr hok) hleft ?_⟩
      rwa [Nat.add_zero, hretries]

/-! ## A whole request -/

/-- How the calls for a request split, and what its outcome says about them. -/
structure RequestCalls (w : ObjectStoreBlobWriter) (script : Script) (config : PersistenceConfig)
    (request : BlobRequest M) (n : ℕ) (outcome : PersistOutcome)
    (rounds : List (List (Call M × Answer))) (sinkCalls cleanup : List (Call M × Answer)) :
    Prop where
  round : ∀ round ∈ rounds, WriteRound request.blobs round
  rounds_le : rounds.length ≤ max config.retryMaxAttempts 1
  /-- The sink is given the blobs of the request, in their order. -/
  sink : ∀ c ∈ sinkCalls,
    c.1 = .persist ⟨request.requestKey, request.metadata, request.blobs.map w.stored⟩
  sink_le : sinkCalls.length ≤ max config.retryMaxAttempts 1
  /-- The sink is called behind a round that has stored all blobs. -/
  sink_after : sinkCalls ≠ [] → ∃ earlier, rounds = earlier ++ [storedAll request.blobs]
  persisted_iff : outcome = .persisted ↔ ∃ c ∈ sinkCalls, c.2 = .ok
  /-- Only blobs of the request are deleted, and none if it is persisted. -/
  deletes : ∀ c ∈ cleanup,
    outcome ≠ .persisted ∧ ∃ entry ∈ request.blobs, c.1 = .delete (w.stored entry)
  /-- What was stored for a dropped request is deleted. -/
  cleans : outcome = .staleDropped →
    ∀ entry ∈ written rounds.flatten, .delete (w.stored entry) ∈ cleanup.map Prod.fst
  /-- Something is deleted only if the retries are used up. -/
  usesUp : cleanup ≠ [] → ∃ dropped m, script.UsesUp config request.blobs n dropped m
  cleanup_eq : ∀ dropped m, script.UsesUp config request.blobs n dropped m →
    cleanup = deletions script m (dropped.map w.stored)

/-- What rounds of a request have stored are blobs of the request. -/
theorem mem_blobs_of_written {blobs : List BlobEntry} {rounds : List (List (Call M × Answer))}
    (hrounds : ∀ round ∈ rounds, WriteRound blobs round) {entry : BlobEntry}
    (h : entry ∈ written rounds.flatten) : entry ∈ blobs := by
  obtain ⟨round, hround, hmem⟩ := List.mem_flatten.mp (mem_written.mp h)
  obtain ⟨entry', hentry', heq⟩ := (hrounds round hround).write _ hmem
  obtain rfl : entry = entry' := by simpa using heq
  exact hentry'

/-- A cleanup of some blobs deletes nothing else. -/
theorem delete_of_mem_deletions {n : ℕ} {entries : List BlobEntry} {c : Call M × Answer}
    (hc : c ∈ deletions script n (entries.map w.stored)) :
    ∃ entry ∈ entries, c.1 = .delete (w.stored entry) := by
  have hmem : c.1 ∈ (entries.map w.stored).map Call.delete :=
    map_fst_deletions (M := M) n _ ▸ List.mem_map_of_mem hc
  obtain ⟨blob, hblob, heq⟩ := List.mem_map.mp hmem
  obtain ⟨entry, hentry, rfl⟩ := List.mem_map.mp hblob
  exact ⟨entry, hentry, heq.symm⟩

/-- A cleanup of some blobs deletes each of them. -/
theorem delete_mem_deletions {n : ℕ} {entries : List BlobEntry} {entry : BlobEntry}
    (hentry : entry ∈ entries) :
    .delete (w.stored entry) ∈
      (deletions (M := M) script n (entries.map w.stored)).map Prod.fst := by
  rw [map_fst_deletions]
  exact List.mem_map_of_mem (List.mem_map_of_mem hentry)

/-- The calls of a request whose first loop ends with an outcome. -/
theorem RequestCalls.of_writing {request : BlobRequest M} {n : ℕ} {outcome : PersistOutcome}
    {rounds : List (List (Call M × Answer))} {cleanup : List (Call M × Answer)}
    (hrounds : ∀ round ∈ rounds, WriteRound request.blobs round)
    (hle : rounds.length ≤ max config.retryMaxAttempts 1)
    (h : WriteResult w script config request.blobs 0 [] n (.error outcome) rounds cleanup) :
    RequestCalls w script config request n outcome rounds [] cleanup := by
  cases h with
  | failed hleft hbroken hoff hnot =>
      rw [Nat.zero_add] at hleft
      refine ⟨hrounds, hle, by simp, by simp, by simp, by simp, by simp, by simp, by simp,
        fun dropped m h => ?_⟩
      exact absurd h (Script.UsesUp.not_of_breaksOff hbroken hleft hoff hnot)
  | dropped hspent hbroken hstored =>
      rw [Nat.zero_add] at hspent
      rw [List.nil_append]
      refine ⟨hrounds, hle, by simp, by simp, by simp, by simp, fun c hc => ⟨by simp, ?_⟩,
        fun _ entry hentry => delete_mem_deletions hentry,
        fun _ => ⟨_, _, .writing hbroken hspent⟩, fun dropped m h => ?_⟩
      · obtain ⟨entry, hentry, heq⟩ := delete_of_mem_deletions hc
        exact ⟨entry, mem_blobs_of_written hrounds hentry, heq⟩
      · obtain ⟨rfl, rfl⟩ := (Script.UsesUp.iff_of_spent hbroken hspent).mp h
        rw [hstored]

/-- The calls of a request whose first loop has stored all blobs. -/
theorem RequestCalls.of_persisting {request : BlobRequest M} {n k : ℕ} {outcome : PersistOutcome}
    {earlier : List (List (Call M × Answer))} {counts : List ℕ}
    {sinkCalls cleanup : List (Call M × Answer)}
    (hrounds : ∀ round ∈ earlier ++ [storedAll request.blobs], WriteRound request.blobs round)
    (hle : (earlier ++ [storedAll (M := M) request.blobs]).length ≤ max config.retryMaxAttempts 1)
    (hcount : earlier.length = counts.length)
    (hbroken : script.Broken request.blobs.length n counts k)
    (hgrants : script.Grants k request.blobs.length)
    (hsink : ∀ c ∈ sinkCalls,
      c.1 = .persist ⟨request.requestKey, request.metadata, request.blobs.map w.stored⟩)
    (hle' : sinkCalls.length ≤ max config.retryMaxAttempts 1)
    (h : SinkResult script config (request.blobs.map w.stored) 0 (k + request.blobs.length) outcome
      sinkCalls cleanup) :
    RequestCalls w script config request n outcome (earlier ++ [storedAll request.blobs]) sinkCalls
      cleanup := by
  have hleft : counts.length < max config.retryMaxAttempts 1 := by
    rw [List.length_append, List.length_singleton] at hle
    omega
  have husesUp : ∀ dropped m, script.UsesUp config request.blobs n dropped m ↔
      (∀ i < max config.retryMaxAttempts 1, script.Retries (k + request.blobs.length + i)) ∧
        dropped = request.blobs ∧
        m = k + request.blobs.length + max config.retryMaxAttempts 1 := by
    intro dropped m
    exact Script.UsesUp.iff_of_grants hbroken hleft hgrants
  cases h with
  | persisted hok hi hnot =>
      rw [Nat.zero_add] at hi
      refine ⟨hrounds, hle, hsink, hle', fun _ => ⟨earlier, rfl⟩, iff_of_true rfl hok, by simp,
        by simp, by simp, fun dropped m h => ?_⟩
      exact absurd (((husesUp dropped m).mp h).1 _ hi) hnot
  | failed hnone hi hnot =>
      rw [Nat.zero_add] at hi
      refine ⟨hrounds, hle, hsink, hle', fun _ => ⟨earlier, rfl⟩,
        iff_of_false (by simp) fun ⟨c, hc, hok⟩ => hnone c hc hok, by simp, by simp, by simp,
        fun dropped m h => ?_⟩
      exact absurd (((husesUp dropped m).mp h).1 _ hi) hnot
  | dropped hnone hspent hall =>
      rw [Nat.zero_add] at hspent
      refine ⟨hrounds, hle, hsink, hle', fun _ => ⟨earlier, rfl⟩,
        iff_of_false (by simp) fun ⟨c, hc, hok⟩ => hnone c hc hok,
        fun c hc => ⟨by simp, delete_of_mem_deletions hc⟩,
        fun _ entry hentry => delete_mem_deletions (mem_blobs_of_written hrounds hentry),
        fun _ => ⟨_, _, (husesUp _ _).mpr ⟨hspent ▸ hall, rfl, rfl⟩⟩, fun dropped m h => ?_⟩
      obtain ⟨-, rfl, rfl⟩ := (husesUp dropped m).mp h
      rw [hspent]

/-- **One request.**  Its calls split into rounds of writes, calls of the sink and deletions. -/
theorem persistRequestWithRetry_calls (w : ObjectStoreBlobWriter) (script : Script)
    (config : PersistenceConfig) (request : BlobRequest M) (b : Backend M) :
    ∃ rounds sinkCalls cleanup,
      b.After w (rounds.flatten ++ sinkCalls ++ cleanup)
        (persistRequestWithRetry w script config request b).2 ∧
      RequestCalls w script config request b.calls.length
        (persistRequestWithRetry w script config request b).1 rounds sinkCalls cleanup := by
  have hpos : 0 < max config.retryMaxAttempts 1 := by omega
  obtain ⟨rounds, cleanup, hafter, hrounds, hle, hresult⟩ :=
    writeWithRetry_cases w script config request.blobs 0 [] b hpos
  rw [Nat.zero_add] at hle
  unfold persistRequestWithRetry
  split
  · next outcome b' heq =>
      rw [heq] at hafter hresult
      exact ⟨rounds, [], cleanup, by simpa using hafter, .of_writing hrounds hle hresult⟩
  · next stored b' heq =>
      rw [heq] at hafter hresult
      cases hresult with
      | @stored earlier counts hcount hbroken hgrants =>
          obtain ⟨sinkCalls, cleanup, hafter', hsink, hle', hresult⟩ :=
            persistWithRetry_cases w script config
              ⟨request.requestKey, request.metadata, request.blobs.map w.stored⟩ 0 b' hpos
          -- the calls up to the first one of the sink
          have hcalls : b'.calls.length =
              b.calls.length + earlier.flatten.length + request.blobs.length := by
            rw [hafter.calls_eq]
            simp [storedAll, Nat.add_assoc]
          rw [Nat.zero_add] at hle'
          rw [hcalls] at hresult
          rw [List.append_nil] at hafter
          refine ⟨_, sinkCalls, cleanup, ?_,
            .of_persisting hrounds hle hcount hbroken hgrants hsink hle' hresult⟩
          rw [List.append_assoc]
          exact hafter.trans hafter'

/-! ## The protocol -/

/-- The calls of the metadata sink among some calls. -/
theorem RequestCalls.of_persist_mem {request : BlobRequest M} {outcome : PersistOutcome}
    {rounds : List (List (Call M × Answer))} {sinkCalls cleanup : List (Call M × Answer)}
    {n : ℕ} (h : RequestCalls w script config request n outcome rounds sinkCalls cleanup)
    {persisted : PersistedRequest M} {answer : Answer}
    (hmem : (Call.persist persisted, answer) ∈ rounds.flatten ++ sinkCalls ++ cleanup) :
    (Call.persist persisted, answer) ∈ sinkCalls := by
  rcases List.mem_append.mp hmem with hmem | hmem
  · rcases List.mem_append.mp hmem with hmem | hmem
    · obtain ⟨round, hround, hc⟩ := List.mem_flatten.mp hmem
      obtain ⟨entry, -, heq⟩ := (h.round round hround).write _ hc
      cases heq
    · exact hmem
  · obtain ⟨-, entry, -, heq⟩ := h.deletes _ hmem
    cases heq

/-- The blobs that are stored among some calls. -/
theorem RequestCalls.of_write_mem {request : BlobRequest M} {outcome : PersistOutcome}
    {rounds : List (List (Call M × Answer))} {sinkCalls cleanup : List (Call M × Answer)}
    {n : ℕ} (h : RequestCalls w script config request n outcome rounds sinkCalls cleanup)
    {entry : BlobEntry} {answer : Answer}
    (hmem : (Call.write entry, answer) ∈ rounds.flatten ++ sinkCalls ++ cleanup) :
    (Call.write entry, answer) ∈ rounds.flatten := by
  rcases List.mem_append.mp hmem with hmem | hmem
  · rcases List.mem_append.mp hmem with hmem | hmem
    · exact hmem
    · cases h.sink _ hmem
  · obtain ⟨-, entry', -, heq⟩ := h.deletes _ hmem
    cases heq

/-- **The retry protocol.**  For every request, every number of attempts and every script of
answers, the calls are rounds of writes, then calls of the sink, then deletions.  The sink is
called behind a round that has stored all blobs, with their references in order; there are at
most as many rounds, and at most as many calls of the sink, as attempts.  The request is
persisted exactly if a call of the sink succeeds, and then nothing is deleted; if it is dropped,
every blob that any round has stored is deleted. -/
theorem retry_protocol (w : ObjectStoreBlobWriter) (script : Script) (config : PersistenceConfig)
    (request : BlobRequest M) (b : Backend M) :
    ∃ rounds sinkCalls cleanup,
      (persistRequestWithRetry w script config request b).2.calls =
        b.calls ++ (rounds.flatten ++ sinkCalls ++ cleanup) ∧
      (∀ round ∈ rounds, WriteRound request.blobs round) ∧
      rounds.length ≤ max config.retryMaxAttempts 1 ∧
      (∀ c ∈ sinkCalls,
        c.1 = .persist ⟨request.requestKey, request.metadata, request.blobs.map w.stored⟩) ∧
      (sinkCalls ≠ [] → ∃ earlier, rounds = earlier ++ [storedAll request.blobs]) ∧
      sinkCalls.length ≤ max config.retryMaxAttempts 1 ∧
      (∀ c ∈ cleanup, ∃ entry ∈ request.blobs, c.1 = .delete (w.stored entry)) ∧
      ((persistRequestWithRetry w script config request b).1 = .persisted ↔
        ∃ persisted, (.persist persisted, .ok) ∈ rounds.flatten ++ sinkCalls ++ cleanup) ∧
      ((persistRequestWithRetry w script config request b).1 = .persisted → cleanup = []) ∧
      ((persistRequestWithRetry w script config request b).1 = .staleDropped →
        ∀ entry, (.write entry, .ok) ∈ rounds.flatten ++ sinkCalls ++ cleanup →
          ∃ answer, (.delete (w.stored entry), answer) ∈ cleanup) := by
  obtain ⟨rounds, sinkCalls, cleanup, hafter, h⟩ :=
    persistRequestWithRetry_calls w script config request b
  refine ⟨rounds, sinkCalls, cleanup, hafter.calls_eq, h.round, h.rounds_le, h.sink, h.sink_after,
    h.sink_le, fun c hc => (h.deletes c hc).2, ?_, ?_, ?_⟩
  · rw [h.persisted_iff]
    constructor
    · rintro ⟨⟨call, answer⟩, hc, rfl⟩
      obtain rfl := h.sink _ hc
      exact ⟨_, List.mem_append_left _ (List.mem_append_right _ hc)⟩
    · rintro ⟨persisted, hmem⟩
      exact ⟨_, h.of_persist_mem hmem, rfl⟩
  · intro hpersisted
    refine List.eq_nil_iff_forall_not_mem.mpr fun c hc => ?_
    exact (h.deletes c hc).1 hpersisted
  · intro hstale entry hmem
    have hstored := mem_written.mpr (h.of_write_mem hmem)
    obtain ⟨⟨call, answer⟩, hc, rfl⟩ := List.mem_map.mp (h.cleans hstale entry hstored)
    exact ⟨answer, hc⟩

end Persist
