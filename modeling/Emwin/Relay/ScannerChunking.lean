/-
# The scanner and the cuts of its stream

The server-list scanner gives up the front of its buffer when the buffer grows too long,
whatever stands there.  If every mark of a stream is followed by a NUL soon enough, that is
never the beginning of a frame, and the latest frame the scanner returns is the last frame
of the whole stream, however the stream is cut (`scanner_chunk_invariance`).

`FramesOf` says what the frames of a stream are.  A scan finds a frame in a buffer as in
any continuation of it (`drain_append`), and as in the buffer without a front in which no
mark begins (`drain_drop`); `Follows` is the invariant that the scanner has lost no more
than such a front.
-/
import Emwin.Relay.Upstream

namespace Relay

open Qbt ListSearch StepLoop QbtServerListWireScanner

/-! ## The frames of a stream -/

/-- No mark begins in the first bytes of a stream. -/
def NoMarkBefore (n : ℕ) (stream : List UInt8) : Prop :=
  ∀ j < n, ¬ LIST_MARK <+: stream.drop j

/-- The frames of a stream from left to right: from the first mark to the next NUL, and on
behind it. -/
inductive FramesOf : List UInt8 → List (List UInt8) → Prop
  | done {stream : List UInt8} : ¬ HasFrame stream → FramesOf stream []
  | frame {skipped middle rest : List UInt8} {frames : List (List UInt8)} :
      (0 : UInt8) ∉ middle →
      NoMarkBefore skipped.length (skipped ++ (LIST_MARK ++ middle ++ [0]) ++ rest) →
      FramesOf rest frames →
      FramesOf (skipped ++ (LIST_MARK ++ middle ++ [0]) ++ rest)
        ((LIST_MARK ++ middle ++ [0]) :: frames)

section Split

variable {skipped middle rest : List UInt8}

theorem mark_prefix_drop (skipped middle rest : List UInt8) :
    LIST_MARK <+: (skipped ++ (LIST_MARK ++ middle ++ [0]) ++ rest).drop skipped.length := by
  rw [List.append_assoc, List.drop_left, List.append_assoc, List.append_assoc]
  exact List.prefix_append _ _

/-- A stream splits at its first frame in one way. -/
theorem split_unique {skipped' middle' rest' : List UInt8}
    (hmid : (0 : UInt8) ∉ middle) (hmid' : (0 : UInt8) ∉ middle')
    (h : skipped ++ (LIST_MARK ++ middle ++ [0]) ++ rest =
      skipped' ++ (LIST_MARK ++ middle' ++ [0]) ++ rest')
    (hfirst : NoMarkBefore skipped.length (skipped ++ (LIST_MARK ++ middle ++ [0]) ++ rest))
    (hfirst' : NoMarkBefore skipped'.length (skipped' ++ (LIST_MARK ++ middle' ++ [0]) ++ rest')) :
    middle = middle' ∧ rest = rest' := by
  have hlen : skipped.length = skipped'.length := by
    apply le_antisymm
    · by_contra hlt
      exact hfirst _ (not_le.mp hlt) (h ▸ mark_prefix_drop skipped' middle' rest')
    · by_contra hlt
      exact hfirst' _ (not_le.mp hlt) (h ▸ mark_prefix_drop skipped middle rest)
  rw [List.append_assoc skipped, List.append_assoc skipped'] at h
  obtain ⟨-, htail⟩ := List.append_inj h hlen
  simp only [List.append_assoc, List.singleton_append] at htail
  have hmarked := List.append_cancel_left htail
  exact append_zero_inj hmid hmid' hmarked

/-- A scan takes the first frame and goes on behind it. -/
theorem drain_of_split (hmid : (0 : UInt8) ∉ middle)
    (hfirst : NoMarkBefore skipped.length (skipped ++ (LIST_MARK ++ middle ++ [0]) ++ rest)) :
    scanLoop.drain (skipped ++ (LIST_MARK ++ middle ++ [0]) ++ rest) =
      (xorFf (LIST_MARK ++ middle ++ [0]) :: (scanLoop.drain rest).1, (scanLoop.drain rest).2) := by
  rcases scanPass_cases (skipped ++ (LIST_MARK ++ middle ++ [0]) ++ rest) with
    ⟨hno, -⟩ | ⟨skipped', middle', rest', hmid', hb, hfirst', hpass⟩
  · exact absurd (hasFrame_frame skipped) hno
  · rw [hb] at hfirst'
    obtain ⟨rfl, rfl⟩ := split_unique hmid hmid' hb hfirst hfirst'
    exact drain_of_frame hpass

/-- A stream without a frame, or its first frame. -/
theorem split_cases (stream : List UInt8) :
    ¬ HasFrame stream ∨ ∃ skipped middle rest, (0 : UInt8) ∉ middle ∧
      stream = skipped ++ (LIST_MARK ++ middle ++ [0]) ++ rest ∧
      NoMarkBefore skipped.length stream ∧ rest.length < stream.length := by
  rcases scanPass_cases stream with ⟨hno, -⟩ | ⟨skipped, middle, rest, hmid, hb, hfirst, -⟩
  · exact Or.inl hno
  · refine Or.inr ⟨skipped, middle, rest, hmid, hb, hfirst, ?_⟩
    rw [hb]
    simp only [List.length_append, List.length_singleton]
    omega

end Split

/-- The frames of a stream are those that a scan of the whole stream returns. -/
theorem framesOf_iff {stream : List UInt8} {frames : List (List UInt8)} :
    FramesOf stream frames ↔ (scanLoop.drain stream).1 = frames.map xorFf := by
  constructor
  · intro h
    induction h with
    | done hno => rw [drain_of_not_hasFrame hno]; rfl
    | frame hmid hfirst _ ih => rw [drain_of_split hmid hfirst, ih]; rfl
  · intro h
    induction hn : stream.length using Nat.strongRecOn generalizing stream frames with
    | ind n ih =>
        rcases split_cases stream with hno | ⟨skipped, middle, rest, hmid, rfl, hfirst, hlt⟩
        · rw [drain_of_not_hasFrame hno] at h
          obtain rfl : frames = [] := List.map_eq_nil_iff.mp h.symm
          exact .done hno
        · rw [drain_of_split hmid hfirst] at h
          obtain ⟨frame, frames, rfl, hframe, hrest⟩ := List.map_eq_cons_iff.mp h.symm
          obtain rfl : frame = LIST_MARK ++ middle ++ [0] := by
            rw [← xorFf_xorFf frame, hframe, xorFf_xorFf]
          exact .frame hmid hfirst (ih rest.length (hn ▸ hlt) hrest.symm rfl)

/-! ## Scans of a part -/

/-- A mark that begins early enough is complete before the stream goes on. -/
theorem NoMarkBefore.append {n : ℕ} {stream : List UInt8} (h : NoMarkBefore n stream)
    (hn : n + LIST_MARK.length ≤ stream.length) (more : List UInt8) :
    NoMarkBefore n (stream ++ more) := by
  intro j hj hmark
  rw [List.drop_append_of_le_length (by omega)] at hmark
  refine h j hj (List.prefix_of_prefix_length_le hmark (List.prefix_append _ _) ?_)
  rw [List.length_drop]
  omega

theorem NoMarkBefore.of_append {n : ℕ} {stream more : List UInt8}
    (h : NoMarkBefore n (stream ++ more)) (hn : n ≤ stream.length) : NoMarkBefore n stream := by
  intro j hj hmark
  refine h j hj (hmark.trans ?_)
  rw [List.drop_append_of_le_length (hj.le.trans hn)]
  exact List.prefix_append _ _

/-- **Continuation.**  Bytes that arrive after a scan could as well have arrived before. -/
theorem drain_append (buffer more : List UInt8) :
    scanLoop.drain (buffer ++ more) =
      ((scanLoop.drain buffer).1 ++ (scanLoop.drain ((scanLoop.drain buffer).2 ++ more)).1,
        (scanLoop.drain ((scanLoop.drain buffer).2 ++ more)).2) := by
  induction hn : buffer.length using Nat.strongRecOn generalizing buffer with
  | ind n ih =>
      rcases split_cases buffer with hno | ⟨skipped, middle, rest, hmid, rfl, hfirst, hlt⟩
      · rw [drain_of_not_hasFrame hno]
        rfl
      · have hmore := hfirst.append (by simp only [List.length_append]; omega) more
        rw [List.append_assoc _ rest] at hmore ⊢
        rw [drain_of_split hmid hmore, drain_of_split hmid hfirst,
          ih rest.length (hn ▸ hlt) rest rfl]
        rfl

/-- **Front.**  A front in which no mark begins does not matter to a scan. -/
theorem drain_drop {buffer : List UInt8} {lost : ℕ} (hle : lost ≤ buffer.length)
    (hlost : NoMarkBefore lost buffer) :
    (scanLoop.drain (buffer.drop lost)).1 = (scanLoop.drain buffer).1 ∧
      ((scanLoop.drain (buffer.drop lost)).2 = (scanLoop.drain buffer).2 ∨
        ((scanLoop.drain (buffer.drop lost)).2 = buffer.drop lost ∧
          (scanLoop.drain buffer).2 = buffer)) := by
  rcases split_cases buffer with hno | ⟨skipped, middle, rest, hmid, rfl, hfirst, -⟩
  · rw [drain_of_not_hasFrame hno, drain_of_not_hasFrame fun h => hno h.of_drop]
    exact ⟨rfl, Or.inr ⟨rfl, rfl⟩⟩
  · -- the first mark is not in the front
    have hskipped : lost ≤ skipped.length := by
      by_contra hlt
      exact hlost _ (not_le.mp hlt) (mark_prefix_drop skipped middle rest)
    have hdrop : (skipped ++ (LIST_MARK ++ middle ++ [0]) ++ rest).drop lost =
        skipped.drop lost ++ (LIST_MARK ++ middle ++ [0]) ++ rest := by
      rw [List.append_assoc, List.drop_append_of_le_length hskipped, ← List.append_assoc]
    have hfirst' : NoMarkBefore (skipped.drop lost).length
        (skipped.drop lost ++ (LIST_MARK ++ middle ++ [0]) ++ rest) := by
      intro j hj
      rw [← hdrop, List.drop_drop]
      rw [List.length_drop] at hj
      exact hfirst _ (by omega)
    rw [hdrop, drain_of_split hmid hfirst', drain_of_split hmid hfirst]
    exact ⟨rfl, Or.inl rfl⟩

/-! ## What the scanner has lost -/

/-- The scanner holds what a scan of all bytes received would leave, but for a front in
which no mark begins, not even one that the bytes to come complete. -/
structure Follows (scanner : QbtServerListWireScanner) (received future : List UInt8) : Prop where
  holds : ∃ lost ≤ (scanLoop.drain received).2.length,
    scanner.decodedBuffer = (scanLoop.drain received).2.drop lost ∧
      NoMarkBefore lost ((scanLoop.drain received).2 ++ future)

/-- Every mark of a stream is followed by a NUL, of which it is no further away than the
budget of the scanner leaves for a chunk of `c` bytes. -/
def NulInTime (maxBufferBytes c : ℕ) (stream : List UInt8) : Prop :=
  ∀ s, LIST_MARK <+: stream.drop s → ∃ e, (stream.drop s)[e]? = some 0 ∧ e + c ≤ maxBufferBytes

/-- A mark whose NUL has arrived belongs to a complete frame. -/
theorem hasFrame_of_nul {tail more : List UInt8} {j e : ℕ}
    (hmark : LIST_MARK <+: (tail ++ more).drop j)
    (hnul : ((tail ++ more).drop j)[e]? = some 0) (he : j + e < tail.length) : HasFrame tail := by
  obtain ⟨rest, hrest⟩ := hmark
  -- the NUL is not in the mark, so the mark has arrived as well
  have hlen : LIST_MARK.length ≤ e := by
    by_contra hlt
    rw [← hrest, List.getElem?_append_left (not_le.mp hlt)] at hnul
    exact zero_notMem_listMark (List.mem_of_getElem? hnul)
  rw [List.drop_append_of_le_length (by omega)] at hrest hnul
  have hin : e < (tail.drop j).length := by
    rw [List.length_drop]
    omega
  rw [List.getElem?_append_left hin] at hnul
  refine ⟨j, ?_, List.mem_of_getElem? hnul⟩
  exact List.prefix_of_prefix_length_le ⟨rest, hrest⟩ (List.prefix_append _ _) (by omega)

/-- **Step.**  A chunk returns the last of the frames it completes, and the scanner loses no
mark. -/
theorem Follows.observe {scanner : QbtServerListWireScanner} {received chunk future : List UInt8}
    {c : ℕ} (h : Follows scanner received (xorFf chunk ++ future)) (hc : chunk.length ≤ c)
    (hnul : NulInTime scanner.maxBufferBytes c (received ++ (xorFf chunk ++ future))) :
    (scanner.observeWireChunk chunk).1 =
        (scanLoop.drain ((scanLoop.drain received).2 ++ xorFf chunk)).1.getLast? ∧
      Follows (scanner.observeWireChunk chunk).2 (received ++ xorFf chunk) future := by
  obtain ⟨lost, hle, hbuffer, hlost⟩ := h
  obtain ⟨-, ⟨front, hfront⟩, hno⟩ := drain_spec received
  generalize htail : (scanLoop.drain received).2 = tail at *
  have hxor : (xorFf chunk).length = chunk.length := by rw [xorFf, List.length_map]
  -- what the budget leaves of the chunk and the bytes in front of it
  obtain ⟨lost', hlost'⟩ : ∃ n, n = lost +
    ((tail ++ xorFf chunk).length - lost - scanner.maxBufferBytes) := ⟨_, rfl⟩
  have hextended : scanner.extended chunk = (tail ++ xorFf chunk).drop lost' := by
    rw [extended, hbuffer, ← List.drop_append_of_le_length hle, List.drop_drop, List.length_drop,
      hlost']
  have hlen : (tail ++ xorFf chunk).length = tail.length + chunk.length := by
    rw [List.length_append, hxor]
  have hle' : lost' ≤ (tail ++ xorFf chunk).length := by omega
  have hnomark : NoMarkBefore lost' (tail ++ xorFf chunk ++ future) := by
    intro j hj hmark
    rw [List.append_assoc] at hmark
    by_cases hold : j < lost
    · exact hlost j hold hmark
    · have hat : (received ++ (xorFf chunk ++ future)).drop (front.length + j) =
          (tail ++ (xorFf chunk ++ future)).drop j := by
        rw [← hfront, List.append_assoc, ← List.drop_drop, List.drop_left]
      obtain ⟨e, he, hbudget⟩ := hnul (front.length + j) (hat ▸ hmark)
      rw [hat] at he
      exact hno (hasFrame_of_nul hmark he (by omega))
  obtain ⟨hframes, hleft⟩ := drain_drop hle' (hnomark.of_append hle')
  have hnext : (scanLoop.drain (received ++ xorFf chunk)).2 =
      (scanLoop.drain (tail ++ xorFf chunk)).2 := by
    rw [drain_append, htail]
  rw [observeWireChunk, hextended, hframes]
  refine ⟨rfl, ?_⟩
  rcases hleft with hleft | ⟨hleft, hall⟩
  · refine ⟨0, Nat.zero_le _, ?_, ?_⟩
    · rw [hnext]
      exact hleft
    · intro j hj
      exact absurd hj (Nat.not_lt_zero j)
  · refine ⟨lost', ?_, ?_, ?_⟩
    · rw [hnext, hall]
      exact hle'
    · rw [hnext, hall]
      exact hleft
    · rw [hnext, hall]
      exact hnomark

/-- **Run.**  The last frame returned is the last of those completed. -/
theorem Follows.run {c : ℕ} (chunks : List (List UInt8)) {scanner : QbtServerListWireScanner}
    {received : List UInt8} (h : Follows scanner received (xorFf chunks.flatten))
    (hc : ∀ chunk ∈ chunks, chunk.length ≤ c)
    (hnul : NulInTime scanner.maxBufferBytes c (received ++ xorFf chunks.flatten)) :
    (readConnection scanner chunks).1.getLast? =
      (scanLoop.drain ((scanLoop.drain received).2 ++ xorFf chunks.flatten)).1.getLast? := by
  induction chunks generalizing scanner received with
  | nil =>
      obtain ⟨-, -, hno⟩ := drain_spec received
      rw [List.flatten_nil, xorFf_nil, List.append_nil, drain_of_not_hasFrame hno]
      rfl
  | cons chunk chunks ih =>
      rw [List.flatten_cons, xorFf_append] at h hnul ⊢
      obtain ⟨hnow, hnext⟩ := h.observe (hc chunk List.mem_cons_self) hnul
      rw [← List.append_assoc] at hnul
      have hlater := ih hnext (fun w hw => hc w (List.mem_cons_of_mem _ hw)) hnul
      rw [readConnection, List.getLast?_append, hlater, hnow, ← List.append_assoc,
        drain_append (_ ++ _), List.getLast?_append, drain_append received]
      have hone : ∀ latest : Option (List UInt8), latest.toList.getLast? = latest := by
        intro latest
        cases latest <;> rfl
      rw [hone]

/-- **Chunk invariance.**  If every mark of a stream is followed by a NUL in time, a new
scanner that reads the stream in chunks of at most `c` bytes returns the last frame of the
stream last, and nothing if there is none. -/
theorem scanner_chunk_invariance (maxBufferBytes c : ℕ) (chunks : List (List UInt8))
    (hc : ∀ chunk ∈ chunks, chunk.length ≤ c)
    (hnul : NulInTime (new maxBufferBytes).maxBufferBytes c (xorFf chunks.flatten)) :
    ∃ frames, FramesOf (xorFf chunks.flatten) frames ∧
      (readConnection (new maxBufferBytes) chunks).1.getLast? = frames.getLast?.map xorFf ∧
      (frames = [] → (readConnection (new maxBufferBytes) chunks).1 = []) := by
  have hempty : scanLoop.drain [] = ([], []) := by
    apply drain_of_not_hasFrame
    rintro ⟨j, -, hzero⟩
    simp at hzero
  have hstart : Follows (new maxBufferBytes) [] (xorFf chunks.flatten) := by
    refine ⟨0, Nat.zero_le _, ?_, fun j hj => absurd hj (Nat.not_lt_zero j)⟩
    rw [hempty]
    rfl
  have hrun := hstart.run chunks hc hnul
  rw [hempty, List.nil_append] at hrun
  have hframes : (scanLoop.drain (xorFf chunks.flatten)).1 =
      ((scanLoop.drain (xorFf chunks.flatten)).1.map xorFf).map xorFf := by
    rw [List.map_map]
    exact (List.map_id'' xorFf_xorFf _).symm
  refine ⟨_, framesOf_iff.mpr hframes, ?_, ?_⟩
  · rw [← List.getLast?_map, ← hframes]
    exact hrun
  · intro hnone
    rw [← List.getLast?_eq_none_iff, hrun, hframes, hnone]
    rfl

/-- Two frames; the first ends, and the mark of the second is cut, in the second chunk. -/
def twoFrames : List (List UInt8) :=
  [xorFf (LIST_MARK ++ [0x61]), xorFf (0 :: LIST_MARK.take 5),
    xorFf (LIST_MARK.drop 5 ++ [0x62, 0])]

theorem scanner_chunk_invariance_two :
    ∃ frames, FramesOf (xorFf twoFrames.flatten) frames ∧
      (readConnection (new 65536) twoFrames).1.getLast? = frames.getLast?.map xorFf ∧
      (frames = [] → (readConnection (new 65536) twoFrames).1 = []) := by
  refine scanner_chunk_invariance 65536 13 twoFrames (by decide +kernel) ?_
  have hmarks : ∀ s < (xorFf twoFrames.flatten).length,
      LIST_MARK <+: (xorFf twoFrames.flatten).drop s →
        ((xorFf twoFrames.flatten).drop s)[13]? = some 0 := by decide +kernel
  intro s hmark
  by_cases hs : s < (xorFf twoFrames.flatten).length
  · exact ⟨13, hmarks s hs hmark, by decide⟩
  · rw [List.drop_eq_nil_of_le (not_lt.mp hs)] at hmark
    exact absurd hmark (by decide)

end Relay
