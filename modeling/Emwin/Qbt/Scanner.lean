/-
# The server-list scanner

`QbtServerListWireScanner` of `protocol/server_list_wire.rs` looks for complete
`/ServerList/` frames in a stream of wire chunks and returns the latest one.  It
keeps the decoded bytes after the last frame, up to a limit.

The loop is a `StepLoop.Ranked` over the buffer.  One pass either finds no complete
frame, or splits the buffer at the first one (`scanPass_cases`); everything said
about a scan follows from this split.
-/
import Emwin.Lib.StepLoop
import Emwin.Qbt.Codec

namespace Qbt

open ListSearch StepLoop

/-- The bytes that open a server-list frame. -/
def LIST_MARK : List UInt8 := Utf8.encode serverListPrefix

/-- Stateful scanner that extracts XOR-encoded server-list frames from wire chunks. -/
structure QbtServerListWireScanner where
  decodedBuffer : List UInt8
  maxBufferBytes : ℕ
  deriving DecidableEq, Repr

namespace QbtServerListWireScanner

/-- Creates a scanner with the requested internal buffer budget. -/
def new (maxBufferBytes : ℕ) : QbtServerListWireScanner := ⟨[], max maxBufferBytes 1024⟩

/-- The scanner of the relay. -/
def default : QbtServerListWireScanner := new 65536

/-- One pass of the scanning loop: the first complete frame and what follows it. -/
def scanPass (buffer : List UInt8) : Pass (List UInt8) (List UInt8) :=
  match findSubsequence buffer LIST_MARK with
  | none => ⟨[], buffer, false⟩
  | some start =>
      -- a frame without its NUL is kept, with all that stands before it
      match (buffer.drop start).findIdx? (· = 0) with
      | none => ⟨[], buffer, false⟩
      | some endRel =>
          ⟨[xorFf ((buffer.drop start).take (endRel + 1))], buffer.drop (start + endRel + 1), true⟩

/-- Every frame shortens the buffer. -/
theorem length_scanPass_lt (buffer : List UInt8) (h : (scanPass buffer).again = true) :
    (scanPass buffer).state.length < buffer.length := by
  unfold scanPass at h ⊢
  cases hs : findSubsequence buffer LIST_MARK with
  | none => rw [hs] at h; cases h
  | some start =>
      rw [hs] at h
      dsimp only at h ⊢
      cases he : (buffer.drop start).findIdx? (· = 0) with
      | none => rw [he] at h; cases h
      | some endRel =>
          have hlt := (List.findIdx?_eq_some_iff_getElem.mp he).1
          rw [List.length_drop] at hlt
          simp only [List.length_drop]
          omega

/-- The scanning loop. -/
def scanLoop : Ranked (List UInt8) (List UInt8) where
  body := scanPass
  rank := List.length
  rank_lt := length_scanPass_lt

/-- The buffer with a decoded chunk appended, cut to its budget from the front. -/
def extended (scanner : QbtServerListWireScanner) (wire : List UInt8) : List UInt8 :=
  (scanner.decodedBuffer ++ xorFf wire).drop
    ((scanner.decodedBuffer ++ xorFf wire).length - scanner.maxBufferBytes)

/-- Observes a wire chunk and returns the latest complete server-list frame, if present. -/
def observeWireChunk (scanner : QbtServerListWireScanner) (wire : List UInt8) :
    Option (List UInt8) × QbtServerListWireScanner :=
  ((scanLoop.drain (scanner.extended wire)).1.getLast?,
    { scanner with decodedBuffer := (scanLoop.drain (scanner.extended wire)).2 })

end QbtServerListWireScanner

/-! ## Frames in a buffer -/

/-- A complete frame: the mark, no NUL before the last byte, and a NUL. -/
def IsServerListFrame (l : List UInt8) : Prop :=
  ∃ middle, (0 : UInt8) ∉ middle ∧ l = LIST_MARK ++ middle ++ [0]

/-- A buffer that holds a complete frame: a mark with a NUL somewhere after it. -/
def HasFrame (l : List UInt8) : Prop :=
  ∃ j, LIST_MARK <+: l.drop j ∧ (0 : UInt8) ∈ l.drop j

theorem zero_notMem_listMark : (0 : UInt8) ∉ LIST_MARK := by decide

theorem findSubsequence_listMark (l : List UInt8) :
    findSubsequence l LIST_MARK = findSub LIST_MARK l := by
  unfold findSubsequence
  split
  · next h =>
      rcases h with h | h
      · exact absurd h (by decide)
      · exact (findSub_eq_none_of_length_lt h).symm
  · rfl

/-- A frame in a part of a buffer is a frame in the buffer. -/
theorem HasFrame.of_append {l r : List UInt8} (h : HasFrame l) : HasFrame (l ++ r) := by
  obtain ⟨j, hmark, hnul⟩ := h
  have hj : j ≤ l.length := by
    by_contra hlt
    rw [List.drop_eq_nil_of_le (by omega)] at hnul
    cases hnul
  refine ⟨j, ?_, ?_⟩
  · rw [List.drop_append_of_le_length hj]
    exact hmark.trans (List.prefix_append _ _)
  · rw [List.drop_append_of_le_length hj]
    exact List.mem_append_left _ hnul

/-- A frame in what follows is a frame in the buffer. -/
theorem HasFrame.of_drop {l : List UInt8} {n : ℕ} (h : HasFrame (l.drop n)) : HasFrame l := by
  obtain ⟨j, hmark, hnul⟩ := h
  rw [List.drop_drop] at hmark hnul
  exact ⟨n + j, hmark, hnul⟩

theorem hasFrame_frame (l : List UInt8) {middle r : List UInt8} :
    HasFrame (l ++ (LIST_MARK ++ middle ++ [0]) ++ r) := by
  refine HasFrame.of_append ⟨l.length, ?_, ?_⟩
  · rw [List.drop_left, List.append_assoc]
    exact List.prefix_append _ _
  · rw [List.drop_left]
    simp

/-- A list cut at its first NUL. -/
theorem exists_eq_append_zero {l : List UInt8} (h : (0 : UInt8) ∈ l) :
    ∃ e before after, l.findIdx? (· = 0) = some e ∧ l = before ++ 0 :: after ∧
      (0 : UInt8) ∉ before ∧ l.take (e + 1) = before ++ [0] ∧ l.drop (e + 1) = after := by
  obtain ⟨before, after, rfl, hbefore⟩ := List.eq_append_cons_of_mem h
  refine ⟨before.length, before, after, ?_, rfl, hbefore, ?_, ?_⟩
  · rw [List.findIdx?_append, findIdx?_eq_none_of_notMem hbefore]
    simp [List.findIdx?_cons]
  · rw [List.take_length_add_append]
    rfl
  · rw [List.drop_length_add_append]
    rfl

/-- Two beginnings of one list, of which one stops before a NUL and the other has none. -/
theorem prefix_of_zero_notMem {p before after : List UInt8} (hp : (0 : UInt8) ∉ p)
    (h : p <+: before ++ 0 :: after) : p <+: before := by
  have hnul : before ++ [0] <+: before ++ 0 :: after := ⟨after, by simp⟩
  rcases List.prefix_or_prefix_of_prefix h hnul with h | h
  · rcases List.prefix_concat_iff.mp h with rfl | h
    · exact absurd (by simp) hp
    · exact h
  · exact absurd (h.subset (by simp)) hp

/-- The cut at the first NUL is unique. -/
theorem append_zero_inj {before after before' after' : List UInt8} (hb : (0 : UInt8) ∉ before)
    (hb' : (0 : UInt8) ∉ before') (h : before ++ 0 :: after = before' ++ 0 :: after') :
    before = before' ∧ after = after' := by
  have h1 : before <+: before' := prefix_of_zero_notMem hb ⟨_, h⟩
  have h2 : before' <+: before := prefix_of_zero_notMem hb' ⟨_, h.symm⟩
  obtain rfl := h1.eq_of_length_le h2.length_le
  exact ⟨rfl, (List.cons.inj (List.append_cancel_left h)).2⟩

namespace QbtServerListWireScanner

/-- **Step.**  A pass finds no complete frame, or splits the buffer at the first one. -/
theorem scanPass_cases (buffer : List UInt8) :
    (¬ HasFrame buffer ∧ scanPass buffer = ⟨[], buffer, false⟩) ∨
    ∃ skipped middle rest, (0 : UInt8) ∉ middle ∧
      buffer = skipped ++ (LIST_MARK ++ middle ++ [0]) ++ rest ∧
      (∀ j < skipped.length, ¬ LIST_MARK <+: buffer.drop j) ∧
      scanPass buffer = ⟨[xorFf (LIST_MARK ++ middle ++ [0])], rest, true⟩ := by
  unfold scanPass
  rw [findSubsequence_listMark]
  cases hs : findSub LIST_MARK buffer with
  | none =>
      refine Or.inl ⟨?_, rfl⟩
      rintro ⟨j, hmark, hnul⟩
      by_cases hj : j ≤ buffer.length
      · exact not_prefix_drop_of_none hs j hj hmark
      · rw [List.drop_eq_nil_of_le (by omega)] at hnul
        cases hnul
  | some start =>
      by_cases hzero : (0 : UInt8) ∈ buffer.drop start
      · obtain ⟨e, before, after, he, hsplit, hbefore, htake, hdrop⟩ := exists_eq_append_zero hzero
        have hmark := prefix_drop_of_findSub hs
        rw [hsplit] at hmark
        obtain ⟨middle, rfl⟩ := prefix_of_zero_notMem zero_notMem_listMark hmark
        refine Or.inr ⟨buffer.take start, middle, after, ?_, ?_, ?_, ?_⟩
        · exact fun h => hbefore (List.mem_append_right _ h)
        · rw [List.append_assoc, List.append_assoc, List.singleton_append, ← hsplit,
            List.take_append_drop]
        · intro j hj
          rw [List.length_take] at hj
          exact not_prefix_drop_of_lt hs (by omega)
        · simp only [he, htake]
          rw [Nat.add_assoc, ← List.drop_drop, hdrop]
      · refine Or.inl ⟨?_, ?_⟩
        · rintro ⟨j, hmark, hnul⟩
          -- the first mark comes first, so what follows it contains the NUL as well
          by_cases hj : j < start
          · exact not_prefix_drop_of_lt hs hj hmark
          · refine hzero ?_
            rw [← Nat.add_sub_cancel' (not_lt.mp hj), ← List.drop_drop] at hnul
            exact List.mem_of_mem_drop hnul
        · simp only [findIdx?_eq_none_of_notMem hzero]

/-! ## A whole scan -/

/-- The result of a scan that goes on after a frame. -/
theorem drain_of_frame {buffer frame rest : List UInt8}
    (h : scanPass buffer = ⟨[frame], rest, true⟩) :
    scanLoop.drain buffer = (frame :: (scanLoop.drain rest).1, (scanLoop.drain rest).2) := by
  have hbody : scanLoop.body buffer = ⟨[frame], rest, true⟩ := h
  rw [scanLoop.drain_of_again (by rw [hbody]), hbody]
  rfl

theorem drain_of_no_frame {buffer : List UInt8} (h : scanPass buffer = ⟨[], buffer, false⟩) :
    scanLoop.drain buffer = ([], buffer) := by
  have hbody : scanLoop.body buffer = ⟨[], buffer, false⟩ := h
  rw [scanLoop.drain_of_stop (by rw [hbody]), hbody]

/-- **Run.**  Every frame a scan returns is a complete frame in the buffer, and what
stays is an end of the buffer without one. -/
theorem drain_spec (buffer : List UInt8) :
    (∀ v ∈ (scanLoop.drain buffer).1, IsServerListFrame (xorFf v) ∧ xorFf v <:+: buffer) ∧
    (scanLoop.drain buffer).2 <:+ buffer ∧ ¬ HasFrame (scanLoop.drain buffer).2 := by
  induction hn : buffer.length using Nat.strongRecOn generalizing buffer with
  | ind n ih =>
      rcases scanPass_cases buffer with ⟨hno, hpass⟩ | ⟨skipped, middle, rest, hmid, hb, -, hpass⟩
      · rw [drain_of_no_frame hpass]
        exact ⟨by simp, List.suffix_refl _, hno⟩
      · have hlt : rest.length < n := by
          rw [← hn, hb]
          simp only [List.length_append, List.length_singleton]
          omega
        obtain ⟨hout, hsuffix, hno⟩ := ih _ hlt rest rfl
        have hrest : rest <:+ buffer := hb ▸ List.suffix_append _ _
        rw [drain_of_frame hpass]
        refine ⟨?_, hsuffix.trans hrest, hno⟩
        intro v hv
        rcases List.mem_cons.mp hv with rfl | hv
        · rw [xorFf_xorFf]
          exact ⟨⟨middle, hmid, rfl⟩, hb ▸ List.infix_append _ _ _⟩
        · obtain ⟨h1, h2⟩ := hout v hv
          exact ⟨h1, h2.trans hrest.isInfix⟩

/-- A scan of a buffer without a complete frame changes nothing. -/
theorem drain_of_not_hasFrame {buffer : List UInt8} (h : ¬ HasFrame buffer) :
    scanLoop.drain buffer = ([], buffer) := by
  rcases scanPass_cases buffer with ⟨-, hpass⟩ | ⟨skipped, middle, rest, -, hb, -, -⟩
  · exact drain_of_no_frame hpass
  · exact absurd (hb ▸ hasFrame_frame skipped) h

/-- A scan of a buffer with a complete frame returns one. -/
theorem drain_ne_nil {buffer : List UInt8} (h : HasFrame buffer) :
    (scanLoop.drain buffer).1 ≠ [] := by
  rcases scanPass_cases buffer with ⟨hno, -⟩ | ⟨skipped, middle, rest, -, -, -, hpass⟩
  · exact absurd h hno
  · rw [drain_of_frame hpass]
    exact List.cons_ne_nil _ _

end QbtServerListWireScanner

end Qbt
