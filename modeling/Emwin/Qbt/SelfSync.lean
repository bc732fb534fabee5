/-
# Self-synchronisation

A run of zero bytes brings every reachable decoder to the start of a frame.  The
zeros complete whatever the decoder waits for: they end a server list, fill up a
header and the body it announces, or are the marker itself.  The worst case is a
header that has not begun, followed by the longest body it may announce and a
marker.

From the start of a frame, a well-formed data frame is emitted as one data block.
-/
import Emwin.Qbt.Chunking

namespace Qbt

open ListSearch StepLoop

/-- A run of zero bytes. -/
def zeros (n : ℕ) : List UInt8 := List.replicate n 0

theorem dropWhile_zeros (n : ℕ) : (zeros n).dropWhile (· = 0) = [] := by
  simp [zeros]

theorem drop_zeros (n k : ℕ) : (zeros n).drop k = zeros (n - k) := by
  simp [zeros]

theorem sync_prefix_zeros {n : ℕ} (hn : 6 ≤ n) : SYNC_BYTES <+: zeros n := by
  refine ⟨zeros (n - 6), ?_⟩
  show List.replicate 6 0 ++ List.replicate (n - 6) 0 = List.replicate n 0
  rw [List.replicate_append_replicate]
  congr 1
  omega

/-- Dropping more than what stands before a run of zeros leaves zeros. -/
theorem drop_append_zeros {c : List UInt8} {k : ℕ} (hk : c.length ≤ k) (n : ℕ) :
    (c ++ zeros n).drop k = zeros (n - (k - c.length)) := by
  rw [List.drop_append, List.drop_eq_nil_of_le hk, List.nil_append, drop_zeros]

section Convergence

variable (env : CodecEnv)

/-- The loop ends at the start of a frame, with nothing buffered or pending. -/
def Converges (d : QbtProtocolDecoder) : Prop :=
  ((feedLoop env).drain d).2 = { d with buffer := [], state := .startFrame, pending := none }

variable {env} {d : QbtProtocolDecoder}

/-- One pass on the way to the start of a frame. -/
theorem Converges.of_pass {out : List QbtFrameEvent} {d' : QbtProtocolDecoder}
    (h : feedPass env d = ⟨out, d', true⟩) (hconfig : d'.config = d.config)
    (hc : Converges env d') : Converges env d := by
  unfold Converges at hc ⊢
  rw [drain_of_feedPass h]
  dsimp only
  rw [hc, hconfig]

theorem converges_startFrame {n : ℕ} (hs : d.state = .startFrame) (hp : d.pending = none)
    (hb : d.buffer = zeros n) : Converges env d := by
  unfold Converges
  rw [drain_startFrame_zeros hs (by rw [hb, dropWhile_zeros])]
  dsimp only
  rw [hs, hp]

/-- A search for a marker that meets the zeros early enough finds it there. -/
theorem converges_resync {c : List UInt8} {n : ℕ} (hs : d.state = .resync)
    (hp : d.pending = none) (hb : d.buffer = c ++ zeros n) (hc : c.length ≤ 6) (hn : 6 ≤ n) :
    Converges env d := by
  have hpass := feedPass_resync env hs
  cases hf : findSub SYNC_BYTES d.buffer with
  | none =>
      exfalso
      refine not_prefix_drop_of_none hf c.length ?_ ?_
      · rw [hb, List.length_append]
        omega
      · rw [hb, List.drop_left]
        exact sync_prefix_zeros hn
  | some idx =>
      rw [hf] at hpass
      have hdrop : d.buffer.drop (idx + 6) = zeros (n - (idx + 6 - c.length)) := by
        rw [hb, drop_append_zeros (by omega)]
      exact Converges.of_pass hpass rfl (converges_startFrame rfl hp hdrop)

/-- A recovery with enough zeros behind the error converges. -/
theorem converges_recover {u : QbtProtocolDecoder} {err : QbtProtocolError} {n : ℕ}
    (herr : err ≠ .invalidFrameType) (h : feedPass env d = recover [] u err)
    (hconfig : u.config = d.config) (hb : u.buffer = zeros n) (hn : 6 ≤ n) :
    Converges env d := by
  have hne : (!u.buffer.isEmpty) = true := by
    rw [hb, zeros]
    obtain ⟨m, rfl⟩ : ∃ m, n = m + 1 := ⟨n - 1, by omega⟩
    rfl
  rw [recover_eq herr, hne] at h
  have hb' : u.buffer = [] ++ zeros n := hb
  exact Converges.of_pass h hconfig (converges_resync rfl rfl hb' (Nat.zero_le _) hn)

theorem converges_frameType {c : List UInt8} {n : ℕ} (hs : d.state = .frameType)
    (hp : d.pending = none) (hb : d.buffer = c ++ zeros n) (hc : c.length ≤ 2) (hn : 7 ≤ n) :
    Converges env d := by
  have hpass := feedPass_frameType env hs
  cases c with
  | nil =>
      -- the first zero is not a `/`
      obtain ⟨m, rfl⟩ : ∃ m, n = m + 1 := ⟨n - 1, by omega⟩
      rw [show d.buffer = 0 :: zeros m from hb] at hpass
      have hb' : zeros m = [] ++ zeros m := rfl
      exact Converges.of_pass hpass rfl (converges_resync rfl hp hb' (Nat.zero_le _) (by omega))
  | cons x c =>
      have hresync : Converges env { d with buffer := c ++ zeros n, state := .resync } := by
        refine converges_resync rfl hp rfl ?_ (by omega)
        simp only [List.length_cons] at hc
        omega
      -- with at most two bytes before the zeros, no frame prefix fits
      have hno : ∀ a b e : UInt8, e ≠ 0 → ¬ [a, b, e] <+: x :: (c ++ zeros n) := by
        intro a b e he hpre
        have hget := List.prefix_iff_getElem?.mp hpre 2 (by simp)
        have hzero : (x :: (c ++ zeros n))[2]? = some 0 := by
          show (x :: c ++ zeros n)[2]? = some 0
          rw [List.getElem?_append_right (by omega)]
          simp only [zeros, List.getElem?_replicate]
          rw [if_pos (by omega)]
        rw [hzero] at hget
        exact he (by simpa using hget.symm)
      rw [show d.buffer = x :: (c ++ zeros n) from hb] at hpass
      have hlen : ¬ (x :: (c ++ zeros n)).length < 3 := by
        simp only [List.length_cons, List.length_append, zeros, List.length_replicate]
        omega
      dsimp only at hpass
      rw [if_neg hlen, if_neg (hno _ _ _ (by decide)), if_neg (hno _ _ _ (by decide)),
        ite_self] at hpass
      exact Converges.of_pass hpass rfl hresync

/-- The first zero ends a server list. -/
theorem converges_serverList {c : List UInt8} {n : ℕ} (hs : d.state = .qbtServerList)
    (hp : d.pending = none) (hb : d.buffer = c ++ zeros n) (hnul : c.findIdx? (· = 0) = none)
    (hc : c.length ≤ d.config.maxServerListFrameBytes) (hn : 7 ≤ n) : Converges env d := by
  have hfirst : d.buffer.findIdx? (· = 0) = some c.length := by
    obtain ⟨m, rfl⟩ : ∃ m, n = m + 1 := ⟨n - 1, by omega⟩
    rw [hb, List.findIdx?_append, hnul]
    simp [zeros, List.replicate_succ, List.findIdx?_cons]
  have hdrop : d.buffer.drop (c.length + 1) = zeros (n - 1) := by
    rw [hb, drop_append_zeros (by omega)]
    congr 1
    omega
  have hpass := feedPass_serverList_some env hs hfirst hc
  cases hr : readServerList (d.buffer.take c.length) with
  | ok r =>
      rw [hr] at hpass
      exact Converges.of_pass hpass rfl (converges_startFrame rfl hp hdrop)
  | error err =>
      rw [hr] at hpass
      have herr : err ≠ .invalidFrameType := by
        rintro rfl
        exact readServerList_frameTypeOk _ hr
      exact converges_recover herr hpass rfl hdrop (by omega)

/-- Zeros complete a body. -/
theorem converges_blockBody {c : List UInt8} {n : ℕ} {p : PendingSegment}
    (hs : d.state = .blockBody) (hp : d.pending = some p) (hb : d.buffer = c ++ zeros n)
    (hc : c.length ≤ p.length) (hn : p.length ≤ c.length + n) : Converges env d := by
  have hpass := feedPass_blockBody env hs hp
  have hlen : ¬ d.buffer.length < p.length := by
    rw [hb, List.length_append, zeros, List.length_replicate]
    omega
  rw [if_neg hlen] at hpass
  have hdrop : d.buffer.drop p.length = zeros (n - (p.length - c.length)) := by
    rw [hb, drop_append_zeros hc]
  refine Converges.of_pass hpass rfl ?_
  exact Converges.of_pass (feedPass_validate env rfl rfl) rfl (converges_startFrame rfl rfl hdrop)

/-- Zeros complete a header, and then the body it announces or a marker. -/
theorem converges_blockHeader {c : List UInt8} {n : ℕ} (hs : d.state = .blockHeader)
    (hb : d.buffer = c ++ zeros n) (hc : c.length < 80)
    (hn : 86 + max V1_BODY_SIZE d.config.maxV2BodySize ≤ n) : Converges env d := by
  have hpass := feedPass_blockHeader env hs
  have hlen : ¬ d.buffer.length < 80 := by
    rw [hb, List.length_append, zeros, List.length_replicate]
    omega
  have hdrop : d.buffer.drop 80 = zeros (n - (80 - c.length)) := by
    rw [hb, drop_append_zeros hc.le]
  rw [if_neg hlen] at hpass
  cases hh : parseHeader env (d.buffer.take 80) d.config.maxV2BodySize with
  | ok p =>
      rw [hh] at hpass
      have hp := (length_of_parseHeader hh).2
      have hb' : d.buffer.drop 80 = [] ++ zeros (n - (80 - c.length)) := hdrop
      refine Converges.of_pass hpass rfl (converges_blockBody rfl rfl hb' (Nat.zero_le _) ?_)
      rw [List.length_nil]
      omega
  | error err =>
      rw [hh] at hpass
      have herr : err ≠ .invalidFrameType := by
        rintro rfl
        exact parseHeader_frameTypeOk env _ _ hh
      exact converges_recover herr hpass rfl hdrop (by omega)

/-- **Convergence.**  Enough zeros bring every decoder that waits to the start of a frame. -/
theorem converges_of_waiting (hd : DecoderOk d) (hw : Waiting d) {n : ℕ}
    (hn : 86 + max V1_BODY_SIZE d.config.maxV2BodySize ≤ n) :
    Converges env (extendBuffer d (zeros n)) := by
  have hp : d.state ≠ .blockBody → d.state ≠ .validate → d.pending = none :=
    hd.pending_eq_none
  unfold Waiting at hw
  cases hs : d.state with
  | resync =>
      rw [hs] at hw hp
      dsimp only at hw
      exact converges_resync hs (hp (by decide) (by decide)) rfl (by omega) (by omega)
  | startFrame =>
      rw [hs] at hw hp
      refine converges_startFrame hs (hp (by decide) (by decide)) (n := n) ?_
      show d.buffer ++ zeros n = zeros n
      rw [show d.buffer = [] from hw, List.nil_append]
  | frameType =>
      rw [hs] at hw hp
      exact converges_frameType hs (hp (by decide) (by decide)) rfl hw (by omega)
  | qbtServerList =>
      rw [hs] at hw hp
      exact converges_serverList hs (hp (by decide) (by decide)) rfl hw.1 hw.2 (by omega)
  | blockHeader =>
      rw [hs] at hw
      exact converges_blockHeader hs rfl hw hn
  | blockBody =>
      rw [hs] at hw
      obtain ⟨p, hpend⟩ := hd.exists_pending (Or.inl hs)
      have hlt : d.buffer.length < p.length := hw p hpend
      have hle := (hd.length_le p hpend).2
      exact converges_blockBody hs hpend rfl hlt.le (by omega)
  | validate =>
      rw [hs] at hw
      exact hw.elim

end Convergence

/-! ## A frame after the zeros -/

/-- The payload of a body: inflated where that is attempted and succeeds. -/
def payload (env : CodecEnv) (config : QbtDecodeConfig) (version : QbtProtocolVersion)
    (body : List UInt8) : List UInt8 :=
  if shouldAttempt config version body then
    match env.inflate body with
    | .ok decompressed => decompressed
    | .error _ => body
  else body

/-- A data frame the protocol calls well formed: `p` is what its header announces. -/
structure WellFormedFrame (env : CodecEnv) (config : QbtDecodeConfig)
    (header body : List UInt8) (p : PendingSegment) : Prop where
  header_length : header.length = 80
  accepted : parseHeader env header config.maxV2BodySize = .ok p
  body_length : body.length = p.length
  inflates : shouldAttempt config p.version body = true → ∃ content, env.inflate body = .ok content
  numbering : p.totalBlocks ≠ 0 ∧ p.blockNumber ≠ 0 ∧ p.blockNumber ≤ p.totalBlocks
  checksum : verifyChecksum (payload env config p.version body)
    (expectedChecksum p.version p.checksum) = true
  not_fill : Str.eqIgnoreAsciiCase p.filename "FILLFILE.TXT".toList = false

section Frames

variable {env : CodecEnv} {config : QbtDecodeConfig} {header body : List UInt8}
  {p : PendingSegment}

/-- The body of a well-formed frame is filled in without a warning. -/
theorem WellFormedFrame.fillBody_eq (h : WellFormedFrame env config header body p) :
    fillBody env config p body = { p with content := payload env config p.version body } := by
  unfold fillBody payload
  split
  · next hattempt =>
      obtain ⟨content, hinflate⟩ := h.inflates hattempt
      rw [hinflate]
  · rfl

/-- A well-formed frame passes the checks of `validateAndEmit`. -/
theorem WellFormedFrame.validated_eq (h : WellFormedFrame env config header body p) :
    validated { p with content := payload env config p.version body } =
      [.dataBlock (emittedSegment { p with content := payload env config p.version body })] := by
  obtain ⟨-, -, -, hfailed⟩ := parseHeader_eq_ok h.accepted
  obtain ⟨h1, h2, h3⟩ := h.numbering
  unfold validated
  rw [if_neg (by simp [hfailed]), if_neg, if_neg (by rw [h.not_fill]; decide), if_pos h.checksum]
  rintro (h | h | h)
  · exact h1 h
  · exact h2 h
  · exact absurd h3 (UInt32.not_le.mpr h)

/-- From the start of a frame, a well-formed frame is emitted and leaves nothing behind. -/
theorem drain_frame {d : QbtProtocolDecoder} (h : WellFormedFrame env d.config header body p)
    (hs : d.state = .startFrame) (hb : d.buffer = header ++ body) :
    (feedLoop env).drain d =
      (p.warnings.map .warning ++
        [.dataBlock (emittedSegment { p with content := payload env d.config p.version body })],
        { d with buffer := [], pending := none }) := by
  obtain ⟨rest, hrest⟩ := (prefix_of_parseHeader h.accepted).trans (List.prefix_append header body)
  have hstart : d.buffer.dropWhile (· = 0) = header ++ body := by
    rw [hb, ← hrest]
    rfl
  have hpass1 := feedPass_startFrame env hs
  rw [hstart, if_pos (by rw [← hrest]; simp)] at hpass1
  have hpass2 : feedPass env { d with buffer := header ++ body, state := .frameType } =
      ⟨[], { d with buffer := header ++ body, state := .blockHeader }, true⟩ := by
    rw [feedPass_frameType env rfl, ← hrest]
    rfl
  have hpass3 : feedPass env { d with buffer := header ++ body, state := .blockHeader } =
      ⟨[], { d with buffer := body, pending := some p, state := .blockBody }, true⟩ := by
    rw [feedPass_blockHeader env rfl]
    dsimp only
    rw [if_neg (by rw [List.length_append, h.header_length]; omega),
      List.take_left' h.header_length, List.drop_left' h.header_length, h.accepted]
  have hpass4 : feedPass env { d with buffer := body, pending := some p, state := .blockBody } =
      ⟨[], { d with buffer := [], pending := some (fillBody env d.config p body),
                    state := .validate }, true⟩ := by
    rw [feedPass_blockBody env rfl rfl]
    dsimp only
    rw [if_neg (by rw [h.body_length]; omega), ← h.body_length, List.take_length,
      List.drop_length]
  have hdone : (feedLoop env).drain { d with buffer := [], pending := none, state := .startFrame } =
      ([], { d with buffer := [], pending := none, state := .startFrame }) :=
    drain_startFrame_zeros rfl rfl
  rw [drain_of_feedPass hpass1, drain_of_feedPass hpass2, drain_of_feedPass hpass3,
    drain_of_feedPass hpass4, drain_of_feedPass (feedPass_validate env rfl rfl), hdone,
    h.fillBody_eq, h.validated_eq]
  simp [hs]

end Frames

/-- **Self-synchronisation.**  After enough zero bytes every reachable decoder stands at
the start of a frame with nothing buffered or pending, and a well-formed data frame fed
next, in whatever pieces, is emitted as one data block with the fields of its header. -/
theorem feed_self_synchronises (env : CodecEnv) (config : QbtDecodeConfig)
    {d : QbtProtocolDecoder} (hd : Reachable env config d) (padding : List (List UInt8)) (N : ℕ)
    (hpadding : padding.flatten = xorFf (zeros N))
    (hN : 86 + max 1024 config.maxV2BodySize ≤ N) :
    ((feedAll env d padding).2.state = .startFrame ∧ (feedAll env d padding).2.buffer = [] ∧
      (feedAll env d padding).2.pending = none) ∧
    ∀ (header body : List UInt8) (p : PendingSegment) (chunks : List (List UInt8)),
      WellFormedFrame env config header body p → chunks.flatten = xorFf (header ++ body) →
      (feedAll env (feedAll env d padding).2 chunks).1 = p.warnings.map .warning ++
        [.dataBlock {
          filename := p.filename
          blockNumber := p.blockNumber
          totalBlocks := p.totalBlocks
          content := if isTextOrWmo p.filename
            then trimTextPadding (payload env config p.version body)
            else payload env config p.version body
          checksum := p.checksum
          length := p.length
          version := p.version
          timestampUtc := p.timestampUtc
          source := none }] := by
  obtain ⟨hok, hconfig⟩ := hd.ok
  have hdecoder : (feedAll env d padding).2 =
      { d with buffer := [], state := .startFrame, pending := none } := by
    rw [feedAll_eq_feed hok hd.settled, hpadding]
    unfold feed Ranked.feed
    rw [xorFf_xorFf]
    refine converges_of_waiting hok hd.waiting ?_
    rw [hconfig]
    exact hN
  refine ⟨by rw [hdecoder]; exact ⟨rfl, rfl, rfl⟩, ?_⟩
  intro header body p chunks hframe hchunks
  set u : QbtProtocolDecoder := { d with buffer := [], state := .startFrame, pending := none }
    with hu
  have huok : DecoderOk u := DecoderOk.of_none rfl (by simp [hu]) (by simp [hu])
  have huframe : WellFormedFrame env (extendBuffer u (header ++ body)).config header body p := by
    show WellFormedFrame env d.config header body p
    rw [hconfig]
    exact ⟨hframe.header_length, hframe.accepted, hframe.body_length, hframe.inflates,
      hframe.numbering, hframe.checksum, hframe.not_fill⟩
  rw [hdecoder, feedAll_eq_feed huok (drain_startFrame_zeros rfl rfl), hchunks]
  unfold feed Ranked.feed
  rw [xorFf_xorFf, drain_frame huframe rfl rfl]
  show _ ++ [QbtFrameEvent.dataBlock (emittedSegment _)] = _
  rw [show (extendBuffer u (header ++ body)).config = d.config from rfl, hconfig]
  rfl

/-- A V2 header whose `/FD` field is no timestamp. -/
def helloHeader : List UInt8 :=
  Utf8.encode ("/PFHELLO.TXT /PN1 /PT1 /CS372 /FDnever /DL5".toList ++ List.replicate 37 ' ')

/-- What `helloHeader` announces. -/
def helloPending : PendingSegment where
  filename := "HELLO.TXT".toList
  blockNumber := 1
  totalBlocks := 1
  checksum := 372
  length := 5
  version := .v2
  content := []
  timestampUtc := 0
  warnings := [.timestampParseFallback "never".toList]
  decompressionFailed := false

theorem hello_wellFormed :
    WellFormedFrame .bare .default helloHeader (Utf8.encode "HELLO".toList) helloPending where
  header_length := by decide +kernel
  accepted := by decide +kernel
  body_length := by decide +kernel
  inflates h := absurd h (by decide +kernel)
  numbering := by decide
  checksum := by decide +kernel
  not_fill := by decide +kernel

/-- A fresh decoder reads the block after 2000 zeros. -/
theorem feed_self_synchronises_hello :
    ((feedAll .bare (QbtProtocolDecoder.new .default) [xorFf (zeros 2000)]).2.state = .startFrame ∧
      Reachable .bare .default (QbtProtocolDecoder.new .default)) ∧
    ∃ segment : QbtSegment, segment.filename = "HELLO.TXT".toList ∧
      (feedAll .bare (feedAll .bare (QbtProtocolDecoder.new .default) [xorFf (zeros 2000)]).2
        [xorFf (helloHeader ++ Utf8.encode "HELLO".toList)]).1 =
          [.warning (.timestampParseFallback "never".toList), .dataBlock segment] := by
  have h := feed_self_synchronises .bare .default .new [xorFf (zeros 2000)] 2000
    (List.append_nil _) (by decide)
  refine ⟨⟨h.1.1, .new⟩, _, ?_, h.2 helloHeader _ helloPending _ hello_wellFormed
    (List.append_nil _)⟩
  rfl

end Qbt
