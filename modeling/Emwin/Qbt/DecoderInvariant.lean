/-
# What holds of every decoder

`DecoderOk` is the invariant of the decoder: a segment is pending exactly in the
two states that need one, and its announced length respects the limits.  Every
pass of the loop keeps it (`feedPass_ok`), so it holds of every reachable decoder
and in every pass on the way.  A pass without progress, which is how `feed` is
left, leaves a decoder that waits for input (`feedPass_waiting`): `Waiting` says
for each state what it can still hold on to.
-/
import Emwin.Qbt.Codec

namespace Qbt

open ListSearch StepLoop

/-- The invariant of the decoder. -/
structure DecoderOk (d : QbtProtocolDecoder) : Prop where
  /-- A segment is pending exactly while its body is read or validated. -/
  pending_iff : d.pending.isSome = true ↔ d.state = .blockBody ∨ d.state = .validate
  /-- The announced length of a pending segment respects the limits. -/
  length_le : ∀ p, d.pending = some p →
    0 < p.length ∧ p.length ≤ max V1_BODY_SIZE d.config.maxV2BodySize

/-- A decoder between two feeds: it holds on to too few bytes for its state. -/
def Waiting (d : QbtProtocolDecoder) : Prop :=
  match d.state with
  | .resync => d.buffer.length ≤ 5
  | .startFrame => d.buffer = []
  | .frameType => d.buffer.length ≤ 2
  | .qbtServerList => d.buffer.findIdx? (· = 0) = none ∧
      d.buffer.length ≤ d.config.maxServerListFrameBytes
  | .blockHeader => d.buffer.length < 80
  | .blockBody => ∀ p, d.pending = some p → d.buffer.length < p.length
  | .validate => False

/-! ## One pass keeps the invariant -/

/-- A decoder outside the two body states with nothing pending satisfies the invariant. -/
theorem DecoderOk.of_none {d : QbtProtocolDecoder} (hp : d.pending = none)
    (hs : d.state ≠ .blockBody) (hs' : d.state ≠ .validate) : DecoderOk d where
  pending_iff := by simp [hp, hs, hs']
  length_le := by simp [hp]

/-- Outside the two body states nothing is pending. -/
theorem DecoderOk.pending_eq_none {d : QbtProtocolDecoder} (hd : DecoderOk d)
    (hs : d.state ≠ .blockBody) (hs' : d.state ≠ .validate) : d.pending = none := by
  cases hp : d.pending with
  | none => rfl
  | some p =>
      have := hd.pending_iff.mp (by rw [hp]; rfl)
      simp [hs, hs'] at this

/-- In the two body states a segment is pending. -/
theorem DecoderOk.exists_pending {d : QbtProtocolDecoder} (hd : DecoderOk d)
    (hs : d.state = .blockBody ∨ d.state = .validate) : ∃ p, d.pending = some p :=
  Option.isSome_iff_exists.mp (hd.pending_iff.mpr hs)

theorem recover_ok (out : List QbtFrameEvent) (d : QbtProtocolDecoder)
    (err : QbtProtocolError) : DecoderOk (recover out d err).state := by
  obtain ⟨h1, h2, -, -⟩ := recover_state out d err
  exact DecoderOk.of_none h2 (by rw [h1]; decide) (by rw [h1]; decide)

theorem fillBody_length (env : CodecEnv) (config : QbtDecodeConfig) (p : PendingSegment)
    (body : List UInt8) : (fillBody env config p body).length = p.length := by
  unfold fillBody
  split
  · split <;> rfl
  · rfl

/-- **Step.**  Every pass keeps the invariant and the configuration. -/
theorem feedPass_ok (env : CodecEnv) (d : QbtProtocolDecoder) (hd : DecoderOk d) :
    DecoderOk (feedPass env d).state ∧ (feedPass env d).state.config = d.config := by
  cases hs : d.state with
  | resync =>
      have hp := hd.pending_eq_none (by simp [hs]) (by simp [hs])
      rw [feedPass_resync env hs]
      split
      · exact ⟨DecoderOk.of_none hp (by simp) (by simp), rfl⟩
      · exact ⟨DecoderOk.of_none hp (by simp [hs]) (by simp [hs]), rfl⟩
  | startFrame =>
      have hp := hd.pending_eq_none (by simp [hs]) (by simp [hs])
      rw [feedPass_startFrame env hs]
      split
      · exact ⟨DecoderOk.of_none hp (by simp) (by simp), rfl⟩
      · exact ⟨DecoderOk.of_none hp (by simp [hs]) (by simp [hs]), rfl⟩
  | frameType =>
      have hp := hd.pending_eq_none (by simp [hs]) (by simp [hs])
      rw [feedPass_frameType env hs]
      split
      · exact ⟨hd, rfl⟩
      · split_ifs
        · exact ⟨DecoderOk.of_none hp (by simp) (by simp), rfl⟩
        · exact ⟨hd, rfl⟩
        all_goals exact ⟨DecoderOk.of_none hp (by simp) (by simp), rfl⟩
  | qbtServerList =>
      have hp := hd.pending_eq_none (by simp [hs]) (by simp [hs])
      have hdisc : DecoderOk (discardMalformedServerList d)
          ∧ (discardMalformedServerList d).config = d.config :=
        ⟨DecoderOk.of_none hp (by simp [discardMalformedServerList])
          (by simp [discardMalformedServerList]), rfl⟩
      cases hnul : d.buffer.findIdx? (· = 0) with
      | none =>
          rw [feedPass_serverList_none env hs hnul]
          split
          · exact hdisc
          · exact ⟨hd, rfl⟩
      | some e =>
          by_cases he : d.config.maxServerListFrameBytes < e
          · rw [feedPass_serverList_exceeded env hs hnul he]
            exact hdisc
          · rw [feedPass_serverList_some env hs hnul (by omega)]
            split
            · exact ⟨DecoderOk.of_none hp (by simp) (by simp), rfl⟩
            · exact ⟨recover_ok _ _ _, (recover_state _ _ _).2.2.1⟩
  | blockHeader =>
      rw [feedPass_blockHeader env hs]
      split
      · exact ⟨hd, rfl⟩
      · cases hh : parseHeader env (d.buffer.take 80) d.config.maxV2BodySize with
        | error err => exact ⟨recover_ok _ _ _, (recover_state _ _ _).2.2.1⟩
        | ok p =>
            refine ⟨⟨by simp, ?_⟩, rfl⟩
            intro q hq
            obtain rfl := Option.some.inj hq
            exact length_of_parseHeader hh
  | blockBody =>
      obtain ⟨p, hp⟩ := hd.exists_pending (Or.inl hs)
      rw [feedPass_blockBody env hs hp]
      split
      · exact ⟨hd, rfl⟩
      · refine ⟨⟨by simp, ?_⟩, rfl⟩
        intro q hq
        obtain rfl := Option.some.inj hq
        rw [fillBody_length]
        exact hd.length_le p hp
  | validate =>
      obtain ⟨p, hp⟩ := hd.exists_pending (Or.inr hs)
      rw [feedPass_validate env hs hp]
      exact ⟨DecoderOk.of_none rfl (by simp) (by simp), rfl⟩

/-! ## The invalid frame type never occurs -/

/-- A result that is not the error for an invalid frame type. -/
def FrameTypeOk {α : Type} (x : Except QbtProtocolError α) : Prop :=
  x ≠ .error .invalidFrameType

/-- An error that is passed on is not this one either. -/
theorem FrameTypeOk.of_error {α β : Type} {x : Except QbtProtocolError α} {err : QbtProtocolError}
    (hx : FrameTypeOk x) (herr : x = .error err) :
    FrameTypeOk (.error err : Except QbtProtocolError β) := by
  intro h
  apply hx
  rw [herr]
  injection h with h
  rw [h]

theorem FrameTypeOk.bind {α β : Type} {x : Except QbtProtocolError α}
    {f : α → Except QbtProtocolError β} (hx : FrameTypeOk x) (hf : ∀ a, FrameTypeOk (f a)) :
    FrameTypeOk (x >>= f) := by
  cases x with
  | error err => exact hx.of_error rfl
  | ok a => exact hf a

theorem fromUtf8_frameTypeOk (input : List UInt8) : FrameTypeOk (fromUtf8 input) := by
  unfold fromUtf8 FrameTypeOk
  split <;> simp

theorem parseTagValue_frameTypeOk (input tag : Str) : FrameTypeOk (parseTagValue input tag) := by
  unfold parseTagValue FrameTypeOk
  split
  · simp
  · dsimp only
    split_ifs <;> simp

theorem parseNumericTag_frameTypeOk (input tag : Str) :
    FrameTypeOk (parseNumericTag input tag) := by
  have h := parseTagValue_frameTypeOk input tag
  unfold parseNumericTag FrameTypeOk at *
  split
  · next err herr => exact FrameTypeOk.of_error h herr
  · split <;> simp

theorem parseDl_frameTypeOk (rest : Str) : FrameTypeOk (parseDl rest) := by
  have h := parseNumericTag_frameTypeOk (Str.trim rest) "/DL".toList
  unfold parseDl FrameTypeOk at *
  dsimp only
  split_ifs
  · simp
  · split
    · next err herr => exact FrameTypeOk.of_error h herr
    · split_ifs <;> simp

theorem bodyLength_frameTypeOk (maxV2BodySize : ℕ) (dl : Option UInt32) :
    FrameTypeOk (bodyLength maxV2BodySize dl) := by
  unfold bodyLength FrameTypeOk
  split
  · split_ifs <;> simp
  · simp

/-- The header parser has errors of its own, but not this one. -/
theorem parseHeader_frameTypeOk (env : CodecEnv) (input : List UInt8) (maxV2BodySize : ℕ) :
    FrameTypeOk (parseHeader env input maxV2BodySize) := by
  unfold parseHeader
  refine (fromUtf8_frameTypeOk _).bind fun _ => ?_
  refine (parseTagValue_frameTypeOk _ _).bind fun _ => ?_
  refine (parseNumericTag_frameTypeOk _ _).bind fun _ => ?_
  refine (parseNumericTag_frameTypeOk _ _).bind fun _ => ?_
  refine (parseNumericTag_frameTypeOk _ _).bind fun _ => ?_
  refine (parseTagValue_frameTypeOk _ _).bind fun _ => ?_
  refine (parseDl_frameTypeOk _).bind fun _ => ?_
  exact (bodyLength_frameTypeOk _ _).bind fun _ => by simp [FrameTypeOk, pure, Except.pure]

/-- Nor does the server-list parser return it. -/
theorem readServerList_frameTypeOk (content : List UInt8) :
    FrameTypeOk (readServerList content) := by
  refine (fromUtf8_frameTypeOk _).bind fun text => ?_
  unfold parseServerListFrame FrameTypeOk
  split_ifs <;> simp

theorem processServerList_frameTypeOk (d : QbtProtocolDecoder) :
    FrameTypeOk (processServerList d).result := by
  unfold processServerList
  split
  · split_ifs <;> simp [FrameTypeOk]
  · next e _ =>
      split_ifs
      · simp [FrameTypeOk]
      · have h := readServerList_frameTypeOk (d.buffer.take e)
        unfold readServerList at h
        dsimp only
        cases hu : fromUtf8 (d.buffer.take e) with
        | error err => exact (fromUtf8_frameTypeOk _).of_error hu
        | ok content =>
            rw [hu] at h
            dsimp only
            have h : FrameTypeOk (parseServerListFrame content) := h
            cases hp : parseServerListFrame content with
            | error err => exact h.of_error hp
            | ok r => simp [FrameTypeOk]

/-- No handler meets a missing segment. -/
theorem processBuffer_frameTypeOk (env : CodecEnv) {d : QbtProtocolDecoder} (hd : DecoderOk d) :
    FrameTypeOk (processBuffer env d).result := by
  unfold processBuffer
  cases hs : d.state with
  | resync => simp [FrameTypeOk, Handled.quiet]
  | startFrame => simp [FrameTypeOk, Handled.quiet]
  | frameType => simp [FrameTypeOk, Handled.quiet]
  | qbtServerList => exact processServerList_frameTypeOk d
  | blockHeader =>
      dsimp only
      unfold processBlockHeader
      split_ifs
      · simp [FrameTypeOk]
      · have h := parseHeader_frameTypeOk env (d.buffer.take HEADER_SIZE) d.config.maxV2BodySize
        dsimp only
        cases hh : parseHeader env (d.buffer.take HEADER_SIZE) d.config.maxV2BodySize with
        | error err => exact h.of_error hh
        | ok p => simp [FrameTypeOk]
  | blockBody =>
      obtain ⟨p, hp⟩ := hd.exists_pending (Or.inl hs)
      dsimp only
      unfold processBlockBody
      rw [hp]
      dsimp only
      split_ifs <;> simp [FrameTypeOk]
  | validate =>
      obtain ⟨p, hp⟩ := hd.exists_pending (Or.inr hs)
      dsimp only
      unfold validateAndEmit
      rw [hp]
      simp [FrameTypeOk]

/-! ## What stays in the buffer -/

/-- Recovery stops only with an empty buffer. -/
theorem recover_stop {out : List QbtFrameEvent} {d : QbtProtocolDecoder} {err : QbtProtocolError}
    (h : (recover out d err).again = false) : (recover out d err).state.buffer = [] := by
  unfold recover at h ⊢
  dsimp only at h ⊢
  split_ifs at h ⊢
  · simpa using h

/-- A search for a marker with nothing to look at waits. -/
theorem recover_waiting {out : List QbtFrameEvent} {d : QbtProtocolDecoder}
    {err : QbtProtocolError} (h : (recover out d err).again = false) :
    Waiting (recover out d err).state := by
  unfold Waiting
  rw [(recover_state out d err).1, recover_stop h]
  exact Nat.zero_le _

/-- **Step.**  A pass without progress leaves a decoder that waits. -/
theorem feedPass_waiting (env : CodecEnv) {d : QbtProtocolDecoder} (hd : DecoderOk d)
    (hstop : (feedPass env d).again = false) : Waiting (feedPass env d).state := by
  cases hs : d.state with
  | resync =>
      rw [feedPass_resync env hs] at hstop ⊢
      cases hf : findSub SYNC_BYTES d.buffer with
      | some idx => rw [hf] at hstop; cases hstop
      | none =>
          simp only [Waiting, hs, length_rtake]
          omega
  | startFrame =>
      rw [feedPass_startFrame env hs] at hstop ⊢
      split at hstop
      · cases hstop
      · next hrest =>
          rw [if_neg hrest]
          simp only [Waiting, hs]
  | frameType =>
      rw [feedPass_frameType env hs] at hstop ⊢
      cases hb : d.buffer with
      | nil => simp [Waiting, hs, hb]
      | cons b rest =>
          simp only [hb] at hstop ⊢
          split_ifs at hstop ⊢ with h1 h2
          simp only [Waiting, hs, hb]
          omega
  | qbtServerList =>
      cases hnul : d.buffer.findIdx? (· = 0) with
      | none =>
          rw [feedPass_serverList_none env hs hnul] at hstop ⊢
          split_ifs at hstop ⊢ with h1
          simp only [Waiting, hs]
          exact ⟨hnul, not_lt.mp h1⟩
      | some e =>
          by_cases he : d.config.maxServerListFrameBytes < e
          · rw [feedPass_serverList_exceeded env hs hnul he] at hstop
            cases hstop
          · rw [feedPass_serverList_some env hs hnul (by omega)] at hstop ⊢
            cases hr : readServerList (d.buffer.take e) with
            | ok r => rw [hr] at hstop; cases hstop
            | error err => rw [hr] at hstop; exact recover_waiting hstop
  | blockHeader =>
      rw [feedPass_blockHeader env hs] at hstop ⊢
      split_ifs at hstop ⊢ with hlen
      · simpa only [Waiting, hs] using hlen
      · cases hh : parseHeader env (d.buffer.take 80) d.config.maxV2BodySize with
        | ok p => rw [hh] at hstop; cases hstop
        | error err => rw [hh] at hstop; exact recover_waiting hstop
  | blockBody =>
      obtain ⟨p, hp⟩ := hd.exists_pending (Or.inl hs)
      rw [feedPass_blockBody env hs hp] at hstop ⊢
      split_ifs at hstop ⊢ with hlen
      simp only [Waiting, hs]
      intro q hq
      rw [hp] at hq
      cases hq
      exact hlen
  | validate =>
      obtain ⟨p, hp⟩ := hd.exists_pending (Or.inr hs)
      rw [feedPass_validate env hs hp] at hstop
      cases hstop

/-! ## Every reachable decoder -/

theorem new_ok (config : QbtDecodeConfig) : DecoderOk (QbtProtocolDecoder.new config) :=
  DecoderOk.of_none rfl (by simp [QbtProtocolDecoder.new]) (by simp [QbtProtocolDecoder.new])

theorem extendBuffer_ok {d : QbtProtocolDecoder} (hd : DecoderOk d) (w : List UInt8) :
    DecoderOk (extendBuffer d w) :=
  ⟨hd.pending_iff, hd.length_le⟩

/-- **Run.**  `feed` keeps the invariant and the configuration. -/
theorem feed_ok (env : CodecEnv) {d : QbtProtocolDecoder} (hd : DecoderOk d)
    (chunk : List UInt8) :
    DecoderOk (feed env d chunk).2 ∧ (feed env d chunk).2.config = d.config := by
  have hruns := (feedLoop env).runs_drain (extendBuffer d (xorFf chunk))
  refine hruns.invariant (P := fun u => DecoderOk u ∧ u.config = d.config) ?_
    ⟨extendBuffer_ok hd _, rfl⟩
  rintro u ⟨hu, hc⟩
  obtain ⟨h1, h2⟩ := feedPass_ok env u hu
  exact ⟨h1, h2.trans hc⟩

/-- Every reachable decoder satisfies the invariant and keeps its configuration. -/
theorem Reachable.ok {env : CodecEnv} {config : QbtDecodeConfig} {d : QbtProtocolDecoder}
    (h : Reachable env config d) :
    DecoderOk d ∧ d.config = (QbtProtocolDecoder.new config).config := by
  induction h with
  | new => exact ⟨new_ok config, rfl⟩
  | feed chunk _ ih =>
      obtain ⟨h1, h2⟩ := feed_ok env ih.1 chunk
      exact ⟨h1, h2.trans ih.2⟩
  | reset _ ih => exact ⟨DecoderOk.of_none rfl (by simp [Qbt.reset]) (by simp [Qbt.reset]), ih.2⟩

/-- **Run.**  After `feed` the decoder waits for input. -/
theorem feed_waiting (env : CodecEnv) {d : QbtProtocolDecoder} (hd : DecoderOk d)
    (chunk : List UInt8) : Waiting (feed env d chunk).2 := by
  have hruns := (feedLoop env).runs_drain (extendBuffer d (xorFf chunk))
  obtain ⟨u, hu, hstop, ht⟩ := hruns.exists_stop
    (fun u (hu : DecoderOk u) => (feedPass_ok env u hu).1) (extendBuffer_ok hd _)
  have h : Waiting (feedPass env u).state := feedPass_waiting env hu hstop
  rwa [← show (feed env d chunk).2 = (feedPass env u).state from ht] at h

/-- Every reachable decoder waits for input. -/
theorem Reachable.waiting {env : CodecEnv} {config : QbtDecodeConfig} {d : QbtProtocolDecoder}
    (h : Reachable env config d) : Waiting d := by
  cases h with
  | new => exact Nat.zero_le _
  | feed chunk hd => exact feed_waiting env hd.ok.1 chunk
  | reset _ => exact Nat.zero_le _

/-- A decoder that waits is not validating. -/
theorem Waiting.ne_validate {d : QbtProtocolDecoder} (h : Waiting d) : d.state ≠ .validate := by
  intro hs
  simp only [Waiting, hs] at h

/-- A decoder that waits holds on to a bounded number of bytes. -/
theorem Waiting.length_le {d : QbtProtocolDecoder} (h : Waiting d) (hd : DecoderOk d) :
    d.buffer.length ≤ max (max d.config.maxServerListFrameBytes 79)
      (max V1_BODY_SIZE d.config.maxV2BodySize - 1) := by
  unfold Waiting at h
  cases hs : d.state with
  | resync => rw [hs] at h; dsimp only at h; omega
  | startFrame => rw [hs] at h; dsimp only at h; simp [h]
  | frameType => rw [hs] at h; dsimp only at h; omega
  | qbtServerList => rw [hs] at h; dsimp only at h; omega
  | blockHeader => rw [hs] at h; dsimp only at h; omega
  | blockBody =>
      rw [hs] at h
      obtain ⟨p, hp⟩ := hd.exists_pending (Or.inl hs)
      have hlt : d.buffer.length < p.length := h p hp
      have hle := (hd.length_le p hp).2
      omega
  | validate => rw [hs] at h; exact h.elim

/-- **Bounded retention.**  From every reachable decoder the loop of `feed`
terminates and never meets an invalid frame type; afterwards a segment is pending
exactly in the body states, validation is over, and the buffer is bounded. -/
theorem feed_bounded_consistent (env : CodecEnv) (config : QbtDecodeConfig)
    {d : QbtProtocolDecoder} (hd : Reachable env config d) (chunk : List UInt8) :
    Runs (feedPass env) (extendBuffer d (xorFf chunk)) (feed env d chunk).1 (feed env d chunk).2 ∧
    (∀ u, Visits (feedPass env) (extendBuffer d (xorFf chunk)) u →
      (processBuffer env u).result ≠ .error .invalidFrameType) ∧
    ((feed env d chunk).2.pending.isSome = true ↔
      (feed env d chunk).2.state = .blockBody ∨ (feed env d chunk).2.state = .validate) ∧
    (feed env d chunk).2.state ≠ .validate ∧
    (feed env d chunk).2.buffer.length ≤
      max (max (max config.maxServerListFrameBytes 1024) 79)
        (max 1024 config.maxV2BodySize - 1) := by
  obtain ⟨hok, hconfig⟩ := hd.ok
  obtain ⟨hok', hconfig'⟩ := feed_ok env hok chunk
  have hwait := feed_waiting env hok chunk
  refine ⟨(feedLoop env).runs_drain _, ?_, hok'.pending_iff, hwait.ne_validate, ?_⟩
  · intro u hu
    have huok := hu.invariant (fun s hs => (feedPass_ok env s hs).1) (extendBuffer_ok hok _)
    exact processBuffer_frameTypeOk env huok
  · have hle := hwait.length_le hok'
    rw [hconfig', hconfig] at hle
    exact hle

/-- The bound at a decoder that has just consumed a sync marker and a stray `/`. -/
theorem feed_bounded_consistent_slash :
    Reachable .bare .default (QbtProtocolDecoder.new .default) ∧
      (feed .bare (QbtProtocolDecoder.new .default)
        (xorFf [0, 0, 0, 0, 0, 0, 0x2F])).2.buffer.length ≤ 65536 :=
  ⟨.new, (feed_bounded_consistent .bare .default .new (xorFf [0, 0, 0, 0, 0, 0, 0x2F])).2.2.2.2⟩

end Qbt
