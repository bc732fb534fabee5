/-
# Independence of the cuts

Feeding a byte string in pieces gives the same events and the same decoder as
feeding it at once.  By `Ranked.feedAll_eq_feed_flatten` it is enough that one
pass absorbs input: running the loop with more bytes in the buffer is one pass on
the old bytes and then the loop with the new ones.

The states differ in how they wait for input.  A pass that has seen enough does
the same with more bytes behind (`absorbs_of_pass`); a pass that waits changes
nothing; a search for the sync marker may forget all but the last five bytes.
-/
import Emwin.Qbt.DecoderInvariant
import Mathlib.Data.List.Infix

namespace Qbt

open ListSearch StepLoop

section Absorbing

variable (env : CodecEnv)

/-- One pass and then the loop on the extended buffer, against the loop at once. -/
def Absorbs (d : QbtProtocolDecoder) (w : List UInt8) : Prop :=
  (feedLoop env).drain (extendBuffer d w) =
    ((feedPass env d).out ++ ((feedLoop env).drain (extendBuffer (feedPass env d).state w)).1,
      ((feedLoop env).drain (extendBuffer (feedPass env d).state w)).2)

variable {env} {d : QbtProtocolDecoder} {w : List UInt8}

/-- One pass with progress, and what the loop does after it. -/
theorem drain_of_feedPass {d' : QbtProtocolDecoder} {out : List QbtFrameEvent}
    (h : feedPass env d = ⟨out, d', true⟩) :
    (feedLoop env).drain d =
      (out ++ ((feedLoop env).drain d').1, ((feedLoop env).drain d').2) := by
  have hbody : (feedLoop env).body d = ⟨out, d', true⟩ := h
  rw [(feedLoop env).drain_of_again (by rw [hbody]), hbody]

/-- One pass without progress is all the loop does. -/
theorem drain_of_feedPass_stop {d' : QbtProtocolDecoder} {out : List QbtFrameEvent}
    (h : feedPass env d = ⟨out, d', false⟩) : (feedLoop env).drain d = (out, d') := by
  have hbody : (feedLoop env).body d = ⟨out, d', false⟩ := h
  rw [(feedLoop env).drain_of_stop (by rw [hbody]), hbody]

/-- A pass that changes nothing absorbs input. -/
theorem absorbs_of_idle (h : feedPass env d = ⟨[], d, false⟩) : Absorbs env d w := by
  unfold Absorbs
  rw [h]
  rfl

/-- A pass that does the same with more bytes behind absorbs them. -/
theorem absorbs_of_pass {out : List QbtFrameEvent} {d' : QbtProtocolDecoder} {again again' : Bool}
    (h : feedPass env d = ⟨out, d', again⟩)
    (h' : feedPass env (extendBuffer d w) = ⟨out, extendBuffer d' w, again'⟩)
    (hagain : again' = true ∨
      (feedLoop env).drain (extendBuffer d' w) = ([], extendBuffer d' w)) :
    Absorbs env d w := by
  unfold Absorbs
  rw [h]
  rcases hagain with rfl | hdone
  · exact drain_of_feedPass h'
  · cases again' with
    | true => exact drain_of_feedPass h'
    | false => rw [drain_of_feedPass_stop h', hdone, List.append_nil]

/-- A pass without output whose result leads to the same next pass absorbs input. -/
theorem absorbs_of_feedPass_eq {d' : QbtProtocolDecoder} {again : Bool}
    (h : feedPass env d = ⟨[], d', again⟩)
    (h' : feedPass env (extendBuffer d w) = feedPass env (extendBuffer d' w)) :
    Absorbs env d w := by
  unfold Absorbs
  rw [h, (feedLoop env).drain_congr h']
  rfl

/-! ## Searching for a marker -/

/-- The bytes a search keeps are all that later searches need. -/
theorem feedPass_resync_rtake (hs : d.state = .resync)
    (hf : findSub SYNC_BYTES d.buffer = none) (w : List UInt8) :
    feedPass env (extendBuffer { d with buffer := d.buffer.rtake 5 } w) =
      feedPass env (extendBuffer d w) := by
  have happend : findSub SYNC_BYTES (d.buffer ++ w) =
      (findSub SYNC_BYTES (d.buffer.rtake 5 ++ w)).map (· + (d.buffer.length - 5)) :=
    findSub_append_of_none hf w
  have hs' : (extendBuffer d w).state = .resync := hs
  have hkept : (extendBuffer { d with buffer := d.buffer.rtake 5 } w).state = .resync := hs
  rw [feedPass_resync env hs', feedPass_resync env hkept]
  simp only [extendBuffer]
  rw [happend]
  cases findSub SYNC_BYTES (d.buffer.rtake 5 ++ w) with
  | none => simp only [Option.map_none, rtake_rtake_append]
  | some idx =>
      have hdrop : (d.buffer.rtake 5 ++ w).drop (idx + 6)
          = (d.buffer ++ w).drop (idx + (d.buffer.length - 5) + 6) := by
        rw [List.rtake, ← List.drop_append_of_le_length (by omega), List.drop_drop]
        congr 1
        omega
      simp only [Option.map_some, hdrop]

theorem absorbs_resync (hs : d.state = .resync) (w : List UInt8) : Absorbs env d w := by
  have hpass := feedPass_resync env hs
  cases hf : findSub SYNC_BYTES d.buffer with
  | none =>
      rw [hf] at hpass
      exact absorbs_of_feedPass_eq hpass (feedPass_resync_rtake hs hf w).symm
  | some idx =>
      rw [hf] at hpass
      have hlen : idx + 6 ≤ d.buffer.length := add_length_le_of_findSub hf
      refine absorbs_of_pass hpass ?_ (Or.inl rfl)
      rw [feedPass_resync env (show (extendBuffer d w).state = .resync from hs)]
      simp only [extendBuffer]
      rw [findSub_append_of_some hf]
      simp only [List.drop_append_of_le_length hlen]

/-- A search without success is all the loop does. -/
theorem drain_resync_none (hs : d.state = .resync) (hf : findSub SYNC_BYTES d.buffer = none) :
    (feedLoop env).drain d = ([], { d with buffer := d.buffer.rtake 5 }) := by
  have hpass := feedPass_resync env hs
  rw [hf] at hpass
  exact drain_of_feedPass_stop hpass

/-- A search with nothing to look at leaves the loop at once. -/
theorem drain_resync_nil (hs : d.state = .resync) (hb : d.buffer = []) :
    (feedLoop env).drain d = ([], d) := by
  rw [drain_resync_none hs (by rw [hb]; rfl), rtake_of_length_le (by rw [hb]; decide)]

/-- Recovery from an error that concerns a frame, not its type, keeps the buffer. -/
theorem recover_eq {err : QbtProtocolError} (herr : err ≠ .invalidFrameType)
    (u : QbtProtocolDecoder) :
    recover [] u err = ⟨[.warning (.decoderRecovered err.toText)],
      { u with pending := none, state := .resync }, !u.buffer.isEmpty⟩ := by
  unfold recover
  rw [if_neg (fun hu => herr hu.1)]
  rfl

/-- Errors that concern a frame, not its type, are absorbed by the recovery. -/
theorem absorbs_of_recover {u : QbtProtocolDecoder} {err : QbtProtocolError}
    (herr : err ≠ .invalidFrameType) (h : feedPass env d = recover [] u err)
    (h' : feedPass env (extendBuffer d w) = recover [] (extendBuffer u w) err) :
    Absorbs env d w := by
  rw [recover_eq herr] at h h'
  refine absorbs_of_pass h h' ?_
  by_cases hb : (extendBuffer u w).buffer = []
  · exact Or.inr (drain_resync_nil rfl hb)
  · exact Or.inl (by simpa using hb)

/-! ## The other states -/

/-- The loop swallows padding that nothing follows. -/
theorem drain_startFrame_zeros (hs : d.state = .startFrame)
    (hz : d.buffer.dropWhile (· = 0) = []) :
    (feedLoop env).drain d = ([], { d with buffer := [] }) := by
  have hpass : ∀ u : QbtProtocolDecoder, u.state = .startFrame →
      u.buffer.dropWhile (· = 0) = [] →
      feedPass env u = ⟨[], { u with buffer := [] }, !u.buffer.isEmpty⟩ := by
    intro u hu huz
    rw [feedPass_startFrame env hu, if_neg (not_not.mpr huz)]
  have hd := hpass d hs hz
  cases hb : d.buffer.isEmpty with
  | true =>
      rw [hb] at hd
      exact drain_of_feedPass_stop hd
  | false =>
      rw [hb] at hd
      rw [drain_of_feedPass hd, drain_of_feedPass_stop (hpass { d with buffer := [] } hs rfl)]
      rfl

theorem absorbs_startFrame (hs : d.state = .startFrame) (w : List UInt8) :
    Absorbs env d w := by
  have hs' : (extendBuffer d w).state = .startFrame := hs
  have hpass := feedPass_startFrame env hs
  by_cases hz : d.buffer.dropWhile (· = 0) = []
  · rw [if_neg (not_not.mpr hz)] at hpass
    have hdrop : (extendBuffer d w).buffer.dropWhile (· = 0) = w.dropWhile (· = 0) := by
      show (d.buffer ++ w).dropWhile _ = _
      rw [List.dropWhile_append, hz]
      rfl
    by_cases hw : w.dropWhile (· = 0) = []
    · -- more padding: both sides swallow all of it
      have hnil : (extendBuffer { d with buffer := [] } w).state = .startFrame := hs
      unfold Absorbs
      rw [hpass, drain_startFrame_zeros hs' (hdrop.trans hw), drain_startFrame_zeros hnil hw]
      rfl
    · have hnil : (extendBuffer { d with buffer := [] } w).state = .startFrame := hs
      refine absorbs_of_feedPass_eq hpass ?_
      rw [feedPass_startFrame env hs', feedPass_startFrame env hnil, hdrop]
      simp only [extendBuffer, List.nil_append, ne_eq, hw, not_false_eq_true, if_true]
  · rw [if_pos hz] at hpass
    refine absorbs_of_pass hpass ?_ (Or.inl rfl)
    have hdrop : (extendBuffer d w).buffer.dropWhile (· = 0) = d.buffer.dropWhile (· = 0) ++ w := by
      show (d.buffer ++ w).dropWhile _ = _
      rw [List.dropWhile_append, if_neg (by simpa using hz)]
    rw [feedPass_startFrame env hs', hdrop, if_pos (by simp [hz])]
    rfl

theorem absorbs_frameType (hs : d.state = .frameType) (w : List UInt8) : Absorbs env d w := by
  have hpass := feedPass_frameType env hs
  have hpass' := feedPass_frameType env (show (extendBuffer d w).state = .frameType from hs)
  cases hb : d.buffer with
  | nil =>
      rw [hb] at hpass
      exact absorbs_of_idle hpass
  | cons b rest =>
      have hb' : (extendBuffer d w).buffer = b :: (rest ++ w) := by simp [extendBuffer, hb]
      simp only [hb] at hpass
      simp only [hb'] at hpass'
      by_cases hslash : b ≠ 0x2F
      · rw [if_pos hslash] at hpass hpass'
        exact absorbs_of_pass hpass hpass' (Or.inl rfl)
      · rw [if_neg hslash] at hpass hpass'
        by_cases hlen : (b :: rest).length < 3
        · rw [if_pos hlen] at hpass
          exact absorbs_of_idle hpass
        · -- the three bytes that decide are there, whatever follows
          have hlen' : ¬ (b :: (rest ++ w)).length < 3 := by
            simp only [List.length_cons, List.length_append] at hlen ⊢
            omega
          have hpre : ∀ x y z : UInt8,
              [x, y, z] <+: b :: (rest ++ w) ↔ [x, y, z] <+: b :: rest := by
            intro x y z
            have hlong : [x, y, z].length ≤ (b :: rest).length := not_lt.mp hlen
            exact List.isPrefix_append_of_length hlong
          rw [if_neg hlen] at hpass
          rw [if_neg hlen'] at hpass'
          simp only [hpre] at hpass'
          split_ifs at hpass hpass'
          all_goals exact absorbs_of_pass hpass hpass' (Or.inl rfl)

/-- Giving up a server list amounts to searching for a marker in all of it. -/
theorem feedPass_discard {b : UInt8} {rest : List UInt8} (hb : d.buffer = b :: rest)
    (hzero : b ≠ 0) :
    feedPass env (discardMalformedServerList d) = feedPass env { d with state := .resync } := by
  have hsearch : findSubsequence rest SYNC_BYTES = findSub SYNC_BYTES rest := by
    unfold findSubsequence
    split
    · next h =>
        rcases h with h | h
        · cases h
        · exact (findSub_eq_none_of_length_lt h).symm
    · rfl
  have hskip : findSub SYNC_BYTES d.buffer = (findSub SYNC_BYTES rest).map (· + 1) := by
    rw [hb]
    refine findSub_cons_skip fun hp => hzero ?_
    obtain ⟨t, ht⟩ := hp
    exact (List.cons.inj ht).1.symm
  rw [feedPass_resync env (show (discardMalformedServerList d).state = .resync from rfl),
    feedPass_resync env (show ({ d with state := .resync } : QbtProtocolDecoder).state =
      _ from rfl)]
  dsimp only
  rw [hskip]
  unfold discardMalformedServerList
  rw [show d.buffer.drop 1 = rest by rw [hb]; rfl, hsearch]
  cases hf : findSub SYNC_BYTES rest with
  | some idx =>
      have hzero' : findSub SYNC_BYTES (d.buffer.drop (idx + 1)) = some 0 := by
        rw [hb, List.drop_succ_cons]
        exact findSub_eq_zero (prefix_drop_of_findSub hf)
      simp only [hzero', Option.map_some, List.drop_drop]
  | none =>
      have hkeep : (if SYNC_BYTES.length - 1 < d.buffer.length then
          d.buffer.drop (d.buffer.length - (SYNC_BYTES.length - 1)) else d.buffer)
            = d.buffer.rtake 5 := by
        split
        · rfl
        · next h => exact (rtake_of_length_le (not_lt.mp h)).symm
      simp only [hkeep, Option.map_none]
      rw [findSub_eq_none_of_length_lt]
      · dsimp only
        rw [rtake_of_length_le (l := d.buffer.rtake 5) (by rw [length_rtake]; omega)]
      · rw [length_rtake]
        show min 5 _ < 6
        omega

/-- Giving up a server list can as well wait for more bytes. -/
theorem drain_discard {b : UInt8} {rest : List UInt8} (hb : d.buffer = b :: rest) (hzero : b ≠ 0)
    (w : List UInt8) :
    (feedLoop env).drain (discardMalformedServerList (extendBuffer d w)) =
      (feedLoop env).drain (extendBuffer (discardMalformedServerList d) w) := by
  have hlater : (feedLoop env).drain (discardMalformedServerList (extendBuffer d w)) =
      (feedLoop env).drain (extendBuffer { d with state := .resync } w) := by
    have hb' : (extendBuffer d w).buffer = b :: (rest ++ w) := by simp [extendBuffer, hb]
    exact (feedLoop env).drain_congr (feedPass_discard hb' hzero)
  -- both sides are the search for a marker in all the bytes
  have hnow : Absorbs env { d with state := .resync } w := absorbs_resync rfl w
  have hgiven : Absorbs env (discardMalformedServerList d) w := absorbs_resync rfl w
  unfold Absorbs at hnow hgiven
  rw [hlater, hnow, hgiven, feedPass_discard hb hzero]

/-- A server list that is given up is given up with more bytes as well. -/
theorem absorbs_exceeded {b : UInt8} {rest : List UInt8} (hb : d.buffer = b :: rest)
    (hzero : b ≠ 0) {event : QbtFrameEvent}
    (h : feedPass env d = ⟨[event], discardMalformedServerList d, true⟩)
    (h' : feedPass env (extendBuffer d w) =
      ⟨[event], discardMalformedServerList (extendBuffer d w), true⟩) :
    Absorbs env d w := by
  unfold Absorbs
  rw [h, drain_of_feedPass h', drain_discard hb hzero]

/-- Before the first NUL there is none. -/
theorem head_ne_zero_of_findIdx {l : List UInt8} {n : ℕ} (hn : n < l.length)
    (h : ∀ e, l.findIdx? (· = 0) = some e → n < e) : ∃ b rest, l = b :: rest ∧ b ≠ 0 := by
  cases l with
  | nil => simp at hn
  | cons b rest =>
      refine ⟨b, rest, rfl, ?_⟩
      rintro rfl
      have := h 0 (by simp [List.findIdx?_cons])
      omega

theorem absorbs_serverList (hs : d.state = .qbtServerList) (w : List UInt8) :
    Absorbs env d w := by
  have hs' : (extendBuffer d w).state = .qbtServerList := hs
  have hnul' : (extendBuffer d w).buffer.findIdx? (· = 0) =
      (d.buffer.findIdx? (· = 0)).or ((w.findIdx? (· = 0)).map (· + d.buffer.length)) :=
    List.findIdx?_append
  cases hnul : d.buffer.findIdx? (· = 0) with
  | none =>
      have hpass := feedPass_serverList_none env hs hnul
      rw [hnul, Option.none_or] at hnul'
      by_cases hlimit : d.config.maxServerListFrameBytes < d.buffer.length
      · rw [if_pos hlimit] at hpass
        obtain ⟨b, rest, hb, hzero⟩ := head_ne_zero_of_findIdx hlimit
          (fun e he => by rw [hnul] at he; cases he)
        refine absorbs_exceeded hb hzero hpass ?_
        -- the first NUL, if one arrives, is past the limit too
        cases hw : w.findIdx? (· = 0) with
        | none =>
            rw [hw] at hnul'
            rw [feedPass_serverList_none env hs' hnul', if_pos]
            · rfl
            · show _ < (d.buffer ++ w).length
              rw [List.length_append]
              exact hlimit.trans_le (Nat.le_add_right _ _)
        | some e =>
            rw [hw] at hnul'
            exact feedPass_serverList_exceeded env hs' hnul' (hlimit.trans_le (Nat.le_add_left _ _))
      · rw [if_neg hlimit] at hpass
        exact absorbs_of_idle hpass
  | some e =>
      rw [hnul, Option.some_or] at hnul'
      have hlt : e < d.buffer.length := (List.findIdx?_eq_some_iff_getElem.mp hnul).1
      by_cases he : d.config.maxServerListFrameBytes < e
      · obtain ⟨b, rest, hb, hzero⟩ := head_ne_zero_of_findIdx (he.trans hlt)
          (fun i hi => by rw [hnul] at hi; cases hi; exact he)
        exact absorbs_exceeded hb hzero (feedPass_serverList_exceeded env hs hnul he)
          (feedPass_serverList_exceeded env hs' hnul' he)
      · have hpass := feedPass_serverList_some env hs hnul (not_lt.mp he)
        have hpass' := feedPass_serverList_some env hs' hnul' (not_lt.mp he)
        have htake : (extendBuffer d w).buffer.take e = d.buffer.take e :=
          List.take_append_of_le_length hlt.le
        have hdrop : (extendBuffer d w).buffer.drop (e + 1) = d.buffer.drop (e + 1) ++ w :=
          List.drop_append_of_le_length hlt
        rw [htake, hdrop] at hpass'
        cases hr : readServerList (d.buffer.take e) with
        | ok r =>
            rw [hr] at hpass hpass'
            exact absorbs_of_pass hpass hpass' (Or.inl rfl)
        | error err =>
            rw [hr] at hpass hpass'
            have herr : err ≠ .invalidFrameType := by
              rintro rfl
              exact readServerList_frameTypeOk _ hr
            exact absorbs_of_recover herr hpass hpass'

theorem absorbs_blockHeader (hs : d.state = .blockHeader) (w : List UInt8) :
    Absorbs env d w := by
  have hpass := feedPass_blockHeader env hs
  have hpass' := feedPass_blockHeader env (show (extendBuffer d w).state = .blockHeader from hs)
  by_cases hlen : d.buffer.length < 80
  · rw [if_pos hlen] at hpass
    exact absorbs_of_idle hpass
  · have hle : 80 ≤ d.buffer.length := not_lt.mp hlen
    have htake : (extendBuffer d w).buffer.take 80 = d.buffer.take 80 :=
      List.take_append_of_le_length hle
    have hdrop : (extendBuffer d w).buffer.drop 80 = d.buffer.drop 80 ++ w :=
      List.drop_append_of_le_length hle
    have hlen' : ¬ (extendBuffer d w).buffer.length < 80 := by
      show ¬ (d.buffer ++ w).length < 80
      rw [List.length_append]
      omega
    rw [if_neg hlen] at hpass
    rw [if_neg hlen', htake, hdrop] at hpass'
    cases hh : parseHeader env (d.buffer.take 80) d.config.maxV2BodySize with
    | ok p =>
        rw [show (extendBuffer d w).config = d.config from rfl, hh] at hpass'
        rw [hh] at hpass
        exact absorbs_of_pass hpass hpass' (Or.inl rfl)
    | error err =>
        rw [show (extendBuffer d w).config = d.config from rfl, hh] at hpass'
        rw [hh] at hpass
        have herr : err ≠ .invalidFrameType := by
          rintro rfl
          exact parseHeader_frameTypeOk env _ _ hh
        exact absorbs_of_recover herr hpass hpass'

theorem absorbs_blockBody (hs : d.state = .blockBody) {p : PendingSegment}
    (hp : d.pending = some p) (w : List UInt8) : Absorbs env d w := by
  have hpass := feedPass_blockBody env hs hp
  have hpass' := feedPass_blockBody env (show (extendBuffer d w).state = .blockBody from hs) hp
  by_cases hlen : d.buffer.length < p.length
  · rw [if_pos hlen] at hpass
    exact absorbs_of_idle hpass
  · have hle : p.length ≤ d.buffer.length := not_lt.mp hlen
    have htake : (extendBuffer d w).buffer.take p.length = d.buffer.take p.length :=
      List.take_append_of_le_length hle
    have hdrop : (extendBuffer d w).buffer.drop p.length = d.buffer.drop p.length ++ w :=
      List.drop_append_of_le_length hle
    have hlen' : ¬ (extendBuffer d w).buffer.length < p.length := by
      show ¬ (d.buffer ++ w).length < p.length
      rw [List.length_append]
      omega
    rw [if_neg hlen] at hpass
    rw [if_neg hlen', htake, hdrop] at hpass'
    exact absorbs_of_pass hpass hpass' (Or.inl rfl)

theorem absorbs_validate (hs : d.state = .validate) {p : PendingSegment}
    (hp : d.pending = some p) (w : List UInt8) : Absorbs env d w :=
  absorbs_of_pass (feedPass_validate env hs hp)
    (feedPass_validate env (show (extendBuffer d w).state = .validate from hs) hp) (Or.inl rfl)

/-- **Step.**  Every pass absorbs input. -/
theorem feedPass_absorbs (hd : DecoderOk d) (w : List UInt8) : Absorbs env d w := by
  cases hs : d.state with
  | resync => exact absorbs_resync hs w
  | startFrame => exact absorbs_startFrame hs w
  | frameType => exact absorbs_frameType hs w
  | qbtServerList => exact absorbs_serverList hs w
  | blockHeader => exact absorbs_blockHeader hs w
  | blockBody =>
      obtain ⟨p, hp⟩ := hd.exists_pending (Or.inl hs)
      exact absorbs_blockBody hs hp w
  | validate =>
      obtain ⟨p, hp⟩ := hd.exists_pending (Or.inr hs)
      exact absorbs_validate hs hp w

end Absorbing

/-! ## Runs -/

theorem extendBuffer_nil (d : QbtProtocolDecoder) : extendBuffer d [] = d := by
  simp [extendBuffer]

theorem extendBuffer_append (d : QbtProtocolDecoder) (v w : List UInt8) :
    extendBuffer (extendBuffer d v) w = extendBuffer d (v ++ w) := by
  simp [extendBuffer]

/-- Feeding wire chunks is feeding the decoded chunks to the loop. -/
theorem feedAll_eq (env : CodecEnv) (d : QbtProtocolDecoder) (chunks : List (List UInt8)) :
    feedAll env d chunks = (feedLoop env).feedAll extendBuffer d (chunks.map xorFf) := by
  induction chunks generalizing d with
  | nil => rfl
  | cons chunk chunks ih =>
      rw [feedAll, ih, List.map_cons, Ranked.feedAll]
      rfl

/-- The wire transform works byte by byte, so it does not see the cuts. -/
theorem flatten_map_xorFf (chunks : List (List UInt8)) :
    (chunks.map xorFf).flatten = xorFf chunks.flatten := by
  unfold xorFf
  rw [List.map_flatten]

/-- **Run.**  From a decoder with nothing left to do, the cuts do not matter. -/
theorem feedAll_eq_feed {env : CodecEnv} {d : QbtProtocolDecoder} (hd : DecoderOk d)
    (hsettled : (feedLoop env).drain d = ([], d)) (chunks : List (List UInt8)) :
    feedAll env d chunks = feed env d chunks.flatten := by
  have hloop := (feedLoop env).feedAll_eq_feed_flatten extendBuffer_nil extendBuffer_append
    (fun s hs => (feedPass_ok env s hs).1) (fun s w hs => extendBuffer_ok hs w)
    (fun s w hs => feedPass_absorbs hs w) (chunks.map xorFf) d hd hsettled
  rw [feedAll_eq, hloop, flatten_map_xorFf]
  rfl

/-- Between calls a reachable decoder has nothing left to do. -/
theorem Reachable.settled {env : CodecEnv} {config : QbtDecodeConfig} {d : QbtProtocolDecoder}
    (h : Reachable env config d) : (feedLoop env).drain d = ([], d) := by
  cases h with
  | new => exact drain_resync_nil rfl rfl
  | reset _ => exact drain_resync_nil rfl rfl
  | feed chunk hd =>
      exact (feedLoop env).drain_drain extendBuffer_nil
        (fun s hs => (feedPass_ok env s hs).1) (fun s w hs => feedPass_absorbs hs w) _
        (extendBuffer_ok hd.ok.1 _)

/-- **Independence of the cuts.**  From every reachable decoder, feeding chunks one
after another yields the events and the decoder of one feed of all their bytes. -/
theorem feed_chunking_invariant (env : CodecEnv) (config : QbtDecodeConfig)
    {d : QbtProtocolDecoder} (hd : Reachable env config d) (chunks : List (List UInt8)) :
    feedAll env d chunks = feed env d chunks.flatten :=
  feedAll_eq_feed hd.ok.1 hd.settled chunks

/-- A sync marker cut in two, with an empty chunk in between. -/
theorem feed_chunking_invariant_marker :
    Reachable .bare .default (QbtProtocolDecoder.new .default) ∧
      feedAll .bare (QbtProtocolDecoder.new .default) [[0xFF, 0xFF], [], [0xFF, 0xFF, 0xFF, 0xFF]]
        = feed .bare (QbtProtocolDecoder.new .default) [0xFF, 0xFF, 0xFF, 0xFF, 0xFF, 0xFF] :=
  ⟨.new, feed_chunking_invariant .bare .default .new
    [[0xFF, 0xFF], [], [0xFF, 0xFF, 0xFF, 0xFF]]⟩

end Qbt
