/-
# The quality monitor of the relay

`run_quality_monitor` of `relay/runtime.rs` rotates the quality window once a second and pauses
forwarding when the ratio is low.  A session that receives a chunk while forwarding is paused
passes it over and attempts nothing, so a pause empties the window and ends itself.

A session looks at the flag and counts the bytes in two steps, and others come in between.  A
tick is one step: it alone writes the flag, and a step that comes between its look at the window
and the write could as well come before the tick, if it reads the flag, or after it.
-/
import Emwin.Lib.Transition
import Emwin.Relay.QualityWindow

namespace Relay

open Floats RingWindow Saturating Transition

/-- What the monitor and the sessions share. -/
structure QualityState where
  window : QualityWindow
  forwardingPaused : Bool
  forwardingPauseEventsTotal : ℕ
  /-- The lengths of the chunks of sessions that found forwarding not paused and have not
  counted them as attempted yet. -/
  unpaused : List ℕ

/-- The relay before the first chunk. -/
def QualityState.initial (size : ℕ) : QualityState := ⟨.new size, false, 0, []⟩

/-- A step of the monitor, a session or a writer. -/
inductive QualityAct where
  | tick
  /-- A session receives a chunk and looks at the flag. -/
  | receive (bytes : ℕ)
  /-- A session counts the chunk it took up. -/
  | addAttempted (index : ℕ)
  | addForwarded (bytes : ℕ)
  deriving DecidableEq, Repr

section Monitor

variable {F : Type*} [FloatArith F]

/-- The ratio from which on forwarding is resumed. -/
def QUALITY_RESUME_THRESHOLD : F := FloatArith.ofLiteral (.finite false 97 (-2))

/-- A tick of `run_quality_monitor`. -/
def QualityState.tick (qualityPauseThreshold : F) (s : QualityState) : QualityState :=
  let window := s.window.rotate
  let ratio : F := window.ratio
  if !s.forwardingPaused && FloatArith.lt ratio qualityPauseThreshold then
    { s with
      window
      forwardingPaused := true
      forwardingPauseEventsTotal := s.forwardingPauseEventsTotal + 1 }
  else if s.forwardingPaused && ge ratio (QUALITY_RESUME_THRESHOLD : F) then
    { s with window, forwardingPaused := false }
  else { s with window }

/-- What a session does with a chunk it received. -/
def QualityState.receive (s : QualityState) (bytes : ℕ) : QualityState :=
  if s.forwardingPaused then s else { s with unpaused := s.unpaused ++ [bytes] }

/-- One step. -/
def qualityStep (qualityPauseThreshold : F) (s : QualityState) : QualityAct → Option QualityState
  | .tick => some (s.tick qualityPauseThreshold)
  | .receive bytes => some (s.receive bytes)
  | .addAttempted index =>
      s.unpaused[index]?.map fun bytes =>
        { s with
          window := s.window.addAttempted bytes
          unpaused := s.unpaused.eraseIdx index }
  | .addForwarded bytes => some { s with window := s.window.addForwarded bytes }

/-! ## An empty window -/

/-- Nothing was attempted in the last rotations. -/
def QuietFor (k : ℕ) (w : QualityWindow) : Prop :=
  ∃ h, Shows w h ∧ ∀ j < k, (h j).attempted = 0

theorem quietFor_zero (w : QualityWindow) : QuietFor 0 w := by
  obtain ⟨h, hw⟩ := exists_shows w
  exact ⟨h, hw, fun j hj => absurd hj (Nat.not_lt_zero j)⟩

/-- A rotation adds to the quiet. -/
theorem QuietFor.rotate {k : ℕ} {w : QualityWindow} (hw : QuietFor k w) :
    QuietFor (k + 1) w.rotate := by
  obtain ⟨h, hshows, hquiet⟩ := hw
  refine ⟨_, hshows.rotate {}, ?_⟩
  intro j hj
  cases j with
  | zero => rfl
  | succ j => exact hquiet j (Nat.lt_of_succ_lt_succ hj)

/-- What is forwarded does not disturb the quiet. -/
theorem QuietFor.addForwarded {k : ℕ} {w : QualityWindow} (hw : QuietFor k w) (bytes : ℕ) :
    QuietFor k (w.addForwarded bytes) := by
  obtain ⟨h, hshows, hquiet⟩ := hw
  refine ⟨_, hshows.modify _, ?_⟩
  intro j hj
  cases j with
  | zero => exact hquiet 0 hj
  | succ j => exact hquiet (j + 1) hj

/-- A window that was quiet for all of its buckets is empty. -/
theorem QuietFor.attemptedTotal_eq_zero {w : QualityWindow} (hw : QuietFor w.buckets.length w) :
    w.attemptedTotal = 0 := by
  obtain ⟨h, hshows, hquiet⟩ := hw
  have hzero : ∀ b ∈ w.buckets, b.attempted = 0 := by
    intro b hb
    rw [← w.newestFirst_perm.mem_iff, hshows] at hb
    obtain ⟨j, hj, rfl⟩ := List.mem_map.mp hb
    exact hquiet j (List.mem_range.mp hj)
  have hfold : ∀ l : List QualityBucket, (∀ b ∈ l, b.attempted = 0) →
      l.foldl (fun sum b => saturatingAdd sum b.attempted) 0 = 0 := by
    intro l hl
    induction l with
    | nil => rfl
    | cons b l ih =>
        rw [List.foldl_cons, hl b List.mem_cons_self]
        exact ih fun b hb => hl b (List.mem_cons_of_mem _ hb)
  exact hfold w.buckets hzero

/-! ## The end of a pause -/

variable {qualityPauseThreshold : F}

/-- Forwarding has been paused for some ticks in which nothing was attempted. -/
structure PausedFor (k : ℕ) (s : QualityState) : Prop where
  paused : s.forwardingPaused = true
  quiet : QuietFor k s.window

/-- No session attempts anything in some steps: none is about to, or none does. -/
def NothingAttempted (s : QualityState) (acts : List QualityAct) : Prop :=
  s.unpaused = [] ∨ ∀ index, QualityAct.addAttempted index ∉ acts

theorem NothingAttempted.tail {s t : QualityState} {act : QualityAct} {acts : List QualityAct}
    (h : NothingAttempted s (act :: acts)) (ht : t.unpaused = s.unpaused) :
    NothingAttempted t acts := by
  rcases h with h | h
  · exact Or.inl (ht.trans h)
  · exact Or.inr fun index hmem => h index (List.mem_cons_of_mem _ hmem)

theorem QualityState.unpaused_tick (s : QualityState) :
    (s.tick qualityPauseThreshold).unpaused = s.unpaused := by
  unfold QualityState.tick
  dsimp only
  split_ifs <;> rfl

theorem QualityState.length_tick (s : QualityState) :
    (s.tick qualityPauseThreshold).window.buckets.length = s.window.buckets.length := by
  unfold QualityState.tick
  dsimp only
  split_ifs <;> exact BucketRing.length_rotate _ _

/-- **Step.**  A tick resumes forwarding, or the pause lasts one tick longer. -/
theorem PausedFor.tick {k : ℕ} {s : QualityState} (h : PausedFor k s) :
    (s.tick qualityPauseThreshold).forwardingPaused = false ∨
      PausedFor (k + 1) (s.tick qualityPauseThreshold) := by
  unfold QualityState.tick
  simp only [h.paused, Bool.not_true, Bool.false_and, Bool.false_eq_true, if_false, Bool.true_and]
  split
  · exact Or.inl rfl
  · exact Or.inr ⟨rfl, h.quiet.rotate⟩

/-- The tick that empties the window resumes forwarding. -/
theorem PausedFor.tick_last (hF : Rounding F) {k : ℕ} {s : QualityState} (h : PausedFor k s)
    (hk : s.window.buckets.length ≤ k + 1) :
    (s.tick qualityPauseThreshold).forwardingPaused = false := by
  have hquiet : QuietFor s.window.rotate.buckets.length s.window.rotate := by
    obtain ⟨f, hshows, hzero⟩ := h.quiet.rotate
    refine ⟨f, hshows, fun j hj => hzero j ?_⟩
    have hlen : s.window.rotate.buckets.length = s.window.buckets.length :=
      BucketRing.length_rotate _ _
    omega
  have hratio : (s.window.rotate.ratio : F) = const 1 := by
    rw [QualityWindow.ratio, if_pos hquiet.attemptedTotal_eq_zero]
  have hresume : ge (const 1 : F) QUALITY_RESUME_THRESHOLD = true :=
    hF.ofLiteral_ge _ _ 1 (97 / 100) (by simp [Number.ofLiteral])
      (by simp [Number.ofLiteral]; norm_num) (by norm_num)
  unfold QualityState.tick
  simp [h.paused, hratio, hresume]

/-- **Run.**  In the ticks that are left until the window is empty the pause ends. -/
theorem PausedFor.resumes (hF : Rounding F) {k : ℕ} {s t : QualityState} {acts : List QualityAct}
    (h : PausedFor k s) (hidle : NothingAttempted s acts) (hk : k < s.window.buckets.length)
    (hexec : exec (qualityStep qualityPauseThreshold) s acts = some t)
    (hticks : s.window.buckets.length ≤ k + acts.count .tick) :
    ∃ before after u, acts = before ++ after ∧
      k + before.count .tick ≤ s.window.buckets.length ∧
      exec (qualityStep qualityPauseThreshold) s before = some u ∧ u.forwardingPaused = false := by
  induction acts generalizing k s with
  | nil =>
      rw [List.count_nil] at hticks
      omega
  | cons act acts ih =>
      obtain ⟨u, hu, hrest⟩ := exec_cons.mp hexec
      cases act with
      | tick =>
          obtain rfl : s.tick qualityPauseThreshold = u := Option.some.inj hu
          have hlen : (s.tick qualityPauseThreshold).window.buckets.length =
              s.window.buckets.length :=
            s.length_tick
          rw [List.count_cons_self] at hticks
          by_cases hended : (s.tick qualityPauseThreshold).forwardingPaused = false
          · exact ⟨[.tick], acts, _, rfl, hk, rfl, hended⟩
          · have hlonger := h.tick.resolve_left hended
            have hnotlast : k + 1 < s.window.buckets.length := by
              by_contra hlast
              exact hended (h.tick_last hF (not_lt.mp hlast))
            obtain ⟨before, after, v, rfl, hcount, hbefore, hv⟩ :=
              ih hlonger (hidle.tail s.unpaused_tick) (by omega) hrest (by omega)
            refine ⟨.tick :: before, after, v, rfl, ?_, exec_cons.mpr ⟨_, rfl, hbefore⟩, hv⟩
            rw [List.count_cons_self]
            omega
      | receive bytes =>
          -- the chunk is passed over
          obtain rfl : s = u := by
            have hpassed : s.receive bytes = u := Option.some.inj hu
            rwa [QualityState.receive, if_pos h.paused] at hpassed
          rw [List.count_cons_of_ne (by rintro ⟨⟩)] at hticks
          obtain ⟨before, after, v, rfl, hcount, hbefore, hv⟩ :=
            ih h (hidle.tail rfl) hk hrest hticks
          refine ⟨.receive bytes :: before, after, v, rfl, ?_, exec_cons.mpr ⟨_, hu, hbefore⟩, hv⟩
          rwa [List.count_cons_of_ne (by rintro ⟨⟩)]
      | addAttempted index =>
          rcases hidle with hidle | hidle
          · rw [qualityStep, hidle] at hu
            cases hu
          · exact absurd List.mem_cons_self (hidle index)
      | addForwarded bytes =>
          obtain rfl : { s with window := s.window.addForwarded bytes } = u := Option.some.inj hu
          have hlen : (s.window.addForwarded bytes).buckets.length = s.window.buckets.length :=
            BucketRing.length_modify _ _
          rw [List.count_cons_of_ne (by rintro ⟨⟩)] at hticks
          have hstill : PausedFor k { s with window := s.window.addForwarded bytes } :=
            ⟨h.paused, h.quiet.addForwarded bytes⟩
          obtain ⟨before, after, v, rfl, hcount, hbefore, hv⟩ :=
            ih hstill (hidle.tail rfl) (by rwa [hlen]) hrest (by rwa [hlen])
          refine ⟨.addForwarded bytes :: before, after, v, rfl, ?_,
            exec_cons.mpr ⟨_, rfl, hbefore⟩, hv⟩
          rw [List.count_cons_of_ne (by rintro ⟨⟩), ← hlen]
          exact hcount

/-- The window keeps its size. -/
theorem length_of_exec {s t : QualityState} {acts : List QualityAct}
    (h : exec (qualityStep qualityPauseThreshold) s acts = some t) :
    t.window.buckets.length = s.window.buckets.length := by
  refine exec_invariant (P := fun u => u.window.buckets.length = s.window.buckets.length) ?_ h rfl
  intro u act v hu hv
  rw [← hu]
  cases act with
  | tick =>
      obtain rfl : u.tick qualityPauseThreshold = v := Option.some.inj hv
      exact u.length_tick
  | receive bytes =>
      obtain rfl : u.receive bytes = v := Option.some.inj hv
      unfold QualityState.receive
      split_ifs <;> rfl
  | addAttempted index =>
      obtain ⟨bytes, -, rfl⟩ := Option.map_eq_some_iff.mp hv
      exact BucketRing.length_modify _ _
  | addForwarded bytes =>
      obtain rfl : { u with window := u.window.addForwarded bytes } = v := Option.some.inj hv
      exact BucketRing.length_modify _ _

/-- **The window slides, and a pause cannot stick.**  The totals of a window of `n` buckets are
those of the operations since the `n - 1`-th most recent rotation, up to saturation.  Once
forwarding is paused and no session attempts anything any more, the monitor clears the pause
after at most `n` ticks. -/
theorem window_slides_and_pause_ends (hF : Rounding F) (qualityPauseThreshold : F) (size : ℕ) :
    (∀ ops, (runWindow size ops).attemptedTotal =
        min (countedSince WindowOp.attempted (max size 1 - 1) ops) U64_MAX ∧
      (runWindow size ops).forwardedTotal =
        min (countedSince WindowOp.forwarded (max size 1 - 1) ops) U64_MAX) ∧
    ∀ acts s, exec (qualityStep qualityPauseThreshold) (.initial size) acts = some s →
      s.forwardingPaused = true →
      ∀ acts' t, NothingAttempted s acts' →
        exec (qualityStep qualityPauseThreshold) s acts' = some t → max size 1 ≤ acts'.count .tick →
        ∃ before after u, acts' = before ++ after ∧ before.count .tick ≤ max size 1 ∧
          exec (qualityStep qualityPauseThreshold) s before = some u ∧
          u.forwardingPaused = false := by
  refine ⟨totals_runWindow size, ?_⟩
  intro acts s hs hpaused acts' t hidle ht hticks
  have hlen : s.window.buckets.length = max size 1 := by
    rw [length_of_exec hs]
    exact length_runWindow size []
  rw [← hlen] at hticks ⊢
  obtain ⟨before, after, u, hacts, hcount, hbefore, hu⟩ :=
    PausedFor.resumes hF ⟨hpaused, quietFor_zero s.window⟩ hidle
      (Nat.zero_lt_of_lt s.window.index_lt) ht (by omega)
  exact ⟨before, after, u, hacts, by omega, hbefore, hu⟩

end Monitor

/-- A chunk that is attempted and never forwarded pauses a relay with two buckets, and two ticks
later forwarding has been resumed. -/
theorem window_slides_and_pause_ends_two :
    ∃ s, exec (qualityStep (FloatArith.ofLiteral (.finite false 95 (-2)) : Number)) (.initial 2)
        [.receive 10, .addAttempted 0, .tick] = some s ∧ s.forwardingPaused = true ∧
      ∃ before after u, [QualityAct.tick, .receive 7, .tick] = before ++ after ∧
        before.count .tick ≤ 2 ∧
        exec (qualityStep (FloatArith.ofLiteral (.finite false 95 (-2)) : Number)) s before =
          some u ∧ u.forwardingPaused = false := by
  have hmain := (window_slides_and_pause_ends Number.rounding
    (FloatArith.ofLiteral (.finite false 95 (-2)) : Number) 2).2
    [.receive 10, .addAttempted 0, .tick] _ rfl (by decide +kernel)
    [.tick, .receive 7, .tick] _ (Or.inr (by simp)) rfl (by decide)
  exact ⟨_, rfl, by decide +kernel, hmain⟩

end Relay
