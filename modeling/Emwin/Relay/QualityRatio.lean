/-
# The range of the quality ratio

A session counts a chunk as attempted when it takes it up, and its writer counts it as forwarded
when it is written.  The window may rotate in between, and then the two counts stand in different
buckets: the older one is cleared first, and until the younger one is cleared as well the ratio
counts a completion whose attempt it has forgotten.

`Traffic` follows the chunks with the ages of their counts, in rotations.  The ratio is in range
exactly if the completions of forgotten attempts are made up for by attempts that are not
completed (`ratio_in_range_iff`).
-/
import Emwin.Lib.Transition
import Emwin.Relay.QualityWindow

namespace Relay

open Floats RingWindow Saturating Transition

/-- A chunk that was attempted, and perhaps forwarded since. -/
structure CountedChunk where
  bytes : ℕ
  /-- How many rotations ago it was counted as attempted. -/
  attemptedAge : ℕ
  /-- How many rotations ago it was counted as forwarded. -/
  forwardedAge : Option ℕ
  deriving DecidableEq, Repr

/-- The chunk after a rotation. -/
def CountedChunk.older (c : CountedChunk) : CountedChunk :=
  { c with attemptedAge := c.attemptedAge + 1, forwardedAge := c.forwardedAge.map (· + 1) }

/-- The window, and the chunks that were counted in it. -/
structure Traffic where
  window : QualityWindow
  chunks : List CountedChunk

/-- A new window. -/
def Traffic.initial (size : ℕ) : Traffic := ⟨.new size, []⟩

/-- A rotation, an attempt, or the completion of an attempted chunk. -/
inductive TrafficAct where
  | rotate
  | attempt (bytes : ℕ)
  | complete (index : ℕ)
  deriving DecidableEq, Repr

/-- One step; only an attempted chunk can be completed, and only once. -/
def trafficStep (s : Traffic) : TrafficAct → Option Traffic
  | .rotate => some ⟨s.window.rotate, s.chunks.map CountedChunk.older⟩
  | .attempt bytes => some ⟨s.window.addAttempted bytes, s.chunks ++ [⟨bytes, 0, none⟩]⟩
  | .complete index =>
      match s.chunks[index]? with
      | some ⟨bytes, attemptedAge, none⟩ =>
          some ⟨s.window.addForwarded bytes,
            s.chunks.set index ⟨bytes, attemptedAge, some 0⟩⟩
      | some ⟨_, _, some _⟩ | none => none

/-! ## Bytes within some rotations -/

/-- The bytes of a chunk, if it was attempted within some rotations. -/
def CountedChunk.attemptedWithin (n : ℕ) (c : CountedChunk) : ℕ :=
  if c.attemptedAge < n then c.bytes else 0

/-- The bytes of a chunk, if it was forwarded within some rotations. -/
def CountedChunk.forwardedWithin (n : ℕ) (c : CountedChunk) : ℕ :=
  if c.forwardedAge.any (· < n) then c.bytes else 0

/-- The bytes of a chunk that was forwarded within some rotations and attempted before. -/
def CountedChunk.carriedOver (n : ℕ) (c : CountedChunk) : ℕ :=
  if c.forwardedAge.any (· < n) ∧ n ≤ c.attemptedAge then c.bytes else 0

/-- The bytes of a chunk that was attempted within some rotations and is not forwarded. -/
def CountedChunk.outstanding (n : ℕ) (c : CountedChunk) : ℕ :=
  if c.forwardedAge = none ∧ c.attemptedAge < n then c.bytes else 0

/-- The bytes of all chunks. -/
def Traffic.bytes (s : Traffic) (measure : CountedChunk → ℕ) : ℕ := (s.chunks.map measure).sum

/-- A chunk is forwarded after it was attempted. -/
def CountedChunk.Ordered (c : CountedChunk) : Prop := ∀ age ∈ c.forwardedAge, age ≤ c.attemptedAge

/-- What was forwarded and what is outstanding is what was attempted and what was carried
over. -/
theorem CountedChunk.balance (n : ℕ) {c : CountedChunk} (hc : c.Ordered) :
    c.forwardedWithin n + c.outstanding n = c.attemptedWithin n + c.carriedOver n := by
  obtain ⟨bytes, attemptedAge, forwardedAge⟩ := c
  cases forwardedAge with
  | none => simp [forwardedWithin, outstanding, attemptedWithin, carriedOver]
  | some age =>
      have hage : age ≤ attemptedAge := hc age rfl
      simp only [forwardedWithin, outstanding, attemptedWithin, carriedOver, Option.any_some,
        decide_eq_true_eq, reduceCtorEq, false_and, if_false]
      split_ifs <;> omega

/-! ## The window and the chunks -/

/-- The window is the result of operations that counted the chunks. -/
structure Matches (size : ℕ) (s : Traffic) : Prop where
  ordered : ∀ c ∈ s.chunks, c.Ordered
  counted : ∃ ops, s.window = runWindow size ops ∧
    ∀ k, countedSince WindowOp.attempted k ops = s.bytes (CountedChunk.attemptedWithin (k + 1)) ∧
      countedSince WindowOp.forwarded k ops = s.bytes (CountedChunk.forwardedWithin (k + 1))

theorem countedSince_rotate {amount : WindowOp → ℕ} (hrotate : amount .rotate = 0)
    (ops : List WindowOp) (k : ℕ) :
    countedSince amount k (ops ++ [.rotate]) =
      if k = 0 then 0 else countedSince amount (k - 1) ops := by
  rw [countedSince, List.reverse_append]
  cases k with
  | zero => rfl
  | succ k => simp [recent, hrotate, countedSince]

theorem countedSince_append {op : WindowOp} (hop : op ≠ .rotate) (amount : WindowOp → ℕ)
    (ops : List WindowOp) (k : ℕ) :
    countedSince amount k (ops ++ [op]) = countedSince amount k ops + amount op := by
  rw [countedSince, List.reverse_append, List.reverse_singleton, List.singleton_append,
    recent_cons_of_ne hop, List.map_cons, List.sum_cons, Nat.add_comm]
  rfl

/-- Changing one chunk changes a sum by the difference. -/
theorem sum_map_set_add (measure : CountedChunk → ℕ) (changed : CountedChunk)
    {chunks : List CountedChunk} {index : ℕ} {c : CountedChunk} (h : chunks[index]? = some c) :
    ((chunks.set index changed).map measure).sum + measure c =
      (chunks.map measure).sum + measure changed := by
  induction chunks generalizing index with
  | nil => cases h
  | cons d chunks ih =>
      cases index with
      | zero =>
          obtain rfl : d = c := Option.some.inj h
          simp only [List.set_cons_zero, List.map_cons, List.sum_cons]
          omega
      | succ index =>
          have hrest := ih (show chunks[index]? = some c by simpa using h)
          simp only [List.set_cons_succ, List.map_cons, List.sum_cons]
          omega

/-- One more operation of a window. -/
theorem runWindow_append (size : ℕ) (ops : List WindowOp) (op : WindowOp) :
    runWindow size (ops ++ [op]) = (runWindow size ops).apply op := by
  rw [runWindow, runWindow, List.foldl_append]
  rfl

/-! ### A rotation -/

theorem CountedChunk.ordered_older {c : CountedChunk} (hc : c.Ordered) : c.older.Ordered := by
  intro age hage
  obtain ⟨earlier, hearlier, rfl⟩ := Option.map_eq_some_iff.mp hage
  exact Nat.succ_le_succ (hc earlier hearlier)

/-- A rotation adds one to the age of every count. -/
theorem CountedChunk.within_older (n : ℕ) (c : CountedChunk) :
    c.older.attemptedWithin (n + 1) = c.attemptedWithin n ∧
      c.older.forwardedWithin (n + 1) = c.forwardedWithin n := by
  obtain ⟨bytes, attemptedAge, forwardedAge⟩ := c
  cases forwardedAge <;> simp [older, attemptedWithin, forwardedWithin]

/-- Nothing is counted within no rotations. -/
theorem CountedChunk.within_zero (c : CountedChunk) :
    c.attemptedWithin 0 = 0 ∧ c.forwardedWithin 0 = 0 := by
  obtain ⟨bytes, attemptedAge, forwardedAge⟩ := c
  cases forwardedAge <;> simp [attemptedWithin, forwardedWithin]

/-- The bytes of all chunks, one rotation later. -/
theorem sum_map_older {measure : ℕ → CountedChunk → ℕ}
    (holder : ∀ n c, measure (n + 1) c.older = measure n c) (chunks : List CountedChunk) (n : ℕ) :
    ((chunks.map CountedChunk.older).map (measure (n + 1))).sum =
      (chunks.map (measure n)).sum := by
  rw [List.map_map]
  exact congrArg List.sum (List.map_congr_left fun c _ => holder n c)

theorem sum_map_eq_zero {measure : CountedChunk → ℕ} (hzero : ∀ c, measure c = 0)
    (chunks : List CountedChunk) : (chunks.map measure).sum = 0 := by
  apply List.sum_eq_zero
  intro x hx
  obtain ⟨c, -, rfl⟩ := List.mem_map.mp hx
  exact hzero c

theorem Matches.rotate {size : ℕ} {s : Traffic} (hs : Matches size s) :
    Matches size ⟨s.window.rotate, s.chunks.map CountedChunk.older⟩ := by
  obtain ⟨hordered, ops, hwindow, hcounted⟩ := hs
  refine ⟨?_, ops ++ [.rotate], ?_, ?_⟩
  · intro c hc
    obtain ⟨d, hd, rfl⟩ := List.mem_map.mp hc
    exact CountedChunk.ordered_older (hordered d hd)
  · rw [runWindow_append, ← hwindow]
    rfl
  · intro k
    have hattempted := sum_map_older (fun n c => (CountedChunk.within_older n c).1) s.chunks k
    have hforwarded := sum_map_older (fun n c => (CountedChunk.within_older n c).2) s.chunks k
    rw [countedSince_rotate rfl, countedSince_rotate rfl, Traffic.bytes, Traffic.bytes,
      hattempted, hforwarded]
    cases k with
    | zero =>
        exact ⟨(sum_map_eq_zero (fun c => c.within_zero.1) s.chunks).symm,
          (sum_map_eq_zero (fun c => c.within_zero.2) s.chunks).symm⟩
    | succ k => exact hcounted k

/-! ### An attempt and its completion -/

theorem Matches.attempt {size : ℕ} {s : Traffic} (hs : Matches size s) (bytes : ℕ) :
    Matches size ⟨s.window.addAttempted bytes, s.chunks ++ [⟨bytes, 0, none⟩]⟩ := by
  obtain ⟨hordered, ops, hwindow, hcounted⟩ := hs
  refine ⟨?_, ops ++ [.addAttempted bytes], ?_, ?_⟩
  · intro c hc
    rcases List.mem_append.mp hc with hc | hc
    · exact hordered c hc
    · obtain rfl := List.mem_singleton.mp hc
      intro age hage
      cases hage
  · rw [runWindow_append, ← hwindow]
    rfl
  · intro k
    rw [countedSince_append (by rintro ⟨⟩), countedSince_append (by rintro ⟨⟩),
      (hcounted k).1, (hcounted k).2]
    simp [Traffic.bytes, CountedChunk.attemptedWithin, CountedChunk.forwardedWithin,
      WindowOp.attempted, WindowOp.forwarded]

theorem Matches.complete {size : ℕ} {s : Traffic} (hs : Matches size s) {index bytes : ℕ}
    {attemptedAge : ℕ} (hget : s.chunks[index]? = some ⟨bytes, attemptedAge, none⟩) :
    Matches size ⟨s.window.addForwarded bytes,
      s.chunks.set index ⟨bytes, attemptedAge, some 0⟩⟩ := by
  obtain ⟨hordered, ops, hwindow, hcounted⟩ := hs
  refine ⟨?_, ops ++ [.addForwarded bytes], ?_, ?_⟩
  · intro c hc
    rcases List.mem_or_eq_of_mem_set hc with hc | rfl
    · exact hordered c hc
    · intro age hage
      obtain rfl : 0 = age := Option.some.inj hage
      exact Nat.zero_le _
  · rw [runWindow_append, ← hwindow]
    rfl
  · intro k
    rw [countedSince_append (by rintro ⟨⟩), countedSince_append (by rintro ⟨⟩),
      (hcounted k).1, (hcounted k).2]
    have hattempted := sum_map_set_add (CountedChunk.attemptedWithin (k + 1))
      ⟨bytes, attemptedAge, some 0⟩ hget
    have hforwarded := sum_map_set_add (CountedChunk.forwardedWithin (k + 1))
      ⟨bytes, attemptedAge, some 0⟩ hget
    simp only [CountedChunk.attemptedWithin, CountedChunk.forwardedWithin, Option.any_some,
      Option.any_none, Bool.false_eq_true, if_false, Nat.zero_lt_succ, decide_true, if_true]
      at hattempted hforwarded
    simp only [Traffic.bytes, WindowOp.attempted, WindowOp.forwarded]
    constructor <;> omega

/-- **Step.**  The chunks and the window keep matching. -/
theorem matches_of_step {size : ℕ} {s t : Traffic} {act : TrafficAct} (hs : Matches size s)
    (h : trafficStep s act = some t) : Matches size t := by
  cases act with
  | rotate =>
      obtain rfl := Option.some.inj h
      exact hs.rotate
  | attempt bytes =>
      obtain rfl := Option.some.inj h
      exact hs.attempt bytes
  | complete index =>
      unfold trafficStep at h
      dsimp only at h
      split at h
      · next bytes attemptedAge hget =>
          obtain rfl := Option.some.inj h
          exact hs.complete hget
      · cases h
      · cases h

/-- **Run.**  The chunks and the window match in every state reached. -/
theorem matches_of_exec {size : ℕ} {s : Traffic} {acts : List TrafficAct}
    (h : exec trafficStep (.initial size) acts = some s) : Matches size s := by
  refine exec_invariant (P := Matches size) (fun s act t hs ht => matches_of_step hs ht) h ?_
  exact ⟨by simp [Traffic.initial], [], rfl, fun k => ⟨rfl, rfl⟩⟩

/-! ## The range -/

/-- The forwarded total does not exceed an attempted total other than zero, and the ratio lies
between 0 and 1. -/
def RatioInRange (F : Type*) [FloatArith F] (w : QualityWindow) : Prop :=
  (w.attemptedTotal ≠ 0 → w.forwardedTotal ≤ w.attemptedTotal) ∧
    ge (w.ratio : F) (const 0) = true ∧ ge (const 1 : F) w.ratio = true

/-- Within the window, the completions of forgotten attempts are made up for by attempts that are
not completed; or nothing was attempted, or more than the counters can show. -/
def MadeUpFor (n : ℕ) (s : Traffic) : Prop :=
  s.bytes (CountedChunk.carriedOver n) ≤ s.bytes (CountedChunk.outstanding n) ∨
    s.bytes (CountedChunk.attemptedWithin n) = 0 ∨
    U64_MAX ≤ s.bytes (CountedChunk.attemptedWithin n)

/-- The totals of the window are those of the chunks. -/
theorem Matches.totals {size : ℕ} {s : Traffic} (hs : Matches size s) :
    s.window.attemptedTotal = shown (s.bytes (CountedChunk.attemptedWithin (max size 1))) ∧
      s.window.forwardedTotal = shown (s.bytes (CountedChunk.forwardedWithin (max size 1))) := by
  obtain ⟨-, ops, hwindow, hcounted⟩ := hs
  obtain ⟨n, hn⟩ : ∃ n, max size 1 = n + 1 := ⟨max size 1 - 1, by omega⟩
  obtain ⟨hattempted, hforwarded⟩ := totals_runWindow size ops
  rw [hn, Nat.add_sub_cancel] at hattempted hforwarded
  rw [hwindow, hattempted, hforwarded, (hcounted n).1, (hcounted n).2, hn]
  exact ⟨rfl, rfl⟩

/-- The balance of all chunks. -/
theorem Traffic.balance {s : Traffic} (hordered : ∀ c ∈ s.chunks, c.Ordered) (n : ℕ) :
    s.bytes (CountedChunk.forwardedWithin n) + s.bytes (CountedChunk.outstanding n) =
      s.bytes (CountedChunk.attemptedWithin n) + s.bytes (CountedChunk.carriedOver n) := by
  unfold Traffic.bytes
  rw [← List.sum_map_add, ← List.sum_map_add]
  exact congrArg List.sum (List.map_congr_left fun c hc => CountedChunk.balance n (hordered c hc))

/-- Totals in range put the ratio in range. -/
theorem ratioInRange_iff {F : Type*} [FloatArith F] (hF : Rounding F) {w : QualityWindow}
    (hmax : w.attemptedTotal ≤ U64_MAX) :
    RatioInRange F w ↔ (w.attemptedTotal ≠ 0 → w.forwardedTotal ≤ w.attemptedTotal) := by
  refine ⟨fun h => h.1, fun h => ⟨h, ?_⟩⟩
  have hbound : U64_MAX < 2 ^ 64 := by decide
  unfold QualityWindow.ratio
  split
  · exact ⟨hF.ofLiteral_ge _ _ 1 0 (by simp [Number.ofLiteral]) (by simp [Number.ofLiteral])
      (by norm_num), hF.ofLiteral_ge _ _ 1 1 (by simp [Number.ofLiteral])
      (by simp [Number.ofLiteral]) le_rfl⟩
  · next hne =>
      have hle := h hne
      exact ⟨hF.quotient_nonneg _ _ (by omega) (by omega) (by omega),
        hF.quotient_le_one _ _ (by omega) (by omega) hle⟩

/-- **When the ratio is in range.**  In every state reached, the forwarded total stays within the
attempted one exactly if what was carried over is made up for. -/
theorem ratio_in_range_iff {F : Type*} [FloatArith F] (hF : Rounding F) (size : ℕ)
    (acts : List TrafficAct) (s : Traffic)
    (h : exec trafficStep (.initial size) acts = some s) :
    RatioInRange F s.window ↔ MadeUpFor (max size 1) s := by
  have hs := matches_of_exec h
  obtain ⟨hattempted, hforwarded⟩ := hs.totals
  have hbalance := Traffic.balance hs.ordered (max size 1)
  have hshown : ∀ n, shown n ≤ U64_MAX := fun n => Nat.min_le_right _ _
  rw [ratioInRange_iff hF (hattempted ▸ hshown _), hattempted, hforwarded, MadeUpFor]
  unfold shown U64_MAX
  constructor <;> intro <;> omega

/-- A chunk that is completed in the bucket of its attempt keeps the ratio in range. -/
theorem ratio_in_range_iff_completed :
    ∃ s, exec trafficStep (.initial 2) [.attempt 10, .rotate, .attempt 1, .complete 1] = some s ∧
      RatioInRange Number s.window := by
  refine ⟨_, rfl, ?_⟩
  rw [ratio_in_range_iff Number.rounding 2 [.attempt 10, .rotate, .attempt 1, .complete 1] _ rfl]
  exact Or.inl (by decide)

/-- Ten bytes are attempted, and forwarded after a rotation; another rotation forgets the attempt
only, and the next byte that is attempted stands against ten that were forwarded. -/
theorem ratio_exceeds_one :
    ¬ ∀ (size : ℕ) (acts : List TrafficAct) (s : Traffic),
        exec trafficStep (.initial size) acts = some s → RatioInRange Number s.window := by
  intro h
  have hrange := h 2 [.attempt 10, .rotate, .complete 0, .rotate, .attempt 1] _ rfl
  exact absurd (hrange.1 (by decide +kernel)) (by decide +kernel)

end Relay
