/-
# Loops that run until a pass makes no progress

A loop of the form `loop { let again = body(); if !again { break } }` is given
by its body: one pass takes a state, writes some output, leaves a new state
and says whether another pass follows.  `Runs` is the big-step meaning of such
a loop; `Ranked` bundles a body with a rank that every progressing pass lowers,
so that the loop terminates, and `Ranked.drain` computes its result.

The second half is about loops that are fed: `push` appends input to the state
and the loop drains what it can.  `feedAll_eq_feed_flatten` reduces independence
of the cuts to a single condition on one pass (`absorb`).
-/
import Mathlib.Algebra.BigOperators.Group.List.Basic
import Mathlib.Algebra.Ring.Nat

namespace StepLoop

/-- What one pass of a loop body leaves behind. -/
structure Pass (σ ε : Type*) where
  /-- The output written by the pass. -/
  out : List ε
  /-- The state after the pass. -/
  state : σ
  /-- Whether the loop takes another pass. -/
  again : Bool

variable {σ ε β : Type*}

/-! ## The meaning of a loop -/

/-- `Runs body s out t`: the loop entered in `s` writes `out` and leaves in `t`. -/
inductive Runs (body : σ → Pass σ ε) : σ → List ε → σ → Prop
  | stop {s : σ} : (body s).again = false → Runs body s (body s).out (body s).state
  | again {s t : σ} {out : List ε} : (body s).again = true →
      Runs body (body s).state out t → Runs body s ((body s).out ++ out) t

/-- A loop has at most one result. -/
theorem Runs.unique {body : σ → Pass σ ε} {s t t' : σ} {out out' : List ε}
    (h : Runs body s out t) (h' : Runs body s out' t') : out = out' ∧ t = t' := by
  induction h generalizing out' t' with
  | stop hs =>
      cases h' with
      | stop _ => exact ⟨rfl, rfl⟩
      | again ha _ => exact absurd ha (by simp [hs])
  | again ha _ ih =>
      cases h' with
      | stop hs => exact absurd ha (by simp [hs])
      | again _ hr =>
          obtain ⟨hout, ht⟩ := ih hr
          exact ⟨by rw [hout], ht⟩

/-- An invariant of the body holds when the loop is left. -/
theorem Runs.invariant {body : σ → Pass σ ε} {P : σ → Prop}
    (hbody : ∀ s, P s → P (body s).state) {s t : σ} {out : List ε}
    (h : Runs body s out t) (hs : P s) : P t := by
  induction h with
  | stop _ => exact hbody _ hs
  | again _ _ ih => exact ih (hbody _ hs)

/-- A loop is left through a pass that makes no progress. -/
theorem Runs.exists_stop {body : σ → Pass σ ε} {P : σ → Prop}
    (hbody : ∀ s, P s → P (body s).state) {s t : σ} {out : List ε}
    (h : Runs body s out t) (hs : P s) :
    ∃ u, P u ∧ (body u).again = false ∧ t = (body u).state := by
  induction h with
  | stop hstop => exact ⟨_, hs, hstop, rfl⟩
  | again _ _ ih => exact ih (hbody _ hs)

/-- If no pass writes and leaves more than it was given, neither does the loop. -/
theorem Runs.weight_le {body : σ → Pass σ ε} {size : σ → ℕ} {weight : ε → ℕ}
    (hbody : ∀ s, ((body s).out.map weight).sum + size (body s).state ≤ size s)
    {s t : σ} {out : List ε} (h : Runs body s out t) : (out.map weight).sum + size t ≤ size s := by
  induction h with
  | stop _ => exact hbody _
  | @again s t out _ _ ih =>
      have hpass := hbody s
      rw [List.map_append, List.sum_append]
      omega

/-- `Visits body s u`: the loop entered in `s` takes a pass in `u`. -/
inductive Visits (body : σ → Pass σ ε) (s : σ) : σ → Prop
  | start : Visits body s s
  | next {u : σ} : Visits body s u → (body u).again = true → Visits body s (body u).state

/-- An invariant of the body holds whenever the loop takes a pass. -/
theorem Visits.invariant {body : σ → Pass σ ε} {P : σ → Prop}
    (hbody : ∀ s, P s → P (body s).state) {s u : σ} (h : Visits body s u) (hs : P s) : P u := by
  induction h with
  | start => exact hs
  | next _ _ ih => exact hbody _ ih

/-! ## Terminating loops -/

/-- A loop body together with a rank that every progressing pass lowers. -/
structure Ranked (σ ε : Type*) where
  /-- One pass of the loop. -/
  body : σ → Pass σ ε
  /-- The rank of a state. -/
  rank : σ → ℕ
  /-- A pass that asks for another one lowers the rank. -/
  rank_lt : ∀ s, (body s).again = true → rank (body s).state < rank s

/-- At most `n` passes of the loop. -/
def runFuel (body : σ → Pass σ ε) : ℕ → σ → List ε × σ
  | 0, s => ([], s)
  | n + 1, s =>
      if (body s).again then
        ((body s).out ++ (runFuel body n (body s).state).1, (runFuel body n (body s).state).2)
      else
        ((body s).out, (body s).state)

namespace Ranked

variable (L : Ranked σ ε)

/-- The result of the loop: its output and the state it leaves. -/
def drain (s : σ) : List ε × σ :=
  runFuel L.body (L.rank s + 1) s

/-- More passes than the rank are enough to leave the loop. -/
theorem runs_runFuel (n : ℕ) (s : σ) (hn : L.rank s < n) :
    Runs L.body s (runFuel L.body n s).1 (runFuel L.body n s).2 := by
  induction n generalizing s with
  | zero => omega
  | succ n ih =>
      rw [runFuel]
      by_cases ha : (L.body s).again = true
      · rw [if_pos ha]
        have hlt := L.rank_lt s ha
        exact Runs.again ha (ih _ (by omega))
      · rw [if_neg ha]
        exact Runs.stop (by simpa using ha)

/-- **Termination.**  `drain` is the result of the loop. -/
theorem runs_drain (s : σ) : Runs L.body s (L.drain s).1 (L.drain s).2 :=
  L.runs_runFuel _ s (Nat.lt_succ_self _)

/-- The result of the loop is what `drain` computes. -/
theorem drain_eq_of_runs {s t : σ} {out : List ε} (h : Runs L.body s out t) :
    L.drain s = (out, t) := by
  obtain ⟨h1, h2⟩ := (L.runs_drain s).unique h
  exact Prod.ext h1 h2

/-- A pass without progress ends the loop. -/
theorem drain_of_stop {s : σ} (h : (L.body s).again = false) :
    L.drain s = ((L.body s).out, (L.body s).state) :=
  L.drain_eq_of_runs (Runs.stop h)

/-- A pass with progress hands over to the loop in the next state. -/
theorem drain_of_again {s : σ} (h : (L.body s).again = true) :
    L.drain s = ((L.body s).out ++ (L.drain (L.body s).state).1, (L.drain (L.body s).state).2) :=
  L.drain_eq_of_runs (Runs.again h (L.runs_drain _))

/-- Only the first pass depends on the state the loop is entered in. -/
theorem drain_congr {s s' : σ} (h : L.body s = L.body s') : L.drain s = L.drain s' := by
  by_cases ha : (L.body s).again = true
  · have ha' : (L.body s').again = true := h ▸ ha
    rw [L.drain_of_again ha, L.drain_of_again ha', h]
  · have hstop : (L.body s).again = false := by simpa using ha
    have hstop' : (L.body s').again = false := h ▸ hstop
    rw [L.drain_of_stop hstop, L.drain_of_stop hstop', h]

/-! ## Feeding a loop -/

section Feeding

variable (push : σ → List β → σ)

/-- Append one chunk of input and run the loop. -/
def feed (s : σ) (w : List β) : List ε × σ :=
  L.drain (push s w)

/-- Feed the chunks one after another, collecting the output. -/
def feedAll (s : σ) : List (List β) → List ε × σ
  | [] => ([], s)
  | w :: ws =>
      ((L.feed push s w).1 ++ (feedAll (L.feed push s w).2 ws).1,
        (feedAll (L.feed push s w).2 ws).2)

variable {push} {P : σ → Prop}
  (push_nil : ∀ s, push s [] = s)
  (push_append : ∀ s v w, push (push s v) w = push s (v ++ w))
  (inv_body : ∀ s, P s → P (L.body s).state)
  (inv_push : ∀ s w, P s → P (push s w))
  (absorb : ∀ s w, P s → L.drain (push s w) =
    ((L.body s).out ++ (L.drain (push (L.body s).state w)).1,
      (L.drain (push (L.body s).state w)).2))

include inv_body absorb in
/-- Input that arrives before the loop is entered can as well arrive after it is left. -/
theorem drain_push_of_runs {s t : σ} {out : List ε} (w : List β)
    (h : Runs L.body s out t) (hs : P s) :
    L.drain (push s w) = (out ++ (L.drain (push t w)).1, (L.drain (push t w)).2) := by
  induction h with
  | stop _ => exact absorb _ w hs
  | again _ _ ih => rw [absorb _ w hs, ih (inv_body _ hs), List.append_assoc]

include push_nil inv_body absorb in
/-- Once left, the loop has nothing more to do on the same input. -/
theorem drain_drain (s : σ) (hs : P s) : L.drain (L.drain s).2 = ([], (L.drain s).2) := by
  have h := L.drain_push_of_runs inv_body absorb [] (L.runs_drain s) hs
  rw [push_nil, push_nil] at h
  obtain ⟨h1, h2⟩ := Prod.ext_iff.mp h
  exact Prod.ext (List.append_right_eq_self.mp h1.symm) h2.symm

include push_append inv_body inv_push absorb in
/-- Feeding two chunks is feeding their concatenation. -/
theorem feed_append (s : σ) (v w : List β) (hs : P s) :
    L.feed push s (v ++ w) =
      ((L.feed push s v).1 ++ (L.feed push (L.feed push s v).2 w).1,
        (L.feed push (L.feed push s v).2 w).2) := by
  unfold feed
  rw [← push_append]
  exact L.drain_push_of_runs inv_body absorb w (L.runs_drain _) (inv_push s v hs)

include push_nil push_append inv_body inv_push absorb in
/-- **Independence of the cuts.**  From a state in which the loop has nothing to
do, feeding chunks one after another is feeding their concatenation. -/
theorem feedAll_eq_feed_flatten (ws : List (List β)) (s : σ) (hs : P s)
    (hsettled : L.drain s = ([], s)) :
    L.feedAll push s ws = L.feed push s ws.flatten := by
  induction ws generalizing s with
  | nil =>
      rw [feedAll, feed, List.flatten_nil, push_nil]
      exact hsettled.symm
  | cons w ws ih =>
      have hinv : P (L.feed push s w).2 :=
        (L.runs_drain _).invariant inv_body (inv_push s w hs)
      have hdone : L.drain (L.feed push s w).2 = ([], (L.feed push s w).2) :=
        L.drain_drain push_nil inv_body absorb _ (inv_push s w hs)
      rw [feedAll, ih _ hinv hdone, List.flatten_cons,
        L.feed_append push_append inv_body inv_push absorb s w _ hs]

end Feeding

end Ranked

end StepLoop
