/-
# The quality window of the relay

`QualityWindow` of `relay/state.rs` counts the bytes that were attempted and forwarded, in a ring
of buckets that the quality monitor rotates once a second.  A bucket holds what was counted
between two rotations, so the totals are those of the latest rotations (`totals_runWindow`); the
counters saturate.

The ratio is computed in floating-point numbers of any kind.
-/
import Emwin.Lib.Floats
import Emwin.Lib.RingWindow
import Emwin.Lib.Saturating
import Mathlib.Data.List.Induction

namespace Relay

open Floats RingWindow Saturating

/-- Quality tracking bucket for a single time window. -/
structure QualityBucket where
  attempted : ℕ := 0
  forwarded : ℕ := 0
  deriving DecidableEq, Repr

/-- Rolling window for tracking forwarding quality. -/
abbrev QualityWindow := BucketRing QualityBucket

namespace QualityWindow

/-- Creates a new quality window with the specified number of buckets. -/
def new (size : ℕ) : QualityWindow := BucketRing.replicate (max size 1) (by omega) {}

/-- Rotates to the next bucket, clearing it for new data. -/
def rotate (w : QualityWindow) : QualityWindow := BucketRing.rotate w {}

/-- Records attempted bytes in the current bucket. -/
def addAttempted (w : QualityWindow) (bytes : ℕ) : QualityWindow :=
  w.modify fun b => { b with attempted := saturatingAdd b.attempted bytes }

/-- Records successfully forwarded bytes in the current bucket. -/
def addForwarded (w : QualityWindow) (bytes : ℕ) : QualityWindow :=
  w.modify fun b => { b with forwarded := saturatingAdd b.forwarded bytes }

/-- The attempted bytes of all buckets. -/
def attemptedTotal (w : QualityWindow) : ℕ :=
  w.buckets.foldl (fun sum b => saturatingAdd sum b.attempted) 0

/-- The forwarded bytes of all buckets. -/
def forwardedTotal (w : QualityWindow) : ℕ :=
  w.buckets.foldl (fun sum b => saturatingAdd sum b.forwarded) 0

/-- Calculates the forwarding quality ratio; it is 1 if no bytes have been attempted. -/
def ratio {F : Type*} [FloatArith F] (w : QualityWindow) : F :=
  if w.attemptedTotal = 0 then const 1 else const w.forwardedTotal / const w.attemptedTotal

end QualityWindow

/-! ## Sequences of operations -/

/-- An operation on a window. -/
inductive WindowOp where
  | rotate
  | addAttempted (bytes : ℕ)
  | addForwarded (bytes : ℕ)
  deriving DecidableEq, Repr

/-- The bytes that an operation counts as attempted. -/
def WindowOp.attempted : WindowOp → ℕ
  | .addAttempted bytes => bytes
  | .rotate | .addForwarded _ => 0

/-- The bytes that an operation counts as forwarded. -/
def WindowOp.forwarded : WindowOp → ℕ
  | .addForwarded bytes => bytes
  | .rotate | .addAttempted _ => 0

/-- Perform an operation. -/
def QualityWindow.apply (w : QualityWindow) : WindowOp → QualityWindow
  | .rotate => w.rotate
  | .addAttempted bytes => w.addAttempted bytes
  | .addForwarded bytes => w.addForwarded bytes

/-- A new window after some operations. -/
def runWindow (size : ℕ) (ops : List WindowOp) : QualityWindow :=
  ops.foldl QualityWindow.apply (.new size)

/-- The operations since a rotation, of a list with the latest operation first: rotations are
counted back from the latest, which is the 0-th.  All of them if there are fewer rotations. -/
def recent : ℕ → List WindowOp → List WindowOp
  | _, [] => []
  | 0, .rotate :: _ => []
  | k + 1, .rotate :: ops => .rotate :: recent k ops
  | k, op :: ops => op :: recent k ops

theorem recent_cons_of_ne {op : WindowOp} (hop : op ≠ .rotate) (k : ℕ) (ops : List WindowOp) :
    recent k (op :: ops) = op :: recent k ops := by
  cases op with
  | rotate => exact absurd rfl hop
  | addAttempted | addForwarded => cases k <;> rfl

/-- What the operations since the `k`-th most recent rotation count together. -/
def countedSince (amount : WindowOp → ℕ) (k : ℕ) (ops : List WindowOp) : ℕ :=
  ((recent k ops.reverse).map amount).sum

/-! ## Ages -/

/-- What is counted at an age, in rotations, of a list with the latest operation first. -/
def countedAt (amount : WindowOp → ℕ) : ℕ → List WindowOp → ℕ
  | _, [] => 0
  | 0, .rotate :: _ => 0
  | k + 1, .rotate :: ops => countedAt amount k ops
  | 0, op :: ops => amount op + countedAt amount 0 ops
  | k + 1, _ :: ops => countedAt amount (k + 1) ops

/-- What is counted up to an age is counted since the rotation of that age. -/
theorem sum_countedAt {amount : WindowOp → ℕ} (hrotate : amount .rotate = 0) (k : ℕ)
    (ops : List WindowOp) :
    ((List.range (k + 1)).map fun j => countedAt amount j ops).sum =
      ((recent k ops).map amount).sum := by
  induction ops generalizing k with
  | nil => simp [recent, countedAt]
  | cons op ops ih =>
      cases op with
      | rotate =>
          rw [List.range_succ_eq_map, List.map_cons, List.map_map, List.sum_cons]
          cases k with
          | zero => rfl
          | succ k =>
              rw [recent, List.map_cons, List.sum_cons, hrotate, ← ih k]
              rfl
      | addAttempted | addForwarded =>
          have h := ih k
          rw [List.range_succ_eq_map, List.map_cons, List.map_map, List.sum_cons] at h ⊢
          rw [recent_cons_of_ne (by rintro ⟨⟩), List.map_cons, List.sum_cons, ← h, ← Nat.add_assoc]
          rfl

/-- The buckets show what is counted at their ages. -/
theorem shows_runWindow (size : ℕ) (ops : List WindowOp) :
    Shows (runWindow size ops) fun k =>
      ⟨shown (countedAt WindowOp.attempted k ops.reverse),
        shown (countedAt WindowOp.forwarded k ops.reverse)⟩ := by
  induction ops using List.reverseRecOn with
  | nil => exact shows_replicate (max size 1) (by omega) (⟨0, 0⟩ : QualityBucket)
  | append_singleton ops op ih =>
      rw [runWindow, List.foldl_append, List.reverse_append]
      cases op with
      | rotate =>
          refine (ih.rotate {}).congr fun k => ?_
          cases k <;> rfl
      | addAttempted bytes =>
          refine (ih.modify _).congr fun k => ?_
          cases k with
          | zero =>
              show (⟨saturatingAdd (shown _) bytes, _⟩ : QualityBucket) = _
              rw [saturatingAdd_shown_left, Nat.add_comm]
              simp [countedAt, WindowOp.attempted, WindowOp.forwarded]
          | succ k => rfl
      | addForwarded bytes =>
          refine (ih.modify _).congr fun k => ?_
          cases k with
          | zero =>
              show (⟨_, saturatingAdd (shown _) bytes⟩ : QualityBucket) = _
              rw [saturatingAdd_shown_left, Nat.add_comm]
              simp [countedAt, WindowOp.attempted, WindowOp.forwarded]
          | succ k => rfl

theorem length_runWindow (size : ℕ) (ops : List WindowOp) :
    (runWindow size ops).buckets.length = max size 1 := by
  induction ops using List.reverseRecOn with
  | nil => simp [runWindow, QualityWindow.new, BucketRing.replicate]
  | append_singleton ops op ih =>
      rw [runWindow, List.foldl_append]
      cases op with
      | rotate => exact (BucketRing.length_rotate _ _).trans ih
      | addAttempted | addForwarded => exact (BucketRing.length_modify _ _).trans ih

/-- A total over the buckets, if each shows what is counted at its age. -/
theorem total_of_shows {w : QualityWindow} {h : ℕ → QualityBucket} (hw : Shows w h)
    {field : QualityBucket → ℕ} {amount : ℕ → ℕ} (hfield : ∀ k, field (h k) = shown (amount k)) :
    w.buckets.foldl (fun sum b => saturatingAdd sum (field b)) 0 =
      shown ((List.range w.buckets.length).map amount).sum := by
  have hperm : w.buckets.foldl (fun sum b => saturatingAdd sum (field b)) 0 =
      w.newestFirst.foldl (fun sum b => saturatingAdd sum (field b)) 0 := by
    refine (w.newestFirst_perm.foldl_eq' ?_ 0).symm
    intro x _ y _ sum
    simp only [saturatingAdd]
    omega
  rw [hperm, hw, List.foldl_map]
  simp only [hfield]
  have hsum := foldl_saturatingAdd_shown amount (List.range w.buckets.length) 0
  rwa [shown_zero, Nat.zero_add] at hsum

/-- **The totals are those of a sliding window**: what was counted since the rotation that
brought the oldest bucket, up to saturation. -/
theorem totals_runWindow (size : ℕ) (ops : List WindowOp) :
    (runWindow size ops).attemptedTotal =
        shown (countedSince WindowOp.attempted (max size 1 - 1) ops) ∧
      (runWindow size ops).forwardedTotal =
        shown (countedSince WindowOp.forwarded (max size 1 - 1) ops) := by
  obtain ⟨n, hn⟩ : ∃ n, max size 1 = n + 1 := ⟨max size 1 - 1, by omega⟩
  have hshows := shows_runWindow size ops
  rw [hn, Nat.add_sub_cancel, countedSince, countedSince, ← sum_countedAt rfl, ← sum_countedAt rfl,
    ← hn, ← length_runWindow size ops]
  exact ⟨total_of_shows hshows fun _ => rfl, total_of_shows hshows fun _ => rfl⟩

end Relay
