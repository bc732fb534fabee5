/-
# Saturating counters

A 64-bit counter that is incremented with saturation shows the number of increments as
long as that number fits, and the largest value afterwards.
-/
import Mathlib.Algebra.BigOperators.Group.List.Basic
import Mathlib.Algebra.Ring.Nat
import Mathlib.Order.Lattice

namespace Saturating

/-- The largest value of a 64-bit counter. -/
def U64_MAX : ℕ := 2 ^ 64 - 1

/-- `u64::saturating_add`. -/
def saturatingAdd (a b : ℕ) : ℕ := min (a + b) U64_MAX

/-- What a counter shows after `n` increments. -/
def shown (n : ℕ) : ℕ := min n U64_MAX

@[simp] theorem shown_zero : shown 0 = 0 := Nat.zero_min _

/-- One increment more is shown as one more. -/
@[simp] theorem saturatingAdd_shown (n : ℕ) : saturatingAdd (shown n) 1 = shown (n + 1) := by
  unfold saturatingAdd shown
  omega

/-- A number that fits is shown as it is. -/
theorem shown_eq_self {n : ℕ} (h : n ≤ U64_MAX) : shown n = n := Nat.min_eq_left h

/-- Adding to a counter shows the sum. -/
theorem saturatingAdd_shown_left (a b : ℕ) : saturatingAdd (shown a) b = shown (a + b) := by
  unfold saturatingAdd shown
  omega

/-- Adding what a counter shows is no different from adding the number itself. -/
theorem shown_add_shown (a b : ℕ) : shown (a + shown b) = shown (a + b) := by
  unfold shown
  omega

/-- A saturating sum of what counters show. -/
theorem foldl_saturatingAdd_shown {α : Type*} (measure : α → ℕ) (l : List α) (a : ℕ) :
    l.foldl (fun sum x => saturatingAdd sum (shown (measure x))) (shown a) =
      shown (a + (l.map measure).sum) := by
  induction l generalizing a with
  | nil => rfl
  | cons x l ih =>
      rw [List.foldl_cons, saturatingAdd_shown_left, shown_add_shown, ih, List.map_cons,
        List.sum_cons, Nat.add_assoc]

end Saturating
