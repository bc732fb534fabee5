/-
# Matches one behind the other

A pattern says what it matches at the front of a list, and what is left behind the match.  Its
matches in a list are searched from the left, each behind the end of the one before.  There are none
exactly if the pattern matches nowhere, so a search can skip whatever no match begins in
(`all_append`).
-/
import Mathlib.Data.List.Basic

namespace Matches

variable {α β : Type*} {s : List α}

/-- What is matched at the front of a list, and the shorter list behind it. -/
structure Pattern (α β : Type*) where
  run : List α → Option (β × List α)
  shorter : ∀ {s found rest}, run s = some (found, rest) → rest.length < s.length

namespace Pattern

/-- All matches, the leftmost first, that do not overlap. -/
def all (p : Pattern α β) : List α → List β
  | [] => []
  | a :: s =>
      match _ : p.run (a :: s) with
      | some (found, rest) => found :: p.all rest
      | none => p.all s
termination_by s => s.length
decreasing_by
  · exact p.shorter ‹_›
  · exact Nat.lt_succ_self _

variable {p : Pattern α β}

@[simp] theorem all_nil : p.all [] = [] := by
  rw [all]

/-- Nothing is matched in nothing. -/
@[simp] theorem run_nil : p.run [] = none := by
  rw [Option.eq_none_iff_forall_ne_some]
  rintro ⟨found, rest⟩ h
  exact absurd (p.shorter h) (Nat.not_lt_zero _)

theorem all_cons_of_none {a : α} (h : p.run (a :: s) = none) : p.all (a :: s) = p.all s := by
  rw [all]
  split
  · next hsome =>
      rw [h] at hsome
      cases hsome
  · rfl

/-- Where the pattern matches, there is a match. -/
theorem all_ne_nil {found : β} {rest : List α} (h : p.run s = some (found, rest)) :
    p.all s ≠ [] := by
  cases s with
  | nil =>
      rw [run_nil] at h
      cases h
  | cons a s =>
      rw [all]
      split
      · exact List.cons_ne_nil _ _
      · next hnone =>
          rw [h] at hnone
          cases hnone

/-- A text that no match begins in is skipped. -/
theorem all_append {front : List α}
    (h : ∀ u v, front = u ++ v → v ≠ [] → p.run (v ++ s) = none) :
    p.all (front ++ s) = p.all s := by
  induction front with
  | nil => rfl
  | cons a front ih =>
      have hnone : p.run (a :: (front ++ s)) = none := h [] (a :: front) rfl (List.cons_ne_nil _ _)
      rw [List.cons_append, all_cons_of_none hnone]
      refine ih fun u v hfront hv => ?_
      exact h (a :: u) v (by rw [hfront, List.cons_append]) hv

end Pattern

end Matches
