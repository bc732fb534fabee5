/-
# Replacing a pattern

Every occurrence of a pattern is replaced, from left to right and without overlaps.  The scan
counts the elements of an occurrence that are still to be skipped, so it is a recursion on
the list.

A list in which one element is written twice everywhere is undone by replacing the pair, as
long as the pairs are met one after another: this is what `replaceAll_doubled` says.
-/
import Mathlib.Data.List.Basic

namespace ListReplace

variable {α : Type*} [DecidableEq α]

/-- What is left of a list behind `skip` further elements of an occurrence. -/
def replaceFrom (pattern replacement : List α) : ℕ → List α → List α
  | _, [] => []
  | skip + 1, _ :: s => replaceFrom pattern replacement skip s
  | 0, c :: s =>
      if pattern <+: c :: s then replacement ++ replaceFrom pattern replacement (pattern.length - 1) s
      else c :: replaceFrom pattern replacement 0 s

/-- Every occurrence of a pattern replaced. -/
def replaceAll (pattern replacement s : List α) : List α := replaceFrom pattern replacement 0 s

/-- Every occurrence of an element written twice. -/
def doubled (a : α) (s : List α) : List α := s.flatMap fun c => if c = a then [a, a] else [c]

/-- Every occurrence of an element written as `r`. -/
def expanded (a : α) (r s : List α) : List α := s.flatMap fun c => if c = a then r else [c]

variable {pattern : List α} {a c : α} {s : List α}

/-- Skipping an occurrence is dropping it. -/
theorem replaceFrom_eq_drop (replacement : List α) (skip : ℕ) (s : List α) :
    replaceFrom pattern replacement skip s = replaceAll pattern replacement (s.drop skip) := by
  induction skip generalizing s with
  | zero => rfl
  | succ skip ih =>
      cases s with
      | nil => rfl
      | cons c s => rw [replaceFrom, ih, List.drop_succ_cons]

/-- An occurrence at the front. -/
theorem replaceAll_append (hne : pattern ≠ []) (replacement s : List α) :
    replaceAll pattern replacement (pattern ++ s) =
      replacement ++ replaceAll pattern replacement s := by
  cases pattern with
  | nil => exact absurd rfl hne
  | cons c p =>
      rw [replaceAll, List.cons_append, replaceFrom,
        if_pos (by rw [← List.cons_append]; exact List.prefix_append _ _), replaceFrom_eq_drop,
        List.length_cons, Nat.add_sub_cancel, List.drop_left]

/-- An element that does not begin the pattern. -/
theorem replaceAll_cons_of_ne (hc : ∀ p ∈ pattern.head?, p ≠ c) (hne : pattern ≠ [])
    (replacement s : List α) :
    replaceAll pattern replacement (c :: s) = c :: replaceAll pattern replacement s := by
  have hnot : ¬ pattern <+: c :: s := by
    cases pattern with
    | nil => exact absurd rfl hne
    | cons p ps =>
        intro h
        exact hc p rfl (List.cons_prefix_cons.mp h).1
  rw [replaceAll, replaceFrom, if_neg hnot]
  rfl

/-- Elements none of which begins the pattern. -/
theorem replaceAll_append_of_notMem (hs : ∀ p ∈ pattern.head?, p ∉ s) (hne : pattern ≠ [])
    (replacement t : List α) :
    replaceAll pattern replacement (s ++ t) = s ++ replaceAll pattern replacement t := by
  induction s with
  | nil => rfl
  | cons c s ih =>
      have hc : ∀ p ∈ pattern.head?, p ≠ c := by
        rintro p hp rfl
        exact hs p hp List.mem_cons_self
      rw [List.cons_append, replaceAll_cons_of_ne hc hne,
        ih fun p hp hmem => hs p hp (List.mem_cons_of_mem c hmem), List.cons_append]

/-- **Doubling is undone.**  Replacing the pairs of a doubled list replaces the element. -/
theorem replaceAll_doubled (a : α) (replacement s : List α) :
    replaceAll [a, a] replacement (doubled a s) = expanded a replacement s := by
  induction s with
  | nil => rfl
  | cons c s ih =>
      unfold doubled expanded at *
      rw [List.flatMap_cons, List.flatMap_cons]
      by_cases hc : c = a
      · rw [if_pos hc, if_pos hc, replaceAll_append (by simp), ih]
      · rw [if_neg hc, if_neg hc, List.singleton_append, List.singleton_append,
          replaceAll_cons_of_ne (by simpa using Ne.symm hc) (by simp), ih]

/-- Elements that a filter removes from the replacement are not seen behind the filter. -/
theorem filter_expanded {keep : α → Bool} {r : List α} (h : r.filter keep = [a].filter keep) :
    (expanded a r s).filter keep = s.filter keep := by
  induction s with
  | nil => rfl
  | cons c s ih =>
      have hhead : (if c = a then r else [c]).filter keep = [c].filter keep := by
        split
        · next hc => rw [h, hc]
        · rfl
      unfold expanded at *
      rw [List.flatMap_cons, List.filter_append, ih, hhead, ← List.filter_append,
        List.singleton_append]

theorem doubled_append (a : α) (s t : List α) : doubled a (s ++ t) = doubled a s ++ doubled a t :=
  List.flatMap_append

/-- Where the element does not occur, nothing is doubled. -/
theorem doubled_of_notMem (h : a ∉ s) : doubled a s = s := by
  induction s with
  | nil => rfl
  | cons c s ih =>
      obtain ⟨hc, hs⟩ := not_or.mp (fun hmem => h (List.mem_cons.mpr hmem))
      unfold doubled at *
      rw [List.flatMap_cons, if_neg (Ne.symm hc), ih hs, List.singleton_append]

end ListReplace
