/-
# Loops whose rounds commute

A loop over a list carries a state through rounds that may fail.  If the rounds of any two values
can be exchanged, up to a relation of states, then the order of the whole list does not matter up
to that relation: the loop fails for all orders or for none, and its results are related.

The rounds of many loops only add something to the state that does not depend on it.  For these,
what is added has to commute.
-/
import Mathlib.Data.List.Basic

namespace Rounds

variable {σ α β : Type*} {R : σ → σ → Prop} {step : σ → α → Option σ}

/-! ## Related results -/

/-- Related results go on to related results. -/
theorem rel_bind {x y : Option σ} {f g : σ → Option σ} (h : Option.Rel R x y)
    (hf : ∀ s t, R s t → Option.Rel R (f s) (g t)) : Option.Rel R (x.bind f) (y.bind g) := by
  cases h with
  | some h => exact hf _ _ h
  | none => exact Option.Rel.none

theorem rel_trans (htrans : ∀ s t u, R s t → R t u → R s u) {x y z : Option σ}
    (hxy : Option.Rel R x y) (hyz : Option.Rel R y z) : Option.Rel R x z := by
  cases hxy with
  | none => exact hyz
  | some hst =>
      cases hyz with
      | some htu => exact Option.Rel.some (htrans _ _ _ hst htu)

/-! ## Order -/

/-- Rounds that can be exchanged. -/
structure Commute (R : σ → σ → Prop) (step : σ → α → Option σ) : Prop where
  refl : ∀ s, R s s
  trans : ∀ s t u, R s t → R t u → R s u
  congr : ∀ s t (a : α), R s t → Option.Rel R (step s a) (step t a)
  swap : ∀ s (a b : α),
    Option.Rel R ((step s a).bind fun s => step s b) ((step s b).bind fun s => step s a)

/-- Related states go on to related results, in the same order. -/
theorem Commute.foldlM_congr (h : Commute R step) (l : List α) {s t : σ} (hst : R s t) :
    Option.Rel R (l.foldlM step s) (l.foldlM step t) := by
  induction l generalizing s t with
  | nil => exact Option.Rel.some hst
  | cons a l ih =>
      rw [List.foldlM_cons, List.foldlM_cons]
      exact rel_bind (h.congr _ _ a hst) fun _ _ => ih

/-- **Order.**  The order of the values does not matter. -/
theorem Commute.foldlM_perm (h : Commute R step) {l l' : List α} (hperm : l.Perm l') {s t : σ}
    (hst : R s t) : Option.Rel R (l.foldlM step s) (l'.foldlM step t) := by
  induction hperm generalizing s t with
  | nil => exact Option.Rel.some hst
  | cons a _ ih =>
      rw [List.foldlM_cons, List.foldlM_cons]
      exact rel_bind (h.congr _ _ a hst) fun _ _ => ih
  | swap a b l =>
      have hboth : ∀ (s : σ) (a b : α), (b :: a :: l).foldlM step s =
          ((step s b).bind fun s => step s a).bind (l.foldlM step) := by
        intro s a b
        rw [List.foldlM_cons, Option.bind_assoc]
        congr 1
      rw [hboth, hboth]
      refine rel_trans h.trans (rel_bind (h.swap s b a) fun _ _ => h.foldlM_congr l) ?_
      rw [← hboth, ← hboth]
      exact h.foldlM_congr _ hst
  | trans _ _ ih ih' => exact rel_trans h.trans (ih hst) (ih' (h.refl t))

/-! ## Contributions -/

/-- Rounds that add what a value contributes, whatever the state, can be exchanged if any two
contributions can. -/
theorem commute_of_contributions {found : α → Option β} {add : σ → β → σ} (refl : ∀ s, R s s)
    (trans : ∀ s t u, R s t → R t u → R s u)
    (congr : ∀ s t (b : β), R s t → R (add s b) (add t b))
    (swap : ∀ s {a a' : α} {b b' : β}, found a = some b → found a' = some b' →
      R (add (add s b) b') (add (add s b') b)) :
    Commute R fun s a => (found a).map (add s) where
  refl := refl
  trans := trans
  congr := by
    intro s t a hst
    cases found a with
    | none => exact Option.Rel.none
    | some b => exact Option.Rel.some (congr _ _ b hst)
  swap := by
    intro s a a'
    cases ha : found a with
    | none =>
        cases ha' : found a' with
        | none => exact Option.Rel.none
        | some b' => exact Option.Rel.none
    | some b =>
        cases ha' : found a' with
        | none => exact Option.Rel.none
        | some b' => exact Option.Rel.some (swap s ha ha')

end Rounds
