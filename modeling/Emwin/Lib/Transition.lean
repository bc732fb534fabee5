/-
# Runs of labelled transitions

A system of tasks that interleave is given by a step function: a label says which task
takes which step, and `step s l` is the state after it, or `none` where the step is not
possible.  `exec` runs a list of labels.

Besides the invariant rule (`exec_invariant`) there is a rule for ledgers: if every step
changes two measures alike, up to a cost, then a run does so up to the total cost
(`exec_ledger`), and the total is zero exactly if every step is free
(`total_eq_zero_iff`).
-/
import Mathlib.Algebra.BigOperators.Group.List.Basic
import Mathlib.Algebra.Ring.Nat

namespace Transition

variable {σ ℓ : Type*} (step : σ → ℓ → Option σ)

/-- The state after a run of steps. -/
def exec : σ → List ℓ → Option σ
  | s, [] => some s
  | s, l :: ls => (step s l).bind fun t => exec t ls

/-- Every step of a run meets a condition on the state before it. -/
def Always (Q : σ → ℓ → Prop) : σ → List ℓ → Prop
  | _, [] => True
  | s, l :: ls => Q s l ∧ ∀ t, step s l = some t → Always Q t ls

/-- What the steps of a run cost together. -/
def total (cost : σ → ℓ → ℕ) : σ → List ℓ → ℕ
  | _, [] => 0
  | s, l :: ls => cost s l + ((step s l).map fun t => total cost t ls).getD 0

variable {step} {s t : σ} {ls : List ℓ}

/-- A run of several steps is one step and a run. -/
theorem exec_cons {l : ℓ} : exec step s (l :: ls) = some t ↔
    ∃ u, step s l = some u ∧ exec step u ls = some t :=
  Option.bind_eq_some_iff

/-- **Invariants.**  What every step preserves holds after every run. -/
theorem exec_invariant {P : σ → Prop} (hstep : ∀ s l t, P s → step s l = some t → P t)
    (h : exec step s ls = some t) (hs : P s) : P t := by
  induction ls generalizing s with
  | nil =>
      obtain rfl : s = t := Option.some.inj h
      exact hs
  | cons l ls ih =>
      obtain ⟨u, hu, hrest⟩ := exec_cons.mp h
      exact ih hrest (hstep s l u hs hu)

/-- What every step that meets a condition preserves holds after every run whose steps do. -/
theorem exec_invariant_of_always {P : σ → Prop} {Q : σ → ℓ → Prop}
    (hstep : ∀ s l t, P s → Q s l → step s l = some t → P t)
    (h : exec step s ls = some t) (hs : P s) (hQ : Always step Q s ls) : P t := by
  induction ls generalizing s with
  | nil =>
      obtain rfl : s = t := Option.some.inj h
      exact hs
  | cons l ls ih =>
      obtain ⟨u, hu, hrest⟩ := exec_cons.mp h
      exact ih hrest (hstep s l u hs hQ.1 hu) (hQ.2 u hu)

/-- A condition follows from another one where an invariant holds. -/
theorem Always.imp {P : σ → Prop} {Q Q' : σ → ℓ → Prop}
    (hstep : ∀ s l t, P s → Q s l → step s l = some t → P t)
    (himp : ∀ s l, P s → Q s l → Q' s l) (hs : P s) (h : Always step Q s ls) :
    Always step Q' s ls := by
  induction ls generalizing s with
  | nil => trivial
  | cons l ls ih =>
      exact ⟨himp s l hs h.1, fun t ht => ih (hstep s l t hs h.1 ht) (h.2 t ht)⟩

/-- Conditions that agree in every state agree along every run. -/
theorem always_congr {Q Q' : σ → ℓ → Prop} (h : ∀ s l, Q s l ↔ Q' s l) :
    Always step Q s ls ↔ Always step Q' s ls := by
  induction ls generalizing s with
  | nil => exact Iff.rfl
  | cons l ls ih =>
      exact and_congr (h s l) (forall_congr' fun t => imp_congr_right fun _ => ih)

/-- A run goes through exactly if every step is possible where it is taken. -/
theorem exec_isSome_iff_always {Q : σ → ℓ → Prop} (h : ∀ s l, (step s l).isSome ↔ Q s l) :
    (exec step s ls).isSome ↔ Always step Q s ls := by
  induction ls generalizing s with
  | nil => exact ⟨fun _ => trivial, fun _ => rfl⟩
  | cons l ls ih =>
      rw [exec, Always, ← h]
      cases hs : step s l with
      | none => simp
      | some t => simp [ih]

/-- The beginning of a run that goes through does as well. -/
theorem exec_append {ls' : List ℓ} : exec step s (ls ++ ls') = some t ↔
    ∃ u, exec step s ls = some u ∧ exec step u ls' = some t := by
  induction ls generalizing s with
  | nil => simp [exec]
  | cons l ls ih =>
      rw [List.cons_append, exec_cons]
      simp only [exec_cons, ih]
      constructor
      · rintro ⟨v, hv, u, hu, ht⟩
        exact ⟨u, ⟨v, hv, hu⟩, ht⟩
      · rintro ⟨u, ⟨v, hv, hu⟩, ht⟩
        exact ⟨v, hv, u, hu, ht⟩

/-- **Exact conditions.**  What a step keeps exactly under a condition holds throughout a run
exactly if every step meets the condition. -/
theorem forall_prefix_iff_always {P : σ → Prop} {Q : σ → ℓ → Prop}
    (hstep : ∀ s l t, P s → step s l = some t → (P t ↔ Q s l))
    (hnone : ∀ s l, step s l = none → Q s l) (hs : P s) :
    (∀ front t, front <+: ls → exec step s front = some t → P t) ↔ Always step Q s ls := by
  induction ls generalizing s with
  | nil =>
      refine iff_of_true ?_ trivial
      intro front t hfront ht
      obtain rfl := List.prefix_nil.mp hfront
      obtain rfl : s = t := Option.some.inj ht
      exact hs
  | cons l ls ih =>
      constructor
      · intro h
        have hnext : ∀ t, step s l = some t → P t := fun t ht =>
          h [l] t ⟨ls, rfl⟩ (exec_cons.mpr ⟨t, ht, rfl⟩)
        refine ⟨?_, fun t ht => ?_⟩
        · cases hl : step s l with
          | none => exact hnone s l hl
          | some t => exact (hstep s l t hs hl).mp (hnext t hl)
        · rw [← ih (hnext t ht)]
          intro front u hfront hu
          exact h (l :: front) u (List.cons_prefix_cons.mpr ⟨rfl, hfront⟩)
            (exec_cons.mpr ⟨t, ht, hu⟩)
      · rintro ⟨hQ, hrest⟩ front t hfront ht
        cases front with
        | nil =>
            obtain rfl : s = t := Option.some.inj ht
            exact hs
        | cons l' front =>
            obtain ⟨rfl, hshorter⟩ := List.cons_prefix_cons.mp hfront
            obtain ⟨u, hu, ht⟩ := exec_cons.mp ht
            exact (ih ((hstep s l' u hs hu).mpr hQ)).mpr (hrest u hu) front t hshorter ht

/-- What every step keeps, any part of a run keeps. -/
theorem rel_of_always {R : σ → σ → Prop} (hrefl : ∀ s, R s s)
    (htrans : ∀ {s t u}, R s t → R t u → R s u) {front : List ℓ} (hfront : front <+: ls)
    (h : Always step (fun s l => ∀ t, step s l = some t → R s t) s ls)
    (ht : exec step s front = some t) : R s t := by
  induction front generalizing s ls with
  | nil =>
      obtain rfl : s = t := Option.some.inj ht
      exact hrefl s
  | cons l front ih =>
      obtain ⟨behind, rfl⟩ := hfront
      obtain ⟨u, hu, ht⟩ := exec_cons.mp ht
      exact htrans (h.1 u hu) (ih ⟨behind, rfl⟩ (h.2 u hu) ht)

/-- **Relations.**  Any part of a run keeps a relation exactly if every step does. -/
theorem forall_part_iff_always {R : σ → σ → Prop} (hrefl : ∀ s, R s s)
    (htrans : ∀ {s t u}, R s t → R t u → R s u) :
    (∀ front part t u, front ++ part <+: ls → exec step s front = some t →
      exec step t part = some u → R t u) ↔
      Always step (fun s l => ∀ t, step s l = some t → R s t) s ls := by
  induction ls generalizing s with
  | nil =>
      refine iff_of_true ?_ trivial
      intro front part t u hprefix ht hu
      obtain ⟨-, rfl⟩ := List.append_eq_nil_iff.mp (List.prefix_nil.mp hprefix)
      obtain rfl : t = u := Option.some.inj hu
      exact hrefl t
  | cons l ls ih =>
      constructor
      · intro h
        refine ⟨fun t ht => h [] [l] s t ⟨ls, rfl⟩ rfl (exec_cons.mpr ⟨t, ht, rfl⟩), ?_⟩
        intro t ht
        refine ih.mp fun front part u v hprefix hu hv => ?_
        exact h (l :: front) part u v (List.cons_prefix_cons.mpr ⟨rfl, hprefix⟩)
          (exec_cons.mpr ⟨t, ht, hu⟩) hv
      · intro h front part t u hprefix ht hu
        cases front with
        | nil =>
            obtain rfl : s = t := Option.some.inj ht
            exact rel_of_always hrefl htrans hprefix h hu
        | cons l' front =>
            obtain ⟨rfl, hshorter⟩ := List.cons_prefix_cons.mp hprefix
            obtain ⟨v, hv, ht⟩ := exec_cons.mp ht
            exact ih.mpr (h.2 v hv) front part t u hshorter ht hu

/-- **Ledgers.**  If every step changes two measures alike up to its cost, a run changes
them alike up to the total cost. -/
theorem exec_ledger {P : σ → Prop} {credit debit : σ → ℕ} {cost : σ → ℓ → ℕ}
    (hstep : ∀ s l t, P s → step s l = some t → P t)
    (hcost : ∀ s l t, P s → step s l = some t →
      credit t + debit s = credit s + debit t + cost s l)
    (h : exec step s ls = some t) (hs : P s) :
    credit t + debit s = credit s + debit t + total step cost s ls := by
  induction ls generalizing s with
  | nil =>
      obtain rfl : s = t := Option.some.inj h
      rfl
  | cons l ls ih =>
      obtain ⟨u, hu, hrest⟩ := exec_cons.mp h
      have hone := hcost s l u hs hu
      have hmany := ih hrest (hstep s l u hs hu)
      rw [total, hu, Option.map_some, Option.getD_some]
      omega

/-- The total cost of a run is zero exactly if every step is free. -/
theorem total_eq_zero_iff {P : σ → Prop} {cost : σ → ℓ → ℕ} {Q : σ → ℓ → Prop}
    (hstep : ∀ s l t, P s → step s l = some t → P t)
    (hfree : ∀ s l t, P s → step s l = some t → (cost s l = 0 ↔ Q s l))
    (h : exec step s ls = some t) (hs : P s) :
    total step cost s ls = 0 ↔ Always step Q s ls := by
  induction ls generalizing s with
  | nil => exact ⟨fun _ => trivial, fun _ => rfl⟩
  | cons l ls ih =>
      obtain ⟨u, hu, hrest⟩ := exec_cons.mp h
      have hmany := ih hrest (hstep s l u hs hu)
      rw [total, hu, Option.map_some, Option.getD_some, Nat.add_eq_zero_iff, hfree s l u hs hu,
        hmany, Always]
      -- a step has one result, so the condition on all results is the one on `u`
      refine and_congr_right fun _ => ⟨?_, fun hall => hall u hu⟩
      intro hall v hv
      rw [hu] at hv
      obtain rfl : u = v := Option.some.inj hv
      exact hall

end Transition
