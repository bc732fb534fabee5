/-
# The most recent entries

A bounded store that keeps what was inserted last: a history lists the insertions, the newest
first, and `latest` keeps of it the last insertion under each key.  `push` inserts into a list
of the newest entries, which never holds more than its capacity.

A list of entries that follows a history is a part of `latest` (`push_sublist_latest`), and what
`push` drops was followed by as many insertions under other keys as the list has places
(`capacity_le_of_dropped`).
-/
import Mathlib.Data.Finset.Card
import Mathlib.Data.List.Nodup
import Mathlib.Data.List.TakeWhile
import Mathlib.Order.Lattice

namespace Recency

variable {κ β : Type*} [DecidableEq κ] (key : β → κ)

/-- The entries under other keys. -/
def without (k : κ) (l : List β) : List β := l.filter fun x => key x ≠ k

/-- The last insertion under each key of a history, the newest first. -/
def latest : List β → List β
  | [] => []
  | e :: history => e :: without key (key e) (latest history)

/-- Insert an entry into a list of at most so many entries. -/
def push (capacity : ℕ) (e : β) (l : List β) : List β :=
  (e :: without key (key e) l).take capacity

/-- The keys that were inserted after the last insertion under a key. -/
def laterKeys (k : κ) (history : List β) : Finset κ :=
  ((history.takeWhile fun x => key x ≠ k).map key).toFinset

variable {key} {e x : β} {k : κ} {l history : List β} {capacity : ℕ}

/-- An entry is under another key. -/
theorem mem_without : x ∈ without key k l ↔ x ∈ l ∧ key x ≠ k := by
  rw [without, List.mem_filter, decide_eq_true_eq]

/-! ## The latest insertions -/

theorem latest_sublist : (latest key history).Sublist history := by
  induction history with
  | nil => exact List.Sublist.refl _
  | cons e history ih => exact (List.filter_sublist.trans ih).cons_cons e

/-- Every key occurs once among the latest insertions. -/
theorem nodup_latest : ((latest key history).map key).Nodup := by
  induction history with
  | nil => exact List.nodup_nil
  | cons e history ih =>
      rw [latest, List.map_cons, List.nodup_cons]
      refine ⟨?_, ih.sublist (List.filter_sublist.map key)⟩
      intro hmem
      obtain ⟨x, hx, hkey⟩ := List.mem_map.mp hmem
      exact (mem_without.mp hx).2 hkey

/-- The latest insertions are those that a search from the newest finds. -/
theorem find?_of_mem_latest (h : e ∈ latest key history) :
    history.find? (fun x => key x = key e) = some e := by
  induction history with
  | nil => exact absurd h List.not_mem_nil
  | cons x history ih =>
      rcases List.mem_cons.mp h with rfl | h
      · exact List.find?_cons_of_pos (by simp)
      · obtain ⟨hmem, hne⟩ := mem_without.mp h
        rw [List.find?_cons_of_neg (by simpa using Ne.symm hne)]
        exact ih hmem

/-- What stands in front of an entry among the latest insertions was inserted after it. -/
theorem front_sublist {front back : List β}
    (h : (front ++ e :: back).Sublist (latest key history)) :
    front.Sublist (history.takeWhile fun x => key x ≠ key e) := by
  induction history generalizing front with
  | nil =>
      have hnil := List.sublist_nil.mp h
      simp at hnil
  | cons y history ih =>
      -- behind `y` the entries are the latest ones of the older history under other keys
      have hrest : ∀ front' : List β, (front' ++ e :: back).Sublist
          (without key (key y) (latest key history)) →
          key y ≠ key e ∧ front'.Sublist (history.takeWhile fun x => key x ≠ key e) := by
        intro front' hsub
        have he : e ∈ without key (key y) (latest key history) :=
          hsub.subset (List.mem_append_right _ List.mem_cons_self)
        exact ⟨(mem_without.mp he).2.symm, ih (hsub.trans List.filter_sublist)⟩
      cases front with
      | nil => exact List.nil_sublist _
      | cons z front =>
          rw [latest, List.cons_append] at h
          cases h with
          | cons _ h =>
              obtain ⟨hne, hsub⟩ := hrest (z :: front) h
              rw [List.takeWhile_cons_of_pos (by simpa using hne)]
              exact hsub.cons y
          | cons_cons _ h =>
              obtain ⟨hne, hsub⟩ := hrest front h
              rw [List.takeWhile_cons_of_pos (by simpa using hne)]
              exact hsub.cons_cons y

/-! ## Insertion -/

/-- What is pushed has a place if there are any. -/
theorem mem_push (hcapacity : 0 < capacity) : e ∈ push key capacity e l := by
  obtain ⟨room, rfl⟩ := Nat.exists_eq_succ_of_ne_zero hcapacity.ne'
  rw [push, List.take_succ_cons]
  exact List.mem_cons_self

theorem length_push_le : (push key capacity e l).length ≤ capacity := by
  rw [push, List.length_take]
  exact Nat.min_le_left _ _

/-- Entries that are seen through a function are inserted as what is seen. -/
theorem map_push {γ : Type*} {key' : γ → κ} (f : β → γ) (hf : ∀ x, key' (f x) = key x) :
    (push key capacity e l).map f = push key' capacity (f e) (l.map f) := by
  have hwithout : (without key (key e) l).map f = without key' (key' (f e)) (l.map f) := by
    rw [without, without, List.filter_map]
    congr 1
    refine List.filter_congr ?_
    intro x _
    simp only [Function.comp_apply, hf]
  rw [push, push, List.map_take, List.map_cons, hwithout]

/-- **Step.**  A list of entries that follows a history follows it after an insertion. -/
theorem push_sublist_latest (h : l.Sublist (latest key history)) :
    (push key capacity e l).Sublist (latest key (e :: history)) :=
  (List.take_sublist _ _).trans ((h.filter _).cons_cons e)

/-- **Capacity.**  What an insertion drops was followed by as many insertions under other keys
as there are places. -/
theorem capacity_le_of_dropped (hsub : l.Sublist (latest key history)) (hx : x ∈ l)
    (hne : key x ≠ key e) (hdropped : x ∉ push key capacity e l) :
    capacity ≤ (laterKeys key (key x) (e :: history)).card := by
  obtain ⟨front, back, rfl⟩ := List.append_of_mem hx
  have hsplit : without key (key e) (front ++ x :: back) =
      without key (key e) front ++ x :: without key (key e) back := by
    rw [without, List.filter_append, List.filter_cons_of_pos (by simpa using hne)]
    rfl
  -- the entries in front of `x`, the new one among them, fill the places
  have hfull : capacity ≤ (e :: without key (key e) front).length := by
    by_contra hroom
    refine hdropped ?_
    rw [push, hsplit, ← List.cons_append, List.take_append]
    refine List.mem_append_right _ ?_
    obtain ⟨room, hroom'⟩ : ∃ room,
        capacity - (e :: without key (key e) front).length = room + 1 :=
      ⟨capacity - (e :: without key (key e) front).length - 1, by omega⟩
    rw [hroom', List.take_succ_cons]
    exact List.mem_cons_self
  have hpushed : ((e :: without key (key e) front) ++ x :: without key (key e) back).Sublist
      (latest key (e :: history)) := by
    rw [List.cons_append, ← hsplit]
    exact (hsub.filter _).cons_cons e
  have hlater := front_sublist hpushed
  have hnodup : ((e :: without key (key e) front).map key).Nodup :=
    nodup_latest.sublist (((List.sublist_append_left _ _).trans hpushed).map key)
  calc capacity ≤ (e :: without key (key e) front).length := hfull
    _ = ((e :: without key (key e) front).map key).length := by rw [List.length_map]
    _ = ((e :: without key (key e) front).map key).toFinset.card :=
        (List.toFinset_card_of_nodup hnodup).symm
    _ ≤ (laterKeys key (key x) (e :: history)).card := by
        refine Finset.card_le_card ?_
        intro k hk
        rw [laterKeys, List.mem_toFinset]
        exact (hlater.map key).subset (List.mem_toFinset.mp hk)

end Recency
