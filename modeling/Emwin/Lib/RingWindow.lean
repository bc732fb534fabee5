/-
# BucketRing windows

A ring of buckets with a current one.  Rotating it moves on to the next bucket and clears it,
so that the ring always holds the youngest parts of an unbounded history: `Shows r h` says that
the bucket of age `k` holds `h k`, where the current bucket has age 0.
-/
import Mathlib.Data.List.Basic
import Mathlib.Data.List.Range

namespace RingWindow

variable {β : Type*}

/-- A ring of buckets. -/
structure BucketRing (β : Type*) where
  buckets : List β
  index : ℕ
  index_lt : index < buckets.length

namespace BucketRing

/-- A ring of equal buckets. -/
def replicate (n : ℕ) (hn : 0 < n) (blank : β) : BucketRing β :=
  ⟨List.replicate n blank, 0, by simpa using hn⟩

/-- Move on to the next bucket and clear it. -/
def rotate (r : BucketRing β) (blank : β) : BucketRing β where
  buckets := r.buckets.set ((r.index + 1) % r.buckets.length) blank
  index := (r.index + 1) % r.buckets.length
  index_lt := by
    rw [List.length_set]
    exact Nat.mod_lt _ (Nat.zero_lt_of_lt r.index_lt)

/-- Change the current bucket. -/
def modify (r : BucketRing β) (f : β → β) : BucketRing β where
  buckets := r.buckets.modify r.index f
  index := r.index
  index_lt := by simpa using r.index_lt

/-- The buckets by age, the current one first. -/
def newestFirst (r : BucketRing β) : List β :=
  (r.buckets.take (r.index + 1)).reverse ++ (r.buckets.drop (r.index + 1)).reverse

@[simp] theorem length_rotate (r : BucketRing β) (blank : β) :
    (r.rotate blank).buckets.length = r.buckets.length := List.length_set

@[simp] theorem length_modify (r : BucketRing β) (f : β → β) :
    (r.modify f).buckets.length = r.buckets.length := by simp [modify]

/-- The buckets around the current one. -/
theorem exists_split (r : BucketRing β) :
    ∃ front b back, r.buckets = front ++ b :: back ∧ front.length = r.index := by
  have hindex := r.index_lt
  refine ⟨r.buckets.take r.index, r.buckets[r.index], r.buckets.drop (r.index + 1), ?_, ?_⟩
  · rw [← List.drop_eq_getElem_cons hindex, List.take_append_drop]
  · rw [List.length_take]
    exact Nat.min_eq_left r.index_lt.le

/-- The order by age is a permutation of the buckets. -/
theorem newestFirst_perm (r : BucketRing β) : r.newestFirst.Perm r.buckets := by
  have hsides : r.newestFirst.Perm
      (r.buckets.take (r.index + 1) ++ r.buckets.drop (r.index + 1)) :=
    (List.reverse_perm _).append (List.reverse_perm _)
  rwa [List.take_append_drop] at hsides

theorem newestFirst_of_split {r : BucketRing β} {front back : List β} {b : β}
    (h : r.buckets = front ++ b :: back) (hlen : front.length = r.index) :
    r.newestFirst = b :: front.reverse ++ back.reverse := by
  rw [newestFirst, h, ← hlen, List.take_length_add_append, List.drop_length_add_append]
  simp

/-- A rotation puts a cleared bucket in front and loses the oldest. -/
theorem newestFirst_rotate (r : BucketRing β) (blank : β) :
    (r.rotate blank).newestFirst = blank :: r.newestFirst.dropLast := by
  obtain ⟨front, b, back, hbuckets, hlen⟩ := r.exists_split
  rw [newestFirst_of_split hbuckets hlen]
  have hlength : r.buckets.length = front.length + 1 + back.length := by
    rw [hbuckets]
    simp
    omega
  cases back with
  | nil =>
      -- the current bucket is the last, so the next one is the first
      have hnext : (r.index + 1) % r.buckets.length = 0 := by
        rw [hlength, ← hlen]
        simp
      cases front with
      | nil =>
          have hcleared : (r.rotate blank).buckets = [] ++ blank :: [] := by
            show r.buckets.set ((r.index + 1) % r.buckets.length) blank = _
            rw [hnext, hbuckets]
            rfl
          rw [newestFirst_of_split hcleared hnext.symm]
          rfl
      | cons a front =>
          have hcleared : (r.rotate blank).buckets = [] ++ blank :: (front ++ [b]) := by
            show r.buckets.set ((r.index + 1) % r.buckets.length) blank = _
            rw [hnext, hbuckets]
            rfl
          have holdest : b :: (a :: front).reverse ++ ([] : List β).reverse =
              (b :: front.reverse) ++ [a] := by simp
          rw [newestFirst_of_split hcleared hnext.symm, holdest, List.dropLast_concat]
          simp
  | cons c back =>
      have hnext : (r.index + 1) % r.buckets.length = r.index + 1 := by
        refine Nat.mod_eq_of_lt ?_
        rw [hlength, ← hlen, List.length_cons]
        omega
      have hcleared : (r.rotate blank).buckets = (front ++ [b]) ++ blank :: back := by
        show r.buckets.set ((r.index + 1) % r.buckets.length) blank = _
        rw [hnext, hbuckets, ← hlen, List.set_append_right _ _ (by omega)]
        simp
      have hindex : (front ++ [b]).length = (r.rotate blank).index := by
        show (front ++ [b]).length = (r.index + 1) % r.buckets.length
        rw [hnext, ← hlen, List.length_append, List.length_singleton]
      rw [newestFirst_of_split hcleared hindex, List.reverse_cons, ← List.append_assoc,
        List.dropLast_concat]
      simp

/-- A change affects the bucket in front. -/
theorem newestFirst_modify (r : BucketRing β) (f : β → β) :
    (r.modify f).newestFirst = r.newestFirst.modifyHead f := by
  obtain ⟨front, b, back, hbuckets, hlen⟩ := r.exists_split
  have hchanged : (r.modify f).buckets = front ++ f b :: back := by
    show r.buckets.modify r.index f = _
    rw [hbuckets, ← hlen, List.modify_eq_take_drop, List.take_left, List.drop_left]
    rfl
  have hindex : front.length = (r.modify f).index := hlen
  rw [newestFirst_of_split hbuckets hlen, newestFirst_of_split hchanged hindex]
  rfl

end BucketRing

/-! ## Histories -/

/-- The ring holds the youngest parts of a history. -/
def Shows (r : BucketRing β) (h : ℕ → β) : Prop :=
  r.newestFirst = (List.range r.buckets.length).map h

/-- A history that has moved on. -/
def older (blank : β) (h : ℕ → β) : ℕ → β
  | 0 => blank
  | k + 1 => h k

/-- A history with its youngest part changed. -/
def younger (f : β → β) (h : ℕ → β) : ℕ → β
  | 0 => f (h 0)
  | k + 1 => h (k + 1)

theorem shows_replicate (n : ℕ) (hn : 0 < n) (blank : β) :
    Shows (BucketRing.replicate n hn blank) fun _ => blank := by
  rw [Shows, BucketRing.newestFirst, ← List.reverse_append, List.map_const', List.length_range]
  simp [BucketRing.replicate]
  omega

/-- Every ring shows some history. -/
theorem exists_shows (r : BucketRing β) : ∃ h, Shows r h := by
  have hlen : r.newestFirst.length = r.buckets.length := r.newestFirst_perm.length_eq
  have hindex := r.index_lt
  refine ⟨fun k => r.newestFirst.getD k r.buckets[r.index], ?_⟩
  rw [Shows, ← hlen]
  refine List.ext_getElem (by simp) ?_
  intro k hk _
  simp [hk]

variable {r : BucketRing β} {h : ℕ → β}

/-- Rotating moves the history on. -/
theorem Shows.rotate (hr : Shows r h) (blank : β) : Shows (r.rotate blank) (older blank h) := by
  obtain ⟨n, hn⟩ : ∃ n, r.buckets.length = n + 1 :=
    ⟨r.buckets.length - 1, by have := r.index_lt; omega⟩
  rw [Shows, BucketRing.newestFirst_rotate, hr, BucketRing.length_rotate, hn,
    List.range_succ_eq_map,
    ← List.range_succ_eq_map, List.range_succ, List.map_append, List.map_singleton,
    List.dropLast_concat, ← List.range_succ, List.range_succ_eq_map, List.map_cons, List.map_map]
  rfl

/-- Changing the current bucket changes the youngest part. -/
theorem Shows.modify (hr : Shows r h) (f : β → β) : Shows (r.modify f) (younger f h) := by
  obtain ⟨n, hn⟩ : ∃ n, r.buckets.length = n + 1 :=
    ⟨r.buckets.length - 1, by have := r.index_lt; omega⟩
  rw [Shows, BucketRing.newestFirst_modify, hr, BucketRing.length_modify, hn,
    List.range_succ_eq_map,
    List.map_cons, List.map_map, List.modifyHead_cons, List.map_cons, List.map_map]
  rfl

/-- The history may be written differently. -/
theorem Shows.congr (hr : Shows r h) {h' : ℕ → β} (hh : ∀ k, h k = h' k) : Shows r h' := by
  obtain rfl : h = h' := funext hh
  exact hr

end RingWindow
