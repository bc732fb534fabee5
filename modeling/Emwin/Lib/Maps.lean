/-
# Ordered and unordered maps

`OrderedMap` is a map kept as a list of entries in increasing order of their keys,
the order in which it is iterated.  Unordered maps are Mathlib's association lists
with distinct keys; `AList.retain` drops entries, and since such a map may be
iterated in any order, code that depends on the order takes an `IterationOrder`.
-/
import Mathlib.Data.List.AList
import Mathlib.Data.List.Sort
import Mathlib.Order.Defs.LinearOrder

/-- A map from ordered keys, as its entries in increasing order of the keys. -/
structure OrderedMap (κ ν : Type*) [LinearOrder κ] where
  /-- The entries, in the order in which they are iterated. -/
  entries : List (κ × ν)
  /-- The keys are strictly increasing. -/
  sorted : (entries.map Prod.fst).Pairwise (· < ·)

namespace OrderedMap

variable {κ ν : Type*} [LinearOrder κ]

/-- The map without entries. -/
def empty : OrderedMap κ ν := ⟨[], List.Pairwise.nil⟩

/-- The keys, in increasing order. -/
def keys (m : OrderedMap κ ν) : List κ := m.entries.map Prod.fst

/-- The values, in the order of their keys. -/
def values (m : OrderedMap κ ν) : List ν := m.entries.map Prod.snd

/-- The number of entries. -/
def size (m : OrderedMap κ ν) : ℕ := m.entries.length

/-! ## Insertion -/

/-- Insert an entry into a sorted list of entries, replacing one with the same key. -/
def insertEntry (k : κ) (v : ν) : List (κ × ν) → List (κ × ν)
  | [] => [(k, v)]
  | e :: l =>
      if k < e.1 then (k, v) :: e :: l
      else if k = e.1 then (k, v) :: l
      else e :: insertEntry k v l

/-- The keys after an insertion. -/
theorem mem_keys_insertEntry {k x : κ} {v : ν} {l : List (κ × ν)}
    (h : x ∈ (insertEntry k v l).map Prod.fst) : x = k ∨ x ∈ l.map Prod.fst := by
  induction l with
  | nil => exact Or.inl (by simpa [insertEntry] using h)
  | cons e l ih =>
      rw [insertEntry] at h
      split_ifs at h with h1 h2
      · rcases List.mem_cons.mp h with h | h
        · exact Or.inl h
        · exact Or.inr h
      · rcases List.mem_cons.mp h with h | h
        · exact Or.inl h
        · exact Or.inr (List.mem_cons_of_mem _ h)
      · rcases List.mem_cons.mp h with h | h
        · exact Or.inr (h ▸ List.mem_cons_self)
        · rcases ih h with h | h
          · exact Or.inl h
          · exact Or.inr (List.mem_cons_of_mem _ h)

theorem sorted_insertEntry (k : κ) (v : ν) {l : List (κ × ν)}
    (h : (l.map Prod.fst).Pairwise (· < ·)) :
    ((insertEntry k v l).map Prod.fst).Pairwise (· < ·) := by
  induction l with
  | nil => exact List.pairwise_singleton _ _
  | cons e l ih =>
      rw [List.map_cons, List.pairwise_cons] at h
      obtain ⟨hhead, htail⟩ := h
      rw [insertEntry]
      split_ifs with h1 h2
      · refine List.pairwise_cons.mpr ⟨?_, List.pairwise_cons.mpr ⟨hhead, htail⟩⟩
        intro x hx
        rcases List.mem_cons.mp hx with rfl | hx
        · exact h1
        · exact h1.trans (hhead x hx)
      · refine List.pairwise_cons.mpr ⟨?_, htail⟩
        intro x hx
        exact h2 ▸ hhead x hx
      · refine List.pairwise_cons.mpr ⟨?_, ih htail⟩
        intro x hx
        rcases mem_keys_insertEntry hx with rfl | hx
        · exact lt_of_le_of_ne (not_lt.mp h1) (Ne.symm h2)
        · exact hhead x hx

/-- Insert an entry, replacing the one with the same key. -/
def insert (m : OrderedMap κ ν) (k : κ) (v : ν) : OrderedMap κ ν :=
  ⟨insertEntry k v m.entries, sorted_insertEntry k v m.sorted⟩

/-- An entry after an insertion is the new one or an old one with another key. -/
theorem mem_insertEntry {k : κ} {v : ν} {l : List (κ × ν)} {e : κ × ν}
    (hl : (l.map Prod.fst).Pairwise (· < ·)) (h : e ∈ insertEntry k v l) :
    e = (k, v) ∨ (e ∈ l ∧ e.1 ≠ k) := by
  induction l with
  | nil => exact Or.inl (by simpa [insertEntry] using h)
  | cons a l ih =>
      rw [List.map_cons, List.pairwise_cons] at hl
      obtain ⟨hhead, htail⟩ := hl
      have hlater : ∀ b ∈ l, a.1 < b.1 := fun b hb => hhead _ (List.mem_map_of_mem hb)
      rw [insertEntry] at h
      split_ifs at h with h1 h2
      · rcases List.mem_cons.mp h with h | h
        · exact Or.inl h
        · refine Or.inr ⟨h, ne_of_gt ?_⟩
          rcases List.mem_cons.mp h with rfl | h
          · exact h1
          · exact h1.trans (hlater e h)
      · rcases List.mem_cons.mp h with h | h
        · exact Or.inl h
        · exact Or.inr ⟨List.mem_cons_of_mem _ h, ne_of_gt (h2 ▸ hlater e h)⟩
      · rcases List.mem_cons.mp h with rfl | h
        · exact Or.inr ⟨List.mem_cons_self, Ne.symm h2⟩
        · rcases ih htail h with h | ⟨h, hne⟩
          · exact Or.inl h
          · exact Or.inr ⟨List.mem_cons_of_mem _ h, hne⟩

theorem mem_insert {m : OrderedMap κ ν} {k : κ} {v : ν} {e : κ × ν}
    (h : e ∈ (m.insert k v).entries) : e = (k, v) ∨ (e ∈ m.entries ∧ e.1 ≠ k) :=
  mem_insertEntry m.sorted h

/-! ## Lookup -/

/-- The value under a key. -/
def lookup (m : OrderedMap κ ν) (k : κ) : Option ν :=
  (m.entries.find? fun e => e.1 = k).map Prod.snd

@[simp] theorem lookup_empty (k : κ) : (empty : OrderedMap κ ν).lookup k = none := rfl

/-- An insertion is seen under its key. -/
@[simp] theorem lookup_insert_self (m : OrderedMap κ ν) (k : κ) (v : ν) :
    (m.insert k v).lookup k = some v := by
  have h : (insertEntry k v m.entries).find? (fun e => e.1 = k) = some (k, v) := by
    induction m.entries with
    | nil => simp [insertEntry]
    | cons e l ih =>
        rw [insertEntry]
        split_ifs with h1 h2
        · simp
        · simp
        · rw [List.find?_cons_of_neg (by simpa using Ne.symm h2), ih]
  unfold lookup insert
  rw [h]
  rfl

/-- An insertion is not seen under other keys. -/
@[simp] theorem lookup_insert_of_ne (m : OrderedMap κ ν) {k x : κ} (h : x ≠ k) (v : ν) :
    (m.insert k v).lookup x = m.lookup x := by
  have hfind : (insertEntry k v m.entries).find? (fun e => e.1 = x) =
      m.entries.find? fun e => e.1 = x := by
    induction m.entries with
    | nil => simp [insertEntry, Ne.symm h]
    | cons e l ih =>
        rw [insertEntry]
        split_ifs with h1 h2
        · rw [List.find?_cons_of_neg (by simpa using Ne.symm h)]
        · rw [List.find?_cons_of_neg (by simpa using Ne.symm h),
            List.find?_cons_of_neg (by simpa [← h2] using Ne.symm h)]
        · rw [List.find?_cons, List.find?_cons, ih]
  unfold lookup insert
  rw [hfind]

/-- The entries are the pairs that lookup finds. -/
theorem mem_entries_iff {m : OrderedMap κ ν} {k : κ} {v : ν} :
    (k, v) ∈ m.entries ↔ m.lookup k = some v := by
  unfold lookup
  rw [Option.map_eq_some_iff]
  constructor
  · intro h
    have hnodup : (m.entries.map Prod.fst).Nodup := m.sorted.imp fun h => ne_of_lt h
    cases hfind : m.entries.find? fun e => e.1 = k with
    | none => exact absurd (List.find?_eq_none.mp hfind (k, v) h) (by simp)
    | some e =>
        have hk : e.1 = k := by simpa using List.find?_some hfind
        have he : e = (k, v) :=
          List.inj_on_of_nodup_map hnodup (List.mem_of_find?_eq_some hfind) h hk
        exact ⟨e, rfl, by rw [he]⟩
  · rintro ⟨⟨k', v'⟩, hfind, rfl⟩
    have hk : k' = k := by simpa using List.find?_some hfind
    rw [← hk]
    exact List.mem_of_find?_eq_some hfind

/-- Keys between `1` and `n` are a selection of these numbers. -/
theorem keys_subperm_range' {m : OrderedMap ℕ ν} {n : ℕ}
    (hrange : ∀ k ∈ m.keys, 1 ≤ k ∧ k ≤ n) : m.keys.Subperm (List.range' 1 n) := by
  have hnodup : m.keys.Nodup := m.sorted.imp fun h => ne_of_lt h
  refine List.subperm_of_subset hnodup ?_
  intro k hk
  have := hrange k hk
  rw [List.mem_range'_1]
  omega

theorem size_le_of_range {m : OrderedMap ℕ ν} {n : ℕ} (hrange : ∀ k ∈ m.keys, 1 ≤ k ∧ k ≤ n) :
    m.size ≤ n := by
  have hle := (keys_subperm_range' hrange).length_le
  rw [List.length_range', keys, List.length_map] at hle
  exact hle

/-- As many keys as there are numbers from `1` to `n`, all of them in that range, are
these numbers. -/
theorem keys_eq_range' {m : OrderedMap ℕ ν} {n : ℕ} (hrange : ∀ k ∈ m.keys, 1 ≤ k ∧ k ≤ n)
    (hsize : m.size = n) : m.keys = List.range' 1 n := by
  have hlt : m.keys.Pairwise (· < ·) := m.sorted
  have hperm : m.keys.Perm (List.range' 1 n) := by
    refine (keys_subperm_range' hrange).perm_of_length_le ?_
    rw [List.length_range', keys, List.length_map]
    exact le_of_eq hsize.symm
  exact hperm.eq_of_pairwise (fun a b _ _ h1 h2 => absurd h1 (not_lt_of_gt h2)) hlt
    List.pairwise_lt_range'

end OrderedMap

/-! ## Unordered maps -/

namespace AList

variable {κ ν : Type*} [DecidableEq κ]

/-- Keep the entries that satisfy a predicate. -/
def retain (p : κ → ν → Bool) (m : AList fun _ : κ => ν) : AList fun _ : κ => ν :=
  ⟨m.entries.filter fun e => p e.1 e.2, m.nodupKeys.sublist List.filter_sublist⟩

/-- What a map with fewer entries maps to. -/
theorem lookup_retain (p : κ → ν → Bool) (m : AList fun _ : κ => ν) (k : κ) :
    (m.retain p).lookup k = (m.lookup k).filter (p k) := by
  ext v
  rw [Option.filter_eq_some_iff]
  exact (mem_lookup_iff.trans List.mem_filter).trans (and_congr_left' mem_lookup_iff.symm)

/-- Erasing an entry shortens the map. -/
theorem length_erase_lt {m : AList fun _ : κ => ν} {k : κ} (h : k ∈ m.keys) :
    (m.erase k).entries.length < m.entries.length := by
  have hlen := congrArg List.length (keys_erase k m)
  rw [List.length_erase_of_mem h] at hlen
  have hpos := List.length_pos_of_mem h
  simp only [keys, List.keys, List.length_map] at hlen hpos
  omega

end AList

/-- An order in which an unordered collection may be iterated. -/
structure IterationOrder (β : Type*) where
  /-- The elements as they come. -/
  run : List β → List β
  /-- Every element comes once. -/
  perm : ∀ l, (run l).Perm l

/-- The order of the list itself. -/
def IterationOrder.plain {β : Type*} : IterationOrder β := ⟨id, fun _ => List.Perm.refl _⟩
