/-
# Tables

Rows that are found by a key of their own, as `INSERT ... ON CONFLICT DO UPDATE` writes them,
and rows that belong to an owner, which are deleted and inserted together.
-/
import Mathlib.Data.List.Nodup

namespace Tables

variable {κ ρ α : Type} [DecidableEq κ]

/-! ## Rows with keys -/

section Keyed

variable (key : ρ → κ)

/-- The row with a key. -/
def rowAt (k : κ) (table : List ρ) : Option ρ := table.find? fun row => key row = k

/-- `INSERT ... ON CONFLICT DO UPDATE`: the row with the key is changed, or a row is added. -/
def upsert (new : ρ) (change : ρ → ρ) (table : List ρ) : List ρ :=
  if (rowAt key (key new) table).isSome then
    table.map fun row => if key row = key new then change row else row
  else table ++ [new]

variable {key} {table : List ρ} {new : ρ} {change : ρ → ρ}

/-- The row with a key has that key. -/
theorem key_of_rowAt {k : κ} {row : ρ} (h : rowAt key k table = some row) : key row = k := by
  unfold rowAt at h
  simpa using List.find?_some h

theorem rowAt_eq_some {k : κ} {row : ρ} (hnodup : (table.map key).Nodup) :
    rowAt key k table = some row ↔ row ∈ table ∧ key row = k := by
  constructor
  · intro h
    exact ⟨List.mem_of_find?_eq_some h, key_of_rowAt h⟩
  · rintro ⟨hrow, rfl⟩
    cases hfind : rowAt key (key row) table with
    | none => exact absurd (decide_eq_true rfl) (List.find?_eq_none.mp hfind row hrow)
    | some other =>
        have hkey : key other = key row := key_of_rowAt hfind
        have hmem := List.mem_of_find?_eq_some hfind
        rw [List.inj_on_of_nodup_map hnodup hmem hrow hkey]

/-- What stands under a key after an upsert; the change keeps the key. -/
theorem rowAt_upsert (hchange : ∀ row, key (change row) = key row) (k : κ) :
    rowAt key k (upsert key new change table) =
      if k = key new then some (((rowAt key k table).map change).getD new)
      else rowAt key k table := by
  unfold upsert
  split
  · next hsome =>
      obtain ⟨row, hrow⟩ := Option.isSome_iff_exists.mp hsome
      -- a changed row is found where it was
      have hmap : rowAt key k (table.map fun row => if key row = key new then change row else row) =
          (rowAt key k table).map fun row => if key row = key new then change row else row := by
        unfold rowAt
        rw [List.find?_map]
        congr 2
        funext r
        show decide (key (if key r = key new then change r else r) = k) = decide (key r = k)
        split_ifs
        · rw [hchange]
        · rfl
      rw [hmap]
      split_ifs with hk
      · subst hk
        rw [hrow]
        have hkey : key row = key new := key_of_rowAt hrow
        show some (if key row = key new then change row else row) = _
        rw [if_pos hkey]
        rfl
      · cases hfind : rowAt key k table with
        | none => rfl
        | some other =>
            have hother : key other = k := key_of_rowAt hfind
            show some (if key other = key new then change other else other) = _
            rw [if_neg (hother ▸ hk)]
  · next hnone =>
      have hempty : rowAt key (key new) table = none := by simpa using hnone
      unfold rowAt at hempty ⊢
      rw [List.find?_append]
      split_ifs with hk
      · subst hk
        rw [hempty]
        simp
      · have hlast : [new].find? (fun row => decide (key row = k)) = none := by
          rw [List.find?_cons_of_neg (by simpa using Ne.symm hk)]
          rfl
        rw [hlast, Option.or_none]

/-- What an upsert changes in no row, it shows as before, with the new row behind. -/
theorem map_upsert {β : Type} {g : ρ → β} (hg : ∀ row, g (change row) = g row) :
    (upsert key new change table).map g =
      if (rowAt key (key new) table).isSome then table.map g else table.map g ++ [g new] := by
  unfold upsert
  split_ifs
  · rw [List.map_map]
    apply List.map_congr_left
    intro row _
    show g (if key row = key new then change row else row) = g row
    split_ifs
    · exact hg row
    · rfl
  · rw [List.map_append]
    rfl

/-- An upsert keeps the keys distinct. -/
theorem nodup_upsert (hchange : ∀ row, key (change row) = key row)
    (hnodup : (table.map key).Nodup) : ((upsert key new change table).map key).Nodup := by
  rw [map_upsert hchange]
  split_ifs with hsome
  · exact hnodup
  · rw [List.nodup_append]
    refine ⟨hnodup, List.nodup_singleton _, ?_⟩
    rintro k hk k' hk' rfl
    obtain rfl := List.mem_singleton.mp hk'
    obtain ⟨row, hrow, hkey⟩ := List.mem_map.mp hk
    exact hsome (Option.isSome_iff_exists.mpr ⟨row, (rowAt_eq_some hnodup).mpr ⟨hrow, hkey⟩⟩)

end Keyed

/-! ## Rows with owners -/

section Owned

variable {owner other : κ} {table : List (κ × α)}

/-- The rows of an owner. -/
def rowsOf (owner : κ) (table : List (κ × α)) : List α :=
  (table.filter fun row => row.1 = owner).map Prod.snd

/-- `DELETE ... WHERE owner = $1`. -/
def deleteOf (owner : κ) (table : List (κ × α)) : List (κ × α) :=
  table.filter fun row => row.1 ≠ owner

/-- `INSERT` some rows of an owner. -/
def insertOf (owner : κ) (rows : List α) (table : List (κ × α)) : List (κ × α) :=
  table ++ rows.map fun row => (owner, row)

theorem deleteOf_deleteOf : deleteOf owner (deleteOf owner table) = deleteOf owner table := by
  unfold deleteOf
  rw [List.filter_filter]
  simp

theorem rowsOf_deleteOf_self : rowsOf owner (deleteOf owner table) = [] := by
  unfold rowsOf deleteOf
  rw [List.filter_filter, List.map_eq_nil_iff, List.filter_eq_nil_iff]
  intro row _
  simp

theorem rowsOf_deleteOf_of_ne (hne : other ≠ owner) :
    rowsOf other (deleteOf owner table) = rowsOf other table := by
  unfold rowsOf deleteOf
  rw [List.filter_filter]
  congr 1
  apply List.filter_congr
  intro row _
  by_cases h : row.1 = other
  · simp [h, hne]
  · simp [h]

theorem rowsOf_insertOf_self (rows : List α) :
    rowsOf owner (insertOf owner rows table) = rowsOf owner table ++ rows := by
  unfold rowsOf insertOf
  rw [List.filter_append, List.map_append]
  congr 1
  rw [List.filter_map, List.map_map]
  simp [Function.comp_def]

theorem rowsOf_insertOf_of_ne (hne : other ≠ owner) (rows : List α) :
    rowsOf other (insertOf owner rows table) = rowsOf other table := by
  unfold rowsOf insertOf
  rw [List.filter_append, List.map_append]
  have hnone : (rows.map fun row => (owner, row)).filter (fun row => row.1 = other) = [] := by
    rw [List.filter_eq_nil_iff]
    intro row hrow
    obtain ⟨r, -, rfl⟩ := List.mem_map.mp hrow
    simpa using hne.symm
  rw [hnone, List.map_nil, List.append_nil]

/-- **Replacing.**  Deleting and inserting leaves an owner with the new rows, and the others
with what they had. -/
theorem rowsOf_replace (owner other : κ) (rows : List α) :
    rowsOf other (insertOf owner rows (deleteOf owner table)) =
      if other = owner then rows else rowsOf other table := by
  split_ifs with h
  · subst h
    rw [rowsOf_insertOf_self, rowsOf_deleteOf_self, List.nil_append]
  · rw [rowsOf_insertOf_of_ne h, rowsOf_deleteOf_of_ne h]

/-- The owners after replacing. -/
theorem mem_replace {owner : κ} {rows : List α} {row : κ × α}
    (h : row ∈ insertOf owner rows (deleteOf owner table)) : row.1 = owner ∨ row ∈ table := by
  rcases List.mem_append.mp h with h | h
  · exact .inr (List.mem_of_mem_filter h)
  · obtain ⟨r, -, rfl⟩ := List.mem_map.mp h
    exact .inl rfl

end Owned

end Tables
