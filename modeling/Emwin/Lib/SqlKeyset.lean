/-
# Keys of queries

The columns of `ORDER BY` are a lexicographic key of the rows (`Schema.Orders`), and the
condition of a cursor should hold for exactly the rows whose key is after that of the row it
was made from (`Schema.Continues`).

Both are built up column by column, from the last one: the condition for a column is
`column < value OR (column = value AND …)` in its direction.
-/
import Emwin.Lib.SqlEval
import Emwin.Lib.Keyset

open Keyset OrderDual

namespace Sql

variable {V R α K : Type} [LinearOrder α] [LinearOrder K]

/-- A column whose values compare as a function of the row does. -/
structure Schema.IsColumn (S : Schema V R) (column : Str) (value : R → V) (f : R → α) : Prop where
  term : S.term column = some value
  compare : ∀ a b, S.compare (value a) (value b) = some (cmp (f a) (f b))

/-- The columns of `ORDER BY` order the rows by this key. -/
def Schema.Orders (S : Schema V R) (order : List (Str × Direction)) (key : R → K) : Prop :=
  ∃ cmp, S.compareRows order = some cmp ∧ ∀ a b, (cmp a b).isLE = decide (key a ≤ key b)

/-- The condition for a row holds for the rows whose key is after that of the row. -/
def Schema.Continues (S : Schema V R) (after : R → Cond V) (key : R → K) : Prop :=
  ∀ r x, S.holds (after r) x = decide (key r < key x)

/-- A column compared with its value in a row. -/
def columnTest (column : Str) (op : Str) (value : R → V) (r : R) : Cond V :=
  .atom [.word column, .word op, .param (value r)]

/-- The rows after a row for one column and then further columns. -/
def thenAfter (column : Str) (op : Str) (value : R → V) (after : R → Cond V) (r : R) : Cond V :=
  .or (columnTest column op value r) (.and (columnTest column ['='] value r) (after r))

variable {S : Schema V R} {column : Str} {value : R → V} {f : R → α} {key : R → K}
  {order : List (Str × Direction)} {after : R → Cond V}

theorem Schema.IsColumn.holds_columnTest (h : S.IsColumn column value f) {op : Str}
    {test : Ordering → Bool} (hop : comparison op = some test) (r x : R) :
    S.holds (columnTest column op value r) x = test (cmp (f x) (f r)) :=
  Schema.holds_comparison (b := fun _ => value r) h.term hop rfl (h.compare x r)

theorem Schema.IsColumn.holds_thenAfter (h : S.IsColumn column value f) {op : Str}
    {test : Ordering → Bool} (hop : comparison op = some test) (r x : R) :
    S.holds (thenAfter column op value after r) x =
      (test (cmp (f x) (f r)) || ((cmp (f x) (f r) == .eq) && S.holds (after r) x)) := by
  unfold thenAfter
  rw [Schema.holds_or, Schema.holds_and, h.holds_columnTest hop, h.holds_columnTest rfl]

/-! ## Orders -/

/-- One more column in front of the others. -/
theorem Schema.IsColumn.compareRows_cons (h : S.IsColumn column value f) {rest : R → R → Ordering}
    (hrest : S.compareRows order = some rest) (direction : Direction) :
    S.compareRows ((column, direction) :: order) =
      some fun a b => (direction.apply (cmp (f a) (f b))).then (rest a b) := by
  rw [Schema.compareRows, h.term, hrest]
  refine congrArg some ?_
  funext a b
  rw [h.compare, Option.getD_some]

theorem Schema.Orders.last_asc (h : S.IsColumn column value f) :
    S.Orders [(column, .asc)] f :=
  ⟨_, h.compareRows_cons rfl .asc, fun a b => isLE_cmp (f a) (f b)⟩

theorem Schema.Orders.last_desc (h : S.IsColumn column value f) :
    S.Orders [(column, .desc)] fun r => toDual (f r) := by
  refine ⟨_, h.compareRows_cons rfl .desc, ?_⟩
  intro a b
  show (((cmp (f a) (f b)).swap).then .eq).isLE = _
  rw [swap_cmp, isLE_cmp]

theorem Schema.Orders.asc (h : S.IsColumn column value f) (horder : S.Orders order key) :
    S.Orders ((column, .asc) :: order) fun r => toLex (f r, key r) := by
  obtain ⟨rest, hrest, hle⟩ := horder
  exact ⟨_, h.compareRows_cons hrest .asc, fun a b => isLE_cmp_then (hle a b) (f a) (f b)⟩

theorem Schema.Orders.desc (h : S.IsColumn column value f) (horder : S.Orders order key) :
    S.Orders ((column, .desc) :: order) fun r => toLex (toDual (f r), key r) := by
  obtain ⟨rest, hrest, hle⟩ := horder
  refine ⟨_, h.compareRows_cons hrest .desc, ?_⟩
  intro a b
  show (((cmp (f a) (f b)).swap).then (rest a b)).isLE = _
  rw [swap_cmp, isLE_cmp_then (hle a b)]

/-! ## Rows after a row -/

theorem Schema.Continues.last_asc (h : S.IsColumn column value f) :
    S.Continues (columnTest column ['>'] value) f := by
  intro r x
  rw [h.holds_columnTest rfl, after_asc_last]

theorem Schema.Continues.last_desc (h : S.IsColumn column value f) :
    S.Continues (columnTest column ['<'] value) fun r => toDual (f r) := by
  intro r x
  rw [h.holds_columnTest rfl, after_desc_last]

theorem Schema.Continues.asc (h : S.IsColumn column value f) (hafter : S.Continues after key) :
    S.Continues (thenAfter column ['>'] value after) fun r => toLex (f r, key r) := by
  intro r x
  rw [h.holds_thenAfter rfl, after_asc (hafter r x)]

theorem Schema.Continues.desc (h : S.IsColumn column value f) (hafter : S.Continues after key) :
    S.Continues (thenAfter column ['<'] value after) fun r => toLex (toDual (f r), key r) := by
  intro r x
  rw [h.holds_thenAfter rfl, after_desc (hafter r x)]

end Sql
