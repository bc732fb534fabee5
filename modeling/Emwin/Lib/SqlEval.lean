/-
# Evaluating queries

The condition of a query is evaluated on each row in three-valued logic, and the rows where
it is true are sorted by the columns of `ORDER BY` and cut off at the limit.

A schema gives the values of columns and how values compare; conditions other than the
comparison of two values are left to it.
-/
import Emwin.Lib.SqlParser
import Mathlib.Data.List.Sort

namespace Sql

/-- Conjunction; `none` is unknown. -/
def and3 : Option Bool → Option Bool → Option Bool
  | some false, _ => some false
  | some true, b => b
  | none, some false => some false
  | none, _ => none

/-- Disjunction. -/
def or3 : Option Bool → Option Bool → Option Bool
  | some true, _ => some true
  | some false, b => b
  | none, some true => some true
  | none, _ => none

/-- The rows of a table for the purposes of a query. -/
structure Schema (V R : Type) where
  /-- The value of a column or a constant. -/
  term : Str → Option (R → V)
  /-- How two values compare; `none` if that is unknown. -/
  compare : V → V → Option Ordering
  /-- The truth of any other atom. -/
  other : List (Lexeme V) → R → Option Bool
  /-- The number of rows of a limit. -/
  count : V → Option ℕ

variable {V R : Type} (S : Schema V R)

/-- The value of an operand of a comparison. -/
def Schema.operand : Lexeme V → Option (R → V)
  | .word w => S.term w
  | .param v => some fun _ => v
  | _ => none

/-- The comparisons. -/
def comparison (op : Str) : Option (Ordering → Bool) :=
  if op = ['<'] then some (· == .lt)
  else if op = ['>'] then some (· == .gt)
  else if op = ['='] then some (· == .eq)
  else if op = ['<', '='] then some Ordering.isLE
  else if op = ['>', '='] then some Ordering.isGE
  else none

/-- The truth of an atom. -/
def Schema.atom (ls : List (Lexeme V)) (r : R) : Option Bool :=
  match ls with
  | [x, .word op, y] =>
      match S.operand x, comparison op, S.operand y with
      | some a, some test, some b => (S.compare (a r) (b r)).map test
      | _, _, _ => S.other ls r
  | _ => S.other ls r

/-- The truth of a condition. -/
def Schema.eval (r : R) : Cond V → Option Bool
  | .atom ls => S.atom ls r
  | .and a b => and3 (Schema.eval r a) (Schema.eval r b)
  | .or a b => or3 (Schema.eval r a) (Schema.eval r b)

/-- Whether a row satisfies a condition. -/
def Schema.holds (c : Cond V) (r : R) : Bool := S.eval r c == some true

/-- How a direction turns a comparison. -/
def Direction.apply : Direction → Ordering → Ordering
  | .asc, o => o
  | .desc, o => o.swap

/-- How the columns of `ORDER BY` compare two rows; `none` if there is no such column. -/
def Schema.compareRows : List (Str × Direction) → Option (R → R → Ordering)
  | [] => some fun _ _ => .eq
  | (column, direction) :: order =>
      match S.term column, Schema.compareRows order with
      | some value, some rest => some fun a b =>
          (direction.apply ((S.compare (value a) (value b)).getD .eq)).then (rest a b)
      | _, _ => none

/-- The result of a query on the rows of its tables; `none` is an error. -/
def Schema.execute (rows : List R) (t : Text V) : Option (List R) :=
  match parse t with
  | none => none
  | some q =>
      match S.compareRows q.order, S.count q.limit with
      | some cmp, some n =>
          some (((rows.filter (S.holds q.condition)).mergeSort fun a b => (cmp a b).isLE).take n)
      | _, _ => none

/-- The rows that satisfy the condition of a query. -/
def Schema.matching (rows : List R) (t : Text V) : List R :=
  match parse t with
  | none => []
  | some q => rows.filter (S.holds q.condition)

variable {S}

@[simp]
theorem Schema.holds_and (a b : Cond V) (r : R) :
    S.holds (.and a b) r = (S.holds a r && S.holds b r) := by
  show (and3 (S.eval r a) (S.eval r b) == some true) =
    ((S.eval r a == some true) && (S.eval r b == some true))
  generalize S.eval r a = x
  generalize S.eval r b = y
  obtain _ | _ | _ := x <;> obtain _ | _ | _ := y <;> rfl

@[simp]
theorem Schema.holds_or (a b : Cond V) (r : R) :
    S.holds (.or a b) r = (S.holds a r || S.holds b r) := by
  show (or3 (S.eval r a) (S.eval r b) == some true) =
    ((S.eval r a == some true) || (S.eval r b == some true))
  generalize S.eval r a = x
  generalize S.eval r b = y
  obtain _ | _ | _ := x <;> obtain _ | _ | _ := y <;> rfl

/-- The comparison of two values. -/
theorem Schema.holds_comparison {x y : Lexeme V} {op : Str} {a b : R → V} {test : Ordering → Bool}
    {r : R} {o : Ordering} (hx : S.operand x = some a) (hop : comparison op = some test)
    (hy : S.operand y = some b) (ho : S.compare (a r) (b r) = some o) :
    S.holds (.atom [x, .word op, y]) r = test o := by
  show (S.atom [x, .word op, y] r == some true) = _
  unfold Schema.atom
  dsimp only
  rw [hx, hop, hy]
  dsimp only
  rw [ho, Option.map_some]
  cases test o <;> rfl

end Sql
