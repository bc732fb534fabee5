/-
# Conditions on the rows of a table

A filter of a query asks that a table has a row of the record with certain properties:

    EXISTS (SELECT 1 FROM table WHERE table.key = .. AND test AND ..)

The tests compare expressions over the columns of the row with literals and with bound values,
in three-valued logic: a comparison with null is unknown, and a row counts where the
conjunction is true.
-/
import Emwin.Lib.Calendar
import Emwin.Lib.SqlEval
import Mathlib.Algebra.Order.Field.Basic

namespace Sql

/-! ## Expressions -/

/-- A value other than null. -/
inductive Datum (K : Type) where
  | text (s : Str)
  | number (x : K)
  deriving DecidableEq, Repr

/-- The text of a datum. -/
def Datum.text? {K : Type} : Datum K → Option Str
  | .text s => some s
  | .number _ => none

/-- The number of a datum. -/
def Datum.number? {K : Type} : Datum K → Option K
  | .text _ => none
  | .number x => some x

/-- A number with digits behind the point. -/
structure Decimal where
  mantissa : ℕ
  places : ℕ

/-- The literal of a decimal number. -/
def Decimal.literal (d : Decimal) : Str :=
  Str.ofNat (d.mantissa / 10 ^ d.places) ++
    '.' :: Calendar.padded d.places (d.mantissa % 10 ^ d.places)

/-- The value of a decimal number. -/
def Decimal.value {K : Type} [Field K] (d : Decimal) : K := d.mantissa / 10 ^ d.places

/-- An expression over columns. -/
inductive Scalar (C : Type) where
  | column (c : C)
  | coalesce (e : Scalar C) (literal : String)
  | upper (e : Scalar C)
  | times (e : Scalar C) (factor : Decimal)
  | caseAmong (e : Scalar C) (literals : List String) (a b : Scalar C)

/-- A test of a row. -/
inductive RowTest (C K : Type) where
  | equals (e : Scalar C) (value : Datum K)
  | isIn (e : Scalar C) (values : List (Datum K))
  | isAmong (e : Scalar C) (literals : List String)
  | atLeast (e : Scalar C) (value : Datum K)

/-- The existence of a row that passes some tests. -/
structure ExistsRow (C K : Type) where
  table : String
  /-- The column of the record's key in the table, and that in the table of records. -/
  key : String
  recordKey : String
  tests : List (RowTest C K)

/-! ## Text -/

section Text

variable {C K V : Type} (table : String) (name : C → String) (bind : Datum K → V)

/-- Pieces with commas between them. -/
def commas : List (Text V) → Text V
  | [] => []
  | [t] => t
  | t :: ts => t ++ push ", " ++ commas ts

/-- A literal of text. -/
def quoted (s : String) : Text V := push "'" ++ push s ++ push "'"

/-- The text of an expression. -/
def Scalar.render : Scalar C → Text V
  | .column c => push table ++ push "." ++ push (name c)
  | .coalesce e literal => push "COALESCE(" ++ e.render ++ push ", " ++ quoted literal ++ push ")"
  | .upper e => push "UPPER(" ++ e.render ++ push ")"
  | .times e factor => e.render ++ push " * " ++ push (String.ofList factor.literal)
  | .caseAmong e literals a b =>
      push "CASE WHEN " ++ e.render ++ push " IN (" ++ commas (literals.map quoted) ++
        push ") THEN " ++ a.render ++ push " ELSE " ++ b.render ++ push " END"

/-- The text of a test. -/
def RowTest.render : RowTest C K → Text V
  | .equals e value => e.render table name ++ push " = " ++ pushBind (bind value)
  | .isIn e values =>
      e.render table name ++ push " IN (" ++ commas (values.map fun v => pushBind (bind v)) ++
        push ")"
  | .isAmong e literals =>
      e.render table name ++ push " IN (" ++ commas (literals.map quoted) ++ push ")"
  | .atLeast e value => e.render table name ++ push " >= " ++ pushBind (bind value)

/-- The text of a filter. -/
def ExistsRow.render (q : ExistsRow C K) : Text V :=
  push " AND EXISTS (SELECT 1 FROM " ++ push q.table ++ push " WHERE " ++ push q.table ++
    push "." ++ push q.key ++ push " = " ++ push q.recordKey ++
    q.tests.flatMap (fun test => push " AND " ++ test.render q.table name bind) ++ push ")"

end Text

/-! ## Truth -/

section Truth

variable {C K : Type} [Field K] [LinearOrder K]

/-- The value of an expression on a row; `none` is null. -/
def Scalar.eval (row : C → Option (Datum K)) : Scalar C → Option (Datum K)
  | .column c => row c
  | .coalesce e literal => some ((e.eval row).getD (.text literal.toList))
  | .upper e => (e.eval row).bind fun v => v.text?.map fun s => .text (Str.toAsciiUppercase s)
  | .times e factor =>
      (e.eval row).bind fun v => v.number?.map fun x => .number (x * factor.value)
  | .caseAmong e literals a b =>
      if (e.eval row).any fun v => v ∈ literals.map fun s => Datum.text s.toList then a.eval row
      else b.eval row

/-- The truth of a test on a row; `none` is unknown. -/
def RowTest.eval (row : C → Option (Datum K)) : RowTest C K → Option Bool
  | .equals e value => (e.eval row).map fun v => v == value
  | .isIn e values => (e.eval row).map fun v => decide (v ∈ values)
  | .isAmong e literals =>
      (e.eval row).map fun v => decide (v ∈ literals.map fun s => Datum.text s.toList)
  | .atLeast e value => do
      let x ← (← e.eval row).number?
      let y ← value.number?
      some (decide (y ≤ x))

/-- The truth of a conjunction of tests. -/
def evalTests (row : C → Option (Datum K)) (tests : List (RowTest C K)) : Option Bool :=
  tests.foldr (fun test rest => and3 (test.eval row) rest) (some true)

/-- Whether a filter accepts the record of some rows. -/
def ExistsRow.accepts (q : ExistsRow C K) (rows : List (C → Option (Datum K))) : Bool :=
  rows.any fun row => evalTests row q.tests == some true

/-! ### Rows that pass -/

theorem and3_eq_true {a b : Option Bool} :
    and3 a b = some true ↔ a = some true ∧ b = some true := by
  obtain _ | _ | _ := a <;> obtain _ | _ | _ := b <;> simp [and3]

/-- A conjunction is true where every test is. -/
theorem evalTests_eq_true {row : C → Option (Datum K)} {tests : List (RowTest C K)} :
    evalTests row tests = some true ↔ ∀ test ∈ tests, test.eval row = some true := by
  induction tests with
  | nil => simp [evalTests]
  | cons test tests ih =>
      rw [List.forall_mem_cons, ← ih]
      exact and3_eq_true

theorem ExistsRow.accepts_iff {q : ExistsRow C K} {rows : List (C → Option (Datum K))} :
    q.accepts rows = true ↔ ∃ row ∈ rows, ∀ test ∈ q.tests, test.eval row = some true := by
  unfold ExistsRow.accepts
  simp only [List.any_eq_true, beq_iff_eq, evalTests_eq_true]

theorem RowTest.eval_equals {row : C → Option (Datum K)} {e : Scalar C} {value : Datum K} :
    (RowTest.equals e value).eval row = some true ↔ e.eval row = some value := by
  simp [RowTest.eval]

theorem RowTest.eval_isIn {row : C → Option (Datum K)} {e : Scalar C} {values : List (Datum K)} :
    (RowTest.isIn e values).eval row = some true ↔ ∃ v ∈ values, e.eval row = some v := by
  cases h : e.eval row with
  | none => simp [RowTest.eval, h]
  | some v => simp [RowTest.eval, h, eq_comm]

theorem RowTest.eval_isAmong {row : C → Option (Datum K)} {e : Scalar C} {literals : List String} :
    (RowTest.isAmong (K := K) e literals).eval row = some true ↔
      ∃ s ∈ literals, e.eval row = some (.text s.toList) := by
  cases h : e.eval row with
  | none => simp [RowTest.eval, h]
  | some v => simp [RowTest.eval, h, eq_comm]

theorem RowTest.eval_atLeast {row : C → Option (Datum K)} {e : Scalar C} {y : K} :
    (RowTest.atLeast e (.number y)).eval row = some true ↔
      ∃ x, e.eval row = some (.number x) ∧ y ≤ x := by
  cases h : e.eval row with
  | none => simp [RowTest.eval, h]
  | some v => cases v <;> simp [RowTest.eval, h, Datum.number?]

end Truth

end Sql
