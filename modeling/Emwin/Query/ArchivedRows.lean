/-
# Filters on the rows of a product

What the conditions of a request accept, said of the product whose rows `prepare` wrote.
-/
import Emwin.Persist.BodyRows
import Emwin.Query.RowFilters

open Sql Parser Persist

namespace Query

/-! ## Rows as the conditions read them -/

/-- The columns of a row of an area. -/
def ugcColumns (row : ProductUgcAreaRow) : UgcColumn → Option (Datum ℚ)
  | .areaKind => some (.text row.areaKind)
  | .state => some (.text row.state)
  | .ugcCode => some (.text row.ugcCode)

/-- The columns of a row of an issue. -/
def issueColumns (row : ProductIssueRow) : IssueColumn → Option (Datum ℚ)
  | .kind => some (.text row.kind)
  | .code => some (.text row.code)

/-- The columns of a row of a tag. -/
def windHailColumns (row : ProductWindHailRow ℚ) : WindHailColumn → Option (Datum ℚ)
  | .kind => some (.text row.kind)
  | .numericValue => row.numericValue.map .number
  | .units => row.units.map .text

/-- Whether the conditions on areas accept the rows of a product. -/
def acceptsAreas (q : RowCriteria ℚ) (rows : PreparedProduct ℚ) : Bool :=
  (areaConditions q).all fun condition => condition.accepts (rows.ugcAreas.map ugcColumns)

/-- Whether the condition on issues accepts the rows of a product. -/
def acceptsIssues (q : RowCriteria ℚ) (rows : PreparedProduct ℚ) : Bool :=
  (issueConditions q).all fun condition => condition.accepts (rows.issues.map issueColumns)

/-- Whether the condition on wind and hail accepts the rows of a product. -/
def acceptsWindHail (q : RowCriteria ℚ) (rows : PreparedProduct ℚ) : Bool :=
  (windHailConditions q).all fun condition => condition.accepts (rows.windHail.map windHailColumns)

/-- Whether the filters for rows accept a product in the archive. -/
def acceptsRows (q : RowCriteria ℚ) (rows : PreparedProduct ℚ) : Bool :=
  acceptsAreas q rows && acceptsIssues q rows && acceptsWindHail q rows

/-! ## Areas -/

theorem eval_isInTexts {C : Type} {row : C → Option (Datum ℚ)} {c : C} {values : List Str}
    {s : Str} (hrow : row c = some (.text s)) :
    (isInTexts c values).eval row = some true ↔ s ∈ values := by
  unfold isInTexts
  rw [RowTest.eval_isIn]
  show (∃ v ∈ values.map Datum.text, row c = some v) ↔ _
  rw [hrow]
  simp only [List.mem_map, Option.some.injEq]
  constructor
  · rintro ⟨_, ⟨value, hvalue, rfl⟩, h⟩
    rwa [Datum.text.inj h]
  · exact fun h => ⟨_, ⟨s, h, rfl⟩, rfl⟩

theorem areaKind_injective {b b' : UgcBucket} (h : (areaKind b).toList = (areaKind b').toList) :
    b = b' := by
  revert h
  cases b <;> cases b' <;> decide

variable {product : ProductEnrichment ℚ} {prepared : PreparedProduct ℚ}

/-- The condition on states accepts a product with an area in one of them. -/
theorem accepts_stateCondition (hprepare : prepare product = .ok prepared) (raw : Option Str) :
    ((stateCondition raw).all fun condition =>
      condition.accepts (prepared.ugcAreas.map ugcColumns)) = true ↔
      ∀ values, splitCsvValues raw normalizeUpper = some values →
        ∃ s ∈ product.ugcSections, ∃ b, ∃ area ∈ areaNumbers (s.areas b), area.1 ∈ values := by
  unfold stateCondition
  cases splitCsvValues raw normalizeUpper with
  | none => simp
  | some values =>
      rw [List.all_cons, List.all_nil, Bool.and_true, ExistsRow.accepts_iff]
      have hrows := (describes_prepare hprepare).1.areas fun _ state _ => state ∈ values
      simp only [Option.some.injEq, forall_eq', rowOf, List.mem_map, List.forall_mem_singleton,
        exists_exists_and_eq_and]
      refine Iff.trans ?_ hrows
      exact exists_congr fun row => and_congr_right fun _ => eval_isInTexts rfl

/-- The condition on the areas of a kind accepts a product with one of them. -/
theorem accepts_ugcCondition (hprepare : prepare product = .ok prepared) (raw : Option Str)
    (b : UgcBucket) :
    ((ugcCondition raw (areaKind b)).all fun condition =>
      condition.accepts (prepared.ugcAreas.map ugcColumns)) = true ↔
      ∀ values, splitCsvValues raw normalizeUpper = some values →
        ∃ s ∈ product.ugcSections, ∃ area ∈ areaNumbers (s.areas b),
          spell area.1 (codeClass b) area.2 ∈ values := by
  unfold ugcCondition
  cases splitCsvValues raw normalizeUpper with
  | none => simp
  | some values =>
      rw [List.all_cons, List.all_nil, Bool.and_true, ExistsRow.accepts_iff]
      have hrows := (describes_prepare hprepare).1.areas fun kind _ ugcCode =>
        kind = (areaKind b).toList ∧ ugcCode ∈ values
      simp only [Option.some.injEq, forall_eq', rowOf, List.mem_map, List.forall_mem_cons,
        List.not_mem_nil, false_imp_iff, implies_true, and_true, exists_exists_and_eq_and]
      have htests : (∃ row ∈ prepared.ugcAreas,
          (RowTest.equals (.column .areaKind) (.text (areaKind b).toList)).eval (ugcColumns row) =
            some true ∧ (isInTexts .ugcCode values).eval (ugcColumns row) = some true) ↔
          ∃ row ∈ prepared.ugcAreas, row.areaKind = (areaKind b).toList ∧ row.ugcCode ∈ values := by
        refine exists_congr fun row => and_congr_right fun _ => and_congr ?_ (eval_isInTexts rfl)
        rw [RowTest.eval_equals]
        show some (Datum.text row.areaKind) = some (.text _) ↔ _
        rw [Option.some.injEq, Datum.text.injEq]
      refine (htests.trans hrows).trans ?_
      constructor
      · rintro ⟨s, hs, b', area, harea, hkind, hvalue⟩
        obtain rfl := areaKind_injective hkind
        exact ⟨s, hs, area, harea, hvalue⟩
      · rintro ⟨s, hs, area, harea, hvalue⟩
        exact ⟨s, hs, b, area, harea, rfl, hvalue⟩

/-! ## Issues -/

/-- The tests of a field with values. -/
theorem eval_textSetTests {C : Type} {row : C → Option (Datum ℚ)} {c : C} {raw : Option Str}
    {normalize : Str → Str} {s : Str} (hrow : row c = some (.text s)) :
    (∀ test ∈ textSetTests c raw normalize, test.eval row = some true) ↔
      ∀ values, splitCsvValues raw normalize = some values → s ∈ values := by
  unfold textSetTests
  cases splitCsvValues raw normalize with
  | none => simp
  | some values =>
      rw [List.forall_mem_singleton, eval_isInTexts hrow]
      simp

/-- The condition on issues accepts a product with an issue of all that is asked. -/
theorem accepts_issueConditions (hprepare : prepare product = .ok prepared) (q : RowCriteria ℚ) :
    acceptsIssues q prepared = true ↔
      (q.issueKind.isSome = true ∨ q.issueCode.isSome = true →
        ∃ issue ∈ product.issues,
          (∀ values, splitCsvValues q.issueKind normalizeLower = some values →
            issue.kind ∈ values) ∧
          ∀ values, splitCsvValues q.issueCode normalizeLower = some values →
            issue.code ∈ values) := by
  unfold acceptsIssues issueConditions
  rw [← Bool.or_eq_true]
  split
  · next hsome =>
      rw [List.all_cons, List.all_nil, Bool.and_true, ExistsRow.accepts_iff,
        (describes_prepare hprepare).2]
      simp only [rowOf, List.mem_map, exists_exists_and_eq_and, List.forall_mem_append]
      refine Iff.trans ?_ ⟨fun h _ => h, fun h => h hsome⟩
      refine exists_congr fun issue => and_congr_right fun _ => and_congr ?_ ?_
      · exact eval_textSetTests rfl
      · exact eval_textSetTests rfl
  · next hnone => exact ⟨fun _ h => absurd h hnone, fun _ => rfl⟩

/-! ## Wind and hail -/

/-- The speed that the tests for wind compute of a row. -/
def rowWindSpeed (value : ℚ) (units : Option Str) : ℚ :=
  if Str.toAsciiUppercase (units.getD []) = "KTS".toList ∨
      Str.toAsciiUppercase (units.getD []) = "KT".toList then
    value * (115078 / 100000)
  else value

/-- A row of wind of at least some speed. -/
def IsWindRow (minimum : ℚ) (kind : Str) (value : Option ℚ) (units : Option Str) : Prop :=
  (kind = "legacy_wind".toList ∨ kind = "max_wind_gust".toList) ∧
    ∃ x, value = some x ∧ minimum ≤ rowWindSpeed x units

/-- A row of hail of at least some size. -/
def IsHailRow (minimum : ℚ) (kind : Str) (value : Option ℚ) : Prop :=
  (kind = "legacy_hail".toList ∨ kind = "max_hail_size".toList) ∧ ∃ x, value = some x ∧ minimum ≤ x

theorem eval_kind_isAmong {row : ProductWindHailRow ℚ} {a b : String} :
    (RowTest.isAmong (.column .kind) [a, b]).eval (windHailColumns row) = some true ↔
      row.kind = a.toList ∨ row.kind = b.toList := by
  rw [RowTest.eval_isAmong]
  show (∃ s ∈ [a, b], some (Datum.text row.kind) = some (.text s.toList)) ↔ _
  simp

theorem eval_windSpeed (row : ProductWindHailRow ℚ) :
    windSpeed.eval (windHailColumns row) =
      row.numericValue.map fun x => .number (rowWindSpeed x row.units) := by
  have hunits : (Scalar.upper (.coalesce (.column .units) "")).eval (windHailColumns row) =
      some (.text (Str.toAsciiUppercase (row.units.getD []))) := by
    obtain ⟨_, _, _, _, units, _⟩ := row
    cases units <;> rfl
  have htest : ((Scalar.upper (.coalesce (.column .units) "")).eval (windHailColumns row)).any
      (fun v => decide (v ∈ ["KTS", "KT"].map fun s => Datum.text (K := ℚ) s.toList)) = true ↔
      Str.toAsciiUppercase (row.units.getD []) = "KTS".toList ∨
        Str.toAsciiUppercase (row.units.getD []) = "KT".toList := by
    rw [hunits]
    simp
  unfold windSpeed
  rw [Scalar.eval]
  unfold rowWindSpeed
  by_cases hknots : Str.toAsciiUppercase (row.units.getD []) = "KTS".toList ∨
      Str.toAsciiUppercase (row.units.getD []) = "KT".toList
  · rw [if_pos (htest.mpr hknots)]
    simp only [if_pos hknots]
    show (row.numericValue.map Datum.number).bind _ = _
    cases row.numericValue with
    | none => rfl
    | some x =>
        show some (Datum.number (x * ((115078 : ℕ) / 10 ^ 5))) = some (.number _)
        norm_num
  · rw [if_neg (mt htest.mp hknots)]
    simp only [if_neg hknots]
    rfl

theorem eval_windTests {row : ProductWindHailRow ℚ} {minimum : Option ℚ} :
    (∀ test ∈ windTests minimum, test.eval (windHailColumns row) = some true) ↔
      ∀ m, minimum = some m → IsWindRow m row.kind row.numericValue row.units := by
  cases minimum with
  | none => simp [windTests]
  | some m =>
      show (∀ test ∈ [_, _], _) ↔ _
      rw [List.forall_mem_cons, List.forall_mem_singleton, eval_kind_isAmong,
        RowTest.eval_atLeast, eval_windSpeed]
      simp only [Option.some.injEq, forall_eq', IsWindRow]
      refine and_congr_right fun _ => ?_
      cases row.numericValue <;> simp

theorem eval_hailTests {row : ProductWindHailRow ℚ} {minimum : Option ℚ} :
    (∀ test ∈ hailTests minimum, test.eval (windHailColumns row) = some true) ↔
      ∀ m, minimum = some m → IsHailRow m row.kind row.numericValue := by
  cases minimum with
  | none => simp [hailTests]
  | some m =>
      show (∀ test ∈ [_, _], _) ↔ _
      rw [List.forall_mem_cons, List.forall_mem_singleton, eval_kind_isAmong,
        RowTest.eval_atLeast]
      simp only [Option.some.injEq, forall_eq', IsHailRow]
      refine and_congr_right fun _ => ?_
      show (∃ x, row.numericValue.map Datum.number = some (.number x) ∧ m ≤ x) ↔ _
      cases row.numericValue <;> simp

/-- The condition on wind and hail accepts a product with one tag of all that is asked. -/
theorem accepts_windHailConditions (hprepare : prepare product = .ok prepared)
    (q : RowCriteria ℚ) :
    acceptsWindHail q prepared = true ↔
      (q.windHailKind.isSome = true ∨ q.minWindMph.isSome = true ∨ q.minHailInches.isSome = true →
        TagOf product.windHailEntries fun kind value units =>
          (∀ values, splitCsvValues q.windHailKind normalizeLower = some values → kind ∈ values) ∧
          (∀ m, q.minWindMph = some m → IsWindRow m kind value units) ∧
          ∀ m, q.minHailInches = some m → IsHailRow m kind value) := by
  unfold acceptsWindHail windHailConditions
  rw [← Bool.or_eq_true, ← Bool.or_eq_true, ← Bool.or_assoc]
  split
  · next hsome =>
      rw [List.all_cons, List.all_nil, Bool.and_true, ExistsRow.accepts_iff,
        ← (describes_prepare hprepare).1.tags]
      simp only [rowOf, List.mem_map, exists_exists_and_eq_and, List.forall_mem_append, and_assoc]
      refine Iff.trans ?_ ⟨fun h _ => h, fun h => h hsome⟩
      refine exists_congr fun row => and_congr_right fun _ => and_congr ?_ (and_congr ?_ ?_)
      · exact eval_textSetTests rfl
      · exact eval_windTests
      · exact eval_hailTests
  · next hnone => exact ⟨fun _ h => absurd h hnone, fun _ => rfl⟩

end Query
