/-
# The columns of a section of model guidance

A section is a table: the hours of its axis stand at the right ends of the columns, and every row
has under each hour a value that ends there, or blanks.  The parser gives the words of a row to
the hours in their order, so a value stays in its column exactly if its row has no gap and no
values that touch (`values_in_columns_iff`).
-/
import Emwin.Lib.Columns
import Emwin.Lib.Slices
import Emwin.Parser.Mos

namespace Parser.Mos

open Columns

/-! ## Tables -/

/-- A row: the name of its variable in three bytes, and a cell under every hour. -/
structure Row where
  field : Str
  cells : List (ℕ × Str)

/-- The variable of a row. -/
def Row.name (row : Row) : Str := rowName row.field

/-- A line is a row, of which blanks at the end may be missing. -/
def Row.Prints (row : Row) (line : Str) : Prop :=
  ∃ blanks, line ++ List.replicate blanks ' ' = row.field ++ rowText row.cells

/-- A table: the label of its axis, the hours with what stands in front of them, and its rows. -/
structure Table where
  label : Str
  hours : List (Str × Str)
  rows : List Row

/-- What separates the hours. -/
def separates (c : Char) : Bool := Str.isAsciiWhitespace c || c = '|'

/-- The line of the axis. -/
def axisText (label : Str) (hours : List (Str × Str)) : Str :=
  label ++ hours.flatMap fun (separators, hour) => separators ++ hour

/-- The widths of the columns; the first begins behind the names of the variables. -/
def columnWidths (label : Str) : List (Str × Str) → List ℕ
  | [] => []
  | (separators, hour) :: hours =>
      (label.length + separators.length + hour.length - 3) ::
        hours.map fun (separators, hour) => separators.length + hour.length

/-- The lines of a section are a table. -/
structure Table.Prints (table : Table) (axis : HourAxis) : Prop where
  line : axis.line = axisText table.label table.hours
  label : ∀ c ∈ table.label, separates c = false
  hours : ∀ hour ∈ table.hours, hour.1 ≠ [] ∧ (∀ c ∈ hour.1, separates c = true) ∧
    hour.2 ≠ [] ∧ ∀ c ∈ hour.2, separates c = false
  dataLines : List.Forall₂ Row.Prints table.rows axis.dataLines
  fields : ∀ row ∈ table.rows, Str.byteLen row.field = 3
  widths : ∀ row ∈ table.rows, row.cells.map Prod.fst = columnWidths table.label table.hours
  fits : ∀ row ∈ table.rows, Fits Str.isWhitespace row.cells

/-! ## Hours -/

/-- The hours of an axis are its words. -/
theorem words_hours {hours : List (Str × Str)} (hhours : ∀ hour ∈ hours, hour.1 ≠ [] ∧
    (∀ c ∈ hour.1, separates c = true) ∧ hour.2 ≠ [] ∧ ∀ c ∈ hour.2, separates c = false) :
    words separates (hours.flatMap fun (separators, hour) => separators ++ hour) =
      hours.map Prod.snd := by
  induction hours with
  | nil => rfl
  | cons hour hours ih =>
      obtain ⟨separators, hour⟩ := hour
      obtain ⟨⟨-, hseparators, hne, hhour⟩, hrest⟩ := List.forall_mem_cons.mp hhours
      rw [List.flatMap_cons, List.append_assoc, words_append_separators hseparators, List.map_cons,
        ← ih hrest]
      cases hours with
      | nil =>
          rw [List.flatMap_nil, List.append_nil, words_of_visible hhour, if_neg hne]
          rfl
      | cons next hours =>
          obtain ⟨separators, next⟩ := next
          obtain ⟨⟨hsome, hseparators, -⟩, -⟩ := List.forall_mem_cons.mp hrest
          obtain ⟨c, separators, rfl⟩ := List.exists_cons_of_ne_nil hsome
          have hc : separates c = true := hseparators c List.mem_cons_self
          rw [List.flatMap_cons]
          dsimp only
          rw [List.cons_append, List.cons_append, words_append_cons hc, words_of_visible hhour,
            if_neg hne]
          exact congrArg _ (words_append_cons hc [] _).symm

/-- The hours that are read from an axis. -/
theorem axisHours_axisText {label : Str} (hlabel : ∀ c ∈ label, separates c = false)
    {hours : List (Str × Str)} (hhours : ∀ hour ∈ hours, hour.1 ≠ [] ∧
      (∀ c ∈ hour.1, separates c = true) ∧ hour.2 ≠ [] ∧ ∀ c ∈ hour.2, separates c = false) :
    axisHours (axisText label hours) = hours.map Prod.snd := by
  have hwords := words_hours hhours
  cases hours with
  | nil =>
      show ((axisText label []).splitOnP separates |>.drop 1).filter (· ≠ []) = []
      rw [axisText, List.flatMap_nil, List.append_nil, List.splitOnP_eq_singleton hlabel]
      rfl
  | cons hour hours =>
      obtain ⟨separators, hour⟩ := hour
      obtain ⟨hsome, hseparators, -⟩ := hhours _ List.mem_cons_self
      obtain ⟨c, separators, rfl⟩ := List.exists_cons_of_ne_nil hsome
      have hc : separates c = true := hseparators c List.mem_cons_self
      rw [← hwords]
      show ((axisText label _).splitOnP separates |>.drop 1).filter (· ≠ []) = _
      rw [axisText, List.flatMap_cons]
      dsimp only
      rw [List.cons_append, List.cons_append, List.splitOnP_append_cons _ _ hc,
        List.splitOnP_eq_singleton hlabel]
      exact (words_append_cons hc [] _).symm

theorem length_of_pushTime {fromRun : Bool} {init : Chrono.DateTime}
    {times pushed : List Chrono.DateTime} {hour : Str}
    (h : pushTime fromRun init times hour = some (some pushed)) :
    pushed.length = times.length + 1 := by
  have hadd : ∀ {read : Option Chrono.DateTime},
      read.map (fun ts => some (times ++ [ts])) = some (some pushed) →
        pushed.length = times.length + 1 := by
    intro read h
    obtain ⟨ts, -, hts⟩ := Option.map_eq_some_iff.mp h
    obtain rfl := Option.some.inj hts
    rw [List.length_append, List.length_singleton]
  unfold pushTime at h
  split_ifs at h
  · split at h
    · cases h
    · exact hadd h
  · split at h
    · cases h
    · exact hadd h
  · split at h
    · cases h
    · split_ifs at h
      · exact hadd h
      · cases h
        rw [List.length_append, List.length_singleton]

/-- Every hour is one time. -/
theorem length_of_readTimes {fromRun : Bool} {init : Chrono.DateTime}
    {times read : List Chrono.DateTime} {hours : List Str}
    (h : readTimes fromRun init times hours = some (some read)) :
    read.length = times.length + hours.length := by
  induction hours generalizing times with
  | nil =>
      cases h
      rfl
  | cons hour hours ih =>
      rw [readTimes] at h
      split at h
      · cases h
      · cases h
      · next pushed hpushed =>
          have hone : pushed.length = times.length + 1 := length_of_pushTime hpushed
          rw [ih h, hone, List.length_cons]
          omega

/-! ## Rows -/

/-- The values that are read from a row. -/
def Row.read (row : Row) : List Str :=
  if row.name = [] then [] else Str.splitWhitespace (rowText row.cells)

theorem insertValues_nil (name : Str) (forecasts : List MosForecastRow) :
    insertValues name forecasts [] = forecasts := by
  cases forecasts <;> rfl

/-- The line of a row gives its values to the hours in their order. -/
theorem pushRow_of_prints {row : Row} (hfield : Str.byteLen row.field = 3) {line : Str}
    (hline : row.Prints line) (forecasts : List MosForecastRow) :
    pushRow forecasts line = some (insertValues row.name forecasts row.read) := by
  obtain ⟨blanks, hline⟩ := hline
  have hspace : Str.isWhitespace ' ' = true := by decide
  -- blanks at the end of the cells may be missing, or those of all cells and of the name
  obtain ⟨cells, rfl, hcells⟩ | ⟨missing, hname, hcells⟩ :
      (∃ cells, line = row.field ++ cells ∧
        rowText row.cells = cells ++ List.replicate blanks ' ') ∨
        ∃ missing, row.field = line ++ missing ∧
          List.replicate blanks ' ' = missing ++ rowText row.cells :=
    (List.append_eq_append_iff.mp hline).symm
  · have hread : Str.splitWhitespace cells = Str.splitWhitespace (rowText row.cells) := by
      rw [hcells]
      exact (words_append_replicate hspace blanks cells).symm
    rw [pushRow, if_neg (by rw [Str.byteLen_append]; omega), ← hfield, Str.splitAtByte_append,
      Option.map_some, Row.read, Row.name]
    dsimp only
    rw [hread]
    split_ifs
    · rw [insertValues_nil]
    · rfl
  · have hread : row.read = [] := by
      have hwords : Str.splitWhitespace (rowText row.cells) = [] := by
        have hsuffix : rowText row.cells = List.replicate (rowText row.cells).length ' ' :=
          List.eq_replicate_iff.mpr ⟨rfl, fun c hc => List.eq_of_mem_replicate (n := blanks) (by
            rw [hcells]
            exact List.mem_append_right _ hc)⟩
        rw [hsuffix, ← List.append_nil (List.replicate _ _)]
        exact words_replicate hspace _ []
      rw [Row.read, hwords, ite_self]
    have hlength := congrArg Str.byteLen hname
    rw [Str.byteLen_append, hfield] at hlength
    rw [hread, insertValues_nil, pushRow]
    by_cases hshort : Str.byteLen line < 3
    · rw [if_pos hshort]
    · have hcut : Str.splitAtByte (Str.byteLen line) (line ++ []) = some (line, []) :=
        Str.splitAtByte_append line []
      rw [List.append_nil, show Str.byteLen line = 3 by omega] at hcut
      rw [if_neg hshort, hcut, Option.map_some]
      dsimp only
      rw [show Str.splitWhitespace [] = [] from rfl, insertValues_nil, ite_self]

/-! ## Forecasts -/

/-- The value of a variable at an hour. -/
def valueAt (forecasts : List MosForecastRow) (i : ℕ) (name : Str) : Option Str :=
  forecasts[i]?.bind fun forecast => forecast.values.lookup name

theorem length_insertValues (name : Str) (forecasts : List MosForecastRow) (values : List Str) :
    (insertValues name forecasts values).length = forecasts.length := by
  induction forecasts generalizing values with
  | nil => rfl
  | cons forecast forecasts ih =>
      cases values with
      | nil => rfl
      | cons value values => rw [insertValues, List.length_cons, ih, List.length_cons]

/-- Values that are read hide those read before, of their variable and at their hours. -/
theorem valueAt_insertValues (name : Str) (forecasts : List MosForecastRow) (values : List Str)
    {i : ℕ} (hi : i < forecasts.length) (x : Str) :
    valueAt (insertValues name forecasts values) i x =
      ((if name = x then values[i]? else none) <|> valueAt forecasts i x) := by
  induction forecasts generalizing values i with
  | nil => exact absurd hi (Nat.not_lt_zero i)
  | cons forecast forecasts ih =>
      cases values with
      | nil => simp [insertValues_nil]
      | cons value values =>
          rw [insertValues]
          cases i with
          | zero =>
              by_cases hname : name = x
              · subst hname
                simp [valueAt]
              · simp [valueAt, hname, OrderedMap.lookup_insert_of_ne _ (Ne.symm hname)]
          | succ i =>
              have hnext := ih values (Nat.lt_of_succ_lt_succ hi)
              simpa [valueAt] using hnext

/-- The values read from rows, of which the last is seen. -/
theorem valueAt_foldl (rows : List Row) (forecasts : List MosForecastRow) {i : ℕ}
    (hi : i < forecasts.length) (x : Str) :
    valueAt (rows.foldl (fun forecasts row =>
      insertValues row.name forecasts row.read) forecasts) i x =
      (rows.reverse.findSome? (fun row => if row.name = x then row.read[i]? else none) <|>
        valueAt forecasts i x) := by
  induction rows generalizing forecasts with
  | nil => rfl
  | cons row rows ih =>
      rw [List.foldl_cons, ih _ (by rwa [length_insertValues]), valueAt_insertValues _ _ _ hi,
        List.reverse_cons, List.findSome?_append]
      simp [Option.or_assoc]

/-- The lines of a table are read row by row. -/
theorem foldlM_pushRow_of_prints {rows : List Row} {lines : List Str}
    (hfields : ∀ row ∈ rows, Str.byteLen row.field = 3)
    (hlines : List.Forall₂ Row.Prints rows lines)
    (forecasts : List MosForecastRow) : lines.foldlM pushRow forecasts =
      some (rows.foldl (fun forecasts row =>
        insertValues row.name forecasts row.read) forecasts) := by
  induction hlines generalizing forecasts with
  | nil => rfl
  | cons hline _ ih =>
      obtain ⟨hfield, hrest⟩ := List.forall_mem_cons.mp hfields
      rw [List.foldlM_cons, pushRow_of_prints hfield hline, Option.bind_eq_bind, Option.bind_some,
        ih hrest, List.foldl_cons]

/-- What is read of a section: its hours, and then its lines. -/
theorem eq_of_parseSection {text : Str} {mosSection : MosSection} {axis : HourAxis}
    (h : parseSection text = some (some mosSection))
    (haxis : findAxis (Str.lines text) = some axis) :
    ∃ (fromRun : Bool) (init : Chrono.DateTime) (times : List Chrono.DateTime),
      readTimes fromRun init [] (axisHours axis.line) = some (some times) ∧
        axis.dataLines.foldlM pushRow (times.map fun ts => ⟨toRfc3339 ts, .empty⟩) =
          some mosSection.forecasts := by
  unfold parseSection at h
  dsimp only at h
  split at h
  · cases h
  · next header _ =>
      obtain ⟨runtime, -, h⟩ := Option.bind_eq_some_iff.mp h
      split at h
      · cases h
      · next init _ =>
          obtain ⟨read, hread, h⟩ := Option.bind_eq_some_iff.mp h
          rw [parseHourAxis, haxis] at hread
          obtain ⟨times, htimes, rfl⟩ := Option.map_eq_some_iff.mp hread
          cases times with
          | none => cases h
          | some times =>
              obtain ⟨forecasts, hforecasts, h⟩ := Option.bind_eq_some_iff.mp h
              cases h
              exact ⟨_, init, times, htimes, hforecasts⟩

theorem length_columnWidths (label : Str) (hours : List (Str × Str)) :
    (columnWidths label hours).length = hours.length := by
  cases hours with
  | nil => rfl
  | cons hour hours => rw [columnWidths, List.length_cons, List.length_map, List.length_cons]

section

variable {text : Str} {mosSection : MosSection} {axis : HourAxis} {table : Table}

/-- The forecasts of a table: its rows are read into one without values for every hour. -/
theorem forecasts_of_parseSection (h : parseSection text = some (some mosSection))
    (haxis : findAxis (Str.lines text) = some axis) (htable : table.Prints axis) :
    ∃ times : List Chrono.DateTime, times.length = table.hours.length ∧
      mosSection.forecasts = table.rows.foldl
        (fun forecasts row => insertValues row.name forecasts row.read)
        (times.map fun ts => ⟨toRfc3339 ts, .empty⟩) := by
  obtain ⟨fromRun, init, times, htimes, hforecasts⟩ := eq_of_parseSection h haxis
  rw [htable.line, axisHours_axisText htable.label htable.hours] at htimes
  have hlength := length_of_readTimes htimes
  rw [List.length_map, List.length_nil, Nat.zero_add] at hlength
  rw [foldlM_pushRow_of_prints htable.fields htable.dataLines] at hforecasts
  exact ⟨times, hlength, (Option.some.inj hforecasts).symm⟩

/-- There is a forecast for every hour. -/
theorem length_forecasts (h : parseSection text = some (some mosSection))
    (haxis : findAxis (Str.lines text) = some axis) (htable : table.Prints axis) :
    mosSection.forecasts.length = table.hours.length := by
  obtain ⟨times, hlength, hforecasts⟩ := forecasts_of_parseSection h haxis htable
  have hfold : ∀ (rows : List Row) (forecasts : List MosForecastRow),
      (rows.foldl (fun forecasts row =>
        insertValues row.name forecasts row.read) forecasts).length =
        forecasts.length := by
    intro rows forecasts
    induction rows generalizing forecasts with
    | nil => rfl
    | cons row rows ih => rw [List.foldl_cons, ih, length_insertValues]
  rw [hforecasts, hfold, List.length_map, hlength]

/-- The values of a table are those of its rows, of which the last is seen. -/
theorem valueAt_of_parseSection (h : parseSection text = some (some mosSection))
    (haxis : findAxis (Str.lines text) = some axis) (htable : table.Prints axis) {i : ℕ}
    (hi : i < table.hours.length) (name : Str) :
    valueAt mosSection.forecasts i name =
      table.rows.reverse.findSome? fun row => if row.name = name then row.read[i]? else none := by
  obtain ⟨times, hlength, hforecasts⟩ := forecasts_of_parseSection h haxis htable
  have hnone : valueAt (times.map fun ts => ⟨toRfc3339 ts, .empty⟩) i name = none := by
    rw [valueAt, List.getElem?_map]
    cases times[i]? <;> rfl
  rw [hforecasts, valueAt_foldl _ _ (by rwa [List.length_map, hlength]), hnone]
  simp

/-! ## Values in their columns -/

/-- Every value of a forecast is that of a row of its variable, in the cell under its hour. -/
def InColumns (rows : List Row) (forecasts : List MosForecastRow) : Prop :=
  ∀ (i : ℕ) (forecast : MosForecastRow), forecasts[i]? = some forecast →
    ∀ name value, (name, value) ∈ forecast.values.entries →
      value ≠ [] ∧ ∃ row ∈ rows, row.name = name ∧ (row.cells.map Prod.snd)[i]? = some value

/-- The rows that name a variable. -/
def Table.named (table : Table) : List Row := table.rows.filter (·.name ≠ [])

/-- The words of a row that names a variable are read. -/
theorem read_of_name {row : Row} (h : row.name ≠ []) :
    row.read = words Str.isWhitespace (rowText row.cells) := if_neg h

/-- Which values the forecasts have. -/
theorem mem_entries_iff_valueAt {forecasts : List MosForecastRow} {i : ℕ} {name value : Str} :
    (∃ forecast, forecasts[i]? = some forecast ∧ (name, value) ∈ forecast.values.entries) ↔
      valueAt forecasts i name = some value := by
  rw [valueAt, Option.bind_eq_some_iff]
  simp only [OrderedMap.mem_entries_iff]

/-- Packed rows are read into their columns. -/
theorem inColumns_of_packed (h : parseSection text = some (some mosSection))
    (haxis : findAxis (Str.lines text) = some axis) (htable : table.Prints axis)
    (hpacked : ∀ row ∈ table.named, Packed row.cells) :
    InColumns table.rows mosSection.forecasts := by
  intro i forecast hforecast name value hvalue
  have hi : i < table.hours.length := by
    rw [← length_forecasts h haxis htable]
    exact (List.getElem?_eq_some_iff.mp hforecast).1
  have hat := mem_entries_iff_valueAt.mp ⟨forecast, hforecast, hvalue⟩
  rw [valueAt_of_parseSection h haxis htable hi] at hat
  obtain ⟨row, hrow, hread⟩ := List.exists_of_findSome?_eq_some hat
  have hrow : row ∈ table.rows := List.mem_reverse.mp hrow
  split_ifs at hread with hname
  have hnamed : row.name ≠ [] := by
    intro hnil
    rw [Row.read, if_pos hnil] at hread
    cases hread
  rw [read_of_name hnamed] at hread
  have hprefix := (words_in_place_iff (by decide) (htable.fits row hrow)).mpr
    (hpacked row (List.mem_filter.mpr ⟨hrow, by simpa using hnamed⟩))
  obtain ⟨hlt, rfl⟩ := List.getElem?_eq_some_iff.mp hread
  exact ⟨ne_nil_of_mem_words (List.getElem_mem hlt), row, hrow, hname,
    List.prefix_iff_getElem?.mp hprefix i hlt⟩

/-- Where no two rows name the same variable, rows that are read into their columns are packed. -/
theorem packed_of_inColumns (h : parseSection text = some (some mosSection))
    (haxis : findAxis (Str.lines text) = some axis) (htable : table.Prints axis)
    (hnodup : (table.named.map Row.name).Nodup)
    (hcolumns : InColumns table.rows mosSection.forecasts) :
    ∀ row ∈ table.named, Packed row.cells := by
  intro row hnamed
  obtain ⟨hrow, hname⟩ := List.mem_filter.mp hnamed
  have hname : row.name ≠ [] := by simpa using hname
  have hunique : ∀ other ∈ table.rows, other.name = row.name → other = row :=
    fun other hother heq =>
    List.inj_on_of_nodup_map hnodup
      (List.mem_filter.mpr ⟨hother, by rw [heq]; simpa using hname⟩) hnamed heq
  have hfits := htable.fits row hrow
  refine (words_in_place_iff (by decide) hfits).mp (List.prefix_iff_getElem?.mpr fun i hi => ?_)
  have hhours : i < table.hours.length := by
    have hle := length_words_rowText_le (by decide) hfits
    have hwidths := congrArg List.length (htable.widths row hrow)
    rw [List.length_map, length_columnWidths] at hwidths
    omega
  have hat : valueAt mosSection.forecasts i row.name =
      some (words Str.isWhitespace (rowText row.cells))[i] := by
    rw [valueAt_of_parseSection h haxis htable hhours]
    have hself : (if row.name = row.name then row.read[i]? else none).isSome := by
      rw [if_pos rfl, read_of_name hname, List.getElem?_eq_getElem hi]
      rfl
    have hfound : (table.rows.reverse.findSome? fun other =>
        if other.name = row.name then other.read[i]? else none).isSome :=
      List.findSome?_isSome_iff.mpr ⟨row, List.mem_reverse.mpr hrow, hself⟩
    obtain ⟨value, hvalue⟩ := Option.isSome_iff_exists.mp hfound
    obtain ⟨other, hother, hread⟩ := List.exists_of_findSome?_eq_some hvalue
    split_ifs at hread with heq
    rw [hunique other (List.mem_reverse.mp hother) heq, read_of_name hname,
      List.getElem?_eq_getElem hi] at hread
    rw [hvalue, hread]
  obtain ⟨forecast, hforecast, hvalue⟩ := mem_entries_iff_valueAt.mpr hat
  obtain ⟨-, other, hother, heq, hcell⟩ := hcolumns i forecast hforecast _ _ hvalue
  rwa [hunique other hother heq] at hcell

end

/-- **Columns.**  If the rows of a table are packed, every value is found under its hour; and if
no two rows name the same variable, only then. -/
theorem values_in_columns_iff (text : Str) (mosSection : MosSection) (axis : HourAxis)
    (table : Table)
    (h : parseSection text = some (some mosSection))
    (haxis : findAxis (Str.lines text) = some axis) (htable : table.Prints axis) :
    ((∀ row ∈ table.named, Packed row.cells) → InColumns table.rows mosSection.forecasts) ∧
      ((table.named.map Row.name).Nodup → InColumns table.rows mosSection.forecasts →
        ∀ row ∈ table.named, Packed row.cells) :=
  ⟨inColumns_of_packed h haxis htable, packed_of_inColumns h haxis htable⟩

/-- A row of one variable under two hours. -/
theorem values_in_columns_full :
    InColumns [⟨"TMP".toList, [(3, "20".toList), (3, "21".toList)]⟩]
      [⟨"2026-03-10T00:00:00+00:00".toList, OrderedMap.empty.insert "TMP".toList "20".toList⟩,
        ⟨"2026-03-10T03:00:00+00:00".toList, OrderedMap.empty.insert "TMP".toList "21".toList⟩] :=
  (values_in_columns_iff
    ("KBCK NAM MET GUIDANCE 03/10/2026 0000 UTC\nHR  00 03\nTMP 20 21".toList)
    ⟨"KBCK".toList, "NAM".toList, "2026-03-10T00:00:00Z".toList,
      [⟨"2026-03-10T00:00:00+00:00".toList, OrderedMap.empty.insert "TMP".toList "20".toList⟩,
        ⟨"2026-03-10T03:00:00+00:00".toList, OrderedMap.empty.insert "TMP".toList "21".toList⟩]⟩
    ⟨"HR".toList, "HR  00 03".toList, ["TMP 20 21".toList]⟩
    ⟨"HR".toList, [("  ".toList, "00".toList), (" ".toList, "03".toList)],
      [⟨"TMP".toList, [(3, "20".toList), (3, "21".toList)]⟩]⟩
    rfl (by decide)
    ⟨rfl, by decide, by decide, .cons ⟨0, rfl⟩ .nil, by decide, by decide, by
      unfold Fits
      decide⟩).1 (by
    unfold Packed NoGap Apart
    decide)

/-- The value of a row that is blank under the first hour is read for the first hour. -/
theorem values_in_columns_gap :
    ¬ ∀ (text : Str) (mosSection : MosSection) (axis : HourAxis) (table : Table),
      parseSection text = some (some mosSection) → findAxis (Str.lines text) = some axis →
      table.Prints axis → InColumns table.rows mosSection.forecasts := by
  intro h
  have hcolumns := h "KBCK NAM MET GUIDANCE 03/10/2026 0000 UTC\nHR  00 03\nX/N    21".toList
    ⟨"KBCK".toList, "NAM".toList, "2026-03-10T00:00:00Z".toList,
      [⟨"2026-03-10T00:00:00+00:00".toList, OrderedMap.empty.insert "N_X".toList "21".toList⟩,
        ⟨"2026-03-10T03:00:00+00:00".toList, .empty⟩]⟩
    ⟨"HR".toList, "HR  00 03".toList, ["X/N    21".toList]⟩
    ⟨"HR".toList, [("  ".toList, "00".toList), (" ".toList, "03".toList)],
      [⟨"X/N".toList, [(3, []), (3, "21".toList)]⟩]⟩
    rfl (by decide)
    ⟨rfl, by decide, by decide, .cons ⟨0, rfl⟩ .nil, by decide, by decide, by
      unfold Fits
      decide⟩
  obtain ⟨-, row, hrow, -, hcell⟩ := hcolumns 0 _ rfl "N_X".toList "21".toList List.mem_cons_self
  obtain rfl := List.mem_singleton.mp hrow
  revert hcell
  decide

end Parser.Mos
