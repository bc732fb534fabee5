/-
# Rows of a table in text

A row has a cell under every column, and the value of a cell stands at its right end behind
blanks; a cell may also be left blank.  Reading a row word by word forgets which cells are
blank, and joins values that touch: the words stand in the places of their cells exactly if the
row is packed to the left and its values are apart (`words_in_place_iff`).
-/
import Emwin.Lib.Words

namespace Columns

variable {p : Char → Bool}

/-- The words between the characters of some kind. -/
def words (p : Char → Bool) (s : Str) : List Str := (s.splitOnP p).filter (· ≠ [])

/-- The text of a row: the widths of its cells, and their values. -/
def rowText (cells : List (ℕ × Str)) : Str :=
  cells.flatMap fun (width, value) => List.replicate (width - value.length) ' ' ++ value

/-- The values of a row fit into its cells, and have no separators. -/
def Fits (p : Char → Bool) (cells : List (ℕ × Str)) : Prop :=
  ∀ cell ∈ cells, cell.2.length ≤ cell.1 ∧ ∀ c ∈ cell.2, p c = false

/-- No cell in front of a value is blank. -/
def NoGap (cells : List (ℕ × Str)) : Prop :=
  cells.Pairwise fun first second => second.2 ≠ [] → first.2 ≠ []

/-- No value fills its cell. -/
def Apart (cells : List (ℕ × Str)) : Prop := ∀ cell ∈ cells, cell.2 ≠ [] → cell.2.length < cell.1

/-- The values of a row begin with the first cell, and none but the first fills its cell. -/
def Packed (cells : List (ℕ × Str)) : Prop := NoGap cells ∧ Apart cells.tail

/-! ## Words -/

/-- A separator ends a word. -/
theorem words_append_cons {c : Char} (hc : p c = true) (s t : Str) :
    words p (s ++ c :: t) = words p s ++ words p t := by
  rw [words, List.splitOnP_append_cons _ _ hc, List.filter_append]
  rfl

/-- Separators in front are not seen. -/
theorem words_append_separators {separators : Str} (h : ∀ c ∈ separators, p c = true) (s : Str) :
    words p (separators ++ s) = words p s := by
  induction separators with
  | nil => rfl
  | cons c separators ih =>
      obtain ⟨hc, hrest⟩ := List.forall_mem_cons.mp h
      exact (words_append_cons hc [] _).trans (ih hrest)

theorem words_replicate (hp : p ' ' = true) (n : ℕ) (s : Str) :
    words p (List.replicate n ' ' ++ s) = words p s := by
  refine words_append_separators (fun c hc => ?_) s
  rw [List.eq_of_mem_replicate hc, hp]

/-- Blanks at the end are not seen. -/
theorem words_append_replicate (hp : p ' ' = true) (n : ℕ) (s : Str) :
    words p (s ++ List.replicate n ' ') = words p s := by
  cases n with
  | zero => rw [List.replicate_zero, List.append_nil]
  | succ n =>
      have hblanks : words p (List.replicate n ' ' ++ []) = [] := words_replicate hp n []
      rw [List.append_nil] at hblanks
      rw [List.replicate_succ, words_append_cons hp, hblanks, List.append_nil]

/-- A text without separators is one word. -/
theorem words_of_visible {s : Str} (h : ∀ c ∈ s, p c = false) :
    words p s = if s = [] then [] else [s] := by
  rw [words, List.splitOnP_eq_singleton h]
  by_cases hs : s = []
  · simp [hs]
  · simp [hs]

/-- The words of a row, of which the first has begun. -/
def merge (opened : Str) : List (ℕ × Str) → List Str
  | [] => if opened = [] then [] else [opened]
  | (width, value) :: cells =>
      if value.length < width then (if opened = [] then [] else [opened]) ++ merge value cells
      else merge (opened ++ value) cells

/-- A value goes on with the word in front of it exactly if there is no blank between. -/
theorem words_append_rowText (hp : p ' ' = true) {opened : Str}
    (hopened : ∀ c ∈ opened, p c = false)
    {cells : List (ℕ × Str)} (hfits : Fits p cells) :
    words p (opened ++ rowText cells) = merge opened cells := by
  induction cells generalizing opened with
  | nil =>
      rw [rowText, List.flatMap_nil, List.append_nil]
      exact words_of_visible hopened
  | cons cell cells ih =>
      obtain ⟨width, value⟩ := cell
      obtain ⟨⟨-, hvalue⟩, hrest⟩ := List.forall_mem_cons.mp hfits
      rw [merge, rowText, List.flatMap_cons]
      dsimp only
      by_cases hblank : value.length < width
      · obtain ⟨blanks, hwidth⟩ : ∃ blanks, width - value.length = blanks + 1 :=
          ⟨width - value.length - 1, by omega⟩
        rw [if_pos hblank, hwidth, List.replicate_succ, List.cons_append, List.cons_append,
          words_append_cons hp, words_of_visible hopened, List.append_assoc, words_replicate hp,
          ← ih hvalue hrest]
        rfl
      · rw [if_neg hblank, show width - value.length = 0 by omega, List.replicate_zero,
          List.nil_append, ← List.append_assoc]
        exact ih (List.forall_mem_append.mpr ⟨hopened, hvalue⟩) hrest

theorem words_rowText (hp : p ' ' = true) {cells : List (ℕ × Str)} (hfits : Fits p cells) :
    words p (rowText cells) = merge [] cells := by
  have h : words p ([] ++ rowText cells) = _ :=
    words_append_rowText hp (fun _ h => absurd h List.not_mem_nil) hfits
  exact h

/-- There are no more words than cells. -/
theorem length_words_rowText_le (hp : p ' ' = true) {cells : List (ℕ × Str)}
    (hfits : Fits p cells) :
    (words p (rowText cells)).length ≤ cells.length := by
  have hmerge : ∀ (opened : Str) (cells : List (ℕ × Str)),
      (merge opened cells).length ≤ cells.length + if opened = [] then 0 else 1 := by
    intro opened cells
    induction cells generalizing opened with
    | nil =>
        rw [merge]
        split_ifs <;> simp
    | cons cell cells ih =>
        obtain ⟨width, value⟩ := cell
        have hvalue := ih value
        have hjoined := ih (opened ++ value)
        rw [merge, List.length_cons]
        split_ifs with hblank hopened
        · rw [List.nil_append]
          split_ifs at hvalue <;> omega
        · rw [List.length_append, List.length_singleton]
          split_ifs at hvalue <;> omega
        · split_ifs at hjoined <;> omega
        · rw [if_neg (by simp [*])] at hjoined
          omega
  rw [words_rowText hp hfits]
  simpa using hmerge [] cells

/-! ## Words and values -/

/-- The values of a row. -/
def values (cells : List (ℕ × Str)) : List Str := (cells.map Prod.snd).filter (· ≠ [])

theorem values_cons_blank (width : ℕ) (cells : List (ℕ × Str)) :
    values ((width, []) :: cells) = values cells := rfl

theorem values_cons (width : ℕ) {value : Str} (h : value ≠ []) (cells : List (ℕ × Str)) :
    values ((width, value) :: cells) = value :: values cells := by
  rw [values, List.map_cons, List.filter_cons_of_pos (by simpa using h)]
  rfl

/-- Whether the first value fills its cell makes no difference. -/
theorem merge_nil_cons (width : ℕ) (value : Str) (cells : List (ℕ × Str)) :
    merge [] ((width, value) :: cells) = merge value cells := by
  rw [merge, if_pos rfl, List.nil_append, List.nil_append]
  exact ite_self _

/-- Behind a gap there are no values. -/
theorem NoGap.values_eq_nil {width : ℕ} {cells : List (ℕ × Str)}
    (h : NoGap ((width, []) :: cells)) : values cells = [] := by
  refine List.filter_eq_nil_iff.mpr fun value hvalue => ?_
  obtain ⟨cell, hcell, rfl⟩ := List.mem_map.mp hvalue
  simpa using mt ((List.pairwise_cons.mp h).1 cell hcell)

/-- Behind a gap nothing touches. -/
theorem NoGap.apart {width : ℕ} {cells : List (ℕ × Str)} (h : NoGap ((width, []) :: cells)) :
    Apart cells :=
  fun cell hcell hne => absurd rfl ((List.pairwise_cons.mp h).1 cell hcell hne)

theorem NoGap.tail {cell : ℕ × Str} {cells : List (ℕ × Str)} (h : NoGap (cell :: cells)) :
    NoGap cells :=
  (List.pairwise_cons.mp h).2

/-- Blank cells have no words. -/
theorem merge_of_values_eq_nil (opened : Str) {cells : List (ℕ × Str)} (h : values cells = []) :
    merge opened cells = if opened = [] then [] else [opened] := by
  induction cells generalizing opened with
  | nil => rfl
  | cons cell cells ih =>
      obtain ⟨width, value⟩ := cell
      obtain rfl : value = [] := by
        by_contra hne
        rw [values_cons width hne] at h
        cases h
      rw [merge, List.append_nil, ih _ h, ih _ h, if_pos rfl, List.append_nil]
      exact ite_self _

/-- The words of values that are apart are these values. -/
theorem merge_of_apart {opened : Str} (hopened : opened ≠ []) {cells : List (ℕ × Str)}
    (hgap : NoGap cells) (h : Apart cells) : merge opened cells = opened :: values cells := by
  induction cells generalizing opened with
  | nil => exact if_neg hopened
  | cons cell cells ih =>
      obtain ⟨width, value⟩ := cell
      by_cases hvalue : value = []
      · subst hvalue
        have hnil := hgap.values_eq_nil
        rw [values_cons_blank, hnil, merge_of_values_eq_nil _ (by exact hnil), if_neg hopened]
      · obtain ⟨hcell, hrest⟩ := List.forall_mem_cons.mp h
        rw [merge, if_pos (hcell hvalue), if_neg hopened, values_cons width hvalue,
          ih hvalue hgap.tail hrest]
        rfl

/-- There are no more words than values, and one that has begun. -/
theorem length_merge_le (opened : Str) (hopened : opened ≠ []) {cells : List (ℕ × Str)}
    (hgap : NoGap cells) : (merge opened cells).length ≤ (values cells).length + 1 := by
  induction cells generalizing opened with
  | nil => rw [merge, if_neg hopened]; rfl
  | cons cell cells ih =>
      obtain ⟨width, value⟩ := cell
      by_cases hvalue : value = []
      · subst hvalue
        rw [merge_of_values_eq_nil _ (by exact hgap.values_eq_nil), if_neg hopened]
        exact Nat.le_add_left _ _
      · rw [merge, values_cons width hvalue, List.length_cons]
        by_cases hblank : value.length < width
        · rw [if_pos hblank, if_neg hopened]
          simpa using ih value hvalue hgap.tail
        · rw [if_neg hblank]
          have := ih (opened ++ value) (by simp [hopened]) hgap.tail
          omega

/-- Values that are as many words are apart. -/
theorem apart_of_length_merge {opened : Str} (hopened : opened ≠ []) {cells : List (ℕ × Str)}
    (hgap : NoGap cells) (h : (merge opened cells).length = (values cells).length + 1) :
    Apart cells := by
  induction cells generalizing opened with
  | nil => exact fun _ h => absurd h List.not_mem_nil
  | cons cell cells ih =>
      obtain ⟨width, value⟩ := cell
      by_cases hvalue : value = []
      · subst hvalue
        exact List.forall_mem_cons.mpr ⟨absurd rfl, hgap.apart⟩
      · rw [merge, values_cons width hvalue, List.length_cons] at h
        by_cases hblank : value.length < width
        · rw [if_pos hblank, if_neg hopened] at h
          exact List.forall_mem_cons.mpr
            ⟨fun _ => hblank, ih hvalue hgap.tail (by simpa using h)⟩
        · rw [if_neg hblank] at h
          have := length_merge_le (opened ++ value) (by simp [hopened]) hgap.tail
          omega

/-! ## Words in the places of their cells -/

/-- Without a gap, the values are those of the first cells. -/
theorem NoGap.values_isPrefix {cells : List (ℕ × Str)} (h : NoGap cells) :
    values cells <+: cells.map Prod.snd := by
  induction cells with
  | nil => exact List.prefix_refl _
  | cons cell cells ih =>
      obtain ⟨width, value⟩ := cell
      by_cases hvalue : value = []
      · subst hvalue
        rw [values_cons_blank, h.values_eq_nil]
        exact List.nil_prefix
      · rw [values_cons width hvalue, List.map_cons]
        exact (List.prefix_cons_inj value).mpr (ih h.tail)

/-- The words of a packed row are its values. -/
theorem Packed.merge_eq {cells : List (ℕ × Str)} (h : Packed cells) :
    merge [] cells = values cells := by
  obtain ⟨hgap, hapart⟩ := h
  cases cells with
  | nil => rfl
  | cons cell cells =>
      obtain ⟨width, value⟩ := cell
      rw [merge_nil_cons]
      by_cases hvalue : value = []
      · subst hvalue
        rw [values_cons_blank, hgap.values_eq_nil, merge_of_values_eq_nil _ hgap.values_eq_nil,
          if_pos rfl]
      · rw [values_cons width hvalue]
        exact merge_of_apart hvalue hgap.tail hapart

/-- The words of a row are its values, joined where they touch. -/
theorem flatten_merge (opened : Str) (cells : List (ℕ × Str)) :
    (merge opened cells).flatten = opened ++ (cells.map Prod.snd).flatten := by
  have hopened : ∀ opened : Str, (if opened = [] then [] else [opened]).flatten = opened := by
    intro opened
    split_ifs with h
    · exact h.symm
    · exact List.flatten_singleton
  induction cells generalizing opened with
  | nil => rw [merge, hopened, List.map_nil, List.flatten_nil, List.append_nil]
  | cons cell cells ih =>
      obtain ⟨width, value⟩ := cell
      rw [merge, List.map_cons, List.flatten_cons]
      by_cases hblank : value.length < width
      · rw [if_pos hblank, List.flatten_append, hopened, ih]
      · rw [if_neg hblank, ih, List.append_assoc]

/-- No word is empty. -/
theorem ne_nil_of_mem_words {s word : Str} (h : word ∈ words p s) : word ≠ [] := by
  simpa using (List.mem_filter.mp h).2

/-- **Columns.**  The words of a row stand in the places of their cells exactly if the row is
packed. -/
theorem words_in_place_iff (hp : p ' ' = true) {cells : List (ℕ × Str)} (hfits : Fits p cells) :
    words p (rowText cells) <+: cells.map Prod.snd ↔ Packed cells := by
  constructor
  · rintro ⟨blanks, hmap⟩
    have hmerge := words_rowText hp hfits
    -- the words have all the text, so nothing is left for the cells behind them
    have hblanks : ∀ blank ∈ blanks, blank = [] := by
      have hflat := congrArg List.flatten hmap
      rw [List.flatten_append, hmerge, flatten_merge, List.nil_append] at hflat
      exact List.flatten_eq_nil_iff.mp (List.append_right_eq_self.mp hflat)
    have hne : ∀ word ∈ words p (rowText cells), word ≠ [] := fun _ h => ne_nil_of_mem_words h
    have hgap : NoGap cells := by
      have hpairs : (cells.map Prod.snd).Pairwise fun first second => second ≠ [] → first ≠ [] := by
        rw [← hmap]
        refine List.pairwise_append.mpr ⟨?_, ?_, fun word hword _ _ _ => hne word hword⟩
        · exact List.pairwise_of_forall_mem_list fun word hword _ _ _ => hne word hword
        · exact List.pairwise_of_forall_mem_list fun _ _ blank hblank h =>
            absurd (hblanks _ hblank) h
      exact List.pairwise_map.mp hpairs
    have hvalues : values cells = words p (rowText cells) := by
      rw [values, ← hmap, List.filter_append, List.filter_eq_self.mpr (by simpa using hne),
        List.filter_eq_nil_iff.mpr (by simpa using hblanks), List.append_nil]
    refine ⟨hgap, ?_⟩
    cases cells with
    | nil => exact fun _ h => absurd h List.not_mem_nil
    | cons cell cells =>
        obtain ⟨width, value⟩ := cell
        by_cases hvalue : value = []
        · subst hvalue
          exact hgap.apart
        · rw [hmerge, merge_nil_cons, values_cons width hvalue] at hvalues
          have hlength := congrArg List.length hvalues
          exact apart_of_length_merge hvalue hgap.tail (by simpa using hlength.symm)
  · intro h
    rw [words_rowText hp hfits, h.merge_eq]
    exact h.1.values_isPrefix

end Columns
