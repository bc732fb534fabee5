/-
# Texts that are laid out

White space around a text is seen neither behind `trim` nor among its words, and lines with line
feeds behind them are read back.
-/
import Emwin.Lib.Words

namespace Str

variable {v s w : Str}

/-! ## White space around a text -/

/-- White space in front is not seen behind `trim`. -/
theorem trim_spaces_append (hv : ∀ c ∈ v, isWhitespace c = true) (s : Str) :
    trim (v ++ s) = trim s := by
  rw [trim, trimStart, List.dropWhile_append_of_pos hv]
  rfl

theorem trimStart_spaces_append (hv : ∀ c ∈ v, isWhitespace c = true) (s : Str) :
    trimStart (v ++ s) = trimStart s :=
  List.dropWhile_append_of_pos hv

theorem trimStart_eq_self (hs : ∀ c ∈ s.head?, isWhitespace c = false) : trimStart s = s := by
  cases s with
  | nil => rfl
  | cons c s =>
      rw [trimStart, List.dropWhile_cons_of_neg]
      rw [hs c rfl]
      exact Bool.false_ne_true

/-- A trimmed text does not begin with white space. -/
theorem isWhitespace_head_trim (s : Str) : ∀ c ∈ (trim s).head?, isWhitespace c = false := by
  intro c hc
  obtain ⟨w, hw⟩ : trim s <+: trimStart s := List.rdropWhile_prefix _ _
  have hhead := List.head?_dropWhile_not isWhitespace s
  rw [show s.dropWhile isWhitespace = trimStart s from rfl, ← hw,
    List.head?_append_of_ne_nil _ (List.ne_nil_of_mem (List.mem_of_mem_head? hc)), hc] at hhead
  exact hhead

/-- White space at the end is not seen behind `trim`. -/
theorem trim_append_spaces (s : Str) (hw : ∀ c ∈ w, isWhitespace c = true) :
    trim (s ++ w) = trim s := by
  induction w using List.reverseRecOn with
  | nil => rw [List.append_nil]
  | append_singleton w c ih =>
      rw [← List.append_assoc, trim_append_whitespace _ (hw c (by simp))]
      exact ih fun d hd => hw d (List.mem_append_left _ hd)

/-- White space in front makes no word. -/
theorem splitWhitespace_spaces_append (hv : ∀ c ∈ v, isWhitespace c = true) (s : Str) :
    splitWhitespace (v ++ s) = splitWhitespace s := by
  rw [← splitWhitespace_trim, trim_spaces_append hv, splitWhitespace_trim]

/-- White space at the end makes no word. -/
theorem splitWhitespace_append_spaces (s : Str) (hw : ∀ c ∈ w, isWhitespace c = true) :
    splitWhitespace (s ++ w) = splitWhitespace s := by
  rw [← splitWhitespace_trim, trim_append_spaces s hw, splitWhitespace_trim]

/-- What is removed at the end is what is of the set. -/
theorem trimEndMatches_append {cs : List Char} (hw : ∀ c ∈ w, c ∈ cs)
    (hs : ∀ c ∈ s.getLast?, c ∉ cs) : trimEndMatches cs (s ++ w) = s := by
  induction w using List.reverseRecOn with
  | nil =>
      rw [List.append_nil, trimEndMatches, List.rdropWhile_eq_self_iff]
      intro hne
      simpa using hs _ (List.getLast?_eq_getLast_of_ne_nil hne)
  | append_singleton w c ih =>
      rw [← List.append_assoc, trimEndMatches,
        List.rdropWhile_concat_pos _ _ _ (by simpa using hw c (by simp))]
      exact ih fun d hd => hw d (List.mem_append_left _ hd)

/-! ## Lines -/

/-- A line with a line feed behind it is read back. -/
theorem lines_cons (hfeed : '\n' ∉ s) (hreturn : '\r' ∉ s) (t : Str) :
    lines (s ++ '\n' :: t) = s :: lines t := by
  rw [lines_append, lines, linesFrom_terminated hfeed, List.nil_append, stripReturn_eq_self hreturn]
  rfl

/-- Only an empty text has no lines. -/
theorem eq_nil_of_lines (h : lines s = []) : s = [] := by
  by_contra hne
  by_cases hfeed : '\n' ∈ s
  · obtain ⟨a, t, rfl, ha⟩ := List.eq_append_cons_of_mem hfeed
    rw [lines_append, lines, linesFrom_terminated ha] at h
    cases h
  · rw [lines, linesFrom_line hfeed (show [] ++ s ≠ [] from hne)] at h
    cases h

/-- The carriage return at the end of a line is trimmed. -/
theorem trim_stripReturn (line : Str) : trim (stripReturn line) = trim line := by
  unfold stripReturn stripSuffix
  split
  · next hsuffix =>
      obtain ⟨front, rfl⟩ := hsuffix
      rw [trim_append_whitespace _ (by decide)]
      simp
  · rfl

/-- The first line stands in front of the others, with white space around it. -/
theorem exists_of_lines_eq_cons {l : Str} {ls : List Str} (h : lines s = l :: ls) :
    ∃ front blank t, s = front ++ (trim l ++ (blank ++ t)) ∧ lines t = ls ∧
      (∀ c ∈ front, isWhitespace c = true) ∧ (∀ c ∈ blank, isWhitespace c = true) ∧
      (blank = [] → t = []) := by
  by_cases hfeed : '\n' ∈ s
  · obtain ⟨a, t, rfl, ha⟩ := List.eq_append_cons_of_mem hfeed
    obtain ⟨front, blank, hline, hfront, hblank⟩ := exists_append_trim a
    rw [lines_append, lines, linesFrom_terminated ha, List.nil_append, List.singleton_append] at h
    obtain ⟨rfl, hrest⟩ := List.cons.inj h
    refine ⟨front, blank ++ ['\n'], t, ?_, hrest, hfront, ?_, by simp⟩
    · rw [trim_stripReturn]
      conv_lhs => rw [hline]
      simp
    · exact List.forall_mem_append.mpr ⟨hblank, by decide⟩
  · have hne : s ≠ [] := by
      rintro rfl
      cases h
    obtain ⟨front, blank, hline, hfront, hblank⟩ := exists_append_trim s
    rw [lines, linesFrom_line hfeed (show [] ++ s ≠ [] from hne), List.nil_append] at h
    obtain ⟨rfl, rfl⟩ := List.cons.inj h
    exact ⟨front, blank, [], by rwa [List.append_nil], rfl, hfront, hblank, fun _ => rfl⟩

end Str
