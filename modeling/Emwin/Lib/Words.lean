/-
# Words

The words of a text stand between white space, so they do not depend on how much of it there
is, and are the same whether a text is read as a whole or line by line.
-/
import Emwin.Lib.Lines

namespace Str

variable {s : Str} {c : Char}

@[simp] theorem splitWhitespace_nil : splitWhitespace [] = [] := rfl

/-- White space ends a word. -/
theorem splitWhitespace_append_cons (hc : isWhitespace c = true) (s t : Str) :
    splitWhitespace (s ++ c :: t) = splitWhitespace s ++ splitWhitespace t := by
  rw [splitWhitespace, List.splitOnP_append_cons _ _ hc, List.filter_append]
  rfl

/-- White space in front is not seen. -/
theorem splitWhitespace_cons (hc : isWhitespace c = true) (s : Str) :
    splitWhitespace (c :: s) = splitWhitespace s :=
  splitWhitespace_append_cons hc [] s

/-- White space at the end is not seen. -/
theorem splitWhitespace_concat (hc : isWhitespace c = true) (s : Str) :
    splitWhitespace (s ++ [c]) = splitWhitespace s := by
  rw [splitWhitespace_append_cons hc, splitWhitespace_nil, List.append_nil]

theorem splitWhitespace_trimStart (s : Str) :
    splitWhitespace (trimStart s) = splitWhitespace s := by
  induction s with
  | nil => rfl
  | cons c s ih =>
      by_cases hc : isWhitespace c = true
      · rw [trimStart, List.dropWhile_cons, if_pos hc, ← trimStart, ih, splitWhitespace_cons hc]
      · rw [trimStart, List.dropWhile_cons, if_neg hc]

theorem splitWhitespace_trimEnd (s : Str) : splitWhitespace (trimEnd s) = splitWhitespace s := by
  induction s using List.reverseRecOn with
  | nil => rfl
  | append_singleton s c ih =>
      by_cases hc : isWhitespace c = true
      · rw [trimEnd, List.rdropWhile_concat_pos _ _ _ hc, ← trimEnd, ih, splitWhitespace_concat hc]
      · rw [trimEnd, List.rdropWhile_concat_neg _ _ _ hc]

/-- Trimming changes no word. -/
@[simp] theorem splitWhitespace_trim (s : Str) : splitWhitespace (trim s) = splitWhitespace s := by
  rw [trim, splitWhitespace_trimEnd, splitWhitespace_trimStart]

/-- The carriage return at the end of a line is white space. -/
theorem splitWhitespace_stripReturn (line : Str) :
    splitWhitespace (stripReturn line) = splitWhitespace line := by
  unfold stripReturn stripSuffix
  split
  · next hsuffix =>
      obtain ⟨front, rfl⟩ := hsuffix
      rw [splitWhitespace_concat (by decide)]
      simp
  · rfl

/-- The words of a text are those of its lines. -/
theorem flatMap_splitWhitespace_linesFrom (line s : Str) :
    (linesFrom line s).flatMap splitWhitespace = splitWhitespace (line ++ s) := by
  induction s generalizing line with
  | nil =>
      rw [List.append_nil, linesFrom]
      by_cases hline : line = []
      · rw [if_pos hline, hline]
        rfl
      · rw [if_neg hline, List.flatMap_singleton]
  | cons c s ih =>
      rw [linesFrom]
      by_cases hc : c = '\n'
      · rw [if_pos hc, List.flatMap_cons, ih, List.nil_append, splitWhitespace_stripReturn, hc,
          splitWhitespace_append_cons (by decide)]
      · rw [if_neg hc, ih, List.append_assoc, List.singleton_append]

theorem flatMap_splitWhitespace_lines (s : Str) :
    (lines s).flatMap splitWhitespace = splitWhitespace s :=
  flatMap_splitWhitespace_linesFrom [] s

/-- A text without white space is a word. -/
theorem splitWhitespace_eq_singleton (hne : s ≠ []) (h : ∀ c ∈ s, isWhitespace c = false) :
    splitWhitespace s = [s] := by
  rw [splitWhitespace, List.splitOnP_eq_singleton h, List.filter_cons_of_pos (by simpa using hne),
    List.filter_nil]

/-- The pieces between separators joined are the text without the separators. -/
theorem flatten_splitOnP (p : Char → Bool) (s : Str) :
    (s.splitOnP p).flatten = s.filter fun c => !p c := by
  induction s with
  | nil => rfl
  | cons c s ih =>
      rw [List.splitOnP_cons_eq_if_modifyHead]
      by_cases hc : p c = true
      · rw [if_pos hc, List.filter_cons_of_neg (by simp [hc]), List.flatten_cons, ih,
          List.nil_append]
      · obtain ⟨first, rest, hsplit⟩ := List.exists_cons_of_ne_nil (List.splitOnP_ne_nil p s)
        rw [if_neg hc, List.filter_cons_of_pos (by simpa using hc), ← ih, hsplit]
        rfl

/-- A piece between separators has none, and is part of the text. -/
theorem mem_of_mem_splitOnP {p : Char → Bool} {piece : Str} (h : piece ∈ s.splitOnP p)
    (hc : c ∈ piece) : c ∈ s ∧ p c = false := by
  have hmem : c ∈ (s.splitOnP p).flatten := List.mem_flatten.mpr ⟨piece, h, hc⟩
  rw [flatten_splitOnP] at hmem
  obtain ⟨hs, hp⟩ := List.mem_filter.mp hmem
  exact ⟨hs, by simpa using hp⟩

/-- The words joined are the text without its white space. -/
theorem flatten_splitWhitespace (s : Str) :
    (splitWhitespace s).flatten = s.filter fun c => !isWhitespace c := by
  rw [splitWhitespace, List.flatten_filter_ne_nil, flatten_splitOnP]

/-- What stands in a text is white space or in a word. -/
theorem exists_word_of_mem (h : c ∈ s) (hc : isWhitespace c = false) :
    ∃ word ∈ splitWhitespace s, c ∈ word := by
  have hmem : c ∈ (splitWhitespace s).flatten := by
    rw [flatten_splitWhitespace]
    exact List.mem_filter.mpr ⟨h, by rw [hc]; rfl⟩
  exact List.mem_flatten.mp hmem

/-- What stands in joined lists. -/
theorem mem_intercalate {α : Type*} {sep c : α} {ts : List (List α)}
    (h : c ∈ List.intercalate [sep] ts) : c = sep ∨ ∃ t ∈ ts, c ∈ t := by
  induction ts with
  | nil => simp at h
  | cons t ts ih =>
      cases ts with
      | nil => exact .inr ⟨t, by simp, by simpa using h⟩
      | cons t' ts =>
          rw [List.intercalate_cons_cons] at h
          simp only [List.mem_append, List.mem_singleton] at h
          rcases h with (h | h) | h
          · exact .inr ⟨t, by simp, h⟩
          · exact .inl h
          · obtain rfl | ⟨u, hu, hc⟩ := ih h
            · exact .inl rfl
            · exact .inr ⟨u, List.mem_cons_of_mem _ hu, hc⟩

end Str
