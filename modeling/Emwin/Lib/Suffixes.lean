/-
# What a text ends with

Trimming a text, cutting it at separators and taking what stands behind the last of them keep its
ending, as long as the ending has no white space at its ends and no separator.
-/
import Emwin.Lib.Lines

namespace Str

variable {s e : Str}

/-- An ending that has no white space at its ends is not trimmed. -/
theorem suffix_trim (h : e <:+ s) (hhead : ∀ c ∈ e.head?, isWhitespace c = false)
    (hlast : ∀ c ∈ e.getLast?, isWhitespace c = false) : e <:+ trim s := by
  obtain rfl | hne := eq_or_ne e []
  · exact List.nil_suffix
  obtain ⟨v, w, hs, hv, hw⟩ := exists_append_trim s
  obtain ⟨front, rfl⟩ := h
  -- nothing is trimmed behind the ending
  have hend : w = [] := by
    by_contra hw'
    have hlast' := congrArg List.getLast? hs
    rw [List.getLast?_append_of_ne_nil _ hne, ← List.append_assoc,
      List.getLast?_append_of_ne_nil _ hw', List.getLast?_eq_some_getLast hw'] at hlast'
    have hspace := hw _ (List.getLast_mem hw')
    rw [hlast _ hlast'] at hspace
    cases hspace
  rw [hend, List.append_nil] at hs
  have htrim : trim (front ++ e) <:+ front ++ e := ⟨v, hs.symm⟩
  rcases List.suffix_or_suffix_of_suffix (List.suffix_append front e) htrim with h | ⟨u, hu⟩
  · exact h
  · -- what is trimmed in front of the ending would begin inside it
    cases u with
    | nil => exact ⟨[], hu.symm⟩
    | cons c u =>
        have hc : isWhitespace c = false := hhead c (by rw [← hu]; rfl)
        have hmem : c ∈ v := by
          have hfront : front ++ c :: u = v := by
            have hwhole : front ++ c :: u ++ trim (front ++ e) = v ++ trim (front ++ e) := by
              rw [← hs, List.append_assoc, hu]
            exact List.append_cancel_right hwhole
          rw [← hfront]
          simp
        rw [hv c hmem] at hc
        cases hc

/-- The last piece between separators keeps the ending. -/
theorem exists_getLast_splitOnP {p : Char → Bool} (he : ∀ c ∈ e, p c = false) (front : Str) :
    ∃ piece, ((front ++ e).splitOnP p).getLast? = some piece ∧ e <:+ piece := by
  induction front with
  | nil =>
      refine ⟨e, ?_, List.suffix_refl e⟩
      rw [List.nil_append, List.splitOnP_eq_singleton he]
      rfl
  | cons c front ih =>
      obtain ⟨piece, hpiece, hsuffix⟩ := ih
      obtain ⟨first, rest, hsplit⟩ :=
        List.exists_cons_of_ne_nil (List.splitOnP_ne_nil p (front ++ e))
      rw [List.cons_append, List.splitOnP_cons_eq_if_modifyHead]
      by_cases hc : p c = true
      · refine ⟨piece, ?_, hsuffix⟩
        rw [if_pos hc, hsplit, List.getLast?_cons_cons, ← hsplit, hpiece]
      · rw [if_neg hc, hsplit]
        rw [hsplit] at hpiece
        cases rest with
        | nil =>
            obtain rfl : first = piece := Option.some.inj hpiece
            exact ⟨c :: first, rfl, hsuffix.trans (List.suffix_cons c first)⟩
        | cons second rest => exact ⟨piece, hpiece, hsuffix⟩

/-- A text is what stands in front of its last separator and behind it. -/
theorem append_of_rsplitOnce {c : Char} {t u : Str} (h : rsplitOnce c s = some (t, u)) :
    s = t ++ c :: u := by
  unfold rsplitOnce at h
  split_ifs at h with hmem
  obtain ⟨rfl, rfl⟩ := Prod.mk.inj (Option.some.inj h)
  have hne : s.rdropWhile (· ≠ c) ≠ [] := by
    intro hnil
    have hall := List.rdropWhile_eq_nil_iff.mp hnil c hmem
    simp at hall
  have hlast : (s.rdropWhile (· ≠ c)).getLast hne = c := by
    have hstop := List.rdropWhile_last_not (· ≠ c) s hne
    simpa using hstop
  have hcut : (s.rdropWhile (· ≠ c)).dropLast ++ [c] = s.rdropWhile (· ≠ c) := by
    conv_rhs => rw [← List.dropLast_append_getLast hne, hlast]
  rw [← List.singleton_append, ← List.append_assoc, hcut]
  exact List.rdropWhile_append_rtakeWhile.symm

/-- What stands behind the last separator keeps the ending. -/
theorem suffix_of_rsplitOnce {c : Char} {t u : Str} (h : rsplitOnce c s = some (t, u))
    (he : e <:+ s) (hc : c ∉ e) : e <:+ u := by
  have hs := append_of_rsplitOnce h
  rcases List.suffix_or_suffix_of_suffix he ⟨t, hs.symm⟩ with hsuffix | hsuffix
  · rcases List.suffix_cons_iff.mp hsuffix with rfl | hsuffix
    · exact absurd List.mem_cons_self hc
    · exact hsuffix
  · exact absurd (hsuffix.subset List.mem_cons_self) hc

end Str
