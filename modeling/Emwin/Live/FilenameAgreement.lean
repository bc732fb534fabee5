/-
# Filenames in the live filter and in the archive

The live filter takes the pattern of a request for a filename as it is, and a star in it for any
text.  The archive removes white space around the pattern, writes `%` for every star and leaves
the rest to `ILIKE`, where `%`, `_` and the backslash have a meaning of their own.

So on names without stars the two agree for the patterns that have none of these three and no
white space around them, and for those that neither of them lets any name through; on all names
they agree if such a pattern has no star (`filename_filters_agree_iff`).
-/
import Emwin.FileEvents.Wildcards
import Emwin.Lib.SqlLike
import Emwin.Query.Filters

open FileEvents Query Sql

namespace Live

/-- The texts that a piece of a query binds. -/
def boundTexts (text : Text SqlValue) : List Str :=
  text.filterMap fun
    | .bind (.text value) => some value
    | _ => none

/-- The live filter of a pattern accepts a filename just if it is `ILIKE` the text that the
archive binds for the pattern. -/
def FilenameFiltersAgree (pattern filename : Str) : Prop :=
  ∀ p ∈ boundTexts (appendLikeFilter "products.filename" (some pattern)),
    (wildcardMatch pattern filename = true ↔ ILike p filename)

/-! ## The pattern of the archive -/

/-- A star becomes a percent sign. -/
def starToPercent (c : Char) : Char := if c = '*' then '%' else c

/-- The pattern of the archive. -/
def likePattern (pattern : Str) : Str := (Str.trim pattern).map starToPercent

theorem boundTexts_appendLikeFilter {pattern : Str} (h : Str.trim pattern ≠ []) :
    boundTexts (appendLikeFilter "products.filename" (some pattern)) = [likePattern pattern] := by
  have hsome : ((some pattern).map Str.trim).filter (fun value => value ≠ []) =
      some (Str.trim pattern) := by
    simp [h]
  rw [appendLikeFilter, hsome]
  simp [boundTexts, push, pushBind, likePattern, starToPercent]

theorem starToPercent_eq_backslash (c : Char) : starToPercent c = '\\' ↔ c = '\\' := by
  unfold starToPercent
  split_ifs with hc
  · subst hc
    decide
  · rfl

theorem starToPercent_of_ne {c : Char} (h : c ≠ '*') : starToPercent c = c := if_neg h

theorem starToPercent_toLower (c : Char) :
    (starToPercent c).toLower = starToPercent c.toLower := by
  unfold starToPercent
  simp only [Str.toLower_eq_iff (show '*'.isAlpha = false by decide)]
  split_ifs
  · rfl
  · rfl

/-- The pattern of the archive in lower case. -/
theorem toAsciiLowercase_map_starToPercent (p : Str) :
    Str.toAsciiLowercase (p.map starToPercent) = (Str.toAsciiLowercase p).map starToPercent := by
  simp only [Str.toAsciiLowercase, List.map_map]
  exact List.map_congr_left fun c _ => starToPercent_toLower c

/-- Without the characters of `ILIKE`, the pattern of the archive fits what the pattern fits. -/
theorem like_map_starToPercent {p t : Str} (hp : ∀ c ∈ p, isMeta c = false) :
    Like (p.map starToPercent) t ↔ Glob.Matches '*' p t := by
  constructor
  · intro h
    generalize hpattern : p.map starToPercent = pattern at h
    have hstar : ∀ c ∈ p, isMeta (starToPercent c) = true → c = '*' := by
      intro c hc hmeta
      by_contra hne
      rw [starToPercent_of_ne hne, hp c hc] at hmeta
      cases hmeta
    induction h generalizing p with
    | nil =>
        rw [List.map_eq_nil_iff.mp hpattern]
        exact Glob.Matches.nil
    | any taken _ ih =>
        obtain ⟨c, p, rfl, hc, rfl⟩ := List.map_eq_cons_iff.mp hpattern
        obtain rfl := hstar c List.mem_cons_self (by rw [hc]; rfl)
        exact (ih (List.forall_mem_cons.mp hp).2 rfl
          (List.forall_mem_cons.mp hstar).2).star taken
    | one d _ _ =>
        obtain ⟨c, p, rfl, hc, rfl⟩ := List.map_eq_cons_iff.mp hpattern
        obtain rfl := hstar c List.mem_cons_self (by rw [hc]; rfl)
        exact absurd hc (by decide)
    | escaped d _ _ =>
        obtain ⟨c, p, rfl, hc, -⟩ := List.map_eq_cons_iff.mp hpattern
        obtain rfl := hstar c List.mem_cons_self (by rw [hc]; rfl)
        exact absurd hc (by decide)
    | char hd _ ih =>
        obtain ⟨c, p, rfl, rfl, rfl⟩ := List.map_eq_cons_iff.mp hpattern
        have hc : c ≠ '*' := by
          rintro rfl
          exact absurd hd (by decide)
        rw [starToPercent_of_ne hc]
        exact (ih (List.forall_mem_cons.mp hp).2 rfl (List.forall_mem_cons.mp hstar).2).symbol c
  · intro h
    induction h with
    | nil => exact Like.nil
    | symbol c _ ih =>
        have hlike := ih (List.forall_mem_cons.mp hp).2
        by_cases hc : c = '*'
        · subst hc
          exact hlike.any ['*']
        · rw [List.map_cons, starToPercent_of_ne hc]
          exact hlike.char (hp c List.mem_cons_self)
    | star taken _ ih => exact (ih (List.forall_mem_cons.mp hp).2).any taken

/-- The shortest text for such a pattern is what it is without its stars. -/
theorem shortest_map_starToPercent {p : Str} (hp : ∀ c ∈ p, isMeta c = false) :
    shortest (p.map starToPercent) = p.filter (· ≠ '*') := by
  induction p with
  | nil => rfl
  | cons c p ih =>
      obtain ⟨hc, hrest⟩ := List.forall_mem_cons.mp hp
      by_cases hstar : c = '*'
      · subst hstar
        exact ih hrest
      · rw [List.map_cons, starToPercent_of_ne hstar, shortest_cons hc, ih hrest,
          List.filter_cons_of_pos (by simpa using hstar)]

/-! ## Patterns with one meaning -/

/-- Both filters read the pattern alike. -/
structure Plain (pattern : Str) : Prop where
  trimmed : Str.trim pattern = pattern
  isMeta_eq_false : ∀ c ∈ pattern, isMeta c = false

/-- Neither filter accepts any ASCII name. -/
structure AcceptsNoAscii (pattern : Str) : Prop where
  live : ¬ Str.IsAscii pattern
  archive : ¬ Str.IsAscii (Str.trim pattern) ∨ openEscape (Str.trim pattern) = true

variable {pattern filename : Str}

theorem isAscii_trim (h : Str.IsAscii pattern) : Str.IsAscii (Str.trim pattern) := by
  obtain ⟨v, w, heq, -, -⟩ := Str.exists_append_trim pattern
  intro c hc
  refine h c ?_
  rw [heq]
  exact List.mem_append_right v (List.mem_append_left w hc)

theorem openEscape_likePattern : openEscape (likePattern pattern) = openEscape (Str.trim pattern) :=
  openEscape_map starToPercent_eq_backslash _

theorem star_notMem_likePattern : '*' ∉ likePattern pattern := by
  intro h
  obtain ⟨c, -, hc⟩ := List.mem_map.mp h
  unfold starToPercent at hc
  split_ifs at hc with hstar
  · exact absurd hc (by decide)
  · exact hstar hc

theorem isAscii_likePattern (h : Str.IsAscii (Str.trim pattern)) :
    Str.IsAscii (likePattern pattern) := by
  intro c hc
  obtain ⟨d, hd, rfl⟩ := List.mem_map.mp hc
  unfold starToPercent
  split_ifs
  · decide
  · exact h d hd

/-- A shortest name for the archive is ASCII if the pattern is. -/
theorem isAscii_shortest (h : Str.IsAscii (Str.trim pattern)) :
    Str.IsAscii (shortest (likePattern pattern)) := by
  intro c hc
  rcases mem_shortest hc with hc | rfl
  · exact isAscii_likePattern h c hc
  · decide

/-- It has no star. -/
theorem star_notMem_shortest : '*' ∉ shortest (likePattern pattern) := by
  intro h
  rcases mem_shortest h with h | h
  · exact star_notMem_likePattern h
  · exact absurd h (by decide)

theorem star_mem_toAsciiLowercase {s : Str} : '*' ∈ Str.toAsciiLowercase s ↔ '*' ∈ s := by
  simp only [Str.toAsciiLowercase, List.mem_map,
    Str.toLower_eq_iff (show '*'.isAlpha = false by decide), exists_eq_right]

/-- The archive accepts no ASCII name for such a pattern. -/
theorem AcceptsNoAscii.not_ilike (h : AcceptsNoAscii pattern) (hfilename : Str.IsAscii filename) :
    ¬ ILike (likePattern pattern) filename := by
  intro hlike
  rcases h.archive with htrim | hopen
  · obtain ⟨c, hc, hhigh⟩ : ∃ c ∈ Str.trim pattern, 128 ≤ c.toNat := by
      simpa [Str.IsAscii] using htrim
    have hne : ∀ d : Char, d.toNat < 128 → c ≠ d := by
      rintro d hd rfl
      omega
    have hmem : c.toLower ∈ Str.toAsciiLowercase (likePattern pattern) := by
      refine List.mem_map_of_mem ?_
      rw [← starToPercent_of_ne (hne '*' (by decide))]
      exact List.mem_map_of_mem hc
    have hplain : isMeta c.toLower = false := by
      rw [isMeta_toLower, isMeta]
      simp [hne '%' (by decide), hne '_' (by decide), hne '\\' (by decide)]
    have hlow := (isAscii_toAsciiLowercase filename).mpr hfilename _ (hlike.mem hplain hmem)
    rw [Str.toLower_lt_iff] at hlow
    omega
  · have hclosed := hlike.openEscape_eq_false
    rw [Str.toAsciiLowercase, openEscape_map fun c => Str.toLower_eq_iff (by decide),
      openEscape_likePattern, hopen] at hclosed
    cases hclosed

/-- The archive fits the names that fit a plain pattern. -/
theorem Plain.ilike_iff (h : Plain pattern) : ILike (likePattern pattern) filename ↔
    Glob.Matches '*' (Str.toAsciiLowercase pattern) (Str.toAsciiLowercase filename) := by
  rw [ILike, likePattern, h.trimmed, toAsciiLowercase_map_starToPercent, like_map_starToPercent]
  intro c hc
  obtain ⟨d, hd, rfl⟩ := List.mem_map.mp hc
  rw [isMeta_toLower]
  exact h.isMeta_eq_false d hd

/-! ## Agreement -/

theorem filenameFiltersAgree_iff (h : Str.trim pattern ≠ []) :
    FilenameFiltersAgree pattern filename ↔
      (wildcardMatch pattern filename = true ↔ ILike (likePattern pattern) filename) := by
  rw [FilenameFiltersAgree, boundTexts_appendLikeFilter h]
  simp

theorem AcceptsNoAscii.agree (h : AcceptsNoAscii pattern) (hfilename : Str.IsAscii filename) :
    wildcardMatch pattern filename = true ↔ ILike (likePattern pattern) filename := by
  rw [wildcardMatch_of_not_ascii h.live hfilename]
  exact iff_of_false Bool.false_ne_true (h.not_ilike hfilename)

/-- On ASCII, plain patterns agree where fits are strict. -/
theorem Plain.agree (h : Plain pattern) (hpattern : Str.IsAscii pattern)
    (hfilename : Str.IsAscii filename) (hstar : '*' ∉ pattern ∨ '*' ∉ filename) :
    wildcardMatch pattern filename = true ↔ ILike (likePattern pattern) filename := by
  rw [wildcardMatch_of_ascii hpattern hfilename, h.ilike_iff]
  refine ⟨Glob.Strict.matches, fun hfit => ?_⟩
  rcases hstar with hstar | hstar
  · exact hfit.strict_of_not_mem (mt star_mem_toAsciiLowercase.mp hstar)
  · exact hfit.strict (mt star_mem_toAsciiLowercase.mp hstar)

theorem toAsciiLowercase_filter (s : Str) : Str.toAsciiLowercase (s.filter (· ≠ '*')) =
    (Str.toAsciiLowercase s).filter (· ≠ '*') := by
  rw [Str.toAsciiLowercase, Str.toAsciiLowercase, List.filter_map]
  congr 1
  refine List.filter_congr fun c _ => ?_
  simp [Str.toLower_eq_iff (show '*'.isAlpha = false by decide)]

/-- The live filter accepts the name that a pattern is without its stars. -/
theorem wildcardMatch_filter (hpattern : Str.IsAscii pattern) :
    wildcardMatch pattern (pattern.filter (· ≠ '*')) = true := by
  rw [wildcardMatch_of_ascii hpattern fun c hc => hpattern c (List.mem_of_mem_filter hc),
    toAsciiLowercase_filter]
  refine (Glob.matches_filter '*' _).strict ?_
  simp

/-- A name that the live filter accepts has the characters of the pattern other than stars, in
some case. -/
theorem sublist_of_wildcardMatch (hpattern : Str.IsAscii pattern)
    (hfilename : Str.IsAscii filename) (h : wildcardMatch pattern filename = true) :
    (Str.toAsciiLowercase (pattern.filter (· ≠ '*'))).Sublist
      (Str.toAsciiLowercase filename) := by
  rw [wildcardMatch_of_ascii hpattern hfilename] at h
  rw [toAsciiLowercase_filter]
  exact h.matches.sublist

theorem count_backslash_toAsciiLowercase (s : Str) :
    (Str.toAsciiLowercase s).count '\\' = s.count '\\' := by
  rw [Str.toAsciiLowercase, List.count, List.countP_map]
  refine List.countP_congr fun c _ => ?_
  simp [Str.toLower_eq_iff (show '\\'.isAlpha = false by decide)]

/-- The pattern of the archive has no backslash more. -/
theorem count_backslash_likePattern_le (pattern : Str) :
    (likePattern pattern).count '\\' ≤ (pattern.filter (· ≠ '*')).count '\\' := by
  obtain ⟨v, w, heq, -, -⟩ := Str.exists_append_trim pattern
  have hcount : (likePattern pattern).count '\\' = (Str.trim pattern).count '\\' := by
    rw [likePattern, List.count, List.countP_map]
    refine List.countP_congr fun c _ => ?_
    simp [starToPercent_eq_backslash]
  rw [hcount, List.count_filter (by decide)]
  calc (Str.trim pattern).count '\\' ≤ (v ++ (Str.trim pattern ++ w)).count '\\' := by
        simp only [List.count_append]
        omega
    _ = pattern.count '\\' := by rw [← heq]

/-- An ASCII pattern has one meaning if the live filter accepts the shortest names that the
archive accepts. -/
theorem plain_of_wildcardMatch (hpattern : Str.IsAscii pattern)
    (h : wildcardMatch pattern (shortest (likePattern pattern)) = true) : Plain pattern := by
  have hsub := sublist_of_wildcardMatch hpattern (isAscii_shortest (isAscii_trim hpattern)) h
  -- an escape would cost the shortest name a backslash
  have hslash : '\\' ∉ likePattern pattern := by
    intro hmem
    have hlt := count_shortest_lt hmem
    have hle := hsub.count_le '\\'
    have hpat := count_backslash_likePattern_le pattern
    rw [count_backslash_toAsciiLowercase, count_backslash_toAsciiLowercase] at hle
    omega
  have hplain : ∀ c ∈ pattern, isMeta c = false := by
    intro c hc
    by_contra hmeta
    rw [Bool.not_eq_false] at hmeta
    have hstar : c ≠ '*' := by
      rintro rfl
      exact absurd hmeta (by decide)
    have hmem : c.toLower ∈ Str.toAsciiLowercase (shortest (likePattern pattern)) :=
      hsub.subset (List.mem_map_of_mem (List.mem_filter.mpr ⟨hc, by simpa using hstar⟩))
    obtain ⟨d, hd, hlower⟩ := List.mem_map.mp hmem
    have hdplain := isMeta_of_mem_shortest hslash hd
    rw [← isMeta_toLower, hlower, isMeta_toLower, hmeta] at hdplain
    cases hdplain
  refine ⟨?_, hplain⟩
  obtain ⟨v, w, heq, hv, hw⟩ := Str.exists_append_trim pattern
  have htrim : ∀ c ∈ Str.trim pattern, isMeta c = false := by
    intro c hc
    refine hplain c ?_
    rw [heq]
    exact List.mem_append_right v (List.mem_append_left w hc)
  -- white space around the pattern would be missing in the shortest name
  have hspaces : ∀ u : Str, (∀ c ∈ u, Str.isWhitespace c = true) →
      u.filter (· ≠ '*') = u := by
    intro u hu
    refine List.filter_eq_self.mpr fun c hc => ?_
    have hne : c ≠ '*' := by
      rintro rfl
      exact absurd (hu _ hc) (by decide)
    simpa using hne
  have hlength := hsub.length_le
  rw [likePattern, shortest_map_starToPercent htrim, Str.toAsciiLowercase, Str.toAsciiLowercase,
    List.length_map, List.length_map] at hlength
  nth_rewrite 1 [heq] at hlength
  rw [List.filter_append, List.filter_append, hspaces v hv, hspaces w hw, List.length_append,
    List.length_append] at hlength
  obtain rfl : v = [] := List.length_eq_zero_iff.mp (by omega)
  obtain rfl : w = [] := List.length_eq_zero_iff.mp (by omega)
  rw [List.nil_append, List.append_nil] at heq
  exact heq.symm

/-- Patterns on which the filters agree, whatever the name. -/
theorem acceptsNoAscii_or_plain
    (h : ∀ filename, Str.IsAscii filename → '*' ∉ filename →
      (wildcardMatch pattern filename = true ↔ ILike (likePattern pattern) filename)) :
    AcceptsNoAscii pattern ∨ Plain pattern := by
  by_cases hpattern : Str.IsAscii pattern
  · refine Or.inr (plain_of_wildcardMatch hpattern ?_)
    have hascii := isAscii_trim hpattern
    have hfilter := (h (pattern.filter (· ≠ '*'))
      (fun c hc => hpattern c (List.mem_of_mem_filter hc)) (by simp)).mp
        (wildcardMatch_filter hpattern)
    have hclosed := Like.openEscape_eq_false hfilter
    rw [Str.toAsciiLowercase, openEscape_map fun c => Str.toLower_eq_iff (by decide)] at hclosed
    exact (h _ (isAscii_shortest hascii) star_notMem_shortest).mpr (like_shortest hclosed).ilike
  · refine Or.inl ⟨hpattern, ?_⟩
    by_contra hnot
    obtain ⟨hascii, hclosed⟩ := not_or.mp hnot
    rw [not_not] at hascii
    rw [Bool.not_eq_true, ← openEscape_likePattern] at hclosed
    have hlive := (h _ (isAscii_shortest hascii) star_notMem_shortest).mpr
      (like_shortest hclosed).ilike
    rw [wildcardMatch_of_not_ascii hpattern (isAscii_shortest hascii)] at hlive
    cases hlive

/-- With one star more than the pattern, a name is accepted by the archive only. -/
theorem Plain.exists_disagree (h : Plain pattern) (hpattern : Str.IsAscii pattern)
    (hstar : '*' ∈ pattern) : ∃ filename, Str.IsAscii filename ∧
      ¬ (wildcardMatch pattern filename = true ↔ ILike (likePattern pattern) filename) := by
  obtain ⟨u, v, rfl⟩ := List.append_of_mem hstar
  have hascii : Str.IsAscii (u ++ '*' :: '*' :: v) := by
    intro c hc
    refine hpattern c ?_
    simp only [List.mem_append, List.mem_cons] at hc ⊢
    tauto
  refine ⟨_, hascii, ?_⟩
  rw [wildcardMatch_of_ascii hpattern hascii, h.ilike_iff]
  simp only [Str.toAsciiLowercase, List.map_append, List.map_cons, show '*'.toLower = '*' from rfl]
  rw [Glob.strict_append_append, Glob.strict_cons_cons]
  intro hiff
  exact Glob.not_strict_star_cons _
    (hiff.mpr (Glob.Matches.append_left _ ((Glob.matches_self '*' _).star ['*', '*'])))

/-- **Filenames.**  For a pattern that is not blank, the live filter and the archive agree on
all ASCII names exactly if neither accepts any of them, or the pattern has no white space around
it and no star, percent sign, underscore or backslash.  On the names without stars the pattern
may have stars. -/
theorem filename_filters_agree_iff (h : Str.trim pattern ≠ []) :
    ((∀ filename, Str.IsAscii filename → FilenameFiltersAgree pattern filename) ↔
        AcceptsNoAscii pattern ∨ (Plain pattern ∧ '*' ∉ pattern)) ∧
      ((∀ filename, Str.IsAscii filename → '*' ∉ filename →
          FilenameFiltersAgree pattern filename) ↔ AcceptsNoAscii pattern ∨ Plain pattern) := by
  simp only [filenameFiltersAgree_iff h]
  have hplain : Plain pattern → ¬ AcceptsNoAscii pattern → Str.IsAscii pattern := by
    intro hplain hnot
    by_contra hpattern
    exact hnot ⟨hpattern, Or.inl (by rwa [hplain.trimmed])⟩
  by_cases hnone : AcceptsNoAscii pattern
  · exact ⟨iff_of_true (fun _ hascii => hnone.agree hascii) (Or.inl hnone),
      iff_of_true (fun _ hascii _ => hnone.agree hascii) (Or.inl hnone)⟩
  · simp only [hnone, false_or]
    constructor
    · constructor
      · intro hagree
        have hp := (acceptsNoAscii_or_plain fun _ hascii _ => hagree _ hascii).resolve_left hnone
        refine ⟨hp, fun hstar => ?_⟩
        obtain ⟨filename, hascii, hnot⟩ := hp.exists_disagree (hplain hp hnone) hstar
        exact hnot (hagree filename hascii)
      · rintro ⟨hp, hstar⟩ filename hascii
        exact hp.agree (hplain hp hnone) hascii (Or.inl hstar)
    · constructor
      · intro hagree
        exact (acceptsNoAscii_or_plain hagree).resolve_left hnone
      · intro hp filename hascii hstar
        exact hp.agree (hplain hp hnone) hascii (Or.inr hstar)

/-- Names ending in a suffix. -/
theorem filename_filters_agree_suffix : Str.trim "*.TXT".toList ≠ [] ∧
    FilenameFiltersAgree "*.TXT".toList "AFDBOX.TXT".toList :=
  ⟨by decide, (filename_filters_agree_iff (by decide)).2.mpr
    (Or.inr ⟨by decide, by decide⟩) _ (by decide) (by decide)⟩

/-- An underscore stands for any character in the archive only. -/
theorem filename_filters_disagree_underscore :
    ¬ FilenameFiltersAgree "A_B".toList "AXB".toList := by
  rw [filenameFiltersAgree_iff (by decide), wildcardMatch_of_ascii (by decide) (by decide)]
  intro hiff
  have hlike : ILike (likePattern "A_B".toList) "AXB".toList :=
    (((Like.nil.char (show isMeta 'B' = false by rfl)).one 'X').char
      (show isMeta 'A' = false by rfl)).ilike
  have hfit : Glob.Strict '*' ['_', 'b'] ['x', 'b'] :=
    (Glob.strict_cons_cons 'a').mp (hiff.mpr hlike)
  exact Glob.not_strict_of_ne (by decide) (by decide) hfit

end Live
