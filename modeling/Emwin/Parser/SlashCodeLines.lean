/-
# Codes that cross lines

`scan_slash_delimited_candidates` means to stop at the end of a line, but the arm of its search
for `\r` and `\n` goes on like every other one.  The candidates of a text are those of its lines
and the ones that cross a line; so a text reads like its lines exactly if no candidate of it
crosses one.
-/
import Emwin.Parser.SlashCodes

namespace Parser

open Chrono

variable {α : Type} {predicate : Str → Bool}

/-! ## Candidates that cross lines -/

/-- Somewhere a slash, the next one on another line, and between them what passes for a code. -/
def CrossesLine (predicate : Str → Bool) (text : Str) : Prop :=
  ∃ before between behind, text = before ++ '/' :: between ++ '/' :: behind ∧ '/' ∉ between ∧
    '\n' ∈ between ∧ predicate ('/' :: between ++ ['/']) = true

/-- What stands between a slash and the next one. -/
theorem mem_betweenSlashes_iff {s candidate : Str} : candidate ∈ betweenSlashes s ↔
    ∃ between behind, s = between ++ '/' :: behind ∧ '/' ∉ between ∧
      candidate = '/' :: between ++ ['/'] := by
  constructor
  · intro h
    by_cases hs : '/' ∈ s
    · obtain ⟨between, behind, rfl, hbetween⟩ := List.eq_append_cons_of_mem hs
      have htake : (between ++ '/' :: behind).takeWhile (· ≠ '/') = between := by
        rw [List.takeWhile_append_of_pos fun c hc =>
          decide_eq_true (ne_of_mem_of_not_mem hc hbetween)]
        simp
      rw [betweenSlashes, if_pos hs, htake, List.mem_singleton] at h
      exact ⟨between, behind, rfl, hbetween, h⟩
    · rw [betweenSlashes_of_notMem hs] at h
      exact absurd h List.not_mem_nil
  · rintro ⟨between, behind, rfl, hbetween, rfl⟩
    have htake : (between ++ '/' :: behind).takeWhile (· ≠ '/') = between := by
      rw [List.takeWhile_append_of_pos fun c hc =>
        decide_eq_true (ne_of_mem_of_not_mem hc hbetween)]
      simp
    rw [betweenSlashes, if_pos (by simp), htake]
    exact List.mem_singleton_self _

/-- The candidates of a text are what stands between two slashes that follow each other. -/
theorem mem_scanSlashDelimitedCandidates_iff {s candidate : Str} :
    candidate ∈ scanSlashDelimitedCandidates predicate s ↔
      ∃ before between behind, s = before ++ '/' :: between ++ '/' :: behind ∧
        '/' ∉ between ∧ candidate = '/' :: between ++ ['/'] ∧ predicate candidate = true := by
  induction s with
  | nil =>
      refine iff_of_false List.not_mem_nil ?_
      rintro ⟨before, between, behind, h, -⟩
      simp at h
  | cons c s ih =>
      rw [scanSlashDelimitedCandidates, List.mem_append, ih]
      constructor
      · rintro (h | ⟨before, between, behind, rfl, hrest⟩)
        · split_ifs at h with hc
          · obtain ⟨hmem, hpredicate⟩ := List.mem_filter.mp h
            obtain ⟨between, behind, rfl, hbetween, rfl⟩ := mem_betweenSlashes_iff.mp hmem
            exact ⟨[], between, behind, by rw [hc]; rfl, hbetween, rfl, hpredicate⟩
          · exact absurd h List.not_mem_nil
        · exact ⟨c :: before, between, behind, rfl, hrest⟩
      · rintro ⟨before, between, behind, h, hbetween, hcandidate, hpredicate⟩
        cases before with
        | nil =>
            obtain ⟨rfl, rfl⟩ := List.cons.inj h
            left
            rw [if_pos rfl]
            exact List.mem_filter.mpr
              ⟨mem_betweenSlashes_iff.mpr ⟨between, behind, rfl, hbetween, hcandidate⟩, hpredicate⟩
        | cons c' before =>
            obtain ⟨rfl, rfl⟩ := List.cons.inj h
            exact Or.inr ⟨before, between, behind, rfl, hbetween, hcandidate, hpredicate⟩

/-- A text crosses a line if a candidate of it has a line feed. -/
theorem crossesLine_iff {text : Str} : CrossesLine predicate text ↔
    ∃ candidate ∈ scanSlashDelimitedCandidates predicate text, '\n' ∈ candidate := by
  constructor
  · rintro ⟨before, between, behind, htext, hbetween, hfeed, hpredicate⟩
    exact ⟨_, mem_scanSlashDelimitedCandidates_iff.mpr
      ⟨before, between, behind, htext, hbetween, rfl, hpredicate⟩, by simp [hfeed]⟩
  · rintro ⟨_, hmem, hfeed⟩
    obtain ⟨before, between, behind, htext, hbetween, rfl, hpredicate⟩ :=
      mem_scanSlashDelimitedCandidates_iff.mp hmem
    exact ⟨before, between, behind, htext, hbetween, by simpa using hfeed, hpredicate⟩

/-! ## Line by line -/

/-- A candidate within one line. -/
def withinLine (candidate : Str) : Bool := '\n' ∉ candidate

/-- The candidates of a line stay in it. -/
theorem withinLine_of_line {line candidate : Str} (h : '\n' ∉ line)
    (hmem : candidate ∈ scanSlashDelimitedCandidates predicate line) :
    withinLine candidate = true := by
  obtain ⟨before, between, behind, rfl, -, rfl, -⟩ :=
    mem_scanSlashDelimitedCandidates_iff.mp hmem
  have hbetween : '\n' ∉ between := fun hfeed => h (by simp [hfeed])
  simpa [withinLine] using hbetween

theorem filter_withinLine_of_line {line : Str} (h : '\n' ∉ line) :
    (scanSlashDelimitedCandidates predicate line).filter withinLine =
      scanSlashDelimitedCandidates predicate line :=
  List.filter_eq_self.mpr fun _ hmem => withinLine_of_line h hmem

/-- Within lines, the text behind a line feed is scanned by itself. -/
theorem filter_withinLine_append {line : Str} (h : '\n' ∉ line) (s : Str) :
    (scanSlashDelimitedCandidates predicate (line ++ '\n' :: s)).filter withinLine =
      scanSlashDelimitedCandidates predicate line ++
        (scanSlashDelimitedCandidates predicate s).filter withinLine := by
  induction line with
  | nil =>
      rw [List.nil_append, scanSlashDelimitedCandidates.eq_2, if_neg (by decide)]
      rfl
  | cons c line ih =>
      have hline : '\n' ∉ line := fun hmem => h (List.mem_cons_of_mem _ hmem)
      have hfirst : (if c = '/' then (betweenSlashes (line ++ '\n' :: s)).filter predicate
            else []).filter withinLine =
          if c = '/' then (betweenSlashes line).filter predicate else [] := by
        split_ifs with hc
        · by_cases hslash : '/' ∈ line
          · rw [betweenSlashes_append hslash]
            refine List.filter_eq_self.mpr ?_
            intro candidate hmem
            have hscanned : candidate ∈ scanSlashDelimitedCandidates predicate (c :: line) := by
              rw [scanSlashDelimitedCandidates, if_pos hc]
              exact List.mem_append_left _ hmem
            exact withinLine_of_line h hscanned
          · -- the next slash stands on another line
            rw [betweenSlashes_of_notMem hslash, List.filter_nil]
            refine List.filter_eq_nil_iff.mpr ?_
            intro candidate hmem
            obtain ⟨between, behind, hsplit, -, rfl⟩ :=
              mem_betweenSlashes_iff.mp (List.mem_filter.mp hmem).1
            rcases List.append_eq_append_iff.mp hsplit with
              ⟨rest, rfl, hrest⟩ | ⟨rest, rfl, hrest⟩
            · cases rest with
              | nil => exact absurd (List.cons.inj hrest).1 (by decide)
              | cons feed rest =>
                  obtain rfl := (List.cons.inj hrest).1
                  simp [withinLine]
            · cases rest with
              | nil => exact absurd (List.cons.inj hrest).1 (by decide)
              | cons slash rest =>
                  obtain rfl := (List.cons.inj hrest).1
                  exact absurd (List.mem_append_right _ List.mem_cons_self) hslash
        · rfl
      rw [List.cons_append, scanSlashDelimitedCandidates, List.filter_append, hfirst, ih hline,
        scanSlashDelimitedCandidates, List.append_assoc]

/-- The candidates within lines are those of the lines. -/
theorem filter_withinLine_eq (predicate : Str → Bool) {text : Str} (hreturn : '\r' ∉ text) :
    (scanSlashDelimitedCandidates predicate text).filter withinLine =
      (Str.lines text).flatMap (scanSlashDelimitedCandidates predicate) := by
  suffices h : ∀ line, '\n' ∉ line → '\r' ∉ line →
      (scanSlashDelimitedCandidates predicate (line ++ text)).filter withinLine =
        (Str.linesFrom line text).flatMap (scanSlashDelimitedCandidates predicate) from
    h [] List.not_mem_nil List.not_mem_nil
  induction text with
  | nil =>
      intro line hfeed _
      rw [List.append_nil, filter_withinLine_of_line hfeed, Str.linesFrom]
      split_ifs with hline
      · rw [hline]
        rfl
      · rw [List.flatMap_singleton]
  | cons c text ih =>
      intro line hfeed hline
      have htext : '\r' ∉ text := fun hmem => hreturn (List.mem_cons_of_mem _ hmem)
      rw [Str.linesFrom]
      split_ifs with hc
      · subst hc
        rw [filter_withinLine_append hfeed, List.flatMap_cons, Str.stripReturn_eq_self hline]
        congr 1
        exact ih htext [] List.not_mem_nil List.not_mem_nil
      · have hne : '\r' ≠ c := fun heq => hreturn (heq ▸ List.mem_cons_self)
        rw [← List.singleton_append, ← List.append_assoc]
        exact ih htext (line ++ [c]) (by simp [hfeed, Ne.symm hc]) (by simp [hline, hne])

/-! ## Codes and issues -/

/-- What is read of some candidates. -/
def readCandidates (parse : Str → Except ProductParseIssue α) (candidates : List Str) :
    List α × List ProductParseIssue :=
  ((candidates.map parse).filterMap Except.toOption,
    (candidates.map parse).filterMap fun result => match result with
      | .ok _ => none
      | .error issue => some issue)

variable {parse : Str → Except ProductParseIssue α}

theorem parseCodes_eq (text : Str) : parseCodes predicate parse text =
    readCandidates parse (scanSlashDelimitedCandidates predicate text) := rfl

/-- Every candidate gives a code or an issue. -/
theorem length_readCandidates (candidates : List Str) :
    (readCandidates parse candidates).1.length + (readCandidates parse candidates).2.length =
      candidates.length := by
  induction candidates with
  | nil => rfl
  | cons candidate candidates ih =>
      simp only [readCandidates, List.map_cons, List.filterMap_cons] at ih ⊢
      cases parse candidate with
      | ok code =>
          simp only [Except.toOption, List.length_cons] at ih ⊢
          omega
      | error issue =>
          simp only [Except.toOption, List.length_cons] at ih ⊢
          omega

/-- What is read of several texts, one after the other. -/
def parseEach (parse : Str → List α × List ProductParseIssue) (texts : List Str) :
    List α × List ProductParseIssue :=
  (texts.flatMap fun text => (parse text).1, texts.flatMap fun text => (parse text).2)

theorem parseEach_parseCodes (texts : List Str) :
    parseEach (parseCodes predicate parse) texts =
      readCandidates parse (texts.flatMap (scanSlashDelimitedCandidates predicate)) := by
  have hread : parseCodes predicate parse =
      fun text => readCandidates parse (scanSlashDelimitedCandidates predicate text) := rfl
  rw [hread]
  simp only [parseEach, readCandidates, List.map_flatMap, List.filterMap_flatMap]

/-- **Line by line.**  A text reads like its lines exactly if no candidate crosses a line. -/
theorem parseCodes_eq_parseEach_lines_iff {text : Str} (hreturn : '\r' ∉ text) :
    parseCodes predicate parse text = parseEach (parseCodes predicate parse) (Str.lines text) ↔
      ¬ CrossesLine predicate text := by
  rw [parseCodes_eq, parseEach_parseCodes, ← filter_withinLine_eq predicate hreturn,
    crossesLine_iff]
  constructor
  · rintro h ⟨candidate, hmem, hfeed⟩
    -- the codes and issues are as many as the candidates
    have hlength : (scanSlashDelimitedCandidates predicate text).length =
        ((scanSlashDelimitedCandidates predicate text).filter withinLine).length := by
      rw [← length_readCandidates, h, length_readCandidates]
    have hwithin := List.length_filter_eq_length_iff.mp hlength.symm candidate hmem
    simp [withinLine, hfeed] at hwithin
  · intro h
    rw [List.filter_eq_self.mpr]
    intro candidate hmem
    have hfeed : '\n' ∉ candidate := fun hfeed => h ⟨candidate, hmem, hfeed⟩
    simpa [withinLine] using hfeed

/-- VTEC and HVTEC codes read line by line exactly if no candidate of theirs crosses a line. -/
theorem codes_lineLocal_iff (nwslidEntry : Str → Option NwslidEntry)
    (parseFromStr : Str → Option DateTime) (text : Str) (hreturn : '\r' ∉ text) :
    (parseVtecCodesWithIssues parseFromStr text =
        parseEach (parseVtecCodesWithIssues parseFromStr) (Str.lines text) ↔
      ¬ CrossesLine isVtecCandidate text) ∧
    (parseHvtecCodesWithIssues nwslidEntry parseFromStr text =
        parseEach (parseHvtecCodesWithIssues nwslidEntry parseFromStr) (Str.lines text) ↔
      ¬ CrossesLine isStructurallyHvtecCandidate text) :=
  ⟨parseCodes_eq_parseEach_lines_iff hreturn, parseCodes_eq_parseEach_lines_iff hreturn⟩

/-- Fractions on two lines. -/
theorem codes_lineLocal_iff_fractions :
    (parseVtecCodesWithIssues (fun _ => none) "1/2\n3/4".toList =
        parseEach (parseVtecCodesWithIssues fun _ => none) (Str.lines "1/2\n3/4".toList) ↔
      ¬ CrossesLine isVtecCandidate "1/2\n3/4".toList) :=
  (codes_lineLocal_iff (fun _ => none) (fun _ => none) "1/2\n3/4".toList (by decide)).1

/-- A code whose office is broken over two lines is read from neither of them. -/
theorem vtec_code_crosses_line :
    ¬ ∀ (parseFromStr : Str → Option DateTime) (text : Str), '\r' ∉ text →
      parseVtecCodesWithIssues parseFromStr text =
        parseEach (parseVtecCodesWithIssues parseFromStr) (Str.lines text) := by
  intro h
  have hread := h (fun _ => none)
    "/O.NEW.KD\nMX.TO.W.0123.000000T0000Z-000000T0000Z/".toList (by decide)
  revert hread
  decide +kernel

end Parser
