/-
# Segmentation loses no warning and mixes no areas

The lines of a text reach the segments in order.  A line with a code is never left out, and a
segment with a code is never dropped; a line with areas never follows one with a code within a
segment.  Codes are looked for in the text without its carriage returns, which are removed
before the text is split (`parse_vtec_event_body_segments`).
-/
import Emwin.Parser.VtecEvents

namespace Parser.VtecEvents

open Chrono Floats

variable (o : Outside)

/-! ## The codes of lines -/

/-- The codes of two texts stay codes of both together. -/
theorem vtecCodes_append (s t : Str) :
    (vtecCodes o s ++ vtecCodes o t).Sublist (vtecCodes o (s ++ t)) :=
  parseCodes_append _ _ s t

/-- Text without slashes has no codes. -/
theorem vtecCodes_of_notMem {s : Str} (h : '/' ∉ s) : vtecCodes o s = [] :=
  congrArg Prod.fst (parseCodes_append_of_notMem isVtecCandidate
    (parseVtecCandidate o.parseFromStr) [] h)

/-- White space at the end hides no code. -/
theorem vtecCodes_trimEnd (s : Str) : vtecCodes o (Str.trimEnd s) = vtecCodes o s := by
  obtain ⟨w, hw, hspace⟩ := Str.exists_append_trimEnd s
  conv_rhs => rw [hw]
  have hslash : '/' ∉ w := fun h => absurd (hspace _ h) (by decide)
  exact (congrArg Prod.fst (parseCodes_append_of_notMem _ _ _ hslash)).symm

/-- The codes of lines stay codes when the lines are joined. -/
theorem flatMap_vtecCodes_sublist : ∀ lines : List Str,
    (lines.flatMap (vtecCodes o)).Sublist (vtecCodes o (joinLines lines))
  | [] => List.nil_sublist _
  | [line] => by simp [joinLines]
  | line :: next :: lines => by
      have ih := flatMap_vtecCodes_sublist (next :: lines)
      have hfeed : vtecCodes o ['\n'] = [] := vtecCodes_of_notMem o (by decide)
      have hrest := vtecCodes_append o ['\n'] (joinLines (next :: lines))
      rw [hfeed, List.nil_append] at hrest
      have hjoin : joinLines (line :: next :: lines) =
          line ++ (['\n'] ++ joinLines (next :: lines)) := by
        simp [joinLines, List.intercalate_cons_cons]
      rw [hjoin, List.flatMap_cons]
      exact ((List.Sublist.refl _).append (ih.trans hrest)).trans (vtecCodes_append o _ _)

/-- A line without anything but white space, or with the end of a segment, has no codes. -/
theorem vtecCodes_of_trim {line : Str} (h : '/' ∉ Str.trim line) : vtecCodes o line = [] :=
  vtecCodes_of_notMem o fun hslash => h (Str.mem_trim hslash (by decide))

/-! ## What the loop keeps -/

/-- No line with areas follows one with a code. -/
def AreasFirst (lines : List Str) : Prop :=
  lines.Pairwise fun line later => lineHasVtec o line = true → isUgcStart later = false

/-- No line has a line break. -/
def Unbroken (lines : List Str) : Prop := ∀ line ∈ lines, '\n' ∉ line ∧ '\r' ∉ line

/-- The invariant of the loop, with the lines before. -/
structure SplitState.Inv (lines : List Str) (s : SplitState) : Prop where
  currentHasVtec : s.currentHasVtec = s.current.any (lineHasVtec o)
  codes_sublist : (lines.flatMap (vtecCodes o)).Sublist
    (s.segments.flatMap (vtecCodes o) ++ s.current.flatMap (vtecCodes o))
  /-- Every line is in one segment at most. -/
  lines_sublist : (s.segments.flatMap Str.lines ++ s.current).Sublist (lines.map Str.trimEnd)
  segments_vtec : ∀ segment ∈ s.segments, vtecCodes o segment ≠ []
  segments_areasFirst : ∀ segment ∈ s.segments, ∃ lines, segment = joinLines lines ∧
    AreasFirst o lines ∧ Unbroken lines
  current_areasFirst : AreasFirst o s.current
  current_unbroken : Unbroken s.current

variable {o}

/-- A segment that is pushed keeps its codes. -/
theorem codes_pushVtecSegment (segments current : List Str) :
    (segments.flatMap (vtecCodes o) ++ current.flatMap (vtecCodes o)).Sublist
      ((pushVtecSegment o segments current).flatMap (vtecCodes o)) := by
  have hjoin := flatMap_vtecCodes_sublist o current
  unfold pushVtecSegment
  split_ifs with hnil hcodes
  · simp [hnil]
  · rw [List.flatMap_append, List.flatMap_singleton]
    exact (List.Sublist.refl _).append hjoin
  · rw [not_not] at hcodes
    rw [hcodes, List.sublist_nil] at hjoin
    rw [hjoin, List.append_nil]

/-- The lines of a segment that is pushed were there. -/
theorem lines_pushVtecSegment (segments : List Str) {current : List Str}
    (hunbroken : Unbroken current) :
    ((pushVtecSegment o segments current).flatMap Str.lines).Sublist
      (segments.flatMap Str.lines ++ current) := by
  unfold pushVtecSegment
  split_ifs with hnil hcodes
  · exact List.sublist_append_left _ _
  · rw [List.flatMap_append, List.flatMap_singleton]
    exact (List.Sublist.refl _).append (Str.lines_intercalate hunbroken).sublist
  · exact List.sublist_append_left _ _

/-- What is pushed was there, or is the current segment with its codes. -/
theorem mem_pushVtecSegment {segments current : List Str} {segment : Str}
    (h : segment ∈ pushVtecSegment o segments current) :
    segment ∈ segments ∨ (segment = joinLines current ∧ vtecCodes o segment ≠ []) := by
  unfold pushVtecSegment at h
  split_ifs at h with hnil hcodes
  · exact .inl h
  · rcases List.mem_append.mp h with h | h
    · exact .inl h
    · obtain rfl := List.mem_singleton.mp h
      exact .inr ⟨rfl, hcodes⟩
  · exact .inl h

/-- Pushing the current segment keeps the invariant. -/
theorem SplitState.Inv.restart {lines : List Str} {s : SplitState} (h : s.Inv o lines) :
    (s.restart o).Inv o lines where
  currentHasVtec := rfl
  codes_sublist := by
    have := h.codes_sublist.trans (codes_pushVtecSegment s.segments s.current)
    simpa [SplitState.restart] using this
  lines_sublist := by
    rw [SplitState.restart, List.append_nil]
    exact (lines_pushVtecSegment s.segments h.current_unbroken).trans h.lines_sublist
  segments_vtec := by
    intro segment hsegment
    rcases mem_pushVtecSegment hsegment with hmem | ⟨-, hcodes⟩
    · exact h.segments_vtec segment hmem
    · exact hcodes
  segments_areasFirst := by
    intro segment hsegment
    rcases mem_pushVtecSegment hsegment with hmem | ⟨hjoin, -⟩
    · exact h.segments_areasFirst segment hmem
    · exact ⟨s.current, hjoin, h.current_areasFirst, h.current_unbroken⟩
  current_areasFirst := List.Pairwise.nil
  current_unbroken := by simp [SplitState.restart, Unbroken]

/-- Taking a line keeps the invariant, if it has no areas that would follow a code. -/
theorem SplitState.Inv.take {lines : List Str} {s : SplitState} (h : s.Inv o lines) {line : Str}
    (hareas : s.currentHasVtec = true → isUgcStart (Str.trimEnd line) = false)
    (hunbroken : '\n' ∉ Str.trimEnd line ∧ '\r' ∉ Str.trimEnd line) :
    (s.take o (Str.trimEnd line)).Inv o (lines ++ [line]) := by
  have hmore : (lines ++ [line]).flatMap (vtecCodes o) =
      lines.flatMap (vtecCodes o) ++ vtecCodes o (Str.trimEnd line) := by
    rw [List.flatMap_append, List.flatMap_singleton, vtecCodes_trimEnd]
  have hlines : (lines ++ [line]).map Str.trimEnd = lines.map Str.trimEnd ++ [Str.trimEnd line] :=
    List.map_append
  generalize Str.trimEnd line = trimmed at hareas hunbroken hmore hlines ⊢
  -- a line that is left out has no codes
  have hleft : vtecCodes o trimmed = [] → s.Inv o (lines ++ [line]) := by
    intro hcodes
    refine { h with codes_sublist := ?_, lines_sublist := ?_ }
    · rw [hmore, hcodes, List.append_nil]
      exact h.codes_sublist
    · rw [hlines]
      exact h.lines_sublist.trans (List.sublist_append_left _ _)
  unfold SplitState.take
  split_ifs with hnoise hblank
  · apply hleft
    simp only [Bool.and_eq_true, Bool.not_eq_true', looksLikeEventContent,
      Bool.or_eq_false_iff] at hnoise
    simpa [lineHasVtec] using hnoise.2.1.1.1.2
  · apply hleft
    simp only [Bool.and_eq_true, decide_eq_true_eq] at hblank
    exact vtecCodes_of_trim o (by rw [hblank.1]; exact List.not_mem_nil)
  · refine ⟨?_, ?_, ?_, h.segments_vtec, h.segments_areasFirst, ?_, ?_⟩
    · simp [h.currentHasVtec]
    · rw [hmore, List.flatMap_append, List.flatMap_singleton, ← List.append_assoc]
      exact h.codes_sublist.append (List.Sublist.refl _)
    · rw [hlines, ← List.append_assoc]
      exact h.lines_sublist.append (List.Sublist.refl _)
    · refine List.pairwise_append.mpr ⟨h.current_areasFirst, List.pairwise_singleton _ _, ?_⟩
      intro line hline later hlater hvtec
      obtain rfl := List.mem_singleton.mp hlater
      refine hareas ?_
      rw [h.currentHasVtec]
      exact List.any_eq_true.mpr ⟨line, hline, hvtec⟩
    · intro line hline
      rcases List.mem_append.mp hline with hline | hline
      · exact h.current_unbroken line hline
      · obtain rfl := List.mem_singleton.mp hline
        exact hunbroken

/-- A line keeps the invariant. -/
theorem SplitState.Inv.line {lines : List Str} {s : SplitState} (h : s.Inv o lines)
    {line : Str} (hunbroken : '\n' ∉ line ∧ '\r' ∉ line) :
    (s.line o line).Inv o (lines ++ [line]) := by
  have htrimmed : '\n' ∉ Str.trimEnd line ∧ '\r' ∉ Str.trimEnd line :=
    ⟨fun hc => hunbroken.1 ((List.rdropWhile_prefix _ _).subset hc),
      fun hc => hunbroken.2 ((List.rdropWhile_prefix _ _).subset hc)⟩
  unfold SplitState.line
  dsimp only
  by_cases hend : Str.trim (Str.trimEnd line) = "$$".toList
  · have hcodes : vtecCodes o line = [] := by
      rw [← vtecCodes_trimEnd]
      exact vtecCodes_of_trim o (by rw [hend]; decide)
    rw [if_pos hend]
    refine { h.restart with codes_sublist := ?_, lines_sublist := ?_ }
    · rw [List.flatMap_append, List.flatMap_singleton, hcodes, List.append_nil]
      exact h.restart.codes_sublist
    · rw [List.map_append]
      exact h.restart.lines_sublist.trans (List.sublist_append_left _ _)
  · rw [if_neg hend]
    by_cases hboundary : s.boundary o (Str.trimEnd line) = true
    · rw [if_pos hboundary]
      exact h.restart.take (fun hvtec => absurd hvtec (by simp [SplitState.restart])) htrimmed
    · rw [if_neg hboundary]
      refine h.take (fun hvtec => ?_) htrimmed
      -- with a code before, a line with areas is a boundary
      by_contra hareas
      have hne : s.current ≠ [] := by
        rintro hnil
        rw [h.currentHasVtec, hnil] at hvtec
        cases hvtec
      exact hboundary (by simp [SplitState.boundary, hne, hvtec, hareas])

/-- Lines keep the invariant. -/
theorem SplitState.Inv.lines {before : List Str} {s : SplitState} (h : s.Inv o before)
    {lines : List Str} (hunbroken : Unbroken lines) :
    (lines.foldl (SplitState.line o) s).Inv o (before ++ lines) := by
  induction lines generalizing before s with
  | nil => simpa using h
  | cons line lines ih =>
      have := ih (h.line (hunbroken line List.mem_cons_self))
        fun l hl => hunbroken l (List.mem_cons_of_mem _ hl)
      simpa using this

/-! ## Segments of a text -/

variable (o)

/-- The lines that are split have no line breaks. -/
theorem unbroken_normalizedLines (text : Str) : Unbroken (normalizedLines text) := by
  intro line hline
  refine ⟨Str.notMem_of_mem_linesFrom hline List.not_mem_nil, fun hc => ?_⟩
  rcases Str.mem_of_mem_linesFrom hline hc with hnil | hmem
  · cases hnil
  · simpa using (List.mem_filter.mp hmem).2

/-- The invariant after all lines, with the last segment pushed. -/
theorem splitVtecSegments_inv (text : Str) :
    ∃ s : SplitState, s.segments = splitVtecSegments o text ∧ s.current = [] ∧
      s.Inv o (normalizedLines text) := by
  have hinit : (⟨[], [], false, false⟩ : SplitState).Inv o [] :=
    ⟨rfl, List.nil_sublist _, List.nil_sublist _, by simp, by simp, List.Pairwise.nil,
      by simp [Unbroken]⟩
  have hlines := hinit.lines (unbroken_normalizedLines text)
  exact ⟨_, rfl, rfl, hlines.restart⟩

/-- The segments have all codes of the lines, in order. -/
theorem vtecCodes_sublist_splitVtecSegments (text : Str) :
    ((normalizedLines text).flatMap (vtecCodes o)).Sublist
      ((splitVtecSegments o text).flatMap (vtecCodes o)) := by
  obtain ⟨s, hsegments, hcurrent, hinv⟩ := splitVtecSegments_inv o text
  simpa [hsegments, hcurrent] using hinv.codes_sublist

/-- The segments are cut out of the lines one behind the other: no line is in two of them. -/
theorem lines_splitVtecSegments_sublist (text : Str) :
    ((splitVtecSegments o text).flatMap Str.lines).Sublist
      ((normalizedLines text).map Str.trimEnd) := by
  obtain ⟨s, hsegments, hcurrent, hinv⟩ := splitVtecSegments_inv o text
  have hsource := hinv.lines_sublist
  rwa [hsegments, hcurrent, List.append_nil] at hsource

/-- Every segment has a code. -/
theorem vtecCodes_ne_nil_of_mem {text segment : Str} (h : segment ∈ splitVtecSegments o text) :
    vtecCodes o segment ≠ [] := by
  obtain ⟨s, hsegments, -, hinv⟩ := splitVtecSegments_inv o text
  exact hinv.segments_vtec segment (hsegments ▸ h)

/-- Within a segment no line with areas follows one with a code. -/
theorem areasFirst_of_mem {text segment : Str} (h : segment ∈ splitVtecSegments o text) :
    AreasFirst o (Str.lines segment) := by
  obtain ⟨s, hsegments, -, hinv⟩ := splitVtecSegments_inv o text
  obtain ⟨lines, rfl, hareas, hunbroken⟩ := hinv.segments_areasFirst segment (hsegments ▸ h)
  exact hareas.sublist (Str.lines_intercalate hunbroken).sublist

/-! ## Bodies -/

variable {F : Type} [FloatArith F]

/-- The areas of a text, which are looked for with a reference time only. -/
def areasOf (referenceTime : Option DateTime) (text : Str) : Option (List UgcSection) :=
  match referenceTime with
  | some referenceTime => (parseUgcSectionsWithIssues o.catalog text referenceTime).map Prod.fst
  | none => some []

/-- A segment with codes is parsed to an event segment with these codes, its own areas and its
index. -/
theorem parseSegment_vtec {referenceTime : Option DateTime} {rawSegment : Str} {segmentIndex : ℕ}
    {found : Option (VtecEventSegment F)} {issues : List ProductParseIssue}
    (hcodes : vtecCodes o rawSegment ≠ [])
    (h : parseSegment o referenceTime rawSegment segmentIndex = some (found, issues)) :
    ∃ segment, found = some segment ∧ segment.vtec = vtecCodes o rawSegment ∧
      some segment.ugcSections = areasOf o referenceTime rawSegment ∧
      segment.segmentIndex = segmentIndex := by
  unfold parseSegment at h
  dsimp only at h
  have hne : (parseVtecCodesWithIssues o.parseFromStr rawSegment).1 ≠ [] := hcodes
  rw [if_neg hne] at h
  simp only [Option.bind_eq_bind, Option.bind_eq_some_iff] at h
  obtain ⟨ugc, hugc, polygons, -, timeMotLoc, -, heq⟩ := h
  obtain ⟨rfl, -⟩ := Prod.mk.inj (Option.some.inj heq)
  refine ⟨_, rfl, rfl, ?_, rfl⟩
  unfold areasOf
  cases referenceTime with
  | none =>
      obtain rfl := Option.some.inj hugc
      rfl
  | some referenceTime =>
      have hparse : parseUgcSectionsWithIssues o.catalog rawSegment referenceTime = some ugc := hugc
      dsimp only
      rw [hparse]
      rfl

/-- The event segments of raw segments with codes: one for each, with its codes, its own areas and
its index. -/
theorem segments_of_mapM {referenceTime : Option DateTime} {rawSegments : List Str} {n : ℕ}
    {results : List (Option (VtecEventSegment F) × List ProductParseIssue)}
    (hcodes : ∀ rawSegment ∈ rawSegments, vtecCodes o rawSegment ≠ [])
    (h : (rawSegments.zipIdx n).mapM (fun (rawSegment, segmentIndex) =>
      parseSegment o referenceTime rawSegment segmentIndex) = some results) :
    (results.filterMap Prod.fst).map (·.vtec) = rawSegments.map (vtecCodes o) ∧
      (results.filterMap Prod.fst).map (fun segment => some segment.ugcSections) =
        rawSegments.map (areasOf o referenceTime) ∧
      (results.filterMap Prod.fst).map (·.segmentIndex) = List.range' n rawSegments.length := by
  induction rawSegments generalizing n results with
  | nil =>
      obtain rfl : [] = results := by simpa using h
      exact ⟨rfl, rfl, rfl⟩
  | cons rawSegment rawSegments ih =>
      rw [List.zipIdx_cons, List.mapM_cons] at h
      simp only [Option.bind_eq_bind, Option.bind_eq_some_iff] at h
      obtain ⟨⟨found, issues⟩, hfirst, rest, hrest, heq⟩ := h
      obtain rfl := Option.some.inj heq
      obtain ⟨segment, rfl, hvtec, hareas, hindex⟩ :=
        parseSegment_vtec o (hcodes rawSegment List.mem_cons_self) hfirst
      obtain ⟨ihVtec, ihAreas, ihIndex⟩ :=
        ih (fun r hr => hcodes r (List.mem_cons_of_mem _ hr)) hrest
      refine ⟨?_, ?_, ?_⟩
      · simp [hvtec, ihVtec]
      · simp [hareas, ihAreas]
      · simp [hindex, ihIndex, List.range'_succ]

/-- What is asked of the segments of a text: they have all of some codes, in order; each has a
code, and the codes and the areas of its own raw segment; their indices count from zero; no line
is in two raw segments; and within a raw segment no line with areas follows one with a code. -/
def SegmentsKeep (o : Outside) (codes : List VtecCode) (text : Str)
    (referenceTime : Option DateTime) : Prop :=
  ∀ body issues,
    parseVtecEventBodyWithIssues (F := Number) o text referenceTime = some (body, issues) →
      codes.Sublist ((body.getD []).flatMap (·.vtec)) ∧
      (∀ segment ∈ body.getD [], segment.vtec ≠ []) ∧
      (body.getD []).map (·.segmentIndex) = List.range (body.getD []).length ∧
      (body.getD []).map (·.vtec) = (splitVtecSegments o text).map (vtecCodes o) ∧
      (body.getD []).map (fun segment => some segment.ugcSections) =
        (splitVtecSegments o text).map (areasOf o referenceTime) ∧
      ((splitVtecSegments o text).flatMap Str.lines).Sublist
        ((normalizedLines text).map Str.trimEnd) ∧
      ∀ rawSegment ∈ splitVtecSegments o text, AreasFirst o (Str.lines rawSegment)

/-- Segmentation loses no code of a line of the text without carriage returns, and an event has the
areas in front of it and never those of a later one. -/
theorem parse_vtec_event_body_segments (o : Outside) (text : Str)
    (referenceTime : Option DateTime) :
    SegmentsKeep o ((normalizedLines text).flatMap (vtecCodes o)) text referenceTime := by
  intro body issues h
  simp only [parseVtecEventBodyWithIssues, Option.bind_eq_bind, Option.bind_eq_some_iff,
    Option.some.injEq, Prod.mk.injEq] at h
  obtain ⟨results, hresults, rfl, -⟩ := h
  obtain ⟨hvtec, hareas, hindex⟩ :=
    segments_of_mapM o (fun rawSegment hraw => vtecCodes_ne_nil_of_mem o hraw) hresults
  have hbody : (if (results.filterMap Prod.fst).isEmpty then none
      else some (results.filterMap Prod.fst)).getD [] = results.filterMap Prod.fst := by
    cases results.filterMap Prod.fst <;> rfl
  rw [hbody]
  have hlen : (results.filterMap Prod.fst).length = (splitVtecSegments o text).length := by
    simpa using congrArg List.length hvtec
  refine ⟨?_, ?_, ?_, hvtec, hareas, lines_splitVtecSegments_sublist o text,
    fun rawSegment hraw => areasFirst_of_mem o hraw⟩
  · have := vtecCodes_sublist_splitVtecSegments o text
    rwa [List.flatMap_def (l := splitVtecSegments o text), ← hvtec, ← List.flatMap_def] at this
  · intro segment hsegment
    have hmem : segment.vtec ∈ (splitVtecSegments o text).map (vtecCodes o) := by
      rw [← hvtec]
      exact List.mem_map_of_mem hsegment
    obtain ⟨rawSegment, hraw, heq⟩ := List.mem_map.mp hmem
    rw [← heq]
    exact vtecCodes_ne_nil_of_mem o hraw
  · rw [hindex, hlen, List.range_eq_range']

/-- Catalogs without entries, no time that can be read, and no legacy tags. -/
def nothingOutside : Outside :=
  ⟨⟨fun _ => none, fun _ => none⟩, fun _ => none, fun _ => none, fun _ => []⟩

/-- The code of a warning without times. -/
def sampleCode (action : Str) : VtecCode :=
  ⟨'O', action, "KDMX".toList, "TO".toList, 'W', 1, none, none⟩

/-- A code in a line of its own. -/
theorem parse_vtec_event_body_segments_sample :
    ∃ body issues, parseVtecEventBodyWithIssues (F := Number) nothingOutside
        "/O.NEW.KDMX.TO.W.0001.000000T0000Z-000000T0000Z/".toList none = some (body, issues) ∧
      [sampleCode "NEW".toList].Sublist ((body.getD []).flatMap (·.vtec)) := by
  have hparse : (parseVtecEventBodyWithIssues (F := Number) nothingOutside
      "/O.NEW.KDMX.TO.W.0001.000000T0000Z-000000T0000Z/".toList none).isSome = true := by
    decide +kernel
  have hcodes : (normalizedLines "/O.NEW.KDMX.TO.W.0001.000000T0000Z-000000T0000Z/".toList).flatMap
      (vtecCodes nothingOutside) = [sampleCode "NEW".toList] := by
    decide +kernel
  obtain ⟨⟨body, issues⟩, h⟩ := Option.isSome_iff_exists.mp hparse
  refine ⟨body, issues, h, ?_⟩
  rw [← hcodes]
  exact (parse_vtec_event_body_segments nothingOutside _ none body issues h).1

/-- A carriage return within a code is part of the code of its line, but not of that of the
segment. -/
theorem parse_vtec_event_body_changes_code :
    ¬ ∀ (o : Outside) (text : Str) (referenceTime : Option DateTime),
      SegmentsKeep o ((Str.lines text).flatMap (vtecCodes o)) text referenceTime := by
  intro h
  have hparse : (parseVtecEventBodyWithIssues (F := Number) nothingOutside
      "/O.NEW\r.KDMX.TO.W.0001.000000T0000Z-000000T0000Z/".toList none).map
        (fun result => (result.1.getD []).flatMap (·.vtec)) = some [sampleCode "NEW".toList] := by
    decide +kernel
  have hlines : (Str.lines "/O.NEW\r.KDMX.TO.W.0001.000000T0000Z-000000T0000Z/".toList).flatMap
      (vtecCodes nothingOutside) = [sampleCode "NEW\r".toList] := by
    decide +kernel
  obtain ⟨⟨body, issues⟩, hbody, hvtec⟩ := Option.map_eq_some_iff.mp hparse
  have hkeep := (h nothingOutside _ none body issues hbody).1
  rw [hlines, hvtec] at hkeep
  revert hkeep
  decide +kernel

end Parser.VtecEvents
