/-
# Blank lines

Damage does not spread past a blank line: what stands before it and what stands behind it are
parsed as two texts (`parse_append_blank_line`).  Each collector stops there in its own way,
whatever block it has begun.
-/
import Emwin.Parser.LatLon
import Emwin.Parser.TimeMotLoc
import Emwin.Parser.Ugc

namespace Parser

open Chrono Floats

/-! ## UGC blocks -/

/-- A UGC block ends in front of a blank line as at the end of the text. -/
theorem collectLines_append (combined : Str) (lines rest : List Str) :
    collectLines combined (lines ++ [] :: rest) = collectLines combined lines := by
  induction lines generalizing combined with
  | nil =>
      rw [List.nil_append, collectLines, collectLines]
      cases hasUgcExpirationSuffix combined with
      | none => rfl
      | some complete => cases complete <;> simp [Str.trim, Str.trimStart, Str.trimEnd]
  | cons line lines ih => simp only [List.cons_append, collectLines, ih]

/-- A UGC block has no more lines than there are. -/
theorem collectLines_le {combined joined : Str} {lines : List Str} {further : ℕ}
    (h : collectLines combined lines = some (joined, further)) : further ≤ lines.length := by
  induction lines generalizing combined joined further with
  | nil =>
      obtain ⟨complete, -, heq⟩ := Option.map_eq_some_iff.mp h
      obtain rfl : 0 = further := congrArg Prod.snd heq
      exact Nat.le_refl _
  | cons line lines ih =>
      rw [collectLines] at h
      cases hsuffix : hasUgcExpirationSuffix combined with
      | none => simp [hsuffix] at h
      | some complete =>
          by_cases hstop : complete = true ∨ Str.trim line = [] ∨
              startsNewSectionHeader (Str.trim line) = true
          · have hzero : further = 0 := by
              rcases hstop with hstop | hstop
              · simp [hsuffix, hstop] at h
                exact h.2.symm
              · cases complete <;> simp [hsuffix, hstop] at h <;> exact h.2.symm
            rw [hzero]
            exact Nat.zero_le _
          · simp only [not_or, Bool.not_eq_true] at hstop
            obtain ⟨rfl, hblank, hheader⟩ := hstop
            simp only [hsuffix, hblank, hheader, Option.bind_eq_bind, Option.bind_some,
              Bool.false_eq_true, if_false, or_self, Option.bind_eq_some_iff] at h
            obtain ⟨⟨joined', further'⟩, hrest, heq⟩ := h
            obtain rfl : further' + 1 = further := congrArg Prod.snd (Option.some.inj heq)
            exact Nat.succ_le_succ (ih hrest)

/-- The collector of UGC blocks stops in front of a blank line. -/
theorem stopsAt_collectUgcCandidate : Lines.StopsAt isUgcStart collectUgcCandidate [] where
  not_starts := rfl
  collect_append := by
    intro line lines rest
    simp only [collectUgcCandidate, collectLines_append]
  further_le := by
    intro line lines block further h
    unfold collectUgcCandidate at h
    cases hcollect : collectLines (compactUgcText line) lines with
    | none => simp [hcollect] at h
    | some found =>
        obtain ⟨joined, n⟩ := found
        cases hsuffix : hasUgcExpirationSuffix joined with
        | none => simp [hcollect, hsuffix] at h
        | some complete =>
            obtain ⟨-, rfl⟩ : _ ∧ n = further := by simpa [hcollect, hsuffix] using h
            exact collectLines_le hcollect

/-- The candidates of two texts with a blank line between them. -/
theorem extractUgcCandidates_append (a b : Str) :
    extractUgcCandidates (a ++ "\n\n".toList ++ b) =
      Lines.both (extractUgcCandidates a) (extractUgcCandidates b) :=
  Lines.scan_bareLines_append stopsAt_collectUgcCandidate a b

/-! ## Results -/

/-- What two parses found and reported, one after the other. -/
def followedBy {α β : Type} (first second : Option (List α × List β)) :
    Option (List α × List β) := do
  let (found, issues) ← first
  let (found', issues') ← second
  some (found ++ found', issues ++ issues')

/-- Results one after the other, taken apart. -/
theorem map_both {ρ α β : Type} {collect : List ρ → List α × List β}
    (h : ∀ l l', collect (l ++ l') =
      ((collect l).1 ++ (collect l').1, (collect l).2 ++ (collect l').2))
    (a b : Option (List ρ)) :
    (Lines.both a b).map collect = followedBy (a.map collect) (b.map collect) := by
  cases a <;> cases b <;> simp [Lines.both, followedBy, h]

/-- The UGC sections and issues of two texts with a blank line between them. -/
theorem parseUgcSectionsWithIssues_append (catalog : UgcCatalog) (a b : Str)
    (validTime : DateTime) :
    parseUgcSectionsWithIssues catalog (a ++ "\n\n".toList ++ b) validTime =
      followedBy (parseUgcSectionsWithIssues catalog a validTime)
        (parseUgcSectionsWithIssues catalog b validTime) := by
  have hparse : ∀ text, parseUgcSectionsWithIssues catalog text validTime =
      ((extractUgcCandidates text).bind fun candidates =>
        candidates.mapM fun candidate => parseUgcCapture catalog candidate validTime).map
          partitionResults := by
    intro text
    unfold parseUgcSectionsWithIssues
    cases extractUgcCandidates text with
    | none => rfl
    | some candidates =>
        cases h : candidates.mapM fun candidate => parseUgcCapture catalog candidate validTime <;>
          simp [h]
  rw [hparse, hparse a, hparse b, extractUgcCandidates_append, Lines.both_bind_mapM, map_both]
  intro l l'
  simp [partitionResults]

/-- The polygons and issues of two texts with a blank line between them. -/
theorem LatLon.parseLatlonPolygonsWithIssues_append (F : Type) [FloatArith F] (a b : Str) :
    LatLon.parseLatlonPolygonsWithIssues (F := F) (a ++ "\n\n".toList ++ b) =
      followedBy (LatLon.parseLatlonPolygonsWithIssues a)
        (LatLon.parseLatlonPolygonsWithIssues b) := by
  have hcandidates : LatLon.findLatlonCandidates (a ++ "\n\n".toList ++ b) =
      Lines.both (LatLon.findLatlonCandidates a) (LatLon.findLatlonCandidates b) :=
    LatLon.rules.scan_append some a b
  have hparse : ∀ text, LatLon.parseLatlonPolygonsWithIssues (F := F) text =
      ((LatLon.findLatlonCandidates text).bind fun candidates =>
        candidates.mapM LatLon.parseLatlonCandidate).map
          fun results => (results.filterMap Prod.fst, results.flatMap Prod.snd) := by
    intro text
    unfold LatLon.parseLatlonPolygonsWithIssues
    cases LatLon.findLatlonCandidates text with
    | none => rfl
    | some candidates =>
        cases h : candidates.mapM (LatLon.parseLatlonCandidate (F := F)) <;> simp [h]
  rw [hparse, hparse a, hparse b, hcandidates, Lines.both_bind_mapM, map_both]
  intro l l'
  simp

/-- Entries come from the text of the candidates. -/
theorem TimeMotLoc.parseTimeMotLocEntries_eq (F : Type) [FloatArith F] (text : Str)
    (referenceTime : DateTime) :
    TimeMotLoc.parseTimeMotLocEntries (F := F) text referenceTime =
      ((Lines.scan TimeMotLoc.rules.starts TimeMotLoc.collectTimeMotLocCandidate
        (Str.lines text)).bind fun raws =>
          raws.mapM fun raw => TimeMotLoc.parseTimeMotLocCandidate raw referenceTime).map
            TimeMotLoc.entriesOf := by
  have hraws : (TimeMotLoc.findTimeMotLocCandidates text).map (List.map (·.raw)) =
      Lines.scan TimeMotLoc.rules.starts TimeMotLoc.collectTimeMotLocCandidate
        (Str.lines text) := by
    unfold TimeMotLoc.findTimeMotLocCandidates
    rw [Lines.map_scan]
    congr 1
    funext line lines
    cases TimeMotLoc.collectTimeMotLocCandidate line lines with
    | none => rfl
    | some found =>
        obtain ⟨raw, further⟩ := found
        cases raw <;> rfl
  obtain ⟨count, hcount⟩ := Option.isSome_iff_exists.mp (TimeMotLoc.countMarkers_isSome text)
  rw [← hraws, TimeMotLoc.parseTimeMotLocEntries, TimeMotLoc.parseTimeMotLocEntriesWithIssues,
    hcount]
  cases TimeMotLoc.findTimeMotLocCandidates text with
  | none => rfl
  | some candidates =>
      simp only [Option.bind_eq_bind, Option.bind_some, Option.map_some, List.mapM_map]
      cases h : candidates.mapM fun candidate =>
          TimeMotLoc.parseTimeMotLocCandidate (F := F) candidate.raw referenceTime <;>
        simp [h, Function.comp_def]

/-- The entries of two texts with a blank line between them. -/
theorem TimeMotLoc.parseTimeMotLocEntries_append (F : Type) [FloatArith F] (a b : Str)
    (referenceTime : DateTime) :
    TimeMotLoc.parseTimeMotLocEntries (F := F) (a ++ "\n\n".toList ++ b) referenceTime =
      Lines.both (TimeMotLoc.parseTimeMotLocEntries a referenceTime)
        (TimeMotLoc.parseTimeMotLocEntries b referenceTime) := by
  have hcandidates := TimeMotLoc.rules.scan_append
    (fun raw => if TimeMotLoc.candidateHasParseablePrefix raw then some raw else none) a b
  have hcollect : TimeMotLoc.rules.collector
      (fun raw => if TimeMotLoc.candidateHasParseablePrefix raw then some raw else none) =
        TimeMotLoc.collectTimeMotLocCandidate := rfl
  rw [hcollect] at hcandidates
  simp only [TimeMotLoc.parseTimeMotLocEntries_eq, hcandidates, Lines.both_bind_mapM]
  generalize (Option.bind _ _ : Option (List (TimeMotLoc.EntryResult F))) = x
  generalize (Option.bind _ _ : Option (List (TimeMotLoc.EntryResult F))) = y
  cases x <;> cases y <;> simp [Lines.both, TimeMotLoc.entriesOf]

/-- For all texts `a` and `b`, the UGC sections and issues of `a ++ "\n\n" ++ b` are those of
`a` followed by those of `b`, and so are its polygons and issues, and its storm motions. -/
theorem parse_append_blank_line (catalog : UgcCatalog) (F : Type) [FloatArith F] (a b : Str)
    (referenceTime : DateTime) :
    parseUgcSectionsWithIssues catalog (a ++ "\n\n".toList ++ b) referenceTime =
        followedBy (parseUgcSectionsWithIssues catalog a referenceTime)
          (parseUgcSectionsWithIssues catalog b referenceTime) ∧
      LatLon.parseLatlonPolygonsWithIssues (F := F) (a ++ "\n\n".toList ++ b) =
        followedBy (LatLon.parseLatlonPolygonsWithIssues a)
          (LatLon.parseLatlonPolygonsWithIssues b) ∧
      TimeMotLoc.parseTimeMotLocEntries (F := F) (a ++ "\n\n".toList ++ b) referenceTime =
        Lines.both (TimeMotLoc.parseTimeMotLocEntries a referenceTime)
          (TimeMotLoc.parseTimeMotLocEntries b referenceTime) :=
  ⟨parseUgcSectionsWithIssues_append catalog a b referenceTime,
    LatLon.parseLatlonPolygonsWithIssues_append F a b,
    TimeMotLoc.parseTimeMotLocEntries_append F a b referenceTime⟩

end Parser
