/-
# Where the CAP parser panics

`extract_cap_xml` looks for the beginning and for the end of an alert apart, so the end may be found
in front of the beginning.  `parse_cap_ugc_code` counts the bytes of a value before it cuts, and not
where its characters end.  The parser panics exactly if the markers are in the wrong order, or a
code that is read is cut inside a character; any other text that is not read completely is reported
(`safely_parsed_iff`).
-/
import Emwin.Parser.Cap
import Emwin.Parser.MarkerBlocks

namespace Parser.Cap

open Chrono Floats

variable {F : Type} [FloatArith F]

/-! ## The alert element -/

/-- The last closing tag does not end in front of the first opening marker. -/
def MarkersInOrder (text : Str) : Prop :=
  ∀ start stop, openingOffset text = some start → closingOffset text = some stop → start ≤ stop

/-- What stands between the first opening marker and the end of the last closing tag. -/
def IsAlertElement (text element : Str) : Prop :=
  element ≠ [] ∧ ∃ front behind, text = front ++ element ++ behind ∧
    openingOffset text = some (Str.byteLen front) ∧
      closingOffset text = some (Str.byteLen front + Str.byteLen element)

/-- Whether a text has an alert element. -/
def HasAlertElement (text : Str) : Prop := ∃ element, IsAlertElement text element

/-- An opening marker stands between characters. -/
theorem isCharBoundary_openingOffset {text : Str} {start : ℕ}
    (h : openingOffset text = some start) : Str.isCharBoundary start text = true := by
  rw [Str.isCharBoundary_iff]
  rcases Option.or_eq_some_iff.mp h with hxml | ⟨-, halert⟩
  · obtain ⟨front, behind, hline, hfront⟩ :=
      exists_append_of_find hxml (b := 60) (by decide) (by decide)
    exact ⟨front, behind, hline, hfront⟩
  · obtain ⟨front, behind, hline, hfront⟩ :=
      exists_append_of_find halert (b := 60) (by decide) (by decide)
    exact ⟨front, behind, hline, hfront⟩

/-- A closing tag ends between characters. -/
theorem isCharBoundary_closingOffset {text : Str} {stop : ℕ}
    (h : closingOffset text = some stop) : Str.isCharBoundary stop text = true := by
  obtain ⟨n, hn, rfl⟩ := Option.map_eq_some_iff.mp h
  obtain ⟨front, behind, rfl, rfl⟩ := Str.exists_append_of_rfind hn
  exact Str.isCharBoundary_iff.mpr ⟨front ++ "</alert>".toList, behind, rfl, Str.byteLen_append _ _⟩

/-- The XML is cut out of a text without a panic exactly if the markers are in order. -/
theorem extractCapXml_eq_none_iff (text : Str) :
    extractCapXml text = none ↔ ¬ MarkersInOrder text := by
  unfold extractCapXml MarkersInOrder
  cases hstart : openingOffset text with
  | none => simp
  | some start =>
      cases hstop : closingOffset text with
      | none => simp
      | some stop =>
          have hleft := isCharBoundary_openingOffset hstart
          have hright := isCharBoundary_closingOffset hstop
          by_cases horder : start ≤ stop
          · simp [Str.slice_eq_none_iff horder, hleft, hright, horder]
          · simp [Str.slice_eq_none_of_lt (not_le.mp horder), horder]

/-- The XML of an alert element is the element without white space around it. -/
theorem extractCapXml_of_element {text element : Str} (h : IsAlertElement text element) :
    extractCapXml text = some (some (Str.trim element)) := by
  obtain ⟨-, front, behind, htext, hstart, hstop⟩ := h
  have hslice := Str.slice_append front element behind
  rw [← htext] at hslice
  rw [extractCapXml, hstart, hstop]
  dsimp only
  rw [hslice, Option.map_some]

/-- Without an alert element there is no XML, or none that is not empty. -/
theorem extractCapXml_of_no_element {text : Str} (hno : ¬ HasAlertElement text)
    (horder : MarkersInOrder text) :
    extractCapXml text = some none ∨ extractCapXml text = some (some []) := by
  cases hxml : extractCapXml text with
  | none => exact absurd horder ((extractCapXml_eq_none_iff text).mp hxml)
  | some found =>
      cases found with
      | none => exact Or.inl rfl
      | some xml =>
          unfold extractCapXml at hxml
          split at hxml
          · next start stop hstart hstop =>
              obtain ⟨element, hslice, htrim⟩ := Option.map_eq_some_iff.mp hxml
              obtain ⟨front, behind, htext, rfl, rfl⟩ := Str.slice_eq_some_iff.mp hslice
              have hnil : element = [] := by
                by_contra hne
                exact hno ⟨element, hne, front, behind, htext, hstart, hstop⟩
              obtain rfl : Str.trim element = xml := Option.some.inj htrim
              rw [hnil]
              exact Or.inr rfl
          · cases hxml

/-! ## Area codes -/

/-- A value of six bytes is cut between characters: behind its state, and behind its class if it
has one. -/
def CutsBetweenCharacters (value : Str) : Prop :=
  Str.byteLen value = 6 → Str.isCharBoundary 2 value = true ∧
    (3 ≤ value.length → Str.isCharBoundary 3 value = true)

/-- A code: three bytes, and a number of three bytes. -/
def IsReadableCode (value : Str) : Prop :=
  ∃ front digits number, value = front ++ digits ∧ Str.byteLen front = 3 ∧
    Str.byteLen digits = 3 ∧ Str.parseUnsigned (2 ^ 16 - 1) digits = some number

/-- A code is read without a panic exactly if it is cut between characters. -/
theorem parseCapUgcCode_eq_none_iff (value : Str) :
    parseCapUgcCode value = none ↔ ¬ CutsBetweenCharacters value := by
  unfold parseCapUgcCode CutsBetweenCharacters
  by_cases hlen : Str.byteLen value = 6
  · rw [if_neg (by simp [hlen])]
    cases hstate : Str.sliceTo 2 value with
    | none => simp [andThen, hlen, Str.sliceTo_eq_none_iff.mp hstate]
    | some state =>
        have htwo : Str.isCharBoundary 2 value = true := by
          rw [← Bool.not_eq_false, ← Str.sliceTo_eq_none_iff, hstate]
          exact Option.some_ne_none _
        -- the class is looked for by characters: without a third one, the number is not cut
        rcases Nat.lt_or_ge value.length 3 with hshort | hlong
        · have hclass : value[2]? = none := List.getElem?_eq_none (by omega)
          simp [andThen, hclass, htwo, hshort]
        · have hclass : value[2]? = some value[2] := List.getElem?_eq_getElem (by omega)
          cases hnumber : Str.sliceFrom 3 value with
          | none =>
              have hthree := Str.sliceFrom_eq_none_iff.mp hnumber
              simp [andThen, hclass, hlen, hlong, hthree]
          | some digits =>
              have hthree : Str.isCharBoundary 3 value = true := by
                rw [← Bool.not_eq_false, ← Str.sliceFrom_eq_none_iff, hnumber]
                exact Option.some_ne_none _
              simp only [andThen, hclass, Option.map_some, htwo, hthree, implies_true, and_self,
                not_true, iff_false]
              cases Str.parseUnsigned (2 ^ 16 - 1) digits <;> exact Option.some_ne_none _
  · simp [hlen]

/-- A text of some bytes has a character. -/
theorem length_pos_of_byteLen {s : Str} (h : 0 < Str.byteLen s) : 0 < s.length := by
  cases s with
  | nil => cases h
  | cons c s => exact Nat.succ_pos _

/-- A code whose cuts are between characters has at least three of them. -/
theorem three_le_length {front digits : Str} (hfront : Str.byteLen front = 3)
    (hdigits : Str.byteLen digits = 3) (htwo : Str.isCharBoundary 2 (front ++ digits) = true) :
    3 ≤ (front ++ digits).length := by
  rw [Str.isCharBoundary_append (by omega), Str.isCharBoundary_iff] at htwo
  obtain ⟨state, geoclass, rfl, hstate⟩ := htwo
  rw [Str.byteLen_append] at hfront
  have h1 : 0 < state.length := length_pos_of_byteLen (by omega)
  have h2 : 0 < geoclass.length := length_pos_of_byteLen (by omega)
  have h3 : 0 < digits.length := length_pos_of_byteLen (by omega)
  rw [List.length_append, List.length_append]
  omega

/-- The codes that are read are those that are readable and cut between characters. -/
theorem exists_code_iff (value : Str) :
    (∃ code, parseCapUgcCode value = some (some code)) ↔
      IsReadableCode value ∧ CutsBetweenCharacters value := by
  constructor
  · rintro ⟨code, hcode⟩
    refine ⟨?_, ?_⟩
    · unfold parseCapUgcCode at hcode
      split_ifs at hcode with hlen
      · cases hcode
      · obtain ⟨state, -, hcode⟩ := andThen_eq_some_iff.mp hcode
        obtain ⟨geoclass, -, hcode⟩ := andThen_eq_some_iff.mp hcode
        obtain ⟨number, hslice, -⟩ := andThen_eq_some_iff.mp hcode
        obtain ⟨digits, hdigits, hnumber⟩ := Option.map_eq_some_iff.mp hslice
        obtain ⟨⟨front, rest⟩, hsplit, hrest⟩ := Option.map_eq_some_iff.mp hdigits
        obtain rfl : rest = digits := hrest
        obtain ⟨rfl, hfront⟩ := Str.append_of_splitAtByte hsplit
        rw [Str.byteLen_append] at hlen
        exact ⟨front, rest, number, rfl, hfront, by omega, hnumber⟩
    · by_contra hcut
      rw [(parseCapUgcCode_eq_none_iff value).mpr hcut] at hcode
      cases hcode
  · rintro ⟨⟨front, digits, number, rfl, hfront, hdigits, hnumber⟩, hcut⟩
    have hlen : Str.byteLen (front ++ digits) = 6 := by rw [Str.byteLen_append, hfront, hdigits]
    obtain ⟨htwo, -⟩ := hcut hlen
    -- there is a class, as two of the first three bytes are cut off
    have hlong := three_le_length hfront hdigits htwo
    obtain ⟨state, hstate⟩ : ∃ state, Str.sliceTo 2 (front ++ digits) = some state := by
      rw [← Option.ne_none_iff_exists', Ne, Str.sliceTo_eq_none_iff, htwo]
      exact nofun
    have hclass : (front ++ digits)[2]? = some (front ++ digits)[2] :=
      List.getElem?_eq_getElem (by omega)
    have hslice : Str.sliceFrom 3 (front ++ digits) = some digits := by
      rw [← hfront, Str.sliceFrom_append]
    rw [parseCapUgcCode, if_neg (by simp [hlen]), hstate, hclass, hslice, Option.map_some,
      Option.map_some, hnumber]
    exact ⟨_, rfl⟩

/-! ## Areas -/

/-- The area codes of an alert are read without a panic exactly if there is no time for them, or
each of them is cut between characters. -/
theorem projectUgc_eq_none_iff (o : Outside) (area : CapArea)
    (expires referenceTime : Option DateTime) :
    projectUgc o area expires referenceTime = none ↔
      (expires.or referenceTime).isSome = true ∧
        ∃ value ∈ area.ugcValues, ¬ CutsBetweenCharacters value := by
  unfold projectUgc
  cases expires.or referenceTime with
  | none => simp
  | some time =>
      have hround : ∀ value, readUgcValue value = none ↔ ¬ CutsBetweenCharacters value := by
        intro value
        rw [readUgcValue, Option.map_eq_none_iff, parseCapUgcCode_eq_none_iff]
      simp only [← hround, ← mapM_eq_none_iff, Option.isSome_some, true_and]
      cases area.ugcValues.mapM readUgcValue with
      | none => simp
      | some results => simp

/-- A code that is not readable is reported, or the missing time is. -/
theorem mem_issues_of_projectUgc {o : Outside} {area : CapArea}
    {expires referenceTime : Option DateTime} {sections : List UgcSection}
    {issues : List ProductParseIssue}
    (h : projectUgc o area expires referenceTime = some (sections, issues)) {value : Str}
    (hvalue : value ∈ area.ugcValues) (hunreadable : ¬ IsReadableCode value) :
    missingReferenceTime ∈ issues ∨ invalidUgcCodes value ∈ issues := by
  unfold projectUgc at h
  cases htime : expires.or referenceTime with
  | none =>
      rw [htime] at h
      obtain ⟨pair, hpair, -⟩ := List.mem_map.mp hvalue
      obtain ⟨hmem, hname⟩ := List.mem_filter.mp hpair
      have hany : (area.geocodes.any fun pair => pair.name = "UGC".toList) = true :=
        List.any_eq_true.mpr ⟨pair, hmem, hname⟩
      rw [hany] at h
      obtain rfl : [missingReferenceTime] = issues := congrArg Prod.snd (Option.some.inj h)
      exact Or.inl List.mem_cons_self
  | some time =>
      rw [htime] at h
      obtain ⟨results, hresults, hrest⟩ := Option.bind_eq_some_iff.mp h
      obtain rfl : results.flatMap Prod.snd = issues := congrArg Prod.snd (Option.some.inj hrest)
      obtain ⟨result, hresult, hround⟩ := exists_mem_mapM hresults hvalue
      obtain ⟨code, hcode, rfl⟩ := Option.map_eq_some_iff.mp hround
      have hnone : code = none := by
        rw [Option.eq_none_iff_forall_ne_some]
        rintro code rfl
        exact hunreadable ((exists_code_iff value).mp ⟨code, hcode⟩).1
      refine Or.inr (List.mem_flatMap.mpr ⟨_, hresult, ?_⟩)
      rw [hnone]
      exact List.mem_cons_self

/-! ## Loops -/

variable (o : Outside) (extractors : List BodyExtractorId) (referenceTime : Option DateTime)

/-- A round of the inner loop panics exactly if its codes are not read. -/
theorem addArea_eq_none_iff (info : InfoProjection F) (s : Projection F) (area : CapArea) :
    s.addArea o extractors referenceTime info area = none ↔
      (info.expires.or referenceTime).isSome = true ∧
        ∃ value ∈ area.ugcValues, ¬ CutsBetweenCharacters value := by
  rw [← projectUgc_eq_none_iff o area, Projection.addArea]
  cases projectUgc o area info.expires referenceTime with
  | none => simp
  | some projected =>
      simp only [Option.bind_eq_bind, Option.bind_some]
      split_ifs <;> simp

/-- A round of the inner loop adds the issues of its codes. -/
theorem issues_of_addArea {info : InfoProjection F} {s s' : Projection F} {area : CapArea}
    (h : s.addArea o extractors referenceTime info area = some s') :
    ∃ sections ugcIssues polygonIssues,
      projectUgc o area info.expires referenceTime = some (sections, ugcIssues) ∧
        s'.issues = s.issues ++ ugcIssues ++ polygonIssues := by
  obtain ⟨⟨sections, ugcIssues⟩, hugc, hrest⟩ := Option.bind_eq_some_iff.mp h
  refine ⟨sections, ugcIssues, (projectPolygons (F := F) area).2, hugc, ?_⟩
  dsimp only at hrest
  split_ifs at hrest
  · rw [← Option.some.inj hrest]
  · rw [← Option.some.inj hrest]

/-- The inner loop keeps the issues. -/
theorem issues_subset_addArea {info : InfoProjection F} (s : Projection F) (area : CapArea)
    (s' : Projection F) (h : s.addArea o extractors referenceTime info area = some s') :
    s.issues ⊆ s'.issues := by
  obtain ⟨sections, ugcIssues, polygonIssues, -, hissues⟩ :=
    issues_of_addArea o extractors referenceTime h
  rw [hissues, List.append_assoc]
  exact List.subset_append_left _ _

/-- The area codes of a block. -/
def CapInfo.ugcValues (info : CapInfo) : List Str := info.areas.flatMap CapArea.ugcValues

/-- The area that stands for none has no codes. -/
theorem flatMap_areasOrDefault (info : CapInfo) :
    info.areasOrDefault.flatMap CapArea.ugcValues = info.ugcValues := by
  unfold CapInfo.areasOrDefault CapInfo.ugcValues
  split_ifs with hnone
  · rw [hnone]
    rfl
  · rfl

/-- The area codes of a block that are cut: all of them, if there is a time for them. -/
def cutValues (info : CapInfo) : List Str :=
  if ((preferredExpiry o info).or referenceTime).isSome then info.ugcValues else []

/-- A round of the outer loop panics exactly if a code of the block is cut inside a character. -/
theorem addInfo_eq_none_iff (s : Projection F) (info : CapInfo) :
    s.addInfo o extractors referenceTime info = none ↔
      ∃ value ∈ cutValues o referenceTime info, ¬ CutsBetweenCharacters value := by
  have hloop := foldlM_eq_none_iff (addArea_eq_none_iff o extractors referenceTime
    ⟨(projectVtec o info).1, (projectTimeMotLoc (F := F) o info).1,
      (projectWindHail (F := F) info).1, preferredExpiry o info⟩)
  rw [Projection.addInfo, hloop, cutValues]
  split_ifs with htime
  · simp only [htime, true_and, ← flatMap_areasOrDefault, List.mem_flatMap]
    constructor
    · rintro ⟨area, harea, value, hvalue, hcut⟩
      exact ⟨value, ⟨area, harea, hvalue⟩, hcut⟩
    · rintro ⟨value, ⟨area, harea, hvalue⟩, hcut⟩
      exact ⟨area, harea, value, hvalue, hcut⟩
  · simp [htime]

/-- The outer loop keeps the issues. -/
theorem issues_subset_addInfo (s : Projection F) (info : CapInfo) (s' : Projection F)
    (h : s.addInfo o extractors referenceTime info = some s') : s.issues ⊆ s'.issues := by
  have hloop := subset_of_foldlM Projection.issues
    (issues_subset_addArea o extractors referenceTime) h
  refine List.Subset.trans ?_ hloop
  rw [List.append_assoc, List.append_assoc]
  exact List.subset_append_left _ _

/-- A round of the outer loop reports each code of the block that is not readable. -/
theorem mem_issues_of_addInfo {s s' : Projection F} {info : CapInfo}
    (h : s.addInfo o extractors referenceTime info = some s') {value : Str}
    (hvalue : value ∈ info.ugcValues) (hunreadable : ¬ IsReadableCode value) :
    missingReferenceTime ∈ s'.issues ∨ invalidUgcCodes value ∈ s'.issues := by
  rw [← flatMap_areasOrDefault] at hvalue
  obtain ⟨area, harea, hvalue⟩ := List.mem_flatMap.mp hvalue
  obtain ⟨t, t', hround, hkept⟩ := exists_round_of_foldlM Projection.issues
    (issues_subset_addArea o extractors referenceTime) h harea
  obtain ⟨sections, ugcIssues, polygonIssues, hugc, hissues⟩ :=
    issues_of_addArea o extractors referenceTime hround
  have hin : ugcIssues ⊆ s'.issues := by
    intro issue hissue
    apply hkept
    rw [hissues]
    exact List.mem_append_left _ (List.mem_append_right _ hissue)
  rcases mem_issues_of_projectUgc hugc hvalue hunreadable with hmissing | hinvalid
  · exact Or.inl (hin hmissing)
  · exact Or.inr (hin hinvalid)

/-! ## Alerts -/

/-- The area codes of an alert. -/
def CapAlert.ugcValues (alert : CapAlert) : List Str := alert.infos.flatMap CapInfo.ugcValues

/-- No code of an alert that is read is cut inside a character. -/
def CodesOnBoundaries (alert : CapAlert) : Prop :=
  ∀ info ∈ alert.infos, ∀ value ∈ cutValues o referenceTime info, CutsBetweenCharacters value

/-- The projection of an alert panics exactly if a code is cut inside a character. -/
theorem projectCapAlert_eq_none_iff (alert : CapAlert) :
    projectCapAlert (F := F) o alert extractors referenceTime = none ↔
      ¬ CodesOnBoundaries o referenceTime alert := by
  rw [projectCapAlert, Option.map_eq_none_iff,
    foldlM_eq_none_iff (addInfo_eq_none_iff o extractors referenceTime), CodesOnBoundaries]
  push Not
  rfl

omit [FloatArith F] in
/-- What was reported in the loops is reported. -/
theorem issues_subset_finish (s : Projection F) : s.issues ⊆ s.finish.issues := by
  unfold Projection.finish
  split
  · exact List.Subset.refl _
  · dsimp only
    rw [List.append_assoc]
    exact List.subset_append_left _ _

/-- Each code of an alert that is not readable is reported, or the missing time is. -/
theorem mem_issues_of_projectCapAlert {alert : CapAlert} {outcome : BodyExtractionOutcome F}
    (h : projectCapAlert o alert extractors referenceTime = some outcome) {value : Str}
    (hvalue : value ∈ alert.ugcValues) (hunreadable : ¬ IsReadableCode value) :
    missingReferenceTime ∈ outcome.issues ∨ invalidUgcCodes value ∈ outcome.issues := by
  obtain ⟨s, hloop, rfl⟩ := Option.map_eq_some_iff.mp h
  obtain ⟨info, hinfo, hvalue⟩ := List.mem_flatMap.mp hvalue
  obtain ⟨t, t', hround, hkept⟩ := exists_round_of_foldlM Projection.issues
    (issues_subset_addInfo o extractors referenceTime) hloop hinfo
  have hin : t'.issues ⊆ s.finish.issues := List.Subset.trans hkept (issues_subset_finish s)
  rcases mem_issues_of_addInfo o extractors referenceTime hround hvalue hunreadable with
    hmissing | hinvalid
  · exact Or.inl (hin hmissing)
  · exact Or.inr (hin hinvalid)

/-! ## Texts -/

/-- What is read of a text without an alert element. -/
theorem parse_of_no_element {text : Str} (hno : ¬ HasAlertElement text)
    (horder : MarkersInOrder text) :
    ∃ issue, parseCapBodyWithIssues (F := F) o text extractors referenceTime =
      some ⟨none, [issue]⟩ := by
  rcases extractCapXml_of_no_element hno horder with hxml | hxml
  · exact ⟨_, by rw [parseCapBodyWithIssues, hxml]; rfl⟩
  -- the empty element is not an alert for the reader of XML
  · obtain ⟨error, herror⟩ : ∃ error, o.fromStr [] = .error error := by
      cases hread : o.fromStr [] with
      | error error => exact ⟨error, rfl⟩
      | ok alert => exact absurd hread (o.fromStr_nil alert)
    refine ⟨issueOf "cap_parse" "invalid_cap_xml"
      ("could not parse CAP XML payload: ".toList ++ error) none, ?_⟩
    rw [parseCapBodyWithIssues, hxml, Option.bind_eq_bind, Option.bind_some]
    dsimp only
    rw [parseCapAlert, herror]

/-- What is read of an alert element: an issue, if there is no block in it, or else the projection
of the alert. -/
theorem parse_of_element {text element : Str} (h : IsAlertElement text element) :
    (∃ issue, parseCapBodyWithIssues (F := F) o text extractors referenceTime =
        some ⟨none, [issue]⟩ ∧
      ∀ alert, o.fromStr (Str.trim element) = .ok alert → (alertOfXml o alert).infos = []) ∨
    ∃ alert, o.fromStr (Str.trim element) = .ok alert ∧
      parseCapBodyWithIssues (F := F) o text extractors referenceTime =
        projectCapAlert o (alertOfXml o alert) extractors referenceTime := by
  rw [parseCapBodyWithIssues, extractCapXml_of_element h, Option.bind_eq_bind, Option.bind_some]
  dsimp only
  rw [parseCapAlert]
  cases o.fromStr (Str.trim element) with
  | error error => exact Or.inl ⟨_, rfl, nofun⟩
  | ok alert =>
      by_cases hempty : (alertOfXml o alert).infos = []
      · refine Or.inl ⟨issueOf "cap_parse" "missing_cap_info"
          "CAP XML did not contain any info blocks".toList none, ?_, ?_⟩
        · simp only [hempty, if_true]
        · rintro _ ⟨⟩
          exact hempty
      · refine Or.inr ⟨alert, rfl, ?_⟩
        simp only [hempty, if_false]

/-- What the parser is to do with a text: it does not panic; a text without an alert element has an
issue; and each area code that is not readable is reported, or that there is no time for it. -/
def SafelyParsed (F : Type) [FloatArith F] (text : Str) : Prop :=
  ∃ outcome : BodyExtractionOutcome F,
    parseCapBodyWithIssues o text extractors referenceTime = some outcome ∧
    (¬ HasAlertElement text → outcome.issues ≠ []) ∧
    ∀ element alert, IsAlertElement text element → o.fromStr (Str.trim element) = .ok alert →
      ∀ value ∈ (alertOfXml o alert).ugcValues, ¬ IsReadableCode value →
        missingReferenceTime ∈ outcome.issues ∨ invalidUgcCodes value ∈ outcome.issues

/-- The markers are in order, and no code that is read is cut inside a character. -/
def CutsInOrder (text : Str) : Prop :=
  MarkersInOrder text ∧
    ∀ element alert, IsAlertElement text element → o.fromStr (Str.trim element) = .ok alert →
      CodesOnBoundaries o referenceTime (alertOfXml o alert)

/-- The parser does not panic exactly if the cuts are in order. -/
theorem parse_eq_none_iff (text : Str) :
    parseCapBodyWithIssues (F := F) o text extractors referenceTime = none ↔
      ¬ CutsInOrder o referenceTime text := by
  by_cases horder : MarkersInOrder text
  · by_cases helement : HasAlertElement text
    · obtain ⟨element, helement⟩ := helement
      constructor
      · rintro hpanic ⟨-, hcodes⟩
        rcases parse_of_element (F := F) o extractors referenceTime helement with
          ⟨issue, hparse, -⟩ | ⟨alert, hread, hparse⟩
        · rw [hparse] at hpanic
          cases hpanic
        · rw [hparse, projectCapAlert_eq_none_iff] at hpanic
          exact hpanic (hcodes element alert helement hread)
      · intro hcuts
        by_contra hparse
        refine hcuts ⟨horder, fun element alert helement hread => ?_⟩
        rcases parse_of_element (F := F) o extractors referenceTime helement with
          ⟨issue, -, hnoInfo⟩ | ⟨alert', hread', hproject⟩
        · rw [CodesOnBoundaries, hnoInfo alert hread]
          exact nofun
        · obtain rfl : alert' = alert := Except.ok.inj (hread'.symm.trans hread)
          rw [hproject, projectCapAlert_eq_none_iff, not_not] at hparse
          exact hparse
    · obtain ⟨issue, hparse⟩ :=
        parse_of_no_element (F := F) o extractors referenceTime helement horder
      rw [hparse]
      refine iff_of_false nofun (not_not.mpr ⟨horder, ?_⟩)
      intro element alert hfound
      exact absurd ⟨element, hfound⟩ helement
  · have hxml := (extractCapXml_eq_none_iff text).mpr horder
    rw [parseCapBodyWithIssues, hxml]
    exact iff_of_true rfl fun hcuts => horder hcuts.1

/-- **The parser of CAP bodies is safe exactly where its cuts are in order.**  It panics if the last
closing tag ends in front of the first opening marker, or if a code of six bytes is cut inside a
character; every other text that it cannot read is reported. -/
theorem safely_parsed_iff (text : Str) :
    SafelyParsed o extractors referenceTime F text ↔ CutsInOrder o referenceTime text := by
  constructor
  · rintro ⟨outcome, hparse, -⟩
    by_contra hcuts
    rw [(parse_eq_none_iff (F := F) o extractors referenceTime text).mpr hcuts] at hparse
    cases hparse
  · intro hcuts
    obtain ⟨outcome, hparse⟩ : ∃ outcome, parseCapBodyWithIssues (F := F) o text extractors
        referenceTime = some outcome := by
      rw [← Option.ne_none_iff_exists', Ne, parse_eq_none_iff, not_not]
      exact hcuts
    refine ⟨outcome, hparse, ?_, ?_⟩
    · intro hno
      obtain ⟨issue, hissue⟩ :=
        parse_of_no_element (F := F) o extractors referenceTime hno hcuts.1
      obtain rfl := Option.some.inj (hparse.symm.trans hissue)
      exact List.cons_ne_nil _ _
    · intro element alert helement hread value hvalue hunreadable
      rcases parse_of_element (F := F) o extractors referenceTime helement with
        ⟨issue, -, hnoInfo⟩ | ⟨alert', hread', hproject⟩
      · rw [CapAlert.ugcValues, hnoInfo alert hread] at hvalue
        cases hvalue
      · obtain rfl : alert' = alert := Except.ok.inj (hread'.symm.trans hread)
        rw [hproject] at hparse
        exact mem_issues_of_projectCapAlert o extractors referenceTime hparse hvalue hunreadable

/-- A reader that finds one area code in every text but the empty one. -/
def readerOf (code : Str) : Outside where
  fromStr xml :=
    if xml = [] then .error "unexpected end of file".toList
    else .ok ⟨[⟨none, [], [⟨none, [⟨"UGC".toList, code⟩]⟩]⟩]⟩
  fromStr_nil := by
    rintro alert ⟨⟩
  parseFromRfc3339 _ := none
  parseFromStr _ := none
  catalog := ⟨fun _ => none, fun _ => none⟩

/-- A closing tag in front of the opening marker, and a code with a character over its second and
third byte, are not parsed safely. -/
theorem closing_in_front_and_cut_code :
    ¬ SafelyParsed (readerOf "KYC047".toList) [] (some 0) Number "</alert>\n<?xml".toList ∧
      ¬ SafelyParsed (readerOf "aé123".toList) [] (some 0) Number "<alert></alert>".toList := by
  constructor
  · rintro ⟨outcome, hparse, -⟩
    have hpanic : extractCapXml "</alert>\n<?xml".toList = none := by decide
    rw [parseCapBodyWithIssues, hpanic] at hparse
    cases hparse
  · rintro ⟨outcome, hparse, -⟩
    have hpanic := (parse_eq_none_iff (F := Number) (readerOf "aé123".toList) [] (some 0)
      "<alert></alert>".toList).mpr
    rw [hparse] at hpanic
    refine absurd (hpanic ?_) nofun
    rintro ⟨-, hcodes⟩
    have helement : IsAlertElement "<alert></alert>".toList "<alert></alert>".toList :=
      ⟨by decide, [], [], by decide, by decide, by decide⟩
    have hcut := hcodes _ _ helement rfl _ List.mem_cons_self "aé123".toList (by decide)
    exact absurd (hcut (by decide)).1 (by decide)

end Parser.Cap
