/-
# VTEC and HVTEC codes in one text

A flood bulletin carries both: under the VTEC code of the flood stands the HVTEC code of its
gauge.  The two readers go over the same slashes, and each leaves alone what the other one
reads, because a VTEC code begins with a field of one letter and an HVTEC code with a field of
five.  So codes of both kinds, mixed in any order with text between them, are read back as they
were printed.  The text may have slashes of its own, as in `545 PM CDT /445 PM MDT/`, as long as
nothing between them is taken for a code.

An HVTEC code does not keep the marks it was read from: two marks stand for no severity, and any
unknown mark for the other causes.  They are therefore printed beside the code.
-/
import Emwin.Lib.Ascii
import Emwin.Parser.VtecRoundTrip

namespace Parser

open Calendar Chrono

/-! ## Texts between slashes -/

variable {predicate : Str → Bool}

/-- Some texts between slashes, each followed by another text. -/
def printSlashed (pieces : List (Str × Str)) : Str :=
  pieces.flatMap fun piece => '/' :: piece.1 ++ '/' :: piece.2

/-- The same text with nothing between those slashes. -/
def printEmptied (pieces : List (Str × Str)) : Str :=
  printSlashed (pieces.map fun piece => ([], piece.2))

/-- Behind a slash no candidate begins in front of it. -/
theorem scan_append_slash (front behind : Str) :
    scanSlashDelimitedCandidates predicate (front ++ '/' :: behind) =
      scanSlashDelimitedCandidates predicate (front ++ ['/']) ++
        scanSlashDelimitedCandidates predicate ('/' :: behind) := by
  induction front with
  | nil => rfl
  | cons c front ih =>
      -- the second slash of a candidate is in the text up to the slash
      have hbetween :
          betweenSlashes (front ++ '/' :: behind) = betweenSlashes (front ++ ['/']) := by
        rw [List.append_cons, betweenSlashes_append (by simp)]
      rw [List.cons_append, List.cons_append, scanSlashDelimitedCandidates,
        scanSlashDelimitedCandidates, hbetween, ih, List.append_assoc]

/-- If the text around some slashed texts has no candidates, the candidates are among these. -/
theorem scan_slashed {pieces : List (Str × Str)} (hpieces : ∀ piece ∈ pieces, '/' ∉ piece.1)
    {first : Str} (haround :
      scanSlashDelimitedCandidates predicate (first ++ printEmptied pieces) = []) :
    scanSlashDelimitedCandidates predicate (first ++ printSlashed pieces) =
      (pieces.map fun piece => '/' :: piece.1 ++ ['/']).filter predicate := by
  induction pieces generalizing first with
  | nil => exact haround
  | cons piece pieces ih =>
      obtain ⟨hinner, hrest⟩ := List.forall_mem_cons.mp hpieces
      have hsplit : ∀ inner rest, first ++ printSlashed ((inner, piece.2) :: rest) =
          first ++ '/' :: (inner ++ '/' :: (piece.2 ++ printSlashed rest)) := by
        intro inner rest
        simp [printSlashed]
      have hcandidates : ∀ inner rest, '/' ∉ inner →
          scanSlashDelimitedCandidates predicate
              (first ++ printSlashed ((inner, piece.2) :: rest)) =
            scanSlashDelimitedCandidates predicate (first ++ ['/']) ++
              ([ '/' :: inner ++ ['/'] ].filter predicate ++
                scanSlashDelimitedCandidates predicate ('/' :: piece.2 ++ printSlashed rest)) := by
        intro inner rest hslash
        rw [hsplit, scan_append_slash, ← List.cons_append,
          scanSlashDelimitedCandidates_slash hslash]
        rfl
      have hnone : scanSlashDelimitedCandidates predicate (first ++ ['/']) = [] ∧
          scanSlashDelimitedCandidates predicate ('/' :: piece.2 ++ printEmptied pieces) = [] := by
        rw [printEmptied, List.map_cons, hcandidates [] _ List.not_mem_nil] at haround
        simp only [List.append_eq_nil_iff] at haround
        exact ⟨haround.1, haround.2.2⟩
      rw [hcandidates piece.1 pieces hinner, hnone.1, List.nil_append, ih hrest hnone.2,
        ← List.filter_append]
      rfl

/-- A reader that accepts exactly the texts with a value, and reads the values off them. -/
structure ReadsOwn {α β : Type} (predicate : Str → Bool) (parse : Str → Except ProductParseIssue α)
    (textOf : β → Str) (value : β → Option α) (c : β) : Prop where
  accepted : predicate ('/' :: textOf c ++ ['/']) = (value c).isSome
  parsed : ∀ v, value c = some v → parse ('/' :: textOf c ++ ['/']) = .ok v

variable {α β : Type} {parse : Str → Except ProductParseIssue α} {textOf : β → Str}
  {value : β → Option α}

/-- What is accepted among printed texts is read without issues. -/
theorem results_of_readsOwn {codes : List (β × Str)}
    (hreads : ∀ c ∈ codes, ReadsOwn predicate parse textOf value c.1) :
    ((codes.map fun c => '/' :: textOf c.1 ++ ['/']).filter predicate).map parse =
      (codes.filterMap fun c => value c.1).map .ok := by
  induction codes with
  | nil => rfl
  | cons c codes ih =>
      obtain ⟨hread, hrest⟩ := List.forall_mem_cons.mp hreads
      cases hvalue : value c.1 with
      | none =>
          have hrejected : ¬ predicate ('/' :: textOf c.1 ++ ['/']) = true := by
            rw [hread.accepted, hvalue]
            exact Bool.false_ne_true
          rw [List.map_cons, List.filter_cons_of_neg hrejected, ih hrest,
            List.filterMap_cons_none (f := fun c : β × Str => value c.1) hvalue]
      | some v =>
          have haccepted : predicate ('/' :: textOf c.1 ++ ['/']) = true := by
            rw [hread.accepted, hvalue]
            rfl
          rw [List.map_cons, List.filter_cons_of_pos haccepted, List.map_cons, ih hrest,
            hread.parsed v hvalue,
            List.filterMap_cons_some (f := fun c : β × Str => value c.1) hvalue, List.map_cons]

/-- **One reader.**  Of the texts between slashes it gives the values of its own, in order, and
no issue. -/
theorem parseCodes_slashed {first : Str} {codes : List (β × Str)}
    (hreads : ∀ c ∈ codes, ReadsOwn predicate parse textOf value c.1)
    (hcodes : ∀ c ∈ codes, '/' ∉ textOf c.1)
    (haround : scanSlashDelimitedCandidates predicate
      (first ++ printEmptied (codes.map fun c => (textOf c.1, c.2))) = []) :
    parseCodes predicate parse
        (first ++ printSlashed (codes.map fun c => (textOf c.1, c.2))) =
      (codes.filterMap fun c => value c.1, []) := by
  have hpieces : ∀ piece ∈ codes.map fun c => (textOf c.1, c.2), '/' ∉ piece.1 := by
    intro piece hpiece
    obtain ⟨c, hc, rfl⟩ := List.mem_map.mp hpiece
    exact hcodes c hc
  simp only [parseCodes, scan_slashed hpieces haround, List.map_map]
  have hresults := results_of_readsOwn hreads
  refine Prod.ext ?_ ?_
  · refine (congrArg (List.filterMap Except.toOption) hresults).trans ?_
    rw [List.filterMap_map]
    exact List.filterMap_some
  · refine (congrArg (List.filterMap _) hresults).trans ?_
    rw [List.filterMap_map]
    exact List.filterMap_eq_nil_iff.mpr fun _ _ => rfl

/-! ## Printing HVTEC -/

/-- What a code says in marks. -/
structure HvtecMarks where
  severity : Str
  cause : Str
  record : Str
  deriving DecidableEq

/-- What stands between the slashes of an HVTEC code. -/
def hvtecText (marks : HvtecMarks) (code : HvtecCode) : Str :=
  ['.'].intercalate [code.nwslid, marks.severity, marks.cause, printCodeTime code.beginTime,
    printCodeTime code.crestTime, printCodeTime code.endTime, marks.record]

variable {nwslidEntry : Str → Option NwslidEntry} {parseFromStr : Str → Option DateTime}
  {marks : HvtecMarks} {code : HvtecCode}

/-- A code that can be printed with some marks. -/
structure HvtecCode.Printable (nwslidEntry : Str → Option NwslidEntry) (marks : HvtecMarks)
    (code : HvtecCode) : Prop where
  nwslid : isValidNwslid code.nwslid = true
  location : code.location = nwslidEntry code.nwslid
  severityMark : marks.severity ∈ [['N'], ['0'], ['1'], ['2'], ['3'], ['U']]
  severity : code.severity = .fromStr marks.severity
  causeMark : marks.cause.length = 2 ∧ marks.cause.all Char.isUpper = true
  cause : code.cause = .fromStr marks.cause
  recordMark : '.' ∉ marks.record ∧ '/' ∉ marks.record
  record : code.record = .fromStr marks.record
  beginTime : ∀ t, code.beginTime = some t → PrintableTime t
  crestTime : ∀ t, code.crestTime = some t → PrintableTime t
  endTime : ∀ t, code.endTime = some t → PrintableTime t

/-- A field of letters and digits has no other character. -/
theorem notMem_of_all {test : Char → Bool} {field : Str} {c : Char} (hall : field.all test = true)
    (hc : test c = false) : c ∉ field := by
  intro hmem
  rw [List.all_eq_true.mp hall c hmem] at hc
  cases hc

/-- The fields of a printed code have neither dots nor slashes. -/
theorem hvtecFields_plain (h : code.Printable nwslidEntry marks) {c : Char}
    (hc : c = '.' ∨ c = '/') :
    ∀ field ∈ [code.nwslid, marks.severity, marks.cause, printCodeTime code.beginTime,
      printCodeTime code.crestTime, printCodeTime code.endTime, marks.record], c ∉ field := by
  have hnwslid : code.nwslid.all Char.isAlphanum = true := by
    have hvalid := h.nwslid
    rw [isValidNwslid, Bool.and_eq_true] at hvalid
    exact hvalid.2
  have hseverity : ∀ mark ∈ [['N'], ['0'], ['1'], ['2'], ['3'], ['U']],
      '.' ∉ mark ∧ '/' ∉ mark := by decide
  have htime : ∀ time : Option DateTime, c ∉ printCodeTime time := by
    intro time
    rcases hc with rfl | rfl
    · exact notMem_printCodeTime (by decide) (by decide) (by decide)
    · exact notMem_printCodeTime (by decide) (by decide) (by decide)
  intro field hfield
  simp only [List.mem_cons, List.not_mem_nil, or_false] at hfield
  rcases hfield with rfl | rfl | rfl | rfl | rfl | rfl | rfl
  · apply notMem_of_all hnwslid
    rcases hc with rfl | rfl <;> rfl
  · rcases hc with rfl | rfl
    · exact (hseverity _ h.severityMark).1
    · exact (hseverity _ h.severityMark).2
  · apply notMem_of_all h.causeMark.2
    rcases hc with rfl | rfl <;> rfl
  · exact htime _
  · exact htime _
  · exact htime _
  · rcases hc with rfl | rfl
    · exact h.recordMark.1
    · exact h.recordMark.2

/-- A text of fields between dots has no other slashes than its fields. -/
theorem slash_notMem_intercalate {fields : List Str} (h : ∀ field ∈ fields, '/' ∉ field) :
    '/' ∉ ['.'].intercalate fields := by
  induction fields with
  | nil => simp
  | cons field fields ih =>
      obtain ⟨hfield, hrest⟩ := List.forall_mem_cons.mp h
      cases fields with
      | nil => simpa using hfield
      | cons next fields =>
          rw [List.intercalate_cons_cons]
          simp only [List.mem_append, List.mem_singleton, not_or]
          exact ⟨⟨hfield, by decide⟩, ih hrest⟩

theorem slash_notMem_hvtecText (h : code.Printable nwslidEntry marks) :
    '/' ∉ hvtecText marks code :=
  slash_notMem_intercalate (hvtecFields_plain h (Or.inr rfl))

/-- The fields of a printed code. -/
theorem fields_hvtecText (h : code.Printable nwslidEntry marks) :
    (innerText ('/' :: hvtecText marks code ++ ['/'])).map (·.splitOn '.') =
      some [code.nwslid, marks.severity, marks.cause, printCodeTime code.beginTime,
        printCodeTime code.crestTime, printCodeTime code.endTime, marks.record] := by
  rw [innerText_slashes, Option.map_some, hvtecText,
    List.splitOn_intercalate _ (hvtecFields_plain h (Or.inl rfl)) (by simp)]

/-! ## One code -/

/-- **Times.**  An HVTEC time is read as a VTEC time is, but none is dropped for its age. -/
theorem parseHvtecOptionalTime_print (hreads : ReadsCodeTimes parseFromStr)
    {time : Option DateTime} (hprintable : ∀ t, time = some t → PrintableTime t) :
    parseHvtecOptionalTime parseFromStr (printCodeTime time) = some time := by
  cases time with
  | none => rfl
  | some t =>
      have hvtec := parseVtecTimeOrUnspecified_print hreads hprintable true []
      rw [parseVtecTimeOrUnspecified] at hvtec
      by_cases hnone : printCodeTime (some t) = unspecifiedTime
      · rw [if_pos hnone] at hvtec
        cases hvtec
      · rw [if_neg hnone] at hvtec
        rw [parseHvtecOptionalTime, if_neg hnone]
        cases hparse : parseCodeTime parseFromStr (printCodeTime (some t)) with
        | none =>
            rw [hparse] at hvtec
            cases hvtec
        | some parsed =>
            rw [hparse] at hvtec
            dsimp only at hvtec
            split_ifs at hvtec
            · cases hvtec
            · cases hvtec
              rfl

/-- **One code.**  A printed HVTEC code is read back. -/
theorem parseHvtecCandidate_print (hreads : ReadsCodeTimes parseFromStr)
    (h : code.Printable nwslidEntry marks) :
    parseHvtecCandidate nwslidEntry parseFromStr ('/' :: hvtecText marks code ++ ['/']) =
      .ok code := by
  rw [parseHvtecCandidate, fields_hvtecText h]
  dsimp only
  rw [parseHvtecOptionalTime_print hreads h.beginTime,
    parseHvtecOptionalTime_print hreads h.crestTime,
    parseHvtecOptionalTime_print hreads h.endTime]
  dsimp only
  rw [← h.location, ← h.severity, ← h.cause, ← h.record]

/-- A printed HVTEC code is a candidate. -/
theorem isStructurallyHvtecCandidate_print (h : code.Printable nwslidEntry marks) :
    isStructurallyHvtecCandidate ('/' :: hvtecText marks code ++ ['/']) = true := by
  have hascii : Str.IsAscii marks.cause := by
    intro c hc
    exact toNat_of_isUpper (List.all_eq_true.mp h.causeMark.2 c hc)
  have hlength : Str.byteLen marks.cause = 2 := by
    rw [Str.byteLen_of_ascii hascii]
    exact h.causeMark.1
  rw [isStructurallyHvtecCandidate, fields_hvtecText h]
  dsimp only
  rw [h.nwslid, hlength, h.causeMark.2, decide_eq_true h.severityMark]
  rfl

/-! ## Each reader leaves the other's codes alone -/

/-- A printed VTEC code is no HVTEC code: its first field is one letter. -/
theorem isStructurallyHvtecCandidate_vtec {vtec : VtecCode} (h : vtec.Printable) (width : ℕ) :
    isStructurallyHvtecCandidate (printVtec width vtec) = false := by
  have hfields : (innerText (printVtec width vtec)).map (·.splitOn '.') =
      some [[vtec.status], vtec.action, vtec.office, vtec.phenomena, [vtec.significance],
        padded width vtec.etn,
        printCodeTime vtec.beginTime ++ '-' :: printCodeTime vtec.endTime] := by
    rw [printVtec, innerText_slashes, Option.map_some, vtecText,
      List.splitOn_intercalate _ (vtecFields_dot h width) (by simp)]
  have hascii : Str.IsAscii [vtec.status] := by
    intro c hc
    rw [List.mem_singleton.mp hc]
    exact toNat_of_isUpper h.status
  have hshort : isValidNwslid [vtec.status] = false := by
    rw [isValidNwslid, Str.byteLen_of_ascii hascii]
    rfl
  rw [isStructurallyHvtecCandidate, hfields]
  dsimp only
  rw [hshort]
  rfl

/-- A printed HVTEC code is no VTEC code: no dot stands behind its first letter. -/
theorem isVtecCandidate_hvtec (h : code.Printable nwslidEntry marks) :
    isVtecCandidate ('/' :: hvtecText marks code ++ ['/']) = false := by
  have hvalid := h.nwslid
  rw [isValidNwslid, Bool.and_eq_true, beq_iff_eq] at hvalid
  rw [Str.byteLen_of_ascii (Str.isAscii_of_isAlphanum hvalid.2)] at hvalid
  obtain ⟨c, c', rest, heq⟩ : ∃ c c' rest, code.nwslid = c :: c' :: rest := by
    match code.nwslid, hvalid.1 with
    | c :: c' :: rest, _ => exact ⟨c, c', rest, rfl⟩
  have hdot : c' ≠ '.' := by
    rintro rfl
    have hplain : '.' ∉ code.nwslid := notMem_of_all hvalid.2 (by decide)
    rw [heq] at hplain
    simp at hplain
  have hbegin : ∃ tail, '/' :: hvtecText marks code ++ ['/'] = '/' :: c :: c' :: tail := by
    rw [hvtecText, List.intercalate_cons_cons, heq]
    exact ⟨_, rfl⟩
  obtain ⟨tail, htail⟩ := hbegin
  rw [htail, isVtecCandidate, decide_eq_false hdot, Bool.and_false]

/-! ## Both kinds in prose -/

/-- A code of either kind, with how it is printed. -/
inductive SlashCode where
  | vtec (width : ℕ) (code : VtecCode)
  | hvtec (marks : HvtecMarks) (code : HvtecCode)

namespace SlashCode

/-- What stands between the slashes. -/
def inner : SlashCode → Str
  | vtec width code => vtecText width code
  | hvtec marks code => hvtecText marks code

/-- The code if it is a VTEC code. -/
def vtecCode : SlashCode → Option VtecCode
  | vtec _ code => some code
  | hvtec _ _ => none

/-- The code if it is an HVTEC code. -/
def hvtecCode : SlashCode → Option HvtecCode
  | vtec _ _ => none
  | hvtec _ code => some code

/-- A code that can be printed. -/
def Printable (nwslidEntry : Str → Option NwslidEntry) : SlashCode → Prop
  | vtec _ code => code.Printable
  | hvtec marks code => code.Printable nwslidEntry marks

theorem slash_notMem_inner {c : SlashCode} (h : c.Printable nwslidEntry) : '/' ∉ c.inner := by
  cases c with
  | vtec width code => exact slash_notMem_vtecText h width
  | hvtec marks code => exact slash_notMem_hvtecText h

/-- The reader of VTEC codes reads those among them. -/
theorem reads_vtec (hreads : ReadsCodeTimes parseFromStr) {c : SlashCode}
    (h : c.Printable nwslidEntry) :
    ReadsOwn isVtecCandidate (parseVtecCandidate parseFromStr) inner vtecCode c := by
  cases c with
  | vtec width code =>
      refine ⟨isVtecCandidate_print h width, ?_⟩
      rintro _ ⟨⟩
      exact parseVtecCandidate_print hreads h width
  | hvtec marks code =>
      refine ⟨isVtecCandidate_hvtec h, ?_⟩
      rintro _ ⟨⟩

/-- The reader of HVTEC codes reads those among them. -/
theorem reads_hvtec (hreads : ReadsCodeTimes parseFromStr) {c : SlashCode}
    (h : c.Printable nwslidEntry) :
    ReadsOwn isStructurallyHvtecCandidate (parseHvtecCandidate nwslidEntry parseFromStr) inner
      hvtecCode c := by
  cases c with
  | vtec width code =>
      refine ⟨isStructurallyHvtecCandidate_vtec h width, ?_⟩
      rintro _ ⟨⟩
  | hvtec marks code =>
      refine ⟨isStructurallyHvtecCandidate_print h, ?_⟩
      rintro _ ⟨⟩
      exact parseHvtecCandidate_print hreads h

end SlashCode

/-- Codes of both kinds, each followed by a text. -/
def printSlashCodes (codes : List (SlashCode × Str)) : Str :=
  printSlashed (codes.map fun c => (c.1.inner, c.2))

/-- The text around the codes, with nothing between the slashes of a code. -/
def textAround (first : Str) (codes : List (SlashCode × Str)) : Str :=
  first ++ printEmptied (codes.map fun c => (c.1.inner, c.2))

/-- **Round trip.**  Of codes of both kinds printed in a text that holds no other code, each reader
gives those of its kind, in order and without issues. -/
theorem slash_codes_round_trip (nwslidEntry : Str → Option NwslidEntry)
    (parseFromStr : Str → Option DateTime) (hreads : ReadsCodeTimes parseFromStr) (first : Str)
    (codes : List (SlashCode × Str)) (hcodes : ∀ c ∈ codes, c.1.Printable nwslidEntry)
    (hvtec : scanSlashDelimitedCandidates isVtecCandidate (textAround first codes) = [])
    (hhvtec : scanSlashDelimitedCandidates isStructurallyHvtecCandidate
      (textAround first codes) = []) :
    parseVtecCodesWithIssues parseFromStr (first ++ printSlashCodes codes) =
        (codes.filterMap fun c => c.1.vtecCode, []) ∧
      parseHvtecCodesWithIssues nwslidEntry parseFromStr (first ++ printSlashCodes codes) =
        (codes.filterMap fun c => c.1.hvtecCode, []) := by
  have hslash : ∀ c ∈ codes, '/' ∉ c.1.inner := by
    intro c hc
    exact SlashCode.slash_notMem_inner (hcodes c hc)
  constructor
  · refine parseCodes_slashed (fun c hc => ?_) hslash hvtec
    exact SlashCode.reads_vtec hreads (hcodes c hc)
  · refine parseCodes_slashed (fun c hc => ?_) hslash hhvtec
    exact SlashCode.reads_hvtec hreads (hcodes c hc)

/-- A flood warning with its times in two zones: its VTEC code, and under it the HVTEC code of the
gauge. -/
theorem slash_codes_round_trip_flood :
    let begins := utc (daysFromCivil ⟨2025, 3, 1⟩) 43200
    let warning : VtecCode := ⟨'O', "NEW".toList, "KSHV".toList, "FL".toList, 'W', 7, some begins,
      none⟩
    let gauge : HvtecCode := ⟨"MSRM1".toList, none, .major, .excessiveRainfall, some begins, none,
      none, .noRecord⟩
    let marks : HvtecMarks := ⟨['3'], "ER".toList, "NO".toList⟩
    let text := "Flood until 545 PM CDT /445 PM MDT/\n".toList ++
      printSlashCodes [(.vtec 4 warning, ['\n']), (.hvtec marks gauge, ['\n'])]
    parseVtecCodesWithIssues readCodeTime text = ([warning], []) ∧
      parseHvtecCodesWithIssues (fun _ => none) readCodeTime text = ([gauge], []) := by
  intro begins warning gauge marks text
  have hbegins : PrintableTime begins := ⟨rfl, by decide, by decide⟩
  have hwarning : warning.Printable := by
    refine ⟨rfl, by decide, by decide, by decide, by decide, by decide, ?_, ?_⟩
    · rintro _ ⟨⟩
      exact hbegins
    · rintro _ ⟨⟩
  have hgauge : gauge.Printable (fun _ => none) marks := by
    refine ⟨by decide, rfl, by decide, rfl, by decide, rfl, by decide, rfl, ?_, ?_, ?_⟩
    · rintro _ ⟨⟩
      exact hbegins
    · rintro _ ⟨⟩
    · rintro _ ⟨⟩
  refine slash_codes_round_trip (fun _ => none) readCodeTime readsCodeTimes_readCodeTime
    "Flood until 545 PM CDT /445 PM MDT/\n".toList
    [(.vtec 4 warning, ['\n']), (.hvtec marks gauge, ['\n'])] ?_ (by decide +kernel)
    (by decide +kernel)
  intro c hc
  simp only [List.mem_cons, List.not_mem_nil, or_false] at hc
  rcases hc with rfl | rfl
  · exact hwarning
  · exact hgauge

end Parser
