/-
# Where the UGC parser slices inside a character

Two slices of `body/ugc.rs` are guarded by a length only: the six bytes in front of the last
hyphen, which `has_ugc_expiration_suffix` takes, and the first two bytes of a segment, which
`parse_full_ugc_segment` takes.  The parser panics exactly if one of them is cut inside a
character (`parse_ugc_total_iff`).
-/
import Emwin.Parser.Ugc

namespace Parser

open Chrono

/-! ## The expiration suffix -/

/-- The slice in front of the last hyphen begins between two characters, if it is taken. -/
def SuffixOnBoundary (text : Str) : Prop :=
  8 ≤ Str.byteLen text → text.getLast? = some '-' →
    Str.isCharBoundary (Str.byteLen text - 7) text = true

/-- The hyphen is one byte. -/
theorem byteLen_append_hyphen (body : Str) :
    Str.byteLen (body ++ ['-']) = Str.byteLen body + 1 := by
  rw [Str.byteLen_append]
  rfl

/-- The suffix of a text that ends in a hyphen. -/
theorem hasUgcExpirationSuffix_append_hyphen {body : Str} (h : 7 ≤ Str.byteLen body) :
    hasUgcExpirationSuffix (body ++ ['-']) =
      (Str.sliceFrom (Str.byteLen body - 6) body).map fun digits =>
        digits.all Char.isDigit &&
          Str.byteAt (Str.byteLen body - 7) (body ++ ['-']) == some 0x2D := by
  have hlen := byteLen_append_hyphen body
  have hstart : Str.byteLen (body ++ ['-']) - 7 = Str.byteLen body - 6 := by omega
  have hend : Str.byteLen (body ++ ['-']) - 1 = Str.byteLen body := by omega
  have hbyte : Str.byteLen (body ++ ['-']) - 8 = Str.byteLen body - 7 := by omega
  unfold hasUgcExpirationSuffix
  rw [if_pos ⟨by omega, by simp⟩, hstart, hend, hbyte, Str.slice_byteLen]
  cases Str.sliceFrom (Str.byteLen body - 6) body <;> rfl

/-- Either no slice is taken, or the text ends in a hyphen. -/
theorem suffix_cases (text : Str) :
    (hasUgcExpirationSuffix text = some false ∧ SuffixOnBoundary text) ∨
      ∃ body, text = body ++ ['-'] ∧ 7 ≤ Str.byteLen body := by
  by_cases h : 8 ≤ Str.byteLen text ∧ text.getLast? = some '-'
  · obtain ⟨body, rfl⟩ := List.getLast?_eq_some_iff.mp h.2
    have hlen := h.1
    rw [byteLen_append_hyphen] at hlen
    exact .inr ⟨body, rfl, by omega⟩
  · refine .inl ⟨by rw [hasUgcExpirationSuffix, if_neg h], ?_⟩
    intro hlen hlast
    exact absurd ⟨hlen, hlast⟩ h

/-- The test for the suffix panics exactly if its slice is cut inside a character. -/
theorem hasUgcExpirationSuffix_eq_none_iff (text : Str) :
    hasUgcExpirationSuffix text = none ↔ ¬ SuffixOnBoundary text := by
  obtain ⟨hfalse, hsafe⟩ | ⟨body, rfl, hlen⟩ := suffix_cases text
  · simp [hfalse, hsafe]
  · have hstart : Str.byteLen body + 1 - 7 = Str.byteLen body - 6 := by omega
    rw [hasUgcExpirationSuffix_append_hyphen hlen, Option.map_eq_none_iff,
      Str.sliceFrom_eq_none_iff, SuffixOnBoundary, byteLen_append_hyphen, hstart,
      Str.isCharBoundary_append (by omega)]
    simp
    omega

/-- A complete text: codes, a hyphen, six digits, and a hyphen. -/
theorem exists_of_hasUgcExpirationSuffix {text : Str}
    (h : hasUgcExpirationSuffix text = some true) :
    ∃ block digits, text = block ++ '-' :: digits ++ ['-'] ∧ digits.length = 6 ∧
      ∀ c ∈ digits, c.isDigit = true := by
  obtain ⟨hfalse, -⟩ | ⟨body, rfl, hlen⟩ := suffix_cases text
  · rw [hfalse] at h
    cases h
  · rw [hasUgcExpirationSuffix_append_hyphen hlen, Option.map_eq_some_iff] at h
    obtain ⟨digits, hslice, hcheck⟩ := h
    rw [Bool.and_eq_true, List.all_eq_true, beq_iff_eq] at hcheck
    obtain ⟨hdigits, hbyte⟩ := hcheck
    obtain ⟨⟨front, tail⟩, hsplit, htail⟩ := Option.map_eq_some_iff.mp hslice
    obtain rfl : tail = digits := htail
    obtain ⟨rfl, hfront⟩ := Str.append_of_splitAtByte hsplit
    have hsix : tail.length = 6 := by
      rw [← Str.byteLen_of_ascii (Str.isAscii_of_isDigit hdigits)]
      rw [Str.byteLen_append] at hlen hfront
      omega
    obtain ⟨block, c, rest, happend, hblock, hc⟩ :=
      Str.exists_append_of_byteAt hbyte (by decide)
    obtain rfl : c = '-' := Char.toNat_inj.mp hc
    -- the byte found is the last one of `front`
    obtain ⟨rfl, -⟩ := Str.append_inj_of_byteLen (a := front) (b := tail ++ ['-'])
      (c := block ++ ['-']) (d := rest) (by simpa using happend) (by
        rw [byteLen_append_hyphen, hblock, hfront]
        omega)
    exact ⟨block, tail, by simp, hsix, hdigits⟩

/-- Such a text is complete, whatever its codes are. -/
theorem hasUgcExpirationSuffix_of_digits (block : Str) {digits : Str} (hsix : digits.length = 6)
    (hdigits : ∀ c ∈ digits, c.isDigit = true) :
    hasUgcExpirationSuffix (block ++ '-' :: digits ++ ['-']) = some true := by
  have hbytes : Str.byteLen digits = 6 := by
    rw [Str.byteLen_of_ascii (Str.isAscii_of_isDigit hdigits), hsix]
  have hfront : Str.byteLen (block ++ ['-']) = Str.byteLen block + 1 := byteLen_append_hyphen block
  have hbody : Str.byteLen (block ++ '-' :: digits) = Str.byteLen block + 7 := by
    rw [Str.byteLen_append, Str.byteLen_cons, hbytes]
    rfl
  have h6 : Str.byteLen block + 7 - 6 = Str.byteLen (block ++ ['-']) := by omega
  have h7 : Str.byteLen block + 7 - 7 = Str.byteLen block + 0 := by omega
  have hslice : Str.sliceFrom (Str.byteLen (block ++ ['-'])) (block ++ '-' :: digits) =
      some digits := by
    simpa using Str.sliceFrom_append (block ++ ['-']) digits
  have hbyte : Str.byteAt (Str.byteLen block + 0) (block ++ '-' :: digits ++ ['-']) =
      some 0x2D := by
    rw [List.append_assoc, Str.byteAt_append]
    rfl
  rw [hasUgcExpirationSuffix_append_hyphen (by omega), hbody, h6, h7, hslice, hbyte]
  simpa using hdigits

/-- Such a text is taken apart at the hyphen. -/
theorem extractExpiration_of_digits (block : Str) {digits : Str} (hsix : digits.length = 6)
    (hdigits : ∀ c ∈ digits, c.isDigit = true) :
    extractExpiration (block ++ '-' :: digits ++ ['-']) = some (some (block, digits)) := by
  have hbytes : Str.byteLen digits = 6 := by
    rw [Str.byteLen_of_ascii (Str.isAscii_of_isDigit hdigits), hsix]
  have hlen : Str.byteLen (block ++ '-' :: digits ++ ['-']) = Str.byteLen block + 8 := by
    rw [byteLen_append_hyphen, Str.byteLen_append, Str.byteLen_cons, hbytes]
    show Str.byteLen block + (1 + 6) + 1 = _
    omega
  have hfront : Str.byteLen (block ++ ['-']) = Str.byteLen block + 1 := byteLen_append_hyphen block
  have hblock : Str.sliceTo (Str.byteLen block) (block ++ '-' :: digits ++ ['-']) = some block := by
    simpa using Str.sliceTo_append block ('-' :: digits ++ ['-'])
  have hslice : Str.slice (Str.byteLen block + 1) (Str.byteLen block + 7)
      (block ++ '-' :: digits ++ ['-']) = some digits := by
    have := Str.slice_append (block ++ ['-']) digits ['-']
    rw [hfront, hbytes] at this
    simpa using this
  have h8 : Str.byteLen block + 8 - 8 = Str.byteLen block := by omega
  have h7 : Str.byteLen block + 8 - 7 = Str.byteLen block + 1 := by omega
  have h1 : Str.byteLen block + 8 - 1 = Str.byteLen block + 7 := by omega
  rw [extractExpiration, hasUgcExpirationSuffix_of_digits block hsix hdigits, hlen, h8, h7, h1,
    hblock, hslice]
  rfl

/-- Six digits are read without cutting a character. -/
theorem parseExpireTime_isSome {digits : Str} (hsix : digits.length = 6)
    (hdigits : ∀ c ∈ digits, c.isDigit = true) (validTime : DateTime) :
    (parseExpireTime digits validTime).isSome := by
  have hascii := Str.isAscii_of_isDigit hdigits
  have hfield : ∀ i, i + 2 ≤ 6 → ∃ value, expireField i digits = some value := by
    intro i hi
    refine ⟨Str.parseUnsigned (2 ^ 32 - 1) ((digits.take (i + 2)).drop i), ?_⟩
    rw [expireField, Str.slice_of_ascii hascii (by omega) (by omega)]
    rfl
  obtain ⟨day, hday⟩ := hfield 0 (by omega)
  obtain ⟨hour, hhour⟩ := hfield 2 (by omega)
  obtain ⟨minute, hminute⟩ := hfield 4 (by omega)
  rw [parseExpireTime, if_neg (by rw [Str.byteLen_of_ascii hascii]; omega), hday, hhour, hminute]
  cases day <;> cases hour <;> cases minute <;> rfl

/-! ## The texts that are tested -/

/-- The texts that `collect_ugc_candidate` tests for the suffix: a first line, and what comes
of joining one line after another. -/
def testedTexts (combined : Str) : List Str → List Str
  | [] => [combined]
  | nextLine :: lines =>
      combined ::
        if hasUgcExpirationSuffix combined = some false ∧ Str.trim nextLine ≠ [] ∧
            startsNewSectionHeader (Str.trim nextLine) = false then
          testedTexts (combined ++ compactUgcText (Str.trim nextLine)) lines
        else []

/-- Collecting panics exactly if one of the tests does. -/
theorem collectLines_eq_none_iff (combined : Str) (lines : List Str) :
    collectLines combined lines = none ↔
      ∃ text ∈ testedTexts combined lines, hasUgcExpirationSuffix text = none := by
  induction lines generalizing combined with
  | nil => simp [collectLines, testedTexts]
  | cons nextLine lines ih =>
      rw [collectLines, testedTexts, List.exists_mem_cons_iff]
      cases hsuffix : hasUgcExpirationSuffix combined with
      | none => simp
      | some complete =>
          cases complete with
          | true => simp
          | false =>
              by_cases hnext : Str.trim nextLine = [] ∨
                  startsNewSectionHeader (Str.trim nextLine) = true
              · rcases hnext with hnext | hnext <;> simp [hnext]
              · obtain ⟨hblank, hheader⟩ := not_or.mp hnext
                rw [Bool.not_eq_true] at hheader
                simp only [hblank, hheader, Option.bind_eq_bind, Option.bind_some,
                  Bool.false_eq_true, if_false, or_self, false_or, ne_eq, not_false_eq_true,
                  and_self, if_true, ← ih, reduceCtorEq]
                cases collectLines (combined ++ compactUgcText (Str.trim nextLine)) lines <;> simp

/-- What was collected has been tested. -/
theorem suffix_of_collectLines {combined joined : Str} {lines : List Str} {further : ℕ}
    (h : collectLines combined lines = some (joined, further)) :
    hasUgcExpirationSuffix joined ≠ none := by
  induction lines generalizing combined further with
  | nil =>
      obtain ⟨complete, hcomplete, heq⟩ := Option.map_eq_some_iff.mp h
      obtain rfl : combined = joined := congrArg Prod.fst heq
      simp [hcomplete]
  | cons nextLine lines ih =>
      rw [collectLines] at h
      cases hsuffix : hasUgcExpirationSuffix combined with
      | none => simp [hsuffix] at h
      | some complete =>
          by_cases hstop : complete = true ∨ Str.trim nextLine = [] ∨
              startsNewSectionHeader (Str.trim nextLine) = true
          · obtain rfl : combined = joined := by
              rcases hstop with hstop | hstop
              · simp [hsuffix, hstop] at h
                exact h.1
              · cases complete <;> simp [hsuffix, hstop] at h <;> exact h.1
            simp [hsuffix]
          · simp only [not_or, Bool.not_eq_true] at hstop
            obtain ⟨rfl, hblank, hheader⟩ := hstop
            simp only [hsuffix, hblank, hheader, Option.bind_eq_bind, Option.bind_some,
              Bool.false_eq_true, if_false, or_self, Option.bind_eq_some_iff] at h
            obtain ⟨⟨joined', further'⟩, hrest, heq⟩ := h
            simp only [Option.some.injEq, Prod.mk.injEq] at heq
            obtain ⟨rfl, -⟩ := heq
            exact ih hrest

/-- A candidate panics exactly if one of its tests does. -/
theorem collectUgcCandidate_eq_none_iff (firstLine : Str) (lines : List Str) :
    collectUgcCandidate firstLine lines = none ↔
      ∃ text ∈ testedTexts (compactUgcText firstLine) lines, ¬ SuffixOnBoundary text := by
  simp only [← hasUgcExpirationSuffix_eq_none_iff, ← collectLines_eq_none_iff]
  unfold collectUgcCandidate
  cases hcollect : collectLines (compactUgcText firstLine) lines with
  | none => simp
  | some found =>
      obtain ⟨joined, further⟩ := found
      cases hsuffix : hasUgcExpirationSuffix joined with
      | none => exact absurd hsuffix (suffix_of_collectLines hcollect)
      | some complete => simp [hsuffix]

/-- A candidate is complete. -/
theorem complete_of_collectUgcCandidate {firstLine candidate : Str} {lines : List Str} {further : ℕ}
    (h : collectUgcCandidate firstLine lines = some (some candidate, further)) :
    hasUgcExpirationSuffix candidate = some true := by
  unfold collectUgcCandidate at h
  cases hcollect : collectLines (compactUgcText firstLine) lines with
  | none => simp [hcollect] at h
  | some found =>
      obtain ⟨joined, n⟩ := found
      cases hsuffix : hasUgcExpirationSuffix joined with
      | none => simp [hcollect, hsuffix] at h
      | some complete =>
          cases complete with
          | false => simp [hcollect, hsuffix] at h
          | true =>
              simp only [hcollect, hsuffix, Option.bind_eq_bind, Option.bind_some, if_true,
                Option.some.injEq, Prod.mk.injEq] at h
              rw [← h.1]
              exact hsuffix

/-! ## The segments that are read -/

/-- The slice in front of the class lies between two characters, if it is taken. -/
def PrefixOnBoundary (segment : Str) : Prop :=
  6 ≤ Str.byteLen segment → Str.isCharBoundary 2 segment = true

/-- Reading a full segment panics exactly if the slice of the state is cut inside a character:
the slice behind the class follows an ASCII letter. -/
theorem parseFullUgcSegment_eq_none_iff (segment : Str) :
    parseFullUgcSegment segment = none ↔ ¬ PrefixOnBoundary segment := by
  unfold parseFullUgcSegment PrefixOnBoundary
  by_cases hlen : Str.byteLen segment < 6
  · rw [if_pos hlen]
    simp
    omega
  · rw [if_neg hlen]
    cases hstate : Str.sliceTo 2 segment with
    | none =>
        rw [Str.sliceTo_eq_none_iff] at hstate
        simp [hstate]
        omega
    | some state =>
        have hboundary : Str.isCharBoundary 2 segment = true := by
          rw [← Bool.not_eq_false, ← Str.sliceTo_eq_none_iff, hstate]
          simp
        have hclass : Char.ofNat (((Str.byteAt 2 segment).map UInt8.toNat).getD 0) ∈
            ['C', 'Z', 'F', 'M'] → ∃ numeric, Str.sliceFrom 3 segment = some numeric := by
          intro hmem
          cases hbyte : Str.byteAt 2 segment with
          | none => simp [hbyte] at hmem
          | some b =>
              have hascii : b.toNat < 128 := by
                have hb := b.toNat_lt
                have hnat : (Char.ofNat b.toNat).toNat = b.toNat :=
                  Utf8.toNat_ofNat_char (.inl (by omega))
                rw [← hnat]
                simp only [hbyte, Option.map_some, Option.getD_some, List.mem_cons,
                  List.not_mem_nil, or_false] at hmem
                rcases hmem with h | h | h | h <;> rw [h] <;> decide
              obtain ⟨u, c, v, rfl, hu, hc⟩ := Str.exists_append_of_byteAt hbyte hascii
              have h3 : Str.byteLen (u ++ [c]) = 3 := by
                rw [Str.byteLen_append, hu, Str.byteLen_cons, Str.utf8Size_of_ascii (by omega)]
                rfl
              refine ⟨v, ?_⟩
              rw [← h3]
              simpa using Str.sliceFrom_append (u ++ [c]) v
        simp only [hboundary, Option.bind_eq_bind, Option.bind_some, implies_true,
          not_true_eq_false, iff_false]
        split_ifs with hupper hmem
        · simp
        · obtain ⟨numeric, hnumeric⟩ := hclass hmem
          simp [hnumeric]
        · simp

/-- Reading a segment panics exactly if reading it as a full one does. -/
theorem parseUgcSegment_eq_none_iff (segment : Str) (currentPrefix : Option (Str × UgcClass)) :
    parseUgcSegment segment currentPrefix = none ↔ parseFullUgcSegment segment = none := by
  unfold parseUgcSegment
  cases parseFullUgcSegment segment with
  | none => simp
  | some full =>
      cases full with
      | none =>
          by_cases hnumeric : isUgcNumericSequence segment = true
          · cases currentPrefix <;> simp [hnumeric]
          · simp [hnumeric]
      | some full => simp

/-- The segments of a block that are read, up to the first that cannot be. -/
def readSegments (currentPrefix : Option (Str × UgcClass)) : List Str → List Str
  | [] => []
  | segment :: segments =>
      if segment = [] then readSegments currentPrefix segments
      else Str.trim segment ::
        match parseUgcSegment (Str.trim segment) currentPrefix with
        | some (some (_, currentPrefix)) => readSegments currentPrefix segments
        | _ => []

/-- Expanding a block panics exactly if reading one of its segments does. -/
theorem expandSegments_eq_none_iff (currentPrefix : Option (Str × UgcClass))
    (segments : List Str) :
    expandSegments currentPrefix segments = none ↔
      ∃ segment ∈ readSegments currentPrefix segments, ¬ PrefixOnBoundary segment := by
  simp only [← parseFullUgcSegment_eq_none_iff]
  induction segments generalizing currentPrefix with
  | nil => simp [expandSegments, readSegments]
  | cons segment segments ih =>
      rw [expandSegments, readSegments]
      by_cases hempty : segment = []
      · rw [if_pos hempty, if_pos hempty, ih]
      · rw [if_neg hempty, if_neg hempty, List.exists_mem_cons_iff,
          ← parseUgcSegment_eq_none_iff _ currentPrefix]
        cases hsegment : parseUgcSegment (Str.trim segment) currentPrefix with
        | none => simp
        | some parsed =>
            cases parsed with
            | none => simp
            | some parsed =>
                obtain ⟨codes, nextPrefix⟩ := parsed
                simp only [Option.bind_eq_bind, Option.bind_some, reduceCtorEq, false_or, ← ih]
                cases expandSegments nextPrefix segments <;> simp

/-- The segments of a candidate that are read. -/
def candidateSegments (candidate : Str) : List Str :=
  match extractExpiration candidate with
  | some (some (codeBlock, _)) =>
      readSegments none (codeBlock.splitOnP fun c => c = ',' || c = '-')
  | _ => []

/-- Parsing a complete candidate panics exactly if reading one of its segments does. -/
theorem parseUgcCapture_eq_none_iff (catalog : UgcCatalog) {candidate : Str}
    (h : hasUgcExpirationSuffix candidate = some true) (validTime : DateTime) :
    parseUgcCapture catalog candidate validTime = none ↔
      ∃ segment ∈ candidateSegments candidate, ¬ PrefixOnBoundary segment := by
  obtain ⟨block, digits, rfl, hsix, hdigits⟩ := exists_of_hasUgcExpirationSuffix h
  have hextract := extractExpiration_of_digits block hsix hdigits
  obtain ⟨expires, hexpires⟩ :=
    Option.isSome_iff_exists.mp (parseExpireTime_isSome hsix hdigits validTime)
  rw [candidateSegments, hextract]
  simp only [← expandSegments_eq_none_iff]
  rw [parseUgcCapture, hextract]
  simp only [expandUgcBlock, Option.bind_eq_bind, Option.bind_some]
  cases expandSegments none (block.splitOnP fun c => c = ',' || c = '-') with
  | none => simp
  | some codes =>
      simp only [Option.bind_some, hexpires]
      cases codes.filter (· ≠ []) with
      | none => simp
      | some codes => cases expires <;> simp

/-! ## Texts that are parsed -/

/-- The texts that are tested for the suffix while a text is parsed. -/
def ugcTestedTexts (text : Str) : List Str :=
  (Lines.scanned isUgcStart collectUgcCandidate (iterCandidateLines text)).flatMap
    fun (firstLine, lines) => testedTexts (compactUgcText firstLine) lines

/-- The segments that are read while a text is parsed. -/
def ugcReadSegments (text : Str) : List Str :=
  ((extractUgcCandidates text).getD []).flatMap candidateSegments

/-- The parser returns if and only if every text it tests for the expiration suffix, being of
eight bytes or more and ending in a hyphen, has a character boundary seven bytes before its
end, and every segment it reads, being of six bytes or more, has one behind its first two
bytes. -/
theorem parse_ugc_total_iff (catalog : UgcCatalog) (text : Str) (validTime : DateTime) :
    (parseUgcSectionsWithIssues catalog text validTime).isSome = true ↔
      (∀ tested ∈ ugcTestedTexts text, SuffixOnBoundary tested) ∧
        ∀ segment ∈ ugcReadSegments text, PrefixOnBoundary segment := by
  have hextract : extractUgcCandidates text = none ↔
      ∃ tested ∈ ugcTestedTexts text, ¬ SuffixOnBoundary tested := by
    unfold extractUgcCandidates ugcTestedTexts
    simp only [Lines.scan_eq_none_iff, collectUgcCandidate_eq_none_iff, List.mem_flatMap]
    constructor
    · rintro ⟨block, hblock, tested, htested, hcut⟩
      exact ⟨tested, ⟨block, hblock, htested⟩, hcut⟩
    · rintro ⟨tested, ⟨block, hblock, htested⟩, hcut⟩
      exact ⟨block, hblock, tested, htested, hcut⟩
  rw [Option.isSome_iff_ne_none, parseUgcSectionsWithIssues, ugcReadSegments]
  cases hcandidates : extractUgcCandidates text with
  | none =>
      obtain ⟨tested, htested, hcut⟩ := hextract.mp hcandidates
      simp only [Option.bind_eq_bind, Option.bind_none, ne_eq, not_true_eq_false, false_iff,
        not_and]
      intro hsafe
      exact absurd (hsafe tested htested) hcut
  | some candidates =>
      have hsafe : ∀ tested ∈ ugcTestedTexts text, SuffixOnBoundary tested := by
        intro tested htested
        by_contra hcut
        rw [hextract.mpr ⟨tested, htested, hcut⟩] at hcandidates
        cases hcandidates
      have hcapture : ∀ candidate ∈ candidates,
          parseUgcCapture catalog candidate validTime = none ↔
            ∃ segment ∈ candidateSegments candidate, ¬ PrefixOnBoundary segment := by
        intro candidate hmem
        obtain ⟨first, -, further, hcollect⟩ := Lines.exists_scanned_of_mem hcandidates hmem
        exact parseUgcCapture_eq_none_iff catalog
          (complete_of_collectUgcCandidate hcollect) validTime
      have hresults : candidates.mapM
          (fun candidate => parseUgcCapture catalog candidate validTime) =
          none ↔ ∃ segment ∈ candidates.flatMap candidateSegments, ¬ PrefixOnBoundary segment := by
        rw [mapM_eq_none_iff]
        simp only [List.mem_flatMap]
        constructor
        · rintro ⟨candidate, hmem, hnone⟩
          obtain ⟨segment, hsegment, hcut⟩ := (hcapture candidate hmem).mp hnone
          exact ⟨segment, ⟨candidate, hmem, hsegment⟩, hcut⟩
        · rintro ⟨segment, ⟨candidate, hmem, hsegment⟩, hcut⟩
          exact ⟨candidate, hmem, (hcapture candidate hmem).mpr ⟨segment, hsegment, hcut⟩⟩
      rw [Option.bind_eq_bind, Option.bind_some, Option.getD_some, and_iff_right hsafe]
      constructor
      · intro hsome segment hsegment
        by_contra hcut
        rw [hresults.mpr ⟨segment, hsegment, hcut⟩] at hsome
        exact hsome rfl
      · intro hsegments hnone
        cases hmap : candidates.mapM fun candidate =>
          parseUgcCapture catalog candidate validTime with
        | none =>
            obtain ⟨segment, hsegment, hcut⟩ := hresults.mp hmap
            exact hcut (hsegments segment hsegment)
        | some results =>
            rw [hmap] at hnone
            cases hnone

/-- A character of two bytes stands where the suffix would begin. -/
theorem parse_ugc_panics :
    ¬ ∀ (catalog : UgcCatalog) (text : Str) (validTime : DateTime),
      (parseUgcSectionsWithIssues catalog text validTime).isSome = true := by
  intro h
  have := h ⟨fun _ => none, fun _ => none⟩ "IAC001-é12345-".toList 0
  revert this
  decide +kernel

end Parser
