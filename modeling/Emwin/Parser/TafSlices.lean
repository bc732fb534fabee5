/-
# Where the TAF parser slices inside a character

A group for wind is cut behind its third byte, and so is the wind of a group for wind shear.
The other slices are made in ASCII, and no preamble both amends and corrects a report.
-/
import Emwin.Parser.Taf

namespace Parser.Taf

open Aviation

/-! ## Groups for wind shear -/

/-- Whether a group for wind shear is cut between characters. -/
def shearOnBoundary (token : Str) : Bool :=
  match (Str.stripPrefix "WS".toList token).bind (Str.splitOnce '/') with
  | none => true
  | some (height, wind) =>
      match Str.parseUnsigned (2 ^ 32 - 1) height, Str.stripSuffix "KT".toList wind with
      | some _, some wind =>
          Str.byteLen height ≠ 3 || Str.byteLen wind ≠ 5 || Str.isCharBoundary 3 wind
      | _, _ => true

/-- Whether a token is a group for wind shear. -/
def isWindShear (token : Str) : Bool := (parseWindShear token).any Option.isSome

/-- Reading a group for wind shear panics exactly if its wind is cut inside a character. -/
theorem parseWindShear_eq_none_iff {token : Str} :
    parseWindShear token = none ↔ shearOnBoundary token = false := by
  unfold parseWindShear shearOnBoundary
  rcases (Str.stripPrefix "WS".toList token).bind (Str.splitOnce '/') with _ | ⟨height, wind⟩
  · simp
  dsimp only
  rcases Str.parseUnsigned (2 ^ 32 - 1) height with _ | value
  · simp
  rcases Str.stripSuffix "KT".toList wind with _ | wind
  · simp
  dsimp only
  by_cases hheight : Str.byteLen height = 3
  · by_cases hwind : Str.byteLen wind = 5
    · rw [if_neg (not_not.mpr hheight), if_neg (not_not.mpr hwind)]
      simp only [hheight, hwind, ne_eq, not_true_eq_false, decide_false, Bool.false_or,
        Str.isCharBoundary, Str.sliceTo, Str.sliceFrom]
      rcases Str.splitAtByte 3 wind with _ | ⟨direction, speed⟩
      · simp
      · simp only [Option.map_some, Option.bind_eq_bind, Option.bind_some, Option.isSome_some]
        cases parseU16 direction <;> simp
    · simp [hheight, hwind]
  · simp [hheight]

/-- What is looked at as wind shear begins with `W` and ends with `T`. -/
theorem ends_of_parseWindShear {token : Str} (h : parseWindShear token ≠ some none) :
    token.head? = some 'W' ∧ token.getLast? = some 'T' := by
  unfold parseWindShear at h
  rcases hsplit : (Str.stripPrefix "WS".toList token).bind (Str.splitOnce '/') with
    _ | ⟨height, wind⟩
  · rw [hsplit] at h
    exact absurd rfl h
  rw [hsplit] at h
  dsimp only at h
  rcases hsuffix : Str.stripSuffix "KT".toList wind with _ | front
  · rw [hsuffix] at h
    split_ifs at h
    · exact absurd rfl h
    · cases hheight : Str.parseUnsigned (2 ^ 32 - 1) height <;> rw [hheight] at h <;>
        exact absurd rfl h
  obtain ⟨core, hprefix, honce⟩ := Option.bind_eq_some_iff.mp hsplit
  rw [Str.append_of_stripPrefix hprefix, Str.append_of_splitOnce honce,
    Str.append_of_stripSuffix hsuffix]
  refine ⟨rfl, List.getLast?_eq_some_iff.mpr ⟨"WS".toList ++ height ++ '/' :: front ++ ['K'], ?_⟩⟩
  simp

/-- A token that begins with `W` is not wind. -/
theorem isWind_of_head {token : Str} (h : token.head? = some 'W') : isWind true token = false := by
  have hdirected : ∀ core : Str, core.head? = some 'W' ∨ core = [] →
      (parseDirectedWind true core).any Option.isSome = false := by
    intro core hcore
    unfold parseDirectedWind
    split
    · rfl
    · rcases hsplit : Str.splitAtByte 3 core with _ | ⟨direction, rest⟩
      · rfl
      · obtain ⟨rfl, hlen⟩ := Str.append_of_splitAtByte hsplit
        cases direction with
        | nil => cases hlen
        | cons c direction =>
            obtain rfl : c = 'W' := by simpa using hcore
            rfl
  unfold isWind parseWind
  rcases hsuffix : Str.stripSuffix "KT".toList token with _ | core
  · rfl
  have hcore : core.head? = some 'W' ∨ core = [] := by
    rw [Str.append_of_stripSuffix hsuffix] at h
    cases core with
    | nil => exact .inr rfl
    | cons c core => exact .inl (by simpa using h)
  dsimp only
  rcases hprefix : Str.stripPrefix "VRB".toList core with _ | rest
  · exact hdirected core hcore
  · rw [Str.append_of_stripPrefix hprefix] at hcore
    simp at hcore

/-- A token that ends with `T` is not visibility. -/
theorem isVisibilityToken_of_getLast {token : Str} (h : token.getLast? = some 'T') :
    isVisibilityToken token = false := by
  have hword : ∀ word : Str, word.getLast? ≠ some 'T' → token ≠ word := by
    rintro word hword rfl
    exact hword h
  have hmiles : "SM".toList.isSuffixOf token = false := by
    rw [← Bool.not_eq_true, List.isSuffixOf_iff_suffix]
    rintro ⟨front, rfl⟩
    simp at h
  rw [isVisibilityToken, hmiles, decide_eq_false (hword _ (by decide)),
    decide_eq_false (hword _ (by decide)), Bool.and_false]
  rfl

/-- What is neither looked at nor taken as wind shear. -/
theorem shear_of_parseWindShear {token : Str} (h : parseWindShear token = some none) :
    shearOnBoundary token = true ∧ isWindShear token = false := by
  have hnone : parseWindShear token = none ↔ shearOnBoundary token = false :=
    parseWindShear_eq_none_iff
  rw [h] at hnone
  refine ⟨by simpa using hnone, ?_⟩
  rw [isWindShear, h]
  rfl

/-! ## Conditions -/

@[simp] theorem pushOther_wind (conditions : TafConditions) (token : Str) :
    (conditions.pushOther token).wind = conditions.wind := by
  unfold TafConditions.pushOther
  repeat' split
  all_goals rfl

@[simp] theorem pushOther_windShear (conditions : TafConditions) (token : Str) :
    (conditions.pushOther token).windShear = conditions.windShear := by
  unfold TafConditions.pushOther
  repeat' split
  all_goals rfl

/-- A token that is not wind panics, or may end the search for wind shear. -/
theorem pushCalm_cases (conditions : TafConditions) (token : Str) :
    (conditions.pushCalm token = none ∧ conditions.windShear = none ∧
        shearOnBoundary token = false) ∨
      ∃ pushed, conditions.pushCalm token = some pushed ∧
        ¬ (conditions.windShear = none ∧ shearOnBoundary token = false) ∧
        pushed.wind = conditions.wind ∧
        (pushed.windShear = none ↔ conditions.windShear = none ∧ isWindShear token = false) := by
  unfold TafConditions.pushCalm
  by_cases hvisible : conditions.visibility = none ∧ isVisibilityToken token = true
  · have hshear : parseWindShear token = some none := by
      by_contra h
      rw [isVisibilityToken_of_getLast (ends_of_parseWindShear h).2] at hvisible
      exact absurd hvisible.2 (by decide)
    obtain ⟨hcut, his⟩ := shear_of_parseWindShear hshear
    rw [if_pos hvisible]
    exact .inr ⟨_, rfl, by simp [hcut], rfl, by simp [his]⟩
  rw [if_neg hvisible]
  rcases hs : conditions.windShear with _ | shear
  · have hnone : parseWindShear token = none ↔ shearOnBoundary token = false :=
      parseWindShear_eq_none_iff
    rw [Option.isNone_none, if_pos rfl, isWindShear]
    rcases hparsed : parseWindShear token with _ | _ | shear
    · exact .inl ⟨rfl, rfl, hnone.mp hparsed⟩
    · exact .inr ⟨_, rfl, by simp [(shear_of_parseWindShear hparsed).1], by simp, by simp [hs]⟩
    · rw [hparsed] at hnone
      exact .inr ⟨_, rfl, by simpa using hnone, rfl, by simp⟩
  · rw [Option.isNone_some, if_neg Bool.false_ne_true]
    exact .inr ⟨_, rfl, by simp, by simp, by simp [hs]⟩

/-- A round of the loop panics, or may end one of the searches. -/
theorem push_cases (conditions : TafConditions) (token : Str) :
    (conditions.push token = none ∧
        ((conditions.wind = none ∧ windOnBoundary token = false) ∨
          (conditions.windShear = none ∧ shearOnBoundary token = false))) ∨
      ∃ pushed, conditions.push token = some pushed ∧
        ¬ ((conditions.wind = none ∧ windOnBoundary token = false) ∨
          (conditions.windShear = none ∧ shearOnBoundary token = false)) ∧
        (pushed.wind = none ↔ conditions.wind = none ∧ isWind true token = false) ∧
        (pushed.windShear = none ↔ conditions.windShear = none ∧ isWindShear token = false) := by
  unfold TafConditions.push
  have hcalm := pushCalm_cases conditions token
  rcases hw : conditions.wind with _ | wind
  · have hnone : parseWind true token = none ↔ windOnBoundary token = false := parseWind_eq_none_iff
    rw [Option.isNone_none, if_pos rfl, isWind]
    rcases hparsed : parseWind true token with _ | _ | wind
    · exact .inl ⟨rfl, .inl ⟨rfl, hnone.mp hparsed⟩⟩
    · rw [hparsed] at hnone
      have hcut : windOnBoundary token = true := by simpa using hnone
      rcases hcalm with ⟨h, hcalm⟩ | ⟨pushed, h, hsafe, hwind, hshear⟩
      · exact .inl ⟨h, .inr hcalm⟩
      · exact .inr ⟨pushed, h, by simpa [hcut] using hsafe, by simp [hwind, hw], hshear⟩
    · rw [hparsed] at hnone
      have hcut : windOnBoundary token = true := by simpa using hnone
      have hshear : parseWindShear token = some none := by
        by_contra h
        have := isWind_of_head (ends_of_parseWindShear h).1
        rw [isWind, hparsed] at this
        cases this
      obtain ⟨hcut', his⟩ := shear_of_parseWindShear hshear
      exact .inr ⟨_, rfl, by simp [hcut, hcut'], by simp, by simp [his]⟩
  · rw [Option.isNone_some, if_neg Bool.false_ne_true]
    rcases hcalm with ⟨h, hcalm⟩ | ⟨pushed, h, hsafe, hwind, hshear⟩
    · exact .inl ⟨h, .inr hcalm⟩
    · exact .inr ⟨pushed, h, by simpa using hsafe, by simp [hwind, hw], hshear⟩

/-- The loop panics exactly if a token up to the first wind, or a token up to the first wind
shear, is cut inside a character. -/
theorem foldlM_push_eq_none_iff (conditions : TafConditions) (tokens : List Str) :
    tokens.foldlM TafConditions.push conditions = none ↔
      (conditions.wind = none ∧
          ∃ token ∈ upToFirst (isWind true) tokens, windOnBoundary token = false) ∨
        (conditions.windShear = none ∧
          ∃ token ∈ upToFirst isWindShear tokens, shearOnBoundary token = false) := by
  induction tokens generalizing conditions with
  | nil => simp [upToFirst]
  | cons token tokens ih =>
      rw [List.foldlM_cons, exists_upToFirst_cons, exists_upToFirst_cons, and_or_left, and_or_left,
        or_or_or_comm]
      rcases push_cases conditions token with ⟨hstep, hcut⟩ | ⟨pushed, hstep, hsafe, hwind, hshear⟩
      · exact iff_of_true (by rw [hstep]; rfl) (.inl hcut)
      · rw [hstep, Option.bind_eq_bind, Option.bind_some, ih, hwind, hshear, and_assoc, and_assoc,
          or_iff_right hsafe]

/-- Whether the groups for wind, and for wind shear, that are looked at among tokens are cut
between characters. -/
def ConditionsOnBoundaries (tokens : List Str) : Prop :=
  (∀ token ∈ upToFirst (isWind true) tokens, windOnBoundary token = true) ∧
    ∀ token ∈ upToFirst isWindShear tokens, shearOnBoundary token = true

theorem parseConditions_eq_none_iff (tokens : List Str) :
    parseConditions tokens = none ↔ ¬ ConditionsOnBoundaries tokens := by
  rw [parseConditions, foldlM_push_eq_none_iff, ConditionsOnBoundaries, not_and_or]
  simp

/-! ## Groups -/

/-- What stands in front of the conditions of a group. -/
def groupHeader (tokens : List Str) : Option GroupHeader := (parseGroupHeader tokens).getD none

/-- The digits behind `FM` are ASCII. -/
theorem parseFmHeader_ne_none (start : Str) (body : List Str) :
    parseFmHeader start body ≠ none := by
  unfold parseFmHeader
  split
  · exact nofun
  · next h =>
      obtain ⟨hlen, hdigits⟩ := not_or.mp h
      have hascii : Str.IsAscii start := Str.isAscii_of_isDigit (by simpa using hdigits)
      rw [Str.byteLen_of_ascii hascii] at hlen
      rw [Str.sliceTo_of_ascii hascii (by omega)]
      exact nofun

/-- A marker has a kind. -/
theorem parseMarkedHeader_ne_none {first : Str}
    (h : first ∈ ["TEMPO", "BECMG", "INTER"].map String.toList) (rest : List Str) :
    parseMarkedHeader first rest ≠ none := by
  have hkind : markerKind first ≠ none := by
    revert first
    decide
  unfold parseMarkedHeader
  repeat' split
  · exact Option.some_ne_none _
  · exact Option.some_ne_none _
  · exact fun hnone => hkind (Option.map_eq_none_iff.mp hnone)

/-- What stands in front of the conditions of a group never panics. -/
theorem parseGroupHeader_eq (tokens : List Str) :
    parseGroupHeader tokens = some (groupHeader tokens) := by
  have hne : parseGroupHeader tokens ≠ none := by
    unfold parseGroupHeader
    repeat' split
    · exact Option.some_ne_none _
    · exact parseFmHeader_ne_none _ _
    · next h => exact parseMarkedHeader_ne_none h _
    · exact Option.some_ne_none _
    · exact Option.some_ne_none _
  obtain ⟨header, h⟩ := Option.ne_none_iff_exists'.mp hne
  rw [groupHeader, h, Option.getD_some]

/-- Reading a group panics exactly if its conditions are cut inside a character. -/
theorem parseGroup_eq_none_iff (tokens : List Str) : parseGroup tokens = none ↔
    ∃ header, groupHeader tokens = some header ∧ ¬ ConditionsOnBoundaries header.body := by
  rw [parseGroup, parseGroupHeader_eq, Option.bind_eq_bind, Option.bind_some]
  cases groupHeader tokens with
  | none => simp
  | some header => simp [parseConditions_eq_none_iff]

/-- The tokens of a report that are read as conditions: those of its first segment, and those
of every segment that is a group. -/
def conditionTokens (remainder : Str) : List (List Str) :=
  match mergedSegments remainder with
  | [] => []
  | initial :: segments => initial :: segments.filterMap fun segment =>
      (groupHeader segment).map GroupHeader.body

theorem parseForecastGroups_eq_none_iff (remainder : Str) : parseForecastGroups remainder = none ↔
    ∃ tokens ∈ conditionTokens remainder, ¬ ConditionsOnBoundaries tokens := by
  unfold parseForecastGroups conditionTokens
  rcases mergedSegments remainder with _ | ⟨initial, segments⟩
  · simp
  dsimp only
  have hinitial := parseConditions_eq_none_iff initial
  have hgroups : segments.mapM parseGroup = none ↔ ∃ tokens ∈ segments.filterMap fun segment =>
      (groupHeader segment).map GroupHeader.body, ¬ ConditionsOnBoundaries tokens := by
    rw [mapM_eq_none_iff]
    simp only [parseGroup_eq_none_iff, List.mem_filterMap, Option.map_eq_some_iff]
    constructor
    · rintro ⟨segment, hmem, header, hheader, hcut⟩
      exact ⟨header.body, ⟨segment, hmem, header, hheader, rfl⟩, hcut⟩
    · rintro ⟨_, ⟨segment, hmem, header, hheader, rfl⟩, hcut⟩
      exact ⟨segment, hmem, header, hheader, hcut⟩
  rw [List.exists_mem_cons_iff, ← hinitial, ← hgroups]
  cases parseConditions initial with
  | none => simp
  | some conditions => cases segments.mapM parseGroup <;> simp

/-! ## Bulletins -/

/-- What stands in front of the conditions of a report. -/
def tafHeader (text : Str) : Option TafHeader := (parseTafHeader text).getD none

/-- No preamble amends and corrects. -/
theorem normalizedPrefix_of_parseTafPrefix {input rest : Str} {preamble : Preamble}
    (h : parseTafPrefix input = some (preamble, rest)) : preamble.normalizedPrefix ≠ none := by
  have hall : ∀ entry ∈ preambles, entry.2.normalizedPrefix ≠ none := by decide
  obtain ⟨⟨literal, found⟩, hfind, hfound⟩ := Option.bind_eq_some_iff.mp h
  obtain ⟨rfl, -⟩ := Prod.mk.inj (Option.some.inj hfound)
  exact hall _ (List.mem_of_find?_eq_some hfind)

/-- Reading the preamble never panics, and gives one that can be written. -/
theorem parsePreamble_cases (text : Str) :
    parsePreamble text = some none ∨
      ∃ preamble rest, parsePreamble text = some (some (preamble, rest)) ∧
        preamble.normalizedPrefix ≠ none := by
  unfold parsePreamble
  rcases hprefix : parseTafPrefix text with _ | ⟨preamble, rest⟩
  · have hled : ∃ led, looksLikeStationLedTafReport text = some led := by
      unfold looksLikeStationLedTafReport
      repeat' split
      · exact ⟨_, isTimeToken_eq _⟩
      · exact ⟨_, rfl⟩
      · exact ⟨_, rfl⟩
    obtain ⟨led, hled⟩ := hled
    rw [hled]
    cases led with
    | true => exact .inr ⟨⟨false, false⟩, text, rfl, nofun⟩
    | false => exact .inl rfl
  · exact .inr ⟨preamble, rest, rfl, normalizedPrefix_of_parseTafPrefix hprefix⟩

/-- What stands in front of the conditions never panics, and its preamble can be written. -/
theorem parseTafHeader_eq (text : Str) :
    parseTafHeader text = some (tafHeader text) ∧
      ∀ header ∈ tafHeader text, header.preamble.normalizedPrefix ≠ none := by
  suffices h : ∃ parsed, parseTafHeader text = some parsed ∧
      ∀ header ∈ parsed, header.preamble.normalizedPrefix ≠ none by
    obtain ⟨parsed, hparsed, hwritten⟩ := h
    rw [tafHeader, hparsed]
    exact ⟨rfl, hwritten⟩
  unfold parseTafHeader
  dsimp only
  generalize stripLeadingMarkerLine _ = compact
  rcases parsePreamble_cases compact with h | ⟨preamble, reportBody, h, hpreamble⟩
  · rw [h]
    exact ⟨none, rfl, nofun⟩
  rw [h, Option.bind_eq_bind, Option.bind_some]
  dsimp only
  rcases nextToken reportBody with _ | ⟨station, input⟩
  · exact ⟨none, rfl, nofun⟩
  dsimp only
  rcases nextToken input with _ | ⟨issueTime, input⟩
  · exact ⟨none, rfl, nofun⟩
  dsimp only
  split
  · exact ⟨none, rfl, nofun⟩
  rw [isTimeToken_eq, Option.map_some]
  split
  · exact ⟨none, rfl, nofun⟩
  · refine ⟨_, rfl, ?_⟩
    rintro header ⟨⟩
    exact hpreamble

/-- The parser panics exactly if one of the groups that it looks at is cut inside a character. -/
theorem parseTafBulletin_eq_none_iff (text : Str) : parseTafBulletin text = none ↔
    ∃ header, tafHeader text = some header ∧
      ∃ tokens ∈ conditionTokens header.remainder, ¬ ConditionsOnBoundaries tokens := by
  obtain ⟨hheader, hwritten⟩ := parseTafHeader_eq text
  rw [parseTafBulletin, hheader, Option.bind_eq_bind, Option.bind_some]
  rcases htaf : tafHeader text with _ | header
  · simp
  have hgroups := parseForecastGroups_eq_none_iff header.remainder
  obtain ⟨normalized, hnormalized⟩ := Option.ne_none_iff_exists'.mp (hwritten header htaf)
  simp only [Option.some.injEq, exists_eq_left', ← hgroups]
  cases parseForecastGroups header.remainder with
  | none => simp
  | some groups => simp [hnormalized]

end Parser.Taf
