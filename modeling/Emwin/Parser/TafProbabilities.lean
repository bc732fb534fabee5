/-
# Reading the groups of a TAF

A group is read with its own conditions, whatever probability it takes, because a probability says
nothing about conditions.  The probabilities themselves are those that were printed exactly if
`TEMPO`, `INTER` and `BECMG` have none behind them (`groups_read_iff`).
-/
import Emwin.Parser.TafGroups

namespace Parser.Taf

open Aviation

/-! ## Probabilities among conditions -/

/-- The probability that a token names. -/
def tokenProbability (token : Str) : Option ℕ := (Str.stripPrefix "PROB".toList token).bind parseU8

/-- The probability at the end of tokens. -/
def lastProbability (tokens : List Str) : Option ℕ := tokens.getLast?.bind tokenProbability

/-- A number ends with a digit. -/
theorem getLast_of_parseUnsigned {bound n : ℕ} {s : Str} (h : Str.parseUnsigned bound s = some n) :
    ∃ front c, s = front ++ [c] ∧ c.isDigit = true := by
  unfold Str.parseUnsigned at h
  dsimp only at h
  split_ifs at h with hdigits
  have hlast : ∀ digits : Str, digits ≠ [] → digits.all Char.isDigit = true →
      ∃ front c, digits = front ++ [c] ∧ c.isDigit = true := by
    intro digits hne hall
    have hmem := List.getLast_mem hne
    exact ⟨_, _, (List.dropLast_append_getLast hne).symm, List.all_eq_true.mp hall _ hmem⟩
  split at hdigits
  · obtain ⟨front, c, rfl, hc⟩ := hlast _ hdigits.1 hdigits.2.1
    exact ⟨'+' :: front, c, rfl, hc⟩
  · exact hlast _ hdigits.1 hdigits.2.1

/-- A probability begins with a `P` and ends with a digit. -/
theorem ends_of_tokenProbability {token : Str} {n : ℕ} (h : tokenProbability token = some n) :
    ∃ front c, token = "PROB".toList ++ front ++ [c] ∧ c.isDigit = true := by
  obtain ⟨digits, hprefix, hparse⟩ := Option.bind_eq_some_iff.mp h
  obtain ⟨front, c, rfl, hc⟩ := getLast_of_parseUnsigned hparse
  exact ⟨front, c, by rw [Str.append_of_stripPrefix hprefix, List.append_assoc], hc⟩

/-- A probability says nothing about conditions. -/
theorem push_of_tokenProbability {token : Str} {n : ℕ} (h : tokenProbability token = some n)
    (conditions : TafConditions) : conditions.push token = some conditions := by
  obtain ⟨front, c, rfl, hc⟩ := ends_of_tokenProbability h
  have hlast : ∀ d, d.isDigit = false →
      ∀ s, "PROB".toList ++ front ++ [c] ≠ s ++ [d] := by
    intro d hd s heq
    obtain rfl : c = d := by simpa using (List.append_inj' heq rfl).2
    rw [hd] at hc
    cases hc
  have hwind : parseWind true ("PROB".toList ++ front ++ [c]) = some none := by
    unfold parseWind
    cases hsuffix : Str.stripSuffix "KT".toList ("PROB".toList ++ front ++ [c]) with
    | none => rfl
    | some core =>
        have happend := Str.append_of_stripSuffix hsuffix
        exact absurd (happend.trans (by simp)) (hlast 'T' (by decide) (core ++ ['K']))
  have hvisible : isVisibilityToken ("PROB".toList ++ front ++ [c]) = false := by
    have hmiles : "SM".toList.isSuffixOf ("PROB".toList ++ front ++ [c]) = false := by
      rw [← Bool.not_eq_true, List.isSuffixOf_iff_suffix]
      rintro ⟨s, heq⟩
      exact hlast 'M' (by decide) (s ++ ['S']) (heq.symm.trans (by simp))
    rw [isVisibilityToken, hmiles, Bool.and_false]
    simp
  have hshear : parseWindShear ("PROB".toList ++ front ++ [c]) = some none := rfl
  have hsky : parseSkyCondition ("PROB".toList ++ front ++ [c]) = none := rfl
  have htrim : ∀ d, d.isDigit = false → d ≠ 'P' →
      Str.trimMatches d ("PROB".toList ++ front ++ [c]) = "PROB".toList ++ front ++ [c] := by
    intro d hd hP
    have hfront : ("PROB".toList ++ front ++ [c]).dropWhile (· = d) =
        "PROB".toList ++ front ++ [c] :=
      List.dropWhile_cons_of_neg (show ¬ decide ('P' = d) = true by simpa using hP.symm)
    rw [Str.trimMatches, hfront, List.rdropWhile_concat_neg]
    intro heq
    rw [of_decide_eq_true heq, hd] at hc
    cases hc
  have hupper : c.isUpper = false := Str.isUpper_of_isDigit hc
  have hweather : isWeatherToken ("PROB".toList ++ front ++ [c]) = false := by
    unfold isWeatherToken
    rw [htrim '+' (by decide) (by decide), htrim '-' (by decide) (by decide)]
    simp [hupper]
  have hother : conditions.pushOther ("PROB".toList ++ front ++ [c]) = conditions := by
    unfold TafConditions.pushOther
    rw [hsky, hweather]
    rfl
  have hcalm : conditions.pushCalm ("PROB".toList ++ front ++ [c]) = some conditions := by
    unfold TafConditions.pushCalm
    rw [hvisible, hshear, hother, if_neg (by simp)]
    split_ifs <;> simp
  unfold TafConditions.push
  rw [hwind, hcalm]
  exact ite_self _

/-- Conditions are read token by token. -/
theorem parseConditions_concat (tokens : List Str) (token : Str) :
    parseConditions (tokens ++ [token]) =
      (parseConditions tokens).bind fun conditions => conditions.push token := by
  rw [parseConditions, List.foldlM_append, ← parseConditions]
  simp

/-- A probability behind conditions is not seen. -/
theorem parseConditions_probability {token : Str} {n : ℕ} (h : tokenProbability token = some n)
    (tokens : List Str) : parseConditions (tokens ++ [token]) = parseConditions tokens := by
  rw [parseConditions_concat]
  cases parseConditions tokens with
  | none => rfl
  | some conditions => exact push_of_tokenProbability h conditions

/-! ## Groups -/

theorem tokenProbability_text (probability : Probability) :
    tokenProbability probability.text = some probability.percent := by
  cases probability <;> decide

/-- A validity range is read. -/
theorem parseValidityRange_token (validity : Validity) :
    parseValidityRange validity.token = some (validity.validFrom.text, validity.validTo.text) := by
  obtain ⟨⟨front, hfront, hfrontDigits⟩, ⟨back, hback, hbackDigits⟩⟩ := validity
  have hslash : '/' ∉ front := fun h => absurd (hfrontDigits _ h) (by decide)
  rw [Validity.token, parseValidityRange, Str.splitOnce_append hslash, Option.bind_eq_bind,
    Option.bind_some]
  refine if_pos ⟨?_, ?_, List.all_eq_true.mpr hfrontDigits, List.all_eq_true.mpr hbackDigits⟩
  · rw [Str.byteLen_of_ascii (Str.isAscii_of_isDigit hfrontDigits), hfront]
  · rw [Str.byteLen_of_ascii (Str.isAscii_of_isDigit hbackDigits), hback]

/-- The probability behind a group: that of a group behind it, or at the end of its tokens. -/
def ChangeGroup.probabilityBehind (group : ChangeGroup) (groups : List ChangeGroup) : Option ℕ :=
  ((groups.head?.bind fun next => next.marker.leading).map Probability.percent).or
    (lastProbability group.tokens)

/-- The probability that is read for a group. -/
def ChangeGroup.readProbability (taken : Bool) (group : ChangeGroup) (groups : List ChangeGroup) :
    Option ℕ :=
  match group.marker with
  | .fm _ => none
  | .change _ _ => group.probabilityBehind groups
  | .prob probability _ => some probability.percent
  | .probTempo probability _ =>
      if taken then group.probabilityBehind groups else some probability.percent

/-- A group has been read with some probability. -/
structure ChangeGroup.ReadWith (group : ChangeGroup) (probability : Option ℕ)
    (read : TafForecastGroup) : Prop where
  changeKind : read.changeKind = group.marker.kind
  validFrom : read.validFrom = some group.marker.validFrom
  validTo : read.validTo = group.marker.validTo
  probabilityPercent : read.probabilityPercent = probability
  conditions : parseConditions group.tokens = some read.conditions

/-- What is read behind a word for a change. -/
theorem parseMarkedHeader_change (word : ChangeWord) (validity : Validity) (body : List Str) :
    parseMarkedHeader word.text (validity.token :: body) =
      some (some ⟨word.kind, some validity.validFrom.text, some validity.validTo.text,
        lastProbability body, if (lastProbability body).isSome then body.dropLast else body⟩) := by
  have hkind : markerKind word.text = some word.kind := by cases word <;> decide
  unfold parseMarkedHeader
  dsimp only
  rw [parseValidityRange_token, hkind]
  rfl

/-- The tokens behind a group that takes a probability. -/
theorem body_of_takesTrailing (group : ChangeGroup) (h : group.marker.takesTrailing = true)
    (groups : List ChangeGroup) :
    lastProbability (group.tokens ++ group.trailing groups) = group.probabilityBehind groups ∧
      parseConditions (group.tokens ++ group.trailing groups) = parseConditions group.tokens ∧
      parseConditions (if (group.probabilityBehind groups).isSome then
        (group.tokens ++ group.trailing groups).dropLast else
          group.tokens ++ group.trailing groups) = parseConditions group.tokens := by
  unfold ChangeGroup.trailing ChangeGroup.probabilityBehind
  rw [if_pos h]
  rcases groups.head?.bind fun next => next.marker.leading with _ | probability
  · rw [Option.toList_none, List.map_nil, List.append_nil, Option.map_none, Option.none_or]
    refine ⟨rfl, rfl, ?_⟩
    rcases hlast : lastProbability group.tokens with _ | n
    · rfl
    · obtain ⟨token, htoken, hn⟩ := Option.bind_eq_some_iff.mp hlast
      obtain ⟨front, hfront⟩ := List.getLast?_eq_some_iff.mp htoken
      rw [hfront, Option.isSome_some, if_pos rfl, List.dropLast_concat,
        parseConditions_probability hn]
  · have hprobability := tokenProbability_text probability
    rw [Option.toList_some, List.map_singleton, Option.map_some, Option.some_or, lastProbability,
      List.getLast?_concat, Option.bind_some, List.dropLast_concat,
      parseConditions_probability hprobability]
    exact ⟨hprobability, rfl, rfl⟩

/-- What is read in front of the conditions behind `TEMPO`, `BECMG` and `INTER`. -/
theorem parseGroupHeader_change (word : ChangeWord) (validity : Validity) {body : List Str}
    {probability : Option ℕ} (h : lastProbability body = probability) :
    parseGroupHeader (word.text :: validity.token :: body) =
      some (some ⟨word.kind, some validity.validFrom.text, some validity.validTo.text,
        probability, if probability.isSome then body.dropLast else body⟩) := by
  rw [← h, ← parseMarkedHeader_change]
  cases word <;> rfl

/-- What is read in front of the conditions behind a probability. -/
theorem parseGroupHeader_probability (probability : Probability) (rest : List Str) :
    parseGroupHeader (probability.text :: rest) =
      some (parseProbHeader (probability.text.drop 4) rest) := by
  cases probability <;> rfl

theorem parseU8_probability (probability : Probability) :
    parseU8 (probability.text.drop 4) = some probability.percent := by
  cases probability <;> decide

/-- A validity range is no word for a change. -/
theorem token_ne_word (validity : Validity) (word : ChangeWord) : validity.token ≠ word.text := by
  intro h
  have hmarker := isGroupMarker_token validity
  rw [h, isGroupMarker_change] at hmarker
  cases hmarker

/-- What is read in front of the conditions of a group; the tokens that are left to it have the
conditions of its own. -/
theorem parseGroupHeader_read (taken : Bool) (group : ChangeGroup) (groups : List ChangeGroup) :
    ∃ body, parseGroupHeader
        (group.marker.readWords taken ++ group.tokens ++ group.trailing groups) =
          some (some ⟨group.marker.kind, some group.marker.validFrom, group.marker.validTo,
            group.readProbability taken groups, body⟩) ∧
      parseConditions body = parseConditions group.tokens := by
  obtain ⟨marker, tokens, hne, htokens⟩ := group
  cases marker with
  | fm start =>
      obtain ⟨digits, hlength, hdigits⟩ := start
      have hascii := Str.isAscii_of_isDigit hdigits
      have hall : digits.all Char.isDigit = true := List.all_eq_true.mpr hdigits
      refine ⟨tokens, ?_, rfl⟩
      show parseGroupHeader (("FM".toList ++ digits) :: tokens ++ []) = _
      rw [List.append_nil]
      show parseFmHeader digits tokens = _
      rw [parseFmHeader, Str.byteLen_of_ascii hascii, hlength, hall, if_neg (by decide),
        Str.sliceTo_of_ascii hascii (by omega)]
      rfl
  | change word validity =>
      obtain ⟨hlast, -, hconditions⟩ := body_of_takesTrailing
        ⟨.change word validity, tokens, hne, htokens⟩ rfl groups
      exact ⟨_, parseGroupHeader_change word validity hlast, hconditions⟩
  | prob probability validity =>
      have htempo : validity.token ≠ "TEMPO".toList := token_ne_word validity .tempo
      have hinter : validity.token ≠ "INTER".toList := token_ne_word validity .inter
      refine ⟨tokens, ?_, rfl⟩
      show parseGroupHeader ((probability.text :: validity.token :: tokens) ++ []) = _
      rw [List.append_nil, parseGroupHeader_probability, parseProbHeader, parseU8_probability,
        Option.bind_eq_bind, Option.bind_some]
      dsimp only
      rw [if_neg (not_or.mpr ⟨htempo, hinter⟩), parseValidityRange_token]
      rfl
  | probTempo probability validity =>
      obtain ⟨hlast, hbody, hconditions⟩ := body_of_takesTrailing
        ⟨.probTempo probability validity, tokens, hne, htokens⟩ rfl groups
      cases taken with
      | true =>
          exact ⟨_, parseGroupHeader_change .tempo validity hlast, hconditions⟩
      | false =>
          refine ⟨_, (parseGroupHeader_probability probability _).trans ?_, hbody⟩
          show some (parseProbHeader _ ("TEMPO".toList :: validity.token :: (tokens ++ _))) = _
          rw [parseProbHeader, parseU8_probability, Option.bind_eq_bind, Option.bind_some]
          dsimp only
          rw [if_pos (.inl rfl), parseValidityRange_token]
          rfl

/-- A group is read with its own conditions. -/
theorem parseGroup_read (taken : Bool) (group : ChangeGroup) (groups : List ChangeGroup) :
    (parseConditions group.tokens = none ∧
        parseGroup (group.marker.readWords taken ++ group.tokens ++ group.trailing groups) = none) ∨
      ∃ read, parseGroup (group.marker.readWords taken ++ group.tokens ++ group.trailing groups) =
          some (some read) ∧ group.ReadWith (group.readProbability taken groups) read := by
  obtain ⟨body, hheader, hbody⟩ := parseGroupHeader_read taken group groups
  rw [parseGroup, hheader, Option.bind_eq_bind, Option.bind_some]
  dsimp only
  rw [hbody]
  rcases hconditions : parseConditions group.tokens with _ | conditions
  · exact .inl ⟨rfl, rfl⟩
  · exact .inr ⟨_, rfl, rfl, rfl, rfl, rfl, hconditions⟩

/-- Groups have been read, with the probabilities that are left to them. -/
def ReadAll (taken : Bool) : List ChangeGroup → List TafForecastGroup → Prop
  | [], [] => True
  | group :: groups, read :: reads =>
      group.ReadWith (group.readProbability taken groups) read ∧
        ReadAll group.marker.takesTrailing groups reads
  | _, _ => False

/-- The groups of a report are read, or one of them cannot be. -/
theorem mapM_parseGroup_read (taken : Bool) (groups : List ChangeGroup) :
    ((∃ group ∈ groups, parseConditions group.tokens = none) ∧
        (readSegments taken groups).mapM parseGroup = none) ∨
      ∃ reads, (readSegments taken groups).mapM parseGroup = some (reads.map some) ∧
        ReadAll taken groups reads := by
  induction groups generalizing taken with
  | nil => exact .inr ⟨[], rfl, trivial⟩
  | cons group groups ih =>
      rw [readSegments, List.mapM_cons]
      rcases parseGroup_read taken group groups with ⟨hnone, hread⟩ | ⟨read, hread, hwith⟩
      · exact .inl ⟨⟨group, List.mem_cons_self, hnone⟩, by rw [hread]; rfl⟩
      · rw [hread, Option.bind_eq_bind, Option.bind_some]
        rcases ih group.marker.takesTrailing with
          ⟨⟨other, hmem, hnone⟩, hrest⟩ | ⟨reads, hrest, hall⟩
        · exact .inl ⟨⟨other, List.mem_cons_of_mem _ hmem, hnone⟩, by rw [hrest]; rfl⟩
        · exact .inr ⟨read :: reads, by rw [hrest]; rfl, hwith, hall⟩

/-! ## Probabilities -/

/-- Every group is read with the probability that is printed for it: `TEMPO`, `BECMG` and `INTER`
have none behind them, unless a probability that they have taken stands there again. -/
def KeepsProbabilities (taken : Bool) : List ChangeGroup → Prop
  | [] => True
  | group :: groups =>
      (match group.marker with
        | .change _ _ => group.probabilityBehind groups = none
        | .probTempo probability _ =>
            taken = true → group.probabilityBehind groups = some probability.percent
        | _ => True) ∧
        KeepsProbabilities group.marker.takesTrailing groups

/-- A group has been read as it was printed. -/
def ChangeGroup.ReadAs (group : ChangeGroup) (read : TafForecastGroup) : Prop :=
  group.ReadWith (group.marker.probability.map Probability.percent) read

theorem readAs_iff {group : ChangeGroup} {probability : Option ℕ} {read : TafForecastGroup}
    (h : group.ReadWith probability read) :
    group.ReadAs read ↔ probability = group.marker.probability.map Probability.percent := by
  refine ⟨fun has => h.probabilityPercent.symm.trans has.probabilityPercent, ?_⟩
  rintro rfl
  exact h

/-- The groups that have been read are those that were printed exactly if their probabilities
are. -/
theorem groups_read_iff {taken : Bool} {groups : List ChangeGroup} {reads : List TafForecastGroup}
    (h : ReadAll taken groups reads) :
    List.Forall₂ ChangeGroup.ReadAs groups reads ↔ KeepsProbabilities taken groups := by
  induction groups generalizing taken reads with
  | nil =>
      cases reads with
      | nil => exact iff_of_true .nil trivial
      | cons read reads => exact h.elim
  | cons group groups ih =>
      cases reads with
      | nil => exact h.elim
      | cons read reads =>
          obtain ⟨hread, hrest⟩ := h
          rw [List.forall₂_cons, ih hrest, readAs_iff hread, KeepsProbabilities]
          refine and_congr_left fun _ => ?_
          unfold ChangeGroup.readProbability
          obtain ⟨marker, tokens, hne, htokens⟩ := group
          cases marker with
          | fm start => exact iff_of_true rfl trivial
          | change word validity => exact Iff.rfl
          | prob probability validity => exact iff_of_true rfl trivial
          | probTempo probability validity =>
              cases taken with
              | true => exact (imp_iff_right rfl).symm
              | false => exact iff_of_true rfl nofun

theorem ReadAll.length_eq {taken : Bool} {groups : List ChangeGroup} {reads : List TafForecastGroup}
    (h : ReadAll taken groups reads) : reads.length = groups.length := by
  induction groups generalizing taken reads with
  | nil =>
      cases reads with
      | nil => rfl
      | cons read reads => exact h.elim
  | cons group groups ih =>
      cases reads with
      | nil => exact h.elim
      | cons read reads => rw [List.length_cons, List.length_cons, ih h.2]

theorem ReadAll.conditions_ne_none {taken : Bool} {groups : List ChangeGroup}
    {reads : List TafForecastGroup} (h : ReadAll taken groups reads) :
    ∀ group ∈ groups, parseConditions group.tokens ≠ none := by
  induction groups generalizing taken reads with
  | nil => exact fun _ h => absurd h List.not_mem_nil
  | cons group groups ih =>
      cases reads with
      | nil => exact h.elim
      | cons read reads =>
          refine List.forall_mem_cons.mpr ⟨?_, ih h.2⟩
          rw [h.1.conditions]
          exact nofun

/-! ## Reports -/

/-- All conditions of a report can be read. -/
def Report.Readable (report : Report) : Prop :=
  ConditionsOnBoundaries report.initial ∧
    ∀ group ∈ report.groups, ConditionsOnBoundaries group.tokens

instance (tokens : List Str) : Decidable (ConditionsOnBoundaries tokens) :=
  inferInstanceAs (Decidable (_ ∧ _))

/-- What is read of initial conditions and segments. -/
theorem parseForecastGroups_of_segments {remainder : Str} {initial : List Str}
    {segments : List (List Str)} (h : mergedSegments remainder = initial :: segments) :
    parseForecastGroups remainder = (parseConditions initial).bind fun conditions =>
      (segments.mapM parseGroup).map fun groups => (conditions, groups.filterMap id) := by
  rw [parseForecastGroups, h]
  dsimp only
  cases parseConditions initial with
  | none => rfl
  | some conditions => cases segments.mapM parseGroup <;> rfl

/-- The groups of a report are read as they were printed. -/
theorem parseForecastGroups_body_iff (report : Report) {remainder : Str}
    (h : Str.splitWhitespace remainder = report.body) :
    (∃ conditions reads, parseForecastGroups remainder = some (conditions, reads) ∧
        List.Forall₂ ChangeGroup.ReadAs report.groups reads) ↔
      report.OpensWithConditions ∧ KeepsProbabilities false report.groups ∧ report.Readable := by
  have hsegments : mergedSegments remainder = segmentsOf report.body := by
    rw [mergedSegments, h]
    rfl
  have hfilter : ∀ reads : List TafForecastGroup, (reads.map some).filterMap id = reads := by
    intro reads
    rw [List.filterMap_map]
    exact List.filterMap_some
  have hnone : ∀ tokens, parseConditions tokens = none ↔ ¬ ConditionsOnBoundaries tokens :=
    parseConditions_eq_none_iff
  by_cases hopens : report.OpensWithConditions
  · rw [and_iff_right hopens]
    rw [segmentsOf_body hopens] at hsegments
    by_cases hinitial : report.initial = []
    · have hgroups := hopens.1 hinitial
      have hempty : mergedSegments remainder = [] := by
        rw [hsegments, hinitial, hgroups]
        rfl
      have hreadable : report.Readable := by
        refine ⟨?_, fun group hmem => absurd (hgroups ▸ hmem) List.not_mem_nil⟩
        rw [hinitial]
        exact not_not.mp (mt (hnone []).mpr (Option.some_ne_none _))
      refine iff_of_true ⟨{}, [], ?_, ?_⟩ ⟨?_, hreadable⟩
      · rw [parseForecastGroups, hempty]
      · rw [hgroups]
        exact .nil
      · rw [hgroups]
        trivial
    · rw [finished, if_neg hinitial, List.singleton_append] at hsegments
      rw [parseForecastGroups_of_segments hsegments]
      rcases hconditions : parseConditions report.initial with _ | conditions
      · refine iff_of_false ?_ fun h => (hnone _).mp hconditions h.2.1
        rintro ⟨_, _, hread, -⟩
        cases hread
      have hopening : ConditionsOnBoundaries report.initial := by
        refine not_not.mp (mt (hnone _).mpr ?_)
        rw [hconditions]
        exact Option.some_ne_none _
      rcases mapM_parseGroup_read false report.groups with
        ⟨⟨group, hmem, hfail⟩, hreads⟩ | ⟨reads, hreads, hall⟩
      · rw [hreads]
        refine iff_of_false ?_ fun h => (hnone _).mp hfail (h.2.2 group hmem)
        rintro ⟨_, _, hread, -⟩
        cases hread
      · have hreadable : report.Readable := by
          refine ⟨hopening, fun group hmem => not_not.mp (mt (hnone _).mpr ?_)⟩
          exact hall.conditions_ne_none group hmem
        rw [hreads, Option.bind_some, Option.map_some, hfilter, ← groups_read_iff hall,
          and_iff_left hreadable]
        constructor
        · rintro ⟨_, _, hpair, has⟩
          obtain ⟨-, rfl⟩ := Prod.mk.inj (Option.some.inj hpair)
          exact has
        · exact fun h => ⟨conditions, reads, rfl, h⟩
  · refine iff_of_false ?_ fun h => hopens h.1
    rintro ⟨conditions, reads, hparse, hreads⟩
    obtain ⟨group, groups, first, taken, hgroups, hlost⟩ := segmentsOf_body_of_not hopens
    rw [parseForecastGroups_of_segments (hsegments.trans hlost)] at hparse
    obtain ⟨conditions, -, hparse⟩ := Option.bind_eq_some_iff.mp hparse
    obtain ⟨parsed, hparsed, hpair⟩ := Option.map_eq_some_iff.mp hparse
    obtain ⟨-, rfl⟩ := Prod.mk.inj hpair
    rcases mapM_parseGroup_read taken groups with ⟨-, hfail⟩ | ⟨found, hfound, hall⟩
    · rw [hfail] at hparsed
      cases hparsed
    · rw [hfound] at hparsed
      obtain rfl := Option.some.inj hparsed
      have hlength := hreads.length_eq
      rw [hfilter, hall.length_eq, hgroups, List.length_cons] at hlength
      omega

end Parser.Taf
