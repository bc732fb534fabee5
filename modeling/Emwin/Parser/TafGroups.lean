/-
# The groups of a TAF

A report is printed as a list of tokens.  The parser cuts it in front of every marker, and
a probability in front of `TEMPO` is cut off from it.  A segment that is only a probability goes to
the group in front of it, if that is one of those which may end with a probability, and else
to the group behind it (`mergedSegments_of_words`).
-/
import Emwin.Lib.Wrapping
import Emwin.Parser.TafSlices

namespace Parser.Taf

open Aviation

/-! ## Printed groups -/

/-- A number of digits. -/
structure Digits (n : ℕ) where
  text : Str
  length_eq : text.length = n
  isDigit : ∀ c ∈ text, c.isDigit = true

/-- A validity range: two days and hours. -/
structure Validity where
  validFrom : Digits 4
  validTo : Digits 4

/-- A validity range, as it is printed. -/
def Validity.token (validity : Validity) : Str :=
  validity.validFrom.text ++ '/' :: validity.validTo.text

/-- The words that begin a group for a change. -/
inductive ChangeWord where
  | tempo
  | becmg
  | inter
  deriving DecidableEq, Repr

def ChangeWord.text : ChangeWord → Str
  | .tempo => "TEMPO".toList
  | .becmg => "BECMG".toList
  | .inter => "INTER".toList

def ChangeWord.kind : ChangeWord → TafForecastGroupKind
  | .tempo => .tempo
  | .becmg => .becmg
  | .inter => .inter

/-- The probabilities that are printed. -/
inductive Probability where
  | prob30
  | prob40
  deriving DecidableEq, Repr

def Probability.text : Probability → Str
  | .prob30 => "PROB30".toList
  | .prob40 => "PROB40".toList

def Probability.percent : Probability → ℕ
  | .prob30 => 30
  | .prob40 => 40

/-- What begins a group. -/
inductive GroupMarker where
  | fm (start : Digits 6)
  | change (word : ChangeWord) (validity : Validity)
  | prob (probability : Probability) (validity : Validity)
  | probTempo (probability : Probability) (validity : Validity)

/-- A token of conditions. -/
def IsConditionToken (token : Str) : Prop := Str.IsWord token ∧ isGroupMarker token = false

instance (token : Str) : Decidable (IsConditionToken token) := inferInstanceAs (Decidable (_ ∧ _))

/-- A group: what begins it, and the tokens of its conditions. -/
structure ChangeGroup where
  marker : GroupMarker
  tokens : List Str
  tokens_ne_nil : tokens ≠ []
  isConditionToken : ∀ token ∈ tokens, IsConditionToken token

namespace GroupMarker

/-- The tokens that begin a group. -/
def words : GroupMarker → List Str
  | fm start => ["FM".toList ++ start.text]
  | change word validity => [word.text, validity.token]
  | prob probability validity => [probability.text, validity.token]
  | probTempo probability validity => [probability.text, "TEMPO".toList, validity.token]

/-- The kind of a group. -/
def kind : GroupMarker → TafForecastGroupKind
  | fm _ => .fm
  | change word _ => word.kind
  | prob _ _ => .prob
  | probTempo _ _ => .tempo

/-- From when a group is valid. -/
def validFrom : GroupMarker → Str
  | fm start => start.text.take 4
  | change _ validity => validity.validFrom.text
  | prob _ validity => validity.validFrom.text
  | probTempo _ validity => validity.validFrom.text

/-- Until when a group is valid. -/
def validTo : GroupMarker → Option Str
  | fm _ => none
  | change _ validity => some validity.validTo.text
  | prob _ validity => some validity.validTo.text
  | probTempo _ validity => some validity.validTo.text

/-- The probability of a group. -/
def probability : GroupMarker → Option Probability
  | fm _ => none
  | change _ _ => none
  | prob probability _ => some probability
  | probTempo probability _ => some probability

/-- The probability in front of `TEMPO`. -/
def leading : GroupMarker → Option Probability
  | probTempo probability _ => some probability
  | _ => none

/-- Whether a probability behind a group is taken for its own. -/
def takesTrailing : GroupMarker → Bool
  | change _ _ => true
  | probTempo _ _ => true
  | _ => false

end GroupMarker

/-- A group, as it is printed. -/
def ChangeGroup.words (group : ChangeGroup) : List Str := group.marker.words ++ group.tokens

/-! ## Segments -/

/-- The segments into which a group is cut; the last of them goes on. -/
def ChangeGroup.segments (group : ChangeGroup) : List (List Str) :=
  match group.marker with
  | .probTempo probability validity =>
      [[probability.text], ["TEMPO".toList, validity.token] ++ group.tokens]
  | marker => [marker.words ++ group.tokens]

/-- The tokens behind a group that are taken for its own. -/
def ChangeGroup.trailing (group : ChangeGroup) (groups : List ChangeGroup) : List Str :=
  if group.marker.takesTrailing then
    (groups.head?.bind fun next => next.marker.leading).toList.map Probability.text
  else []

/-- The tokens that are left to begin a group. -/
def GroupMarker.readWords (taken : Bool) : GroupMarker → List Str
  | .probTempo probability validity =>
      (if taken then [] else [probability.text]) ++ ["TEMPO".toList, validity.token]
  | marker => marker.words

/-- The segments that are read as groups; the probability in front of the first may be taken. -/
def readSegments (taken : Bool) : List ChangeGroup → List (List Str)
  | [] => []
  | group :: groups =>
      (group.marker.readWords taken ++ group.tokens ++ group.trailing groups) ::
        readSegments group.marker.takesTrailing groups

/-- Tokens that are no markers go on with a segment. -/
theorem segmentsFrom_append {tokens : List Str} (h : ∀ token ∈ tokens, isGroupMarker token = false)
    (current rest : List Str) :
    segmentsFrom current (tokens ++ rest) = segmentsFrom (current ++ tokens) rest := by
  induction tokens generalizing current with
  | nil => rw [List.append_nil, List.nil_append]
  | cons token tokens ih =>
      obtain ⟨htoken, hrest⟩ := List.forall_mem_cons.mp h
      rw [List.cons_append, segmentsFrom, htoken, Bool.false_and, if_neg Bool.false_ne_true,
        ih hrest, List.append_assoc, List.singleton_append]

/-- A segment that has begun. -/
def finished (current : List Str) : List (List Str) := if current = [] then [] else [current]

/-- A marker begins a segment. -/
theorem segmentsFrom_marker {token : Str} (h : isGroupMarker token = true)
    (current rest : List Str) :
    segmentsFrom current (token :: rest) = finished current ++ segmentsFrom [token] rest := by
  rw [segmentsFrom, h, Bool.true_and, finished]
  by_cases hcurrent : current = []
  · rw [hcurrent]
    rfl
  · rw [if_pos (by simpa using hcurrent), if_neg hcurrent]
    rfl

/-- A marker and the tokens behind it are a segment. -/
theorem segmentsFrom_segment {token : Str} {tokens : List Str} (h : isGroupMarker token = true)
    (htokens : ∀ token ∈ tokens, isGroupMarker token = false) (current rest : List Str) :
    segmentsFrom current ((token :: tokens) ++ rest) =
      finished current ++ segmentsFrom (token :: tokens) rest := by
  rw [List.cons_append, segmentsFrom_marker h, segmentsFrom_append htokens]
  rfl

/-- A text that begins with a digit is no marker. -/
theorem isGroupMarker_of_isDigit {token : Str} (h : token.head?.any Char.isDigit = true) :
    isGroupMarker token = false := by
  have hprefix : ∀ word : Str, word.head?.any Char.isDigit = false → word ≠ [] →
      Str.startsWith word token = false := by
    intro word hword hne
    rw [Str.startsWith, ← Bool.not_eq_true, List.isPrefixOf_iff_prefix]
    rintro ⟨back, rfl⟩
    rw [List.head?_append_of_ne_nil _ hne, hword] at h
    cases h
  have hword : ∀ word : Str, word.head?.any Char.isDigit = false → token ≠ word := by
    rintro word hword rfl
    rw [h] at hword
    cases hword
  rw [isGroupMarker, hprefix _ (by decide) (by decide), hprefix _ (by decide) (by decide),
    hprefix _ (by decide) (by decide), decide_eq_false (hword _ (by decide)),
    decide_eq_false (hword _ (by decide)), decide_eq_false (hword _ (by decide))]
  rfl

/-- A validity range is no marker. -/
theorem isGroupMarker_token (validity : Validity) : isGroupMarker validity.token = false := by
  refine isGroupMarker_of_isDigit ?_
  obtain ⟨⟨text, hlength, hdigits⟩, validTo⟩ := validity
  cases text with
  | nil => cases hlength
  | cons c text => exact hdigits c List.mem_cons_self

theorem isGroupMarker_change (word : ChangeWord) : isGroupMarker word.text = true := by
  cases word <;> decide

theorem isGroupMarker_probability (probability : Probability) :
    isGroupMarker probability.text = true := by
  cases probability <;> decide

theorem isGroupMarker_fm (start : Str) : isGroupMarker ("FM".toList ++ start) = true := by
  have hprefix : Str.startsWith "FM".toList ("FM".toList ++ start) = true :=
    List.isPrefixOf_iff_prefix.mpr (List.prefix_append _ _)
  rw [isGroupMarker, hprefix]
  rfl

/-- The tokens of groups are cut into their segments. -/
theorem segmentsFrom_groups (groups : List ChangeGroup) (current : List Str) :
    segmentsFrom current (groups.flatMap ChangeGroup.words) =
      finished current ++ groups.flatMap ChangeGroup.segments := by
  induction groups generalizing current with
  | nil => rw [List.flatMap_nil, List.flatMap_nil, List.append_nil, segmentsFrom, finished]
  | cons group groups ih =>
      obtain ⟨marker, tokens, hne, htokens⟩ := group
      have htokens : ∀ token ∈ tokens, isGroupMarker token = false := fun token h =>
        (htokens token h).2
      have hvalidity : ∀ validity : Validity, ∀ token ∈ validity.token :: tokens,
          isGroupMarker token = false := fun validity =>
        List.forall_mem_cons.mpr ⟨isGroupMarker_token validity, htokens⟩
      have hsegment : ∀ token tokens, isGroupMarker token = true →
          (∀ token ∈ tokens, isGroupMarker token = false) → ∀ current,
          segmentsFrom current ((token :: tokens) ++ groups.flatMap ChangeGroup.words) =
            finished current ++ (token :: tokens) :: groups.flatMap ChangeGroup.segments := by
        intro token tokens hmarker htokens current
        rw [segmentsFrom_segment hmarker htokens, ih]
        rfl
      rw [List.flatMap_cons, List.flatMap_cons]
      cases marker with
      | fm start => exact hsegment _ _ (isGroupMarker_fm _) htokens current
      | change word validity =>
          exact hsegment _ _ (isGroupMarker_change word) (hvalidity validity) current
      | prob probability validity =>
          exact hsegment _ _ (isGroupMarker_probability probability) (hvalidity validity) current
      | probTempo probability validity =>
          have hcut := segmentsFrom_marker (isGroupMarker_probability probability) current
            (("TEMPO".toList :: validity.token :: tokens) ++ groups.flatMap ChangeGroup.words)
          rw [hsegment _ _ (by decide) (hvalidity validity)] at hcut
          exact hcut

/-! ## Probabilities behind a group -/

/-- Give the last segment further tokens. -/
def extendLast (merged : List (List Str)) (tokens : List Str) : List (List Str) :=
  if tokens = [] then merged else merged.dropLast ++ [merged.getLast?.getD [] ++ tokens]

/-- Whether the last segment takes a probability behind it. -/
def lastTakes (merged : List (List Str)) : Bool :=
  merged.getLast?.any (beginsWith ["TEMPO", "INTER", "BECMG"])

/-- The segments of groups, of which those have taken a probability that take one. -/
def takenSegments (taken : Bool) : List ChangeGroup → List (List Str)
  | [] => []
  | group :: groups =>
      (if taken then [] else group.marker.leading.toList.map fun probability =>
        [probability.text]) ++
        (group.marker.readWords true ++ group.tokens ++ group.trailing groups) ::
          takenSegments group.marker.takesTrailing groups

/-- The tokens that the last segment takes from groups behind it. -/
def leadingTokens (taken : Bool) (groups : List ChangeGroup) : List Str :=
  if taken then (groups.head?.bind fun next => next.marker.leading).toList.map Probability.text
  else []

theorem extendLast_nil (merged : List (List Str)) : extendLast merged [] = merged := if_pos rfl

theorem extendLast_concat (merged : List (List Str)) (segment tokens : List Str) :
    extendLast (merged ++ [segment]) tokens = merged ++ [segment ++ tokens] := by
  unfold extendLast
  split_ifs with h
  · rw [h, List.append_nil]
  · rw [List.dropLast_concat, List.getLast?_concat, Option.getD_some]

/-- The last segment of a group has two tokens or more. -/
theorem exists_cons_cons (group : ChangeGroup) :
    ∃ first second rest, group.marker.readWords true ++ group.tokens = first :: second :: rest := by
  obtain ⟨marker, tokens, hne, -⟩ := group
  cases marker with
  | fm start =>
      obtain ⟨token, tokens, rfl⟩ := List.exists_cons_of_ne_nil hne
      exact ⟨_, _, _, rfl⟩
  | change word validity => exact ⟨_, _, _, rfl⟩
  | prob probability validity => exact ⟨_, _, _, rfl⟩
  | probTempo probability validity => exact ⟨_, _, _, rfl⟩

theorem segments_eq (group : ChangeGroup) :
    group.segments = (group.marker.leading.toList.map fun probability => [probability.text]) ++
      [group.marker.readWords true ++ group.tokens] := by
  obtain ⟨marker, tokens, -, -⟩ := group
  cases marker <;> rfl

/-- The last segment of a group takes a probability if the group does. -/
theorem beginsWith_readWords (group : ChangeGroup) :
    beginsWith ["TEMPO", "INTER", "BECMG"] (group.marker.readWords true ++ group.tokens) =
      group.marker.takesTrailing := by
  obtain ⟨marker, tokens, -, -⟩ := group
  cases marker with
  | fm start =>
      show decide ("FM".toList ++ start.text ∈
          ["TEMPO", "INTER", "BECMG"].map String.toList) = false
      refine decide_eq_false fun h => ?_
      simp at h
  | change word validity => cases word <;> rfl
  | prob probability validity => cases probability <;> rfl
  | probTempo probability validity => rfl

/-- A segment of two tokens or more stays. -/
theorem mergeTrailing_readWords (group : ChangeGroup) (merged : List (List Str)) :
    mergeTrailing merged (group.marker.readWords true ++ group.tokens) =
      merged ++ [group.marker.readWords true ++ group.tokens] := by
  obtain ⟨first, second, rest, h⟩ := exists_cons_cons group
  rw [h]
  rfl

/-- A probability is taken if the last segment takes it. -/
theorem mergeTrailing_probability (merged : List (List Str)) (probability : Probability) :
    mergeTrailing merged [probability.text] =
      if lastTakes merged then extendLast merged [probability.text]
      else merged ++ [[probability.text]] := by
  have hlone : isLoneProbability [probability.text] = true := by cases probability <;> decide
  rw [mergeTrailing, hlone, Bool.true_and]
  rfl

/-- The probabilities are taken by the segments in front of them. -/
theorem foldl_mergeTrailing (groups : List ChangeGroup) (merged : List (List Str)) :
    (groups.flatMap ChangeGroup.segments).foldl mergeTrailing merged =
      extendLast merged (leadingTokens (lastTakes merged) groups) ++
        takenSegments (lastTakes merged) groups := by
  induction groups generalizing merged with
  | nil =>
      rw [leadingTokens, List.head?_nil, Option.bind_none, takenSegments, List.append_nil]
      cases lastTakes merged <;> exact (extendLast_nil merged).symm
  | cons group groups ih =>
      have htakes : ∀ merged, lastTakes (merged ++ [group.marker.readWords true ++ group.tokens]) =
          group.marker.takesTrailing := by
        intro merged
        rw [lastTakes, List.getLast?_concat, Option.any_some, beginsWith_readWords]
      have htrailing : leadingTokens group.marker.takesTrailing groups =
          group.trailing groups := rfl
      have hleading : leadingTokens (lastTakes merged) (group :: groups) =
        if lastTakes merged then group.marker.leading.toList.map Probability.text else [] := rfl
      rw [List.flatMap_cons, List.foldl_append, segments_eq, List.foldl_append, List.foldl_cons,
        List.foldl_nil, mergeTrailing_readWords, ih, htakes, extendLast_concat, htrailing, hleading,
        takenSegments, List.append_assoc]
      rcases hleading : group.marker.leading with _ | probability
      · cases lastTakes merged <;> simp [extendLast_nil]
      · rw [Option.toList_some, List.map_singleton, List.map_singleton, List.foldl_cons,
          List.foldl_nil, mergeTrailing_probability]
        cases lastTakes merged <;> simp [extendLast_nil]

/-! ## Probabilities in front of a group -/

theorem readWords_of_taken {marker : GroupMarker} {taken : Bool}
    (h : taken = true ∨ marker.leading = none) :
      marker.readWords taken = marker.readWords true := by
  cases marker with
  | probTempo probability validity =>
      obtain rfl : taken = true := h.resolve_right nofun
      rfl
  | fm start => rfl
  | change word validity => rfl
  | prob probability validity => rfl

/-- The probabilities that have not been taken go to the groups behind them. -/
theorem mergeLeading_takenSegments (groups : List ChangeGroup) (taken : Bool) {segment : List Str}
    (h : (isLoneProbability segment && (takenSegments taken groups).head?.any
      (beginsWith ["TEMPO", "INTER"])) = false) :
    mergeLeading segment (takenSegments taken groups) = segment :: readSegments taken groups := by
  induction groups generalizing segment taken with
  | nil => rfl
  | cons group groups ih =>
      obtain ⟨first, second, rest, hcore⟩ := exists_cons_cons group
      by_cases htaken : taken = true ∨ group.marker.leading = none
      · have hlead : (if taken then [] else
            group.marker.leading.toList.map fun probability => [probability.text]) = [] := by
          rcases htaken with rfl | hnone
          · rfl
          · rw [hnone]
            exact ite_self _
        rw [takenSegments, hlead, List.nil_append] at h ⊢
        rw [List.head?_cons, Option.any_some] at h
        rw [mergeLeading, h, if_neg Bool.false_ne_true, readSegments, readWords_of_taken htaken, ih]
        rw [hcore]
        rfl
      · obtain ⟨hfalse, hleading⟩ := not_or.mp htaken
        obtain rfl : taken = false := by simpa using hfalse
        obtain ⟨marker, tokens, hne, htokens⟩ := group
        cases marker with
        | probTempo probability validity =>
            have hlone : isLoneProbability [probability.text] = true := by
              cases probability <;> decide
            have hother : beginsWith ["TEMPO", "INTER"] [probability.text] = false := by
              cases probability <;> decide
            show mergeLeading segment ([probability.text] ::
              ("TEMPO".toList :: validity.token :: tokens ++ _) :: takenSegments true groups) = _
            rw [mergeLeading, hother, Bool.and_false, if_neg Bool.false_ne_true, mergeLeading,
              hlone]
            refine congrArg _ ((if_pos rfl).trans ((ih true rfl).trans rfl))
        | fm start => exact absurd rfl hleading
        | change word validity => exact absurd rfl hleading
        | prob probability validity => exact absurd rfl hleading

/-! ## Reports -/

/-- A report: its station, times, and tokens of conditions, and its groups. -/
structure Report where
  station : Str
  issueTime : Str
  validity : Validity
  initial : List Str
  groups : List ChangeGroup
  isStation : isStationToken station = true
  isTime : timeToken issueTime = true
  isConditionToken : ∀ token ∈ initial, IsConditionToken token

/-- The tokens behind the validity range of a report. -/
def Report.body (report : Report) : List Str :=
  report.initial ++ report.groups.flatMap ChangeGroup.words

/-- A report, as it is printed. -/
def Report.words (report : Report) : List Str :=
  "TAF".toList :: report.station :: report.issueTime :: report.validity.token :: report.body

/-- The initial conditions are there, and are not taken for a probability of the first group. -/
def Report.OpensWithConditions (report : Report) : Prop :=
  (report.initial = [] → report.groups = []) ∧
    (isLoneProbability report.initial &&
      report.groups.head?.any fun group =>
        beginsWith ["TEMPO", "INTER"] group.marker.words) = false

/-- The segments that are read from the tokens of a report. -/
def segmentsOf (tokens : List Str) : List (List Str) :=
  match (segmentsFrom [] tokens).foldl mergeTrailing [] with
  | [] => []
  | segment :: segments => mergeLeading segment segments

theorem takenSegments_head (words : List String) (groups : List ChangeGroup) :
    (takenSegments false groups).head?.any (beginsWith words) =
      groups.head?.any fun group => beginsWith words group.marker.words := by
  cases groups with
  | nil => rfl
  | cons group groups =>
      obtain ⟨marker, tokens, -, -⟩ := group
      cases marker <;> rfl

/-- A segment of conditions takes no probability. -/
theorem lastTakes_of_conditions {tokens : List Str} (h : ∀ token ∈ tokens, IsConditionToken token) :
    lastTakes [tokens] = false := by
  have hmarker : ∀ token ∈ ["TEMPO", "INTER", "BECMG"].map String.toList,
      isGroupMarker token = true := by decide
  cases tokens with
  | nil => rfl
  | cons token tokens =>
      refine decide_eq_false fun hmem => ?_
      have := (h token List.mem_cons_self).2
      rw [hmarker token hmem] at this
      cases this

/-- The segments of a report that are not yet given a probability in front of them. -/
theorem foldl_segmentsFrom_body (report : Report) :
    (segmentsFrom [] report.body).foldl mergeTrailing [] =
      finished report.initial ++ takenSegments false report.groups := by
  have htokens : ∀ token ∈ report.initial, isGroupMarker token = false := fun token h =>
    (report.isConditionToken token h).2
  rw [Report.body, segmentsFrom_append htokens, List.nil_append, segmentsFrom_groups,
    List.foldl_append]
  by_cases hnil : report.initial = []
  · rw [hnil, foldl_mergeTrailing]
    rfl
  · have hinitial : mergeTrailing [] report.initial = [report.initial] := by
      rw [mergeTrailing, List.getLast?_nil, Option.any_none, Bool.and_false]
      rfl
    rw [finished, if_neg hnil, List.foldl_cons, List.foldl_nil, hinitial, foldl_mergeTrailing,
      lastTakes_of_conditions report.isConditionToken]
    exact congrArg (· ++ _) (extendLast_nil _)

/-- The segments of a report: its initial conditions, and its groups. -/
theorem segmentsOf_body {report : Report} (h : report.OpensWithConditions) :
    segmentsOf report.body = finished report.initial ++ readSegments false report.groups := by
  obtain ⟨hgroups, hlone⟩ := h
  rw [segmentsOf, foldl_segmentsFrom_body]
  by_cases hnil : report.initial = []
  · rw [hnil, hgroups hnil]
    rfl
  · rw [finished, if_neg hnil]
    refine mergeLeading_takenSegments _ _ ?_
    rw [takenSegments_head, hlone]

/-- Else the first group is lost. -/
theorem segmentsOf_body_of_not {report : Report} (h : ¬ report.OpensWithConditions) :
    ∃ group groups first taken, report.groups = group :: groups ∧
      segmentsOf report.body = first :: readSegments taken groups := by
  rw [segmentsOf, foldl_segmentsFrom_body]
  rcases hgroups : report.groups with _ | ⟨group, groups⟩
  · refine absurd ⟨fun _ => hgroups, ?_⟩ h
    rw [hgroups, List.head?_nil, Option.any_none, Bool.and_false]
  refine ⟨group, groups, ?_⟩
  by_cases hnil : report.initial = []
  · -- a segment without tokens would stay in front
    have hread : mergeLeading [] (takenSegments false (group :: groups)) =
        [] :: readSegments false (group :: groups) := mergeLeading_takenSegments _ _ rfl
    rw [hnil]
    rcases hsegments : takenSegments false (group :: groups) with _ | ⟨segment, segments⟩
    · rw [hsegments] at hread
      cases hread
    · rw [hsegments] at hread
      exact ⟨_, _, rfl, (List.cons.inj hread).2⟩
  · have hlone : (isLoneProbability report.initial &&
        beginsWith ["TEMPO", "INTER"] group.marker.words) = true := by
      by_contra hfalse
      refine h ⟨fun hempty => absurd hempty hnil, ?_⟩
      rw [hgroups, List.head?_cons, Option.any_some]
      simpa using hfalse
    obtain ⟨hinitial, hbegins⟩ := Bool.and_eq_true_iff.mp hlone
    obtain ⟨token, htoken⟩ : ∃ token, report.initial = [token] := by
      unfold isLoneProbability at hinitial
      split at hinitial
      · next token htoken => exact ⟨token, htoken⟩
      · cases hinitial
    have hprobability : ∀ (probability : Probability) (behind : List Str),
        beginsWith ["TEMPO", "INTER"] (probability.text :: behind) = false := by
      intro probability behind
      cases probability <;> rfl
    rw [finished, if_neg hnil]
    obtain ⟨marker, tokens, hne, htokens⟩ := group
    cases marker with
    | change word validity =>
        have hmerge : ∀ behind, mergeLeading report.initial
            ((word.text :: validity.token :: behind) :: takenSegments true groups) =
              (report.initial ++ word.text :: validity.token :: behind) ::
                readSegments true groups := by
          intro behind
          rw [mergeLeading, hinitial, htoken]
          exact (if_pos hbegins).trans (mergeLeading_takenSegments groups true rfl)
        exact ⟨_, true, rfl, hmerge _⟩
    | fm start =>
        refine absurd hbegins ?_
        show decide ("FM".toList ++ start.text ∈ ["TEMPO", "INTER"].map String.toList) ≠ true
        simp
    | prob probability validity => cases (hprobability probability _).symm.trans hbegins
    | probTempo probability validity => cases (hprobability probability _).symm.trans hbegins

end Parser.Taf
