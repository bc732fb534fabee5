/-
# Visibility in statute miles

Visibility is printed as whole miles, as a fraction, or as whole miles and a fraction in two
tokens.  Both aviation parsers keep the first token that ends with `SM`, so that of two tokens
only the fraction is kept (`visibility_kept_iff`).
-/
import Emwin.Parser.MetarSlices
import Emwin.Parser.TafSlices
import Mathlib.Data.Rat.Defs
import Mathlib.Algebra.Order.Field.Rat

namespace Parser.Visibility

open Aviation

/-! ## Printed visibility -/

/-- A number in decimal digits. -/
structure Numeral where
  text : Str
  ne_nil : text ≠ []
  isDigit : ∀ c ∈ text, c.isDigit = true

/-- The value of a number. -/
def Numeral.value (n : Numeral) : ℕ := Str.digitsValue n.text

/-- A fraction of a mile. -/
structure Fraction where
  numerator : Numeral
  denominator : Numeral
  denominator_ne_zero : denominator.value ≠ 0

def Fraction.value (f : Fraction) : ℚ := f.numerator.value / f.denominator.value

/-- A fraction in a token. -/
def Fraction.token (f : Fraction) : Str :=
  f.numerator.text ++ '/' :: f.denominator.text ++ "SM".toList

/-- Visibility in statute miles. -/
inductive Printed where
  | whole (miles : Numeral)
  | fraction (part : Fraction)
  | mixed (miles : Numeral) (part : Fraction)

namespace Printed

/-- The tokens in which visibility is printed. -/
def tokens : Printed → List Str
  | whole miles => [miles.text ++ "SM".toList]
  | fraction part => [part.token]
  | mixed miles part => [miles.text, part.token]

/-- The number of miles that is printed. -/
def miles : Printed → ℚ
  | whole miles => miles.value
  | fraction part => part.value
  | mixed miles part => miles.value + part.value

/-- No whole miles get lost: there are none in a token of their own, and they are not taken for
visibility. -/
def KeptBy (isVisibility : Str → Bool) : Printed → Prop
  | mixed miles _ => miles.value = 0 ∧ isVisibility miles.text = false
  | _ => True

end Printed

/-! ## Read visibility -/

/-- The value of a text of digits. -/
def numeralOf (s : Str) : Option ℚ :=
  if s ≠ [] ∧ s.all Char.isDigit then some (Str.digitsValue s) else none

/-- The number of miles that a visibility field denotes. -/
def milesOf (field : Str) : Option ℚ :=
  (Str.stripSuffix "SM".toList field).bind fun number =>
    match Str.splitOnce '/' number with
    | none => numeralOf number
    | some (numerator, denominator) => do
        let numerator ← numeralOf numerator
        let denominator ← numeralOf denominator
        some (numerator / denominator)

theorem numeralOf_text (n : Numeral) : numeralOf n.text = some (n.value : ℚ) :=
  if_pos ⟨n.ne_nil, List.all_eq_true.mpr n.isDigit⟩

theorem notMem_text (n : Numeral) {c : Char} (hc : c.isDigit = false) : c ∉ n.text := fun h => by
  rw [n.isDigit c h] at hc
  cases hc

theorem milesOf_whole (n : Numeral) : milesOf (n.text ++ "SM".toList) = some (n.value : ℚ) := by
  rw [milesOf, Str.stripSuffix_append, Option.bind_some, Str.splitOnce,
    if_neg (notMem_text n (by decide))]
  exact numeralOf_text n

theorem milesOf_fraction (f : Fraction) : milesOf f.token = some f.value := by
  rw [milesOf, Fraction.token, Str.stripSuffix_append, Option.bind_some,
    Str.splitOnce_append (notMem_text f.numerator (by decide))]
  dsimp only
  rw [numeralOf_text, numeralOf_text]
  rfl

/-- Whole miles without a unit denote no number of miles. -/
theorem milesOf_text (n : Numeral) : milesOf n.text = none := by
  have hsuffix : ¬ "SM".toList <:+ n.text := fun h =>
    notMem_text n (by decide : ('M' : Char).isDigit = false) (h.subset (by decide))
  rw [milesOf, Str.stripSuffix, if_neg hsuffix]
  rfl

/-- The first token that is taken for visibility denotes the printed number of miles exactly if
no whole miles get lost. -/
theorem milesOf_find_iff {isVisibility : Str → Bool}
    (h : ∀ front, isVisibility (front ++ "SM".toList) = true) (printed : Printed) :
    (printed.tokens.find? isVisibility).bind milesOf = some printed.miles ↔
      printed.KeptBy isVisibility := by
  have hfraction : ∀ part : Fraction, isVisibility part.token = true := fun part => h _
  cases printed with
  | whole miles =>
      rw [Printed.tokens, List.find?_cons_of_pos (h _), Option.bind_some, milesOf_whole]
      exact iff_of_true rfl trivial
  | fraction part =>
      rw [Printed.tokens, List.find?_cons_of_pos (hfraction part), Option.bind_some,
        milesOf_fraction]
      exact iff_of_true rfl trivial
  | mixed miles part =>
      rw [Printed.tokens, Printed.miles, Printed.KeptBy]
      cases hwhole : isVisibility miles.text with
      | true =>
          rw [List.find?_cons_of_pos hwhole, Option.bind_some, milesOf_text]
          exact iff_of_false nofun fun h => by cases h.2
      | false =>
          rw [List.find?_cons_of_neg (by simp [hwhole]), List.find?_cons_of_pos (hfraction part),
            Option.bind_some, milesOf_fraction, Option.some.injEq, and_iff_left rfl]
          constructor
          · intro h
            have hzero : (miles.value : ℚ) = 0 := by linarith
            exact_mod_cast hzero
          · intro h
            rw [h, Nat.cast_zero, zero_add]

/-- The tokens of visibility begin with a digit. -/
theorem Printed.head_of_mem_tokens (printed : Printed) {token : Str} (h : token ∈ printed.tokens) :
    token.head?.any Char.isDigit = true := by
  have hnumeral : ∀ (n : Numeral) (back : Str), (n.text ++ back).head?.any Char.isDigit = true := by
    intro n back
    obtain ⟨c, text, htext⟩ := List.exists_cons_of_ne_nil n.ne_nil
    rw [htext]
    exact n.isDigit c (by rw [htext]; exact List.mem_cons_self)
  have hfraction : ∀ part : Fraction, part.token.head?.any Char.isDigit = true := by
    intro part
    rw [Fraction.token, List.append_assoc]
    exact hnumeral _ _
  cases printed with
  | whole miles =>
      rw [List.mem_singleton.mp h]
      exact hnumeral _ _
  | fraction part =>
      rw [List.mem_singleton.mp h]
      exact hfraction part
  | mixed miles part =>
      rcases List.mem_cons.mp h with rfl | h
      · rw [← List.append_nil miles.text]
        exact hnumeral _ _
      · rw [List.mem_singleton.mp h]
        exact hfraction part

/-- One of the tokens is taken for visibility. -/
theorem Printed.exists_find {isVisibility : Str → Bool}
    (h : ∀ front, isVisibility (front ++ "SM".toList) = true) (printed : Printed) :
    ∃ field, printed.tokens.find? isVisibility = some field := by
  have hfraction : ∀ part : Fraction, isVisibility part.token = true := fun part => h _
  rw [← Option.isSome_iff_exists, List.find?_isSome]
  cases printed with
  | whole miles => exact ⟨_, List.mem_cons_self, h _⟩
  | fraction part => exact ⟨_, List.mem_cons_self, hfraction part⟩
  | mixed miles part => exact ⟨_, List.mem_cons_of_mem _ List.mem_cons_self, hfraction part⟩

/-! ## Runs -/

section

variable {σ : Type} {push : σ → Str → Option σ} {visibility : σ → Option Str}
  {isVisibility : Str → Bool} {Ready : σ → Prop} {Harmless : Str → Prop}

/-- Over tokens that do not panic, the first that is taken for visibility is kept. -/
theorem foldlM_visibility
    (hstep : ∀ s token, Ready s → Harmless token → ∃ pushed, push s token = some pushed ∧
      Ready pushed ∧ visibility pushed =
        (visibility s).or (if isVisibility token then some token else none))
    {s : σ} (hs : Ready s) {tokens : List Str} (htokens : ∀ token ∈ tokens, Harmless token) :
    ∃ out, tokens.foldlM push s = some out ∧ Ready out ∧
      visibility out = (visibility s).or (tokens.find? isVisibility) := by
  induction tokens generalizing s with
  | nil => exact ⟨s, rfl, hs, by rw [List.find?_nil, Option.or_none]⟩
  | cons token tokens ih =>
      obtain ⟨htoken, hrest⟩ := List.forall_mem_cons.mp htokens
      obtain ⟨pushed, hpush, hready, hpushed⟩ := hstep s token hs htoken
      obtain ⟨out, hrun, hout, hfound⟩ := ih hready hrest
      refine ⟨out, ?_, hout, ?_⟩
      · rw [List.foldlM_cons, hpush, Option.bind_eq_bind, Option.bind_some, hrun]
      · rw [hfound, hpushed, Option.or_assoc, List.find?_cons]
        cases isVisibility token <;> rfl

end

/-! ## METAR -/

theorem metar_isVisibilityToken (front : Str) :
    Metar.isVisibilityToken (front ++ "SM".toList) = true := by
  have hsuffix : "SM".toList.isSuffixOf (front ++ "SM".toList) = true :=
    List.isSuffixOf_iff_suffix.mpr (List.suffix_append _ _)
  rw [Metar.isVisibilityToken, hsuffix, Bool.or_true, Bool.true_or]

/-- The first token that is one is kept as visibility. -/
theorem pushOther_visibility (s : Metar.BodyState) (token : Str) :
    (s.pushOther token).visibility =
      s.visibility.or (if Metar.isVisibilityToken token then some token else none) := by
  obtain ⟨wind, visibility, weather, skyConditions, temperature, dewpoint, altimeter, remarks,
    inRemarks⟩ := s
  unfold Metar.BodyState.pushOther
  cases visibility with
  | none =>
      cases Metar.isVisibilityToken token with
      | true => rfl
      | false =>
          rw [if_neg (by simp), if_neg Bool.false_ne_true]
          repeat' split
          all_goals rfl
  | some field =>
      rw [if_neg (by simp), Option.some_or]
      repeat' split
      all_goals rfl

/-- Behind wind, tokens that do not begin the remarks are read one by one. -/
theorem metar_push (s : Metar.BodyState) (token : Str)
    (hs : s.wind.isSome = true ∧ s.inRemarks = false) (htoken : token ≠ "RMK".toList) :
    ∃ pushed, s.push token = some pushed ∧
      (pushed.wind.isSome = true ∧ pushed.inRemarks = false) ∧ pushed.visibility =
        s.visibility.or (if Metar.isVisibilityToken token then some token else none) := by
  obtain ⟨hwind, hremarks⟩ := hs
  unfold Metar.BodyState.push
  by_cases hcor : token = "COR".toList
  · rw [if_pos hcor]
    refine ⟨s, rfl, ⟨hwind, hremarks⟩, ?_⟩
    rw [hcor, show Metar.isVisibilityToken "COR".toList = false by decide,
      if_neg Bool.false_ne_true, Option.or_none]
  · obtain ⟨hkeepWind, hkeepRemarks⟩ := Metar.pushOther_keeps s token
    rw [if_neg hcor, hremarks, if_neg Bool.false_ne_true, if_neg htoken,
      Option.isNone_eq_false_iff.mpr hwind, if_neg Bool.false_ne_true]
    exact ⟨_, rfl, ⟨by rw [hkeepWind, hwind], by rw [hkeepRemarks, hremarks]⟩,
      pushOther_visibility s token⟩

/-- Once there are wind and visibility, they stay, and nothing panics. -/
theorem metar_foldlM_kept {s : Metar.BodyState} (hwind : s.wind.isSome = true) {field : Str}
    (hfield : s.visibility = some field) (tokens : List Str) :
    ∃ out, tokens.foldlM Metar.BodyState.push s = some out ∧ out.visibility = some field := by
  induction tokens generalizing s with
  | nil => exact ⟨s, rfl, hfield⟩
  | cons token tokens ih =>
      obtain ⟨pushed, hpush, hpushedWind, hpushed⟩ : ∃ pushed, s.push token = some pushed ∧
          pushed.wind.isSome = true ∧ pushed.visibility = some field := by
        unfold Metar.BodyState.push
        split_ifs with hcor hremarks hrmk hnone
        · exact ⟨s, rfl, hwind, hfield⟩
        · exact ⟨_, rfl, hwind, hfield⟩
        · exact ⟨_, rfl, hwind, hfield⟩
        · rw [Option.isNone_iff_eq_none] at hnone
          rw [hnone] at hwind
          cases hwind
        · refine ⟨_, rfl, by rw [(Metar.pushOther_keeps s token).1, hwind], ?_⟩
          rw [pushOther_visibility, hfield, Option.some_or]
      rw [List.foldlM_cons, hpush, Option.bind_eq_bind, Option.bind_some]
      exact ih hpushedWind hpushed

/-- What is read of a body behind its wind. -/
theorem metar_visibility (s : Metar.BodyState) (hs : s.wind.isSome = true ∧ s.inRemarks = false)
    (hnone : s.visibility = none) (printed : Printed) (groups : List Str) :
    ∃ out, (printed.tokens ++ groups).foldlM Metar.BodyState.push s = some out ∧
      out.visibility = printed.tokens.find? Metar.isVisibilityToken := by
  have htokens : ∀ token ∈ printed.tokens, token ≠ "RMK".toList := by
    rintro token htoken rfl
    exact absurd (printed.head_of_mem_tokens htoken) (by decide)
  obtain ⟨seen, hrun, hready, hseen⟩ := foldlM_visibility metar_push hs htokens
  obtain ⟨field, hfield⟩ := Printed.exists_find metar_isVisibilityToken printed
  rw [hnone, Option.none_or, hfield] at hseen
  obtain ⟨out, hrest, hout⟩ := metar_foldlM_kept hready.1 hseen groups
  refine ⟨out, ?_, hout.trans hfield.symm⟩
  rw [List.foldlM_append, hrun, Option.bind_eq_bind, Option.bind_some, hrest]

/-! ## TAF -/

theorem taf_isVisibilityToken (front : Str) :
    Taf.isVisibilityToken (front ++ "SM".toList) = true := by
  have hsuffix : "SM".toList.isSuffixOf (front ++ "SM".toList) = true :=
    List.isSuffixOf_iff_suffix.mpr (List.suffix_append _ _)
  rw [Taf.isVisibilityToken, hsuffix, Bool.or_true, Bool.true_or]

/-- Sky and weather leave the visibility. -/
theorem taf_pushOther_visibility (conditions : Taf.TafConditions) (token : Str) :
    (conditions.pushOther token).visibility = conditions.visibility := by
  unfold Taf.TafConditions.pushOther
  repeat' split
  all_goals rfl

/-- Behind wind, tokens are read one by one unless they are cut inside a character. -/
theorem taf_push (conditions : Taf.TafConditions) (token : Str)
    (hwind : conditions.wind.isSome = true) (htoken : Taf.shearOnBoundary token = true) :
    ∃ pushed, conditions.push token = some pushed ∧ pushed.wind.isSome = true ∧
      pushed.visibility = conditions.visibility.or
        (if Taf.isVisibilityToken token then some token else none) := by
  have hpush : conditions.push token = conditions.pushCalm token := by
    rw [Taf.TafConditions.push, Option.isNone_eq_false_iff.mpr hwind, if_neg Bool.false_ne_true]
  rw [hpush, Taf.TafConditions.pushCalm]
  by_cases hvisible : conditions.visibility = none ∧ Taf.isVisibilityToken token = true
  · rw [if_pos hvisible]
    refine ⟨_, rfl, hwind, ?_⟩
    rw [hvisible.1, if_pos hvisible.2]
    rfl
  · have hsame : conditions.visibility.or
        (if Taf.isVisibilityToken token then some token else none) =
        conditions.visibility := by
      rcases hfield : conditions.visibility with _ | field
      · rw [if_neg fun h => hvisible ⟨hfield, h⟩]
        rfl
      · exact Option.some_or
    have hother : (conditions.pushOther token).wind.isSome = true ∧
        (conditions.pushOther token).visibility = conditions.visibility :=
      ⟨by rw [Taf.pushOther_wind, hwind], taf_pushOther_visibility conditions token⟩
    rw [if_neg hvisible, hsame]
    by_cases hshear : conditions.windShear.isNone = true
    · have hne : Taf.parseWindShear token ≠ none := by
        rw [Ne, Taf.parseWindShear_eq_none_iff, htoken]
        decide
      rw [if_pos hshear]
      obtain ⟨parsed, hparsed⟩ := Option.ne_none_iff_exists'.mp hne
      rw [hparsed]
      cases parsed with
      | none => exact ⟨_, rfl, hother⟩
      | some shear => exact ⟨_, rfl, hwind, rfl⟩
    · rw [if_neg hshear]
      exact ⟨_, rfl, hother⟩

/-- A group for weather or for the sky is not cut inside a character. -/
theorem shearOnBoundary_of_group {token : Str}
    (h : Taf.isWeatherToken token = true ∨ (Taf.parseSkyCondition token).isSome = true) :
    Taf.shearOnBoundary token = true := by
  unfold Taf.shearOnBoundary
  have hnone : (Str.stripPrefix "WS".toList token).bind (Str.splitOnce '/') = none := by
    rcases h with hweather | hsky
    · have hslash : '/' ∉ token := by
        intro hmem
        have hkept : '/' ∈ Str.trimMatches '-' (Str.trimMatches '+' token) :=
          Str.mem_rdropWhile_dropWhile (Str.mem_rdropWhile_dropWhile hmem (by decide)) (by decide)
        unfold Taf.isWeatherToken at hweather
        simp only [Bool.and_eq_true] at hweather
        exact absurd (List.all_eq_true.mp hweather.1.1.2 '/' hkept) (by decide)
      refine Option.bind_eq_none_iff.mpr fun core hcore => if_neg fun hmem => hslash ?_
      rw [Str.append_of_stripPrefix hcore]
      exact List.mem_append_right _ hmem
    · have hstrip : Str.stripPrefix "WS".toList token = none := by
        obtain ⟨sky, hparsed⟩ := Option.isSome_iff_exists.mp hsky
        obtain ⟨parsed, hparsed, -⟩ := Option.map_eq_some_iff.mp hparsed
        obtain ⟨cover, hcover, hparsed⟩ := Option.bind_eq_some_iff.mp hparsed
        split_ifs at hparsed with hmem
        obtain ⟨⟨front, rest⟩, hsplit, rfl⟩ := Option.map_eq_some_iff.mp hcover
        have hheads : ∀ cover ∈ ["SKC", "NSC", "FEW", "SCT", "BKN", "OVC", "VV0"].map String.toList,
            ∃ c rest, cover = c :: rest ∧ c ≠ 'W' := by
          simp
        obtain ⟨c, cover, rfl, hc⟩ := hheads _ hmem
        rw [← (Str.append_of_splitAtByte hsplit).1]
        refine if_neg fun hprefix => hc ?_
        exact ((List.cons_prefix_cons.mp hprefix).1).symm
      rw [hstrip]
      rfl
  rw [hnone]

/-- What is read of conditions behind their wind. -/
theorem taf_visibility (conditions : Taf.TafConditions) (hwind : conditions.wind.isSome = true)
    (hnone : conditions.visibility = none) (printed : Printed) {groups : List Str}
    (hgroups : ∀ token ∈ groups,
      Taf.isWeatherToken token = true ∨ (Taf.parseSkyCondition token).isSome = true) :
    ∃ out, (printed.tokens ++ groups).foldlM Taf.TafConditions.push conditions = some out ∧
      out.visibility = printed.tokens.find? Taf.isVisibilityToken := by
  have htokens : ∀ token ∈ printed.tokens ++ groups, Taf.shearOnBoundary token = true := by
    refine List.forall_mem_append.mpr ⟨fun token htoken => ?_, fun token htoken =>
      shearOnBoundary_of_group (hgroups token htoken)⟩
    by_contra hcut
    have hshear : Taf.parseWindShear token = none :=
      Taf.parseWindShear_eq_none_iff.mpr (by simpa using hcut)
    have hhead := printed.head_of_mem_tokens htoken
    rw [(Taf.ends_of_parseWindShear (by rw [hshear]; exact nofun)).1] at hhead
    exact absurd hhead (by decide)
  obtain ⟨out, hrun, -, hout⟩ := foldlM_visibility taf_push hwind htokens
  obtain ⟨field, hfield⟩ := Printed.exists_find taf_isVisibilityToken printed
  rw [hnone, Option.none_or, List.find?_append, hfield, Option.some_or, ← hfield] at hout
  exact ⟨out, hrun, hout⟩

/-! ## Reports -/

/-- The first token, a group for wind, is taken for it. -/
theorem metar_push_wind {token : Str} (h : isWind false token = true) :
    ∃ wind, Metar.BodyState.push {} token = some { wind := some wind } := by
  obtain ⟨wind, hparsed⟩ := exists_of_isWind h
  have hne : ∀ word, isWind false word = false → token ≠ word := by
    rintro word hword rfl
    rw [h] at hword
    cases hword
  refine ⟨wind, ?_⟩
  rw [Metar.BodyState.push, if_neg (hne _ (by decide)), if_neg Bool.false_ne_true,
    if_neg (hne _ (by decide)), Option.isNone_none, if_pos rfl, hparsed]
  rfl

theorem taf_push_wind {token : Str} (h : isWind true token = true) :
    ∃ wind, Taf.TafConditions.push {} token = some { wind := some wind } := by
  obtain ⟨wind, hparsed⟩ := exists_of_isWind h
  refine ⟨wind, ?_⟩
  rw [Taf.TafConditions.push, Option.isNone_none, if_pos rfl, hparsed]
  rfl

/-- **Visibility.**  In a report behind its time and wind, and in conditions behind their wind,
the number of miles that is read is the printed one exactly if no whole miles stand in a token
of their own. -/
theorem visibility_kept_iff (printed : Printed) (groups : List Str) :
    (∀ (kind : Metar.MetarReportKind) (station : Str) (correction corrected : Bool)
        (bodyTokens normalized : List Str) (time wind : Str),
      Metar.isMetarStation station = true →
      Metar.expandMetarBodyTokens bodyTokens = some normalized →
      Metar.bodyHeader normalized = some (corrected, time, wind :: (printed.tokens ++ groups)) →
      timeToken time = true → isWind false wind = true →
      ((∃ report, Metar.parseMetarBody kind station bodyTokens correction = some (some report) ∧
        report.visibility.bind milesOf = some printed.miles) ↔
        printed.KeptBy Metar.isVisibilityToken)) ∧
    ∀ wind : Str, isWind true wind = true →
      (∀ token ∈ groups, Taf.isWeatherToken token = true ∨ (Taf.parseSkyCondition token).isSome) →
      ((∃ conditions, Taf.parseConditions (wind :: (printed.tokens ++ groups)) = some conditions ∧
        conditions.visibility.bind milesOf = some printed.miles) ↔
        printed.KeptBy Taf.isVisibilityToken) := by
  constructor
  · intro kind station correction corrected bodyTokens normalized time wind hstation hexpand hheader
      htime hwind
    obtain ⟨parsed, hpush⟩ := metar_push_wind hwind
    obtain ⟨out, hrun, hout⟩ :=
      metar_visibility { wind := some parsed } ⟨rfl, rfl⟩ rfl printed groups
    have hall : (wind :: (printed.tokens ++ groups)).foldlM Metar.BodyState.push {} = some out := by
      rw [List.foldlM_cons, hpush, Option.bind_eq_bind, Option.bind_some, hrun]
    have hnil : (wind :: (printed.tokens ++ groups)).head? ≠ some "NIL".toList := by
      rintro ⟨⟩
      exact absurd hwind (by decide)
    rw [← milesOf_find_iff metar_isVisibilityToken, ← hout]
    rw [Metar.parseMetarBody, hexpand, Option.bind_eq_bind, Option.bind_some, hheader]
    dsimp only
    rw [isTimeToken_eq, Option.bind_eq_bind, Option.bind_some, hstation, htime, if_neg (by decide),
      if_neg hnil, hall]
    simp
  · intro wind hwind hgroups
    obtain ⟨parsed, hpush⟩ := taf_push_wind hwind
    obtain ⟨out, hrun, hout⟩ :=
      taf_visibility { wind := some parsed } rfl rfl printed hgroups
    rw [← milesOf_find_iff taf_isVisibilityToken, ← hout, Taf.parseConditions, List.foldlM_cons,
      hpush, Option.bind_eq_bind, Option.bind_some, hrun]
    simp

/-- Two miles, and one and a half. -/
def twoMiles : Printed := .whole ⟨"2".toList, by decide, by decide⟩

def oneAndAHalf : Printed :=
  .mixed ⟨"1".toList, by decide, by decide⟩
    ⟨⟨"1".toList, by decide, by decide⟩, ⟨"2".toList, by decide, by decide⟩, by decide⟩

/-- Whole miles in a report and in conditions. -/
theorem visibility_kept_two :
    (∃ report, Metar.parseMetarBody .metar "KBOS".toList
        (["071154Z", "12010KT", "2SM", "BR", "OVC010"].map String.toList) false =
          some (some report) ∧
      report.visibility.bind milesOf = some twoMiles.miles) ∧
    ∃ conditions, Taf.parseConditions (["12010KT", "2SM", "BR", "OVC010"].map String.toList) =
        some conditions ∧
      conditions.visibility.bind milesOf = some twoMiles.miles := by
  obtain ⟨hmetar, htaf⟩ := visibility_kept_iff twoMiles (["BR", "OVC010"].map String.toList)
  exact ⟨(hmetar .metar "KBOS".toList false false _ _ "071154Z".toList "12010KT".toList
    (by decide) rfl rfl (by decide) (by decide)).mpr trivial,
    (htaf "12010KT".toList (by decide) (by decide)).mpr trivial⟩

/-- Of one mile and a half, the half is kept. -/
theorem visibility_kept_half :
    ¬ ∀ (printed : Printed) (groups : List Str),
      (∀ (kind : Metar.MetarReportKind) (station : Str) (correction corrected : Bool)
          (bodyTokens normalized : List Str) (time wind : Str),
        Metar.isMetarStation station = true →
        Metar.expandMetarBodyTokens bodyTokens = some normalized →
        Metar.bodyHeader normalized = some (corrected, time, wind :: (printed.tokens ++ groups)) →
        timeToken time = true → isWind false wind = true →
        ∃ report, Metar.parseMetarBody kind station bodyTokens correction = some (some report) ∧
          report.visibility.bind milesOf = some printed.miles) ∧
      ∀ wind : Str, isWind true wind = true →
        (∀ token ∈ groups, Taf.isWeatherToken token = true ∨ (Taf.parseSkyCondition token).isSome) →
        ∃ conditions, Taf.parseConditions (wind :: (printed.tokens ++ groups)) = some conditions ∧
          conditions.visibility.bind milesOf = some printed.miles := by
  intro h
  obtain ⟨conditions, hparse, hmiles⟩ :=
    (h oneAndAHalf []).2 "12010KT".toList (by decide) (by decide)
  have hread : (Taf.parseConditions ("12010KT".toList :: (oneAndAHalf.tokens ++ []))).map
      Taf.TafConditions.visibility = some (some "1/2SM".toList) := by decide
  rw [hparse, Option.map_some, Option.some.injEq] at hread
  have hhalf : milesOf "1/2SM".toList = some ((1 : ℕ) / (2 : ℕ) : ℚ) :=
    milesOf_fraction ⟨⟨"1".toList, by decide, by decide⟩,
      ⟨"2".toList, by decide, by decide⟩, by decide⟩
  have hprinted : oneAndAHalf.miles = ((1 : ℕ) : ℚ) + (1 : ℕ) / (2 : ℕ) := rfl
  rw [hread, Option.bind_some, hhalf, hprinted, Option.some.injEq] at hmiles
  norm_num at hmiles

end Parser.Visibility
