/-
# Printed tags of wind and hail

The lines that say how strong the wind and how large the hail of a warning may be, and what
`parse_modern_wind_hail_line` makes of them: an entry of every line with one tag, and an issue of
every line with a pair (`parseModernWindHailLine_text`).
-/
import Emwin.Lib.Ascii
import Emwin.Lib.Layout
import Emwin.Lib.PaddedDigits
import Emwin.Parser.WindHail

namespace Parser.WindHail

open Floats

/-! ## Printing -/

/-- What is printed of a wind or a hail: a comparison, a number, and units behind some spaces. -/
structure TagValue where
  comparison : Option Char
  whole : Str
  fraction : Option Str
  spaces : ℕ
  units : Str
  deriving DecidableEq, Repr

namespace TagValue

/-- The digits of the number. -/
def digits (v : TagValue) : Str := v.whole ++ v.fraction.getD []

/-- The number as it is printed. -/
def number (v : TagValue) : Str :=
  match v.fraction with
  | none => v.whole
  | some fraction => v.whole ++ '.' :: fraction

/-- The number with its units. -/
def amount (v : TagValue) : Str := v.number ++ (List.replicate v.spaces ' ' ++ v.units)

/-- What is printed. -/
def text (v : TagValue) : Str := v.comparison.toList ++ v.amount

/-- What the number says. -/
def value (v : TagValue) : Number :=
  .finite (Str.digitsValue v.digits / 10 ^ (v.fraction.getD []).length)

/-- The entry of a value. -/
def entry (v : TagValue) (kind : WindHailKind) : WindHailEntry Number :=
  ⟨kind, some v.value, some v.units, v.comparison⟩

/-- What can be printed with some units. -/
structure InRange (allowedUnits : List Str) (v : TagValue) : Prop where
  comparison : ∀ c ∈ v.comparison, c = '<' ∨ c = '>'
  digits : v.digits ≠ [] ∧ ∀ c ∈ v.digits, c.isDigit = true
  units : v.units ∈ allowedUnits

instance (allowedUnits : List Str) (v : TagValue) : Decidable (v.InRange allowedUnits) :=
  letI : Decidable (∀ c ∈ v.comparison, c = '<' ∨ c = '>') := Option.decidableForallMem _
  decidable_of_iff ((∀ c ∈ v.comparison, c = '<' ∨ c = '>') ∧
    (v.digits ≠ [] ∧ ∀ c ∈ v.digits, c.isDigit = true) ∧ v.units ∈ allowedUnits)
    ⟨fun ⟨comparison, digits, units⟩ => ⟨comparison, digits, units⟩,
      fun ⟨comparison, digits, units⟩ => ⟨comparison, digits, units⟩⟩

/-- The units of winds. -/
def WIND_UNITS : List Str := ["MPH".toList, "KTS".toList]

/-- The units of hail. -/
def HAIL_UNITS : List Str := ["IN".toList]

/-- A wind is a number of miles or knots without a fraction. -/
def IsWind (v : TagValue) : Prop := v.InRange WIND_UNITS ∧ v.fraction = none

/-- A hail is a number of inches. -/
def IsHail (v : TagValue) : Prop := v.InRange HAIL_UNITS

instance (v : TagValue) : Decidable v.IsWind := inferInstanceAs (Decidable (_ ∧ _))

instance (v : TagValue) : Decidable v.IsHail := inferInstanceAs (Decidable (v.InRange HAIL_UNITS))

end TagValue

/-- The three points between a label and a value. -/
def DOTS : Str := "...".toList

/-- A line of a warning. -/
inductive TagLine where
  | plain (text : Str)
  | pair (wind : TagValue) (spaces : ℕ) (hail : TagValue)
  | wind (label : Str) (value : TagValue)
  | hail (label : Str) (value : TagValue)
  | windThreat (label threat : Str)
  | hailThreat (label threat : Str)
  deriving DecidableEq, Repr

/-- What is printed on a line. -/
def TagLine.text : TagLine → Str
  | .plain text => text
  | .pair first spaces second =>
      "WIND".toList ++ (DOTS ++ (first.text ++ (List.replicate (spaces + 1) ' ' ++
        ("HAIL".toList ++ (DOTS ++ second.text)))))
  | .wind label value | .hail label value => label ++ (DOTS ++ value.text)
  | .windThreat label threat | .hailThreat label threat => label ++ (DOTS ++ threat)

/-- A line is free of three points in a row, or one tag.  A tag of its own has the label `WIND` or
`HAIL`, or one that is normalized to another label, as `MAX WIND GUST` is. -/
def TagLine.InRange : TagLine → Prop
  | .plain text => ¬DOTS <:+: text
  | .pair first _ second => first.IsWind ∧ second.IsHail
  | .wind label value =>
      (label = "WIND".toList ∨ normalizeModernLabel label = "MAXWINDGUST".toList) ∧ value.IsWind
  | .hail label value =>
      (label = "HAIL".toList ∨ normalizeModernLabel label = "MAXHAILSIZE".toList) ∧ value.IsHail
  | .windThreat label threat =>
      normalizeModernLabel label = "WINDTHREAT".toList ∧ ¬DOTS <:+: threat
  | .hailThreat label threat =>
      normalizeModernLabel label = "HAILTHREAT".toList ∧ ¬DOTS <:+: threat

instance : ∀ tag : TagLine, Decidable tag.InRange
  | .plain text => inferInstanceAs (Decidable (¬DOTS <:+: text))
  | .pair first _ second => inferInstanceAs (Decidable (first.IsWind ∧ second.IsHail))
  | .wind _ _ | .hail _ _ => inferInstanceAs (Decidable ((_ ∨ _) ∧ _))
  | .windThreat _ _ | .hailThreat _ _ => inferInstanceAs (Decidable (_ ∧ ¬_))

/-- The entries that a line prints. -/
def TagLine.entries : TagLine → List (WindHailEntry Number)
  | .plain _ => []
  | .pair first _ second => [first.entry .legacyWind, second.entry .legacyHail]
  | .wind _ value => [value.entry .maxWindGust]
  | .hail _ value => [value.entry .maxHailSize]
  | .windThreat _ _ => [⟨.windThreat, none, none, none⟩]
  | .hailThreat _ _ => [⟨.hailThreat, none, none, none⟩]

/-- Whether a line has a pair. -/
def TagLine.isPair : TagLine → Bool
  | .pair _ _ _ => true
  | _ => false

variable {v : TagValue} {tag : TagLine} {allowedUnits : List Str} {label value s : Str} {c : Char}

/-! ## Labels -/

/-- A label is kept without white space in upper case. -/
theorem mem_normalizeModernLabel (hc : c ∈ label) (hspace : Str.isWhitespace c = false) :
    c.toUpper ∈ normalizeModernLabel label := by
  refine List.mem_map_of_mem (List.mem_filter.mpr ⟨hc, ?_⟩)
  rw [hspace]
  rfl

/-- A label that is normalized to letters has no points. -/
theorem notMem_of_normalizeModernLabel {normalized : Str}
    (h : normalizeModernLabel label = normalized)
    (hpoint : '.' ∉ normalized) : '.' ∉ label := by
  intro hmem
  have hupper := mem_normalizeModernLabel hmem (by decide)
  rw [h] at hupper
  exact hpoint hupper

/-- The first three points stand behind the label. -/
theorem find_dots (h : '.' ∉ label) (value : Str) :
    Str.find DOTS (label ++ (DOTS ++ value)) = some label.length := by
  refine ListSearch.findSub_eq_some (by simp) ?_ fun j hj hprefix => ?_
  · rw [List.drop_left]
    exact List.prefix_append _ _
  · rw [List.drop_append_of_le_length hj.le, List.drop_eq_getElem_cons hj] at hprefix
    have hhead : '.' = label[j] := (List.cons_prefix_cons.mp hprefix).1
    exact h (hhead ▸ List.getElem_mem hj)

/-- A text without three points in a row is no tag. -/
theorem find_dots_eq_none (h : ¬DOTS <:+: s) : Str.find DOTS s = none := by
  rw [Option.eq_none_iff_forall_ne_some]
  intro i hi
  obtain ⟨behind, hbehind⟩ := ListSearch.prefix_drop_of_findSub hi
  exact h ⟨s.take i, behind, by rw [List.append_assoc, hbehind, List.take_append_drop]⟩

/-! ## Values -/

/-- A value that ends with a letter has nothing at its end that is removed. -/
theorem normalizeModernValue_eq_self (htrim : Str.trim s = s) (hlast : s.getLast? = some c)
    (hc : c.isAlpha = true) : normalizeModernValue s = s := by
  have hne : s ≠ [] := by
    rintro rfl
    cases hlast
  have hends : ∀ t d, d.isAlpha = false → s ≠ t ++ [d] := by
    rintro t d hd rfl
    rw [List.getLast?_concat, Option.some.injEq] at hlast
    rw [hlast, hc] at hd
    cases hd
  have hstrip : ∀ d : Char, d.isAlpha = false → Str.stripSuffix [d, d] s = none := by
    intro d hd
    rw [Option.eq_none_iff_forall_ne_some]
    intro t ht
    exact hends (t ++ [d]) d hd (by rw [Str.append_of_stripSuffix ht, List.append_assoc]; rfl)
  have hterminators : stripTerminators s = s := by
    rw [stripTerminators]
    split
    · rfl
    · next stripped hor =>
        rw [show "$$".toList = ['$', '$'] from rfl, hstrip '$' (by decide),
          show "&&".toList = ['&', '&'] from rfl, hstrip '&' (by decide)] at hor
        cases hor
  have hkept : ∀ p : Char → Bool, p c = false → s.rdropWhile p = s := by
    intro p hp
    rw [List.rdropWhile_eq_self_iff]
    intro hne
    rw [(List.getLast_eq_iff_getLast?_eq_some hne).mpr hlast, hp]
    exact Bool.false_ne_true
  have hpunctuation : decide (c ∈ ['.', ',', ';', ':']) = false := by
    rw [decide_eq_false_iff_not]
    intro hmem
    simp only [List.mem_cons, List.not_mem_nil, or_false] at hmem
    rcases hmem with rfl | rfl | rfl | rfl <;> exact absurd hc (by decide)
  rw [normalizeModernValue, htrim, hterminators, Str.trimEndMatches, hkept _ hpunctuation,
    Str.trimEnd, hkept _ (Str.isWhitespace_of_isAlpha hc)]

/-- Spaces are white space. -/
theorem isWhitespace_of_mem_spaces {n : ℕ} :
    ∀ c ∈ List.replicate n ' ', Str.isWhitespace c = true := by
  intro c hc
  rw [(List.mem_replicate.mp hc).2]
  decide

/-- Two words, or one if there are no spaces between them. -/
theorem splitWhitespace_gap {word units : Str} (hne : word ≠ [])
    (hword : ∀ c ∈ word, Str.isWhitespace c = false) (hunits : units ≠ [])
    (hletters : ∀ c ∈ units, Str.isWhitespace c = false) (spaces : ℕ) :
    Str.splitWhitespace (word ++ (List.replicate spaces ' ' ++ units)) =
      if spaces = 0 then [word ++ units] else [word, units] := by
  cases spaces with
  | zero =>
      rw [List.replicate_zero, List.nil_append, if_pos rfl]
      exact Str.splitWhitespace_eq_singleton (by simp [hunits])
        (List.forall_mem_append.mpr ⟨hword, hletters⟩)
  | succ n =>
      rw [List.replicate_succ, List.cons_append, Str.splitWhitespace_append_cons (by decide),
        Str.splitWhitespace_spaces_append isWhitespace_of_mem_spaces,
        Str.splitWhitespace_eq_singleton hunits hletters,
        Str.splitWhitespace_eq_singleton hne hword]
      rfl

/-- A text that begins as a number does and ends with a letter has nothing around it. -/
theorem trim_append_body {front body : Str} (hfront : ∀ c ∈ front.head?, Str.isWhitespace c = false)
    (hhead : ∀ c ∈ body.head?, c.isDigit = true ∨ c = '.') (hlast : body.getLast? = some c)
    (hc : c.isAlpha = true) : Str.trim (front ++ body) = front ++ body := by
  have hne : body ≠ [] := by
    rintro rfl
    cases hlast
  apply Str.trim_eq_self
  · cases front with
    | nil =>
        intro d hd
        rcases hhead d hd with hdigit | rfl
        · exact Str.isWhitespace_of_isDigit hdigit
        · decide
    | cons d front => exact hfront
  · intro d hd
    rw [List.getLast?_append_of_ne_nil _ hne, hlast] at hd
    obtain rfl := Option.some.inj hd
    exact Str.isWhitespace_of_isAlpha hc

/-- **Comparisons.**  What is read behind a comparison is what is read without it. -/
theorem parseNumericValue_eq {comparison : Option Char} {body : Str}
    (hcomparison : ∀ c ∈ comparison, c = '<' ∨ c = '>')
    (hhead : ∀ c ∈ body.head?, c.isDigit = true ∨ c = '.') (hlast : body.getLast? = some c)
    (hc : c.isAlpha = true) (kind : WindHailKind) (code raw : Str) :
    parseNumericValue (F := Number)
      (Str.trim (comparison.toList ++ body)) kind allowedUnits code raw =
      ((splitNumericAndUnits body allowedUnits).bind fun (numeric, units) =>
        (parse numeric).map fun numericValue =>
          WindHailEntry.mk kind (some numericValue) (some units) comparison).elim
        (.error (invalidNumericIssue code raw)) .ok := by
  have hfront : ∀ d ∈ comparison.toList.head?, Str.isWhitespace d = false := by
    intro d hd
    rcases hcomparison d (by simpa using hd) with rfl | rfl <;> decide
  have htrim := trim_append_body hfront hhead hlast hc
  have hbody : Str.trim ([] ++ body) = [] ++ body := trim_append_body nofun hhead hlast hc
  rw [List.nil_append] at hbody
  have hne : body ≠ [] := by
    rintro rfl
    cases hlast
  have hnormalized := normalizeModernValue_eq_self htrim
    (by rw [List.getLast?_append_of_ne_nil _ hne, hlast]) hc
  rw [parseNumericValue, htrim, hnormalized]
  cases comparison with
  | none =>
      -- without a sign, the body itself does not begin with one
      have hnone : ∀ d rest, d = '<' ∨ d = '>' → body ≠ d :: rest := by
        rintro d rest hd rfl
        rcases hhead d rfl with hdigit | rfl
        · rcases hd with rfl | rfl <;> exact absurd hdigit (by decide)
        · exact absurd hd (by decide)
      rw [Option.toList_none, List.nil_append]
      split
      next comparison remainder heq =>
        split at heq
        · exact absurd rfl (hnone _ _ (Or.inl rfl))
        · exact absurd rfl (hnone _ _ (Or.inr rfl))
        · obtain ⟨rfl, rfl⟩ := Prod.mk.inj heq
          rcases splitNumericAndUnits body allowedUnits with _ | ⟨numeric, units⟩
          · rfl
          · cases hparse : (parse numeric : Option Number) <;> simp [hparse]
  | some sign =>
      rw [Option.toList_some, List.singleton_append]
      rcases hcomparison sign rfl with rfl | rfl
      all_goals
        simp only [hbody]
        rcases splitNumericAndUnits body allowedUnits with _ | ⟨numeric, units⟩
        · rfl
        · cases hparse : (parse numeric : Option Number) <;> simp [hparse]

namespace TagValue

/-- The facts about units that reading them needs. -/
theorem units_spec (hallowed : allowedUnits ∈ [WIND_UNITS, HAIL_UNITS]) {units : Str}
    (h : units ∈ allowedUnits) :
    units ≠ [] ∧ Str.toAsciiUppercase units = units ∧ ∀ c ∈ units, c.isAlpha = true := by
  simp only [List.mem_cons, List.not_mem_nil, or_false] at hallowed
  rcases hallowed with rfl | rfl
  · simp only [WIND_UNITS, List.mem_cons, List.not_mem_nil, or_false] at h
    rcases h with rfl | rfl <;> decide
  · rw [HAIL_UNITS, List.mem_singleton] at h
    subst h
    decide

/-- A number has digits, and perhaps a point. -/
theorem InRange.mem_number (h : v.InRange allowedUnits) (hc : c ∈ v.number) :
    c.isDigit = true ∨ c = '.' := by
  have hdigits := h.digits.2
  unfold number at hc
  unfold TagValue.digits at hdigits
  cases hfraction : v.fraction with
  | none =>
      rw [hfraction] at hc
      exact Or.inl (hdigits c (List.mem_append_left _ hc))
  | some fraction =>
      rw [hfraction] at hc hdigits
      rcases List.mem_append.mp hc with hc | hc
      · exact Or.inl (hdigits c (List.mem_append_left _ hc))
      · rcases List.mem_cons.mp hc with rfl | hc
        · exact Or.inr rfl
        · exact Or.inl (hdigits c (List.mem_append_right _ hc))

theorem InRange.number_ne_nil (h : v.InRange allowedUnits) : v.number ≠ [] := by
  have hdigits := h.digits.1
  unfold number
  unfold TagValue.digits at hdigits
  cases hfraction : v.fraction with
  | none =>
      rw [hfraction] at hdigits
      simpa using hdigits
  | some fraction => simp

/-- Numbers have neither white space nor letters. -/
theorem InRange.isWhitespace_number (h : v.InRange allowedUnits) (hc : c ∈ v.number) :
    Str.isWhitespace c = false ∧ c.isAlpha = false := by
  rcases h.mem_number hc with hdigit | rfl
  · exact ⟨Str.isWhitespace_of_isDigit hdigit, Str.isAlpha_of_isDigit hdigit⟩
  · decide

/-- **Numbers.**  A number is read. -/
theorem InRange.parse_number (h : v.InRange allowedUnits) :
    (parse v.number : Option Number) = some v.value := by
  obtain ⟨hne, hdigits⟩ := h.digits
  unfold number value
  unfold TagValue.digits at hne hdigits ⊢
  cases hfraction : v.fraction with
  | none =>
      rw [hfraction] at hne hdigits
      simp only [Option.getD_none, List.append_nil] at hne hdigits ⊢
      rw [Number.parse_of_digits hne hdigits]
      simp
  | some fraction =>
      rw [hfraction] at hne hdigits
      exact Number.parse_of_decimal hne (fun c hc => hdigits c (List.mem_append_left _ hc))
        fun c hc => hdigits c (List.mem_append_right _ hc)

/-- The words of a number with its units. -/
theorem InRange.splitWhitespace_amount (hallowed : allowedUnits ∈ [WIND_UNITS, HAIL_UNITS])
    (h : v.InRange allowedUnits) :
    Str.splitWhitespace v.amount =
      if v.spaces = 0 then [v.number ++ v.units] else [v.number, v.units] := by
  obtain ⟨hunits, -, halpha⟩ := units_spec hallowed h.units
  exact splitWhitespace_gap h.number_ne_nil (fun c hc => (h.isWhitespace_number hc).1) hunits
    (fun c hc => Str.isWhitespace_of_isAlpha (halpha c hc)) v.spaces

/-- **Amounts.**  A number is taken apart from its units. -/
theorem InRange.splitNumericAndUnits_amount (hallowed : allowedUnits ∈ [WIND_UNITS, HAIL_UNITS])
    (h : v.InRange allowedUnits) :
    splitNumericAndUnits v.amount allowedUnits = some (v.number, v.units) := by
  obtain ⟨hunits, hupper, halpha⟩ := units_spec hallowed h.units
  have hfind : allowedUnits.find? (· = Str.toAsciiUppercase v.units) = some v.units := by
    rw [hupper]
    obtain ⟨found, hfound⟩ := Option.isSome_iff_exists.mp
      ((List.find?_isSome (p := fun units => decide (units = v.units))).mpr
        ⟨v.units, h.units, decide_eq_true rfl⟩)
    have hsame := List.find?_some hfound
    rw [hfound, of_decide_eq_true hsame]
  have hfront : ∀ c ∈ v.number, (!c.isAlpha) = true := by
    intro c hc
    rw [(h.isWhitespace_number hc).2]
    rfl
  obtain ⟨first, number, hnumber⟩ := List.exists_cons_of_ne_nil h.number_ne_nil
  obtain ⟨letter, units, hletters⟩ := List.exists_cons_of_ne_nil hunits
  have hletter : letter.isAlpha = true := halpha letter (hletters ▸ List.mem_cons_self)
  unfold splitNumericAndUnits
  rw [h.splitWhitespace_amount hallowed]
  by_cases hspaces : v.spaces = 0
  · have hany : (v.number ++ v.units).any Char.isAlpha = true := by
      rw [List.any_append, hletters, List.any_cons, hletter, Bool.true_or, Bool.or_true]
    have hhead : (v.number ++ v.units).head?.any Char.isAlpha = false := by
      rw [hnumber]
      exact (h.isWhitespace_number (hnumber ▸ List.mem_cons_self)).2
    have htake : (v.number ++ v.units).takeWhile (fun c => !c.isAlpha) = v.number := by
      rw [List.takeWhile_append_of_pos hfront, hletters, List.takeWhile_cons_of_neg (by simpa),
        List.append_nil]
    have hdrop : (v.number ++ v.units).dropWhile (fun c => !c.isAlpha) = v.units := by
      rw [List.dropWhile_append_of_pos hfront, hletters, List.dropWhile_cons_of_neg (by simpa)]
    rw [if_pos hspaces]
    simp only [hany, hhead, htake, hdrop, hfind, Bool.not_false, Bool.and_true, if_true,
      Option.map_some]
  · rw [if_neg hspaces]
    simp only [hfind, Option.map_some]

/-- An amount ends with a letter. -/
theorem InRange.getLast_amount (hallowed : allowedUnits ∈ [WIND_UNITS, HAIL_UNITS])
    (h : v.InRange allowedUnits) : ∃ c, v.amount.getLast? = some c ∧ c.isAlpha = true := by
  obtain ⟨hunits, -, halpha⟩ := units_spec hallowed h.units
  refine ⟨v.units.getLast hunits, ?_, halpha _ (List.getLast_mem hunits)⟩
  rw [amount, List.getLast?_append_of_ne_nil _ (by simp [hunits]),
    List.getLast?_append_of_ne_nil _ hunits, List.getLast?_eq_getLast_of_ne_nil hunits]

theorem InRange.head_amount (h : v.InRange allowedUnits) :
    ∀ c ∈ v.amount.head?, c.isDigit = true ∨ c = '.' := by
  intro c hc
  obtain ⟨first, number, hnumber⟩ := List.exists_cons_of_ne_nil h.number_ne_nil
  rw [amount, hnumber] at hc
  obtain rfl := Option.some.inj hc
  exact h.mem_number (hnumber ▸ List.mem_cons_self)

/-- **Values.**  A printed value is read. -/
theorem InRange.parseNumericValue_text (hallowed : allowedUnits ∈ [WIND_UNITS, HAIL_UNITS])
    (h : v.InRange allowedUnits) (kind : WindHailKind) (code raw : Str) :
    parseNumericValue (Str.trim v.text) kind allowedUnits code raw = .ok (v.entry kind) := by
  obtain ⟨c, hlast, hc⟩ := h.getLast_amount hallowed
  rw [text, parseNumericValue_eq h.comparison h.head_amount hlast hc,
    h.splitNumericAndUnits_amount hallowed, Option.bind_some]
  dsimp only
  rw [h.parse_number]
  rfl

/-- A printed value has one point at most. -/
theorem InRange.not_dots (hallowed : allowedUnits ∈ [WIND_UNITS, HAIL_UNITS])
    (h : v.InRange allowedUnits) : ¬DOTS <:+: v.text := by
  obtain ⟨-, -, halpha⟩ := units_spec hallowed h.units
  have hcomparison : v.comparison.toList.count '.' = 0 := by
    refine List.count_eq_zero.mpr fun hmem => ?_
    rcases h.comparison '.' (by simpa using hmem) with hsign | hsign
    all_goals exact absurd hsign (by decide)
  have hgap : (List.replicate v.spaces ' ').count '.' = 0 :=
    List.count_eq_zero.mpr fun hmem => absurd (List.mem_replicate.mp hmem).2 (by decide)
  have hunits : v.units.count '.' = 0 :=
    List.count_eq_zero.mpr fun hmem => absurd (halpha _ hmem) (by decide)
  have hdigits : ∀ s : Str, (∀ c ∈ s, c.isDigit = true) → s.count '.' = 0 := fun s hs =>
    List.count_eq_zero.mpr fun hmem => absurd (hs _ hmem) (by decide)
  have hnumber : v.number.count '.' ≤ 1 := by
    have hall := h.digits.2
    unfold number
    unfold TagValue.digits at hall
    cases hfraction : v.fraction with
    | none =>
        rw [hfraction] at hall
        rw [hdigits _ fun c hc => hall c (List.mem_append_left _ hc)]
        exact Nat.zero_le 1
    | some fraction =>
        rw [hfraction] at hall
        rw [List.count_append, List.count_cons_self,
          hdigits _ fun c hc => hall c (List.mem_append_left _ hc),
          hdigits fraction fun c hc => hall c (List.mem_append_right _ hc)]
  intro hdots
  -- points are counted: three points in a row would be three of them
  have hthree : DOTS.count '.' ≤ v.text.count '.' := hdots.sublist.count_le '.'
  rw [text, amount, List.count_append, List.count_append, List.count_append, hcomparison, hgap,
    hunits] at hthree
  have : DOTS.count '.' = 3 := by decide
  omega

end TagValue

/-! ## Lines -/

/-- The value of a tag is read by its label. -/
theorem parseModernWindHailLine_eq (h : '.' ∉ label) (value : Str) :
    parseModernWindHailLine (F := Number) (label ++ (DOTS ++ value)) =
      if normalizeModernLabel label = "HAILTHREAT".toList then
        .ok (some ⟨.hailThreat, none, none, none⟩)
      else if normalizeModernLabel label = "WINDTHREAT".toList then
        .ok (some ⟨.windThreat, none, none, none⟩)
      else if normalizeModernLabel label = "HAIL".toList ∨
          normalizeModernLabel label = "MAXHAILSIZE".toList then
        (parseNumericValue (Str.trim value) .maxHailSize TagValue.HAIL_UNITS
          "invalid_wind_hail_hail_value".toList (label ++ (DOTS ++ value))).map some
      else if normalizeModernLabel label = "WIND".toList ∨
          normalizeModernLabel label = "MAXWINDGUST".toList then
        (parseNumericValue (Str.trim value) .maxWindGust TagValue.WIND_UNITS
          "invalid_wind_hail_wind_value".toList (label ++ (DOTS ++ value))).map some
      else .ok none := by
  have hfind : Str.find "...".toList (label ++ (DOTS ++ value)) = some label.length :=
    find_dots h value
  have htake : (label ++ (DOTS ++ value)).take label.length = label := List.take_left
  have hdrop : (label ++ (DOTS ++ value)).drop (label.length + 3) = value := by
    rw [← List.drop_drop, List.drop_left]
    rfl
  rw [parseModernWindHailLine, hfind]
  simp only [htake, hdrop]
  rfl

/-- The words of a pair are never a number with its units. -/
theorem splitNumericAndUnits_pair {first second : TagValue} (hfirst : first.IsWind)
    (hsecond : second.IsHail) (spaces : ℕ) :
    splitNumericAndUnits (first.amount ++ (List.replicate (spaces + 1) ' ' ++
      ("HAIL".toList ++ (DOTS ++ second.text)))) TagValue.WIND_UNITS = none := by
  -- the hail begins with a word that is neither a number nor units
  obtain ⟨rest, hrest⟩ : ∃ rest, "HAIL".toList ++ (DOTS ++ second.text) =
      'H' :: rest ++ (List.replicate second.spaces ' ' ++ second.units) ∧
        ∀ c ∈ 'H' :: rest, Str.isWhitespace c = false := by
    refine ⟨"AIL".toList ++ (DOTS ++ (second.comparison.toList ++ second.number)), ?_, ?_⟩
    · rw [TagValue.text, TagValue.amount]
      simp
    · refine List.forall_mem_cons.mpr ⟨by decide, List.forall_mem_append.mpr ⟨by decide, ?_⟩⟩
      refine List.forall_mem_append.mpr ⟨by decide, List.forall_mem_append.mpr ⟨?_, ?_⟩⟩
      · intro c hc
        rcases hsecond.comparison c (by simpa using hc) with rfl | rfl <;> decide
      · exact fun c hc => (hsecond.isWhitespace_number hc).1
  obtain ⟨htext, hvisible⟩ := hrest
  obtain ⟨hunits, -, halpha⟩ := TagValue.units_spec (by decide) hsecond.units
  have hhail := splitWhitespace_gap (List.cons_ne_nil _ _) hvisible hunits
    (fun c hc => Str.isWhitespace_of_isAlpha (halpha c hc)) second.spaces
  have hother : ∀ units, TagValue.WIND_UNITS.find? (· = Str.toAsciiUppercase ('H' :: units)) =
      none := by
    intro units
    simp [TagValue.WIND_UNITS, Str.toAsciiUppercase]
  rw [splitNumericAndUnits, List.replicate_succ, List.cons_append,
    Str.splitWhitespace_append_cons (by decide),
    Str.splitWhitespace_spaces_append isWhitespace_of_mem_spaces, htext, hhail,
    hfirst.1.splitWhitespace_amount (by decide)]
  split_ifs
  · show Option.map _ (TagValue.WIND_UNITS.find? (· = Str.toAsciiUppercase ('H' :: _))) = none
    rw [hother, Option.map_none]
  all_goals rfl

/-- **Pairs.**  The line parser reports a pair as a wind it cannot read. -/
theorem parseModernWindHailLine_pair {first second : TagValue} (hfirst : first.IsWind)
    (hsecond : second.IsHail) (spaces : ℕ) :
    ∃ issue, parseModernWindHailLine (F := Number) (TagLine.pair first spaces second).text =
      .error issue := by
  obtain ⟨c, hlast, hc⟩ := hsecond.getLast_amount (by decide)
  have hfirstNe : first.amount ≠ [] := by
    simp [TagValue.amount, hfirst.1.number_ne_nil]
  rw [TagLine.text, parseModernWindHailLine_eq (by decide), if_neg (by decide), if_neg (by decide),
    if_neg (by decide), if_pos (by decide), TagValue.text, List.append_assoc,
    parseNumericValue_eq hfirst.1.comparison (c := c) ?_ ?_ hc,
    splitNumericAndUnits_pair hfirst hsecond]
  · exact ⟨_, rfl⟩
  · intro d hd
    rw [List.head?_append_of_ne_nil _ hfirstNe] at hd
    exact hfirst.1.head_amount d hd
  · simp only [TagValue.text, List.getLast?_append, hlast, Option.some_or]

/-- **Lines.**  The line parser makes the entries of every line without a pair. -/
theorem parseModernWindHailLine_text (h : tag.InRange) (hpair : tag.isPair = false) :
    parseModernWindHailLine tag.text = .ok tag.entries.head? := by
  have hwind : TagValue.WIND_UNITS ∈ [TagValue.WIND_UNITS, TagValue.HAIL_UNITS] := by decide
  have hhail : TagValue.HAIL_UNITS ∈ [TagValue.WIND_UNITS, TagValue.HAIL_UNITS] := by decide
  cases tag with
  | plain text =>
      have hfind : Str.find "...".toList text = none := find_dots_eq_none h
      rw [TagLine.text, parseModernWindHailLine, hfind]
      rfl
  | pair first spaces second => cases hpair
  | wind label value =>
      obtain ⟨hlabel, hvalue, -⟩ := h
      have hnormalized : normalizeModernLabel label = "WIND".toList ∨
          normalizeModernLabel label = "MAXWINDGUST".toList :=
        hlabel.imp_left fun hlabel => by rw [hlabel]; decide
      have hpoint : '.' ∉ label := by
        rcases hnormalized with hnormalized | hnormalized
        all_goals exact notMem_of_normalizeModernLabel hnormalized (by decide)
      rw [TagLine.text, parseModernWindHailLine_eq hpoint, hvalue.parseNumericValue_text hwind]
      rcases hnormalized with hnormalized | hnormalized <;> rw [hnormalized] <;> rfl
  | hail label value =>
      obtain ⟨hlabel, hvalue⟩ := h
      have hnormalized : normalizeModernLabel label = "HAIL".toList ∨
          normalizeModernLabel label = "MAXHAILSIZE".toList :=
        hlabel.imp_left fun hlabel => by rw [hlabel]; decide
      have hpoint : '.' ∉ label := by
        rcases hnormalized with hnormalized | hnormalized
        all_goals exact notMem_of_normalizeModernLabel hnormalized (by decide)
      rw [TagLine.text, parseModernWindHailLine_eq hpoint, hvalue.parseNumericValue_text hhail]
      rcases hnormalized with hnormalized | hnormalized <;> rw [hnormalized] <;> rfl
  | windThreat label threat =>
      rw [TagLine.text,
        parseModernWindHailLine_eq (notMem_of_normalizeModernLabel h.1 (by decide)), h.1]
      rfl
  | hailThreat label threat =>
      rw [TagLine.text,
        parseModernWindHailLine_eq (notMem_of_normalizeModernLabel h.1 (by decide)), h.1]
      rfl

end Parser.WindHail
