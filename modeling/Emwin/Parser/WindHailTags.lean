/-
# Tags of wind and hail are counted once

Two parsers read the same text: a regular expression finds pairs anywhere, also across line ends,
and a line parser reads every line.  So a pair is read by both, and the line parser cannot read it;
and the expression takes a wind and a hail of their own for a pair if only blank lines stand between
them.  Each printed value is counted once exactly if neither happens (`counted_once_iff`).
-/
import Emwin.Parser.WindHailLines
import Emwin.Parser.WindHailPairs

namespace Parser.WindHail

open Floats

/-! ## Counting -/

/-- The tags are those of the lines of a text. -/
def IsPrinted (tags : List TagLine) (text : Str) : Prop :=
  List.Forall₂ (fun tag line => Str.trim line = tag.text) tags (Str.lines text)

instance (tags : List TagLine) (text : Str) : Decidable (IsPrinted tags text) :=
  decidable_of_iff (tags.length = (Str.lines text).length ∧
    ∀ pair ∈ tags.zip (Str.lines text), Str.trim pair.2 = pair.1.text)
    (by rw [IsPrinted, List.forall₂_iff_zip, Prod.forall])

/-- Each printed value has one entry, and there are no issues. -/
def CountedOnce (tags : List TagLine) (text : Str) : Prop :=
  (parseWindHailEntriesWithIssues legacyCaptures text).1.Perm (tags.flatMap TagLine.entries) ∧
    (parseWindHailEntriesWithIssues (F := Number) legacyCaptures text).2 = []

/-- Whether the next line that is not blank is a hail of its own. -/
def hailIsNext : List TagLine → Bool
  | .plain text :: tags => text.isEmpty && hailIsNext tags
  | .hail label _ :: _ => label = "HAIL".toList
  | _ => false

/-- Whether a wind of its own stands above a hail of its own. -/
def windAboveHail : List TagLine → Bool
  | .wind label _ :: tags =>
      (decide (label = "WIND".toList) && hailIsNext tags) || windAboveHail tags
  | _ :: tags => windAboveHail tags
  | [] => false

variable {tag : TagLine} {tags : List TagLine} {v : TagValue} {allowedUnits : List Str}
  {text label value word s t u w blank : Str} {c letter : Char}

/-! ## Words of the expression -/

/-- Letters are neither white space nor points. -/
theorem visible_of_isLetter (h : isLetter letter c = true)
    (hletter : Str.isWhitespace letter = false ∧ Str.isWhitespace letter.toLower = false) :
    Str.isWhitespace c = false := by
  simp only [isLetter, Bool.or_eq_true, Bool.and_eq_true, decide_eq_true_eq] at h
  rcases h with ((rfl | rfl) | ⟨-, rfl⟩) | ⟨-, rfl⟩
  · exact hletter.1
  · exact hletter.2
  · decide
  · decide

/-- Whether the letters of a word are no white space and no points. -/
def IsPlainWord (word : Str) : Prop :=
  ∀ letter ∈ word, (Str.isWhitespace letter = false ∧ Str.isWhitespace letter.toLower = false) ∧
    isLetter letter '.' = false

instance (word : Str) : Decidable (IsPlainWord word) :=
  inferInstanceAs (Decidable (∀ letter ∈ word, _))

/-- Characters spell a word. -/
def Spells (word w : Str) : Prop := List.Forall₂ (fun letter c => isLetter letter c = true) word w

theorem Spells.visible (h : Spells word w) (hword : IsPlainWord word) :
    ∀ c ∈ w, Str.isWhitespace c = false ∧ c ≠ '.' := by
  induction h with
  | nil => exact nofun
  | cons hletter _ ih =>
      obtain ⟨⟨hspace, hpoint⟩, hrest⟩ := List.forall_mem_cons.mp hword
      refine List.forall_mem_cons.mpr ⟨⟨visible_of_isLetter hletter hspace, ?_⟩, ih hrest⟩
      rintro rfl
      rw [hpoint] at hletter
      cases hletter

/-- The characters of a word and of the points behind it. -/
theorem exists_append_dots {found : Str} (h : Spells (word ++ DOTS) found) :
    ∃ w, found = w ++ DOTS ∧ Spells word w := by
  induction word generalizing found with
  | nil =>
      refine ⟨[], ?_, List.Forall₂.nil⟩
      have hpoint : ∀ c, isLetter '.' c = true ↔ c = '.' := by
        intro c
        simp [isLetter]
      simpa [Spells, DOTS, List.forall₂_cons_left_iff, hpoint] using h
  | cons letter word ih =>
      obtain ⟨c, found, hc, hrest, rfl⟩ := List.forall₂_cons_left_iff.mp h
      obtain ⟨w, rfl, hw⟩ := ih hrest
      exact ⟨c :: w, rfl, List.Forall₂.cons hc hw⟩

/-- A word with its points stands on one line. -/
theorem exists_of_stripWord (hword : IsPlainWord word)
    (hblank : ∀ c ∈ blank, Str.isWhitespace c = true) (hend : blank = [] → t = [])
    (h : (stripWord (word ++ DOTS) (s ++ (blank ++ t))).isSome) :
    ∃ w rest, s = w ++ (DOTS ++ rest) ∧ Spells word w := by
  obtain ⟨⟨found, behind⟩, hstrip⟩ := Option.isSome_iff_exists.mp h
  obtain ⟨hsplit, hfound⟩ := stripWord_eq_some_iff.mp hstrip
  obtain ⟨w, rfl, hw⟩ := exists_append_dots hfound
  have hvisible : ∀ c ∈ w ++ DOTS, Str.isWhitespace c = false :=
    List.forall_mem_append.mpr ⟨fun c hc => (hw.visible hword c hc).1, by decide⟩
  rcases List.append_eq_append_iff.mp hsplit with ⟨x, hfront, hbehind⟩ | ⟨x, hfront, hbehind⟩
  · -- what is left of the word stands where white space is, or nothing
    cases x with
    | nil =>
        rw [List.append_nil] at hfront
        exact ⟨w, [], by rw [← hfront, List.append_nil], hw⟩
    | cons c x =>
        cases blank with
        | nil =>
            rw [hend rfl] at hbehind
            cases hbehind
        | cons d blank =>
            obtain ⟨rfl, -⟩ := List.cons.inj hbehind
            have hspace := hblank d List.mem_cons_self
            rw [hvisible d (hfront ▸ List.mem_append_right _ List.mem_cons_self)] at hspace
            cases hspace
  · exact ⟨w, x, by rw [hfront, List.append_assoc], hw⟩

/-- In a tag, a word in front of three points is the end of the label. -/
theorem label_of_dots {rest : Str} (hlabel : '.' ∉ label) (hvalue : ¬DOTS <:+: value)
    (hne : w ≠ []) (hw : '.' ∉ w) (h : label ++ (DOTS ++ value) = u ++ (w ++ (DOTS ++ rest))) :
    u ++ w = label := by
  rw [← List.append_assoc u] at h
  rcases List.append_eq_append_iff.mp h with ⟨x, hfront, hbehind⟩ | ⟨x, hfront, hbehind⟩
  · cases x with
    | nil => rw [hfront, List.append_nil]
    | cons c x =>
        exfalso
        obtain ⟨rfl, -⟩ : '.' = c ∧ _ := List.cons.inj hbehind
        rcases List.append_eq_append_iff.mp hfront with ⟨y, -, hy⟩ | ⟨y, -, hy⟩
        · exact hw (hy ▸ List.mem_append_right _ List.mem_cons_self)
        · -- the word begins behind the first of the three points, and so within the value
          rw [hy, List.append_assoc] at hbehind
          rcases List.append_eq_append_iff.mp hbehind with ⟨z, -, hz⟩ | ⟨z, hz, hvalue'⟩
          · exact hvalue ⟨z ++ w, rest, by rw [hz, List.append_assoc, List.append_assoc]⟩
          · obtain ⟨d, w, rfl⟩ := List.exists_cons_of_ne_nil hne
            cases z with
            | nil => exact hvalue ⟨d :: w, rest, by rw [← List.nil_append value, ← hvalue']; simp⟩
            | cons e z =>
                obtain ⟨rfl, -⟩ : d = e ∧ _ := List.cons.inj hvalue'
                have hpoint : d ∈ DOTS := hz ▸ List.mem_append_right _ List.mem_cons_self
                have hsame : d = '.' := by simpa [DOTS] using hpoint
                exact hw (hsame ▸ List.mem_cons_self)
  · cases x with
    | nil => rw [hfront, List.append_nil]
    | cons c x =>
        obtain ⟨rfl, -⟩ : '.' = c ∧ _ := List.cons.inj hbehind
        exact absurd (hfront ▸ List.mem_append_right _ List.mem_cons_self) hlabel

/-! ## Values of the expression -/

/-- A word of letters is found in front. -/
theorem stripWord_append (word : Str) (behind : Str) :
    stripWord word (word ++ behind) = some (word, behind) := by
  refine stripWord_eq_some_iff.mpr ⟨rfl, List.forall₂_same.mpr fun letter _ => ?_⟩
  simp [isLetter]

/-- The units that are printed are the ones that are found. -/
theorem findSome_units (hallowed : allowedUnits ∈ [TagValue.WIND_UNITS, TagValue.HAIL_UNITS])
    {units : Str} (h : units ∈ allowedUnits) (behind : Str) :
    (allowedUnits.findSome? fun word => stripWord word (units ++ behind)) =
      some (units, behind) := by
  simp only [List.mem_cons, List.not_mem_nil, or_false] at hallowed
  rcases hallowed with rfl | rfl
  · simp only [TagValue.WIND_UNITS, List.mem_cons, List.not_mem_nil, or_false] at h
    rcases h with rfl | rfl <;> rfl
  · rw [TagValue.HAIL_UNITS, List.mem_singleton] at h
    subst h
    rfl

/-- A printed value is read, up to the end of its units. -/
theorem readLegacyValue_text (hallowed : allowedUnits ∈ [TagValue.WIND_UNITS, TagValue.HAIL_UNITS])
    (h : v.InRange allowedUnits) {isNumeric : Char → Bool}
    (hnumeric : ∀ c ∈ v.number, isNumeric c = true)
    (hletters : ∀ c, c = ' ' ∨ c.isAlpha = true → isNumeric c = false) (behind : Str) :
    ∃ tag, readLegacyValue isNumeric allowedUnits (v.text ++ behind) = some (tag, behind) := by
  obtain ⟨hunits, -, halpha⟩ := TagValue.units_spec hallowed h.units
  obtain ⟨first, number, hnumber⟩ := List.exists_cons_of_ne_nil h.number_ne_nil
  obtain ⟨letter, units, hletter⟩ := List.exists_cons_of_ne_nil hunits
  have hfirst := h.mem_number (c := first) (hnumber ▸ List.mem_cons_self)
  have hvisible : Str.isWhitespace first = false :=
    (h.isWhitespace_number (hnumber ▸ List.mem_cons_self)).1
  have hamount : Str.trimStart (v.amount ++ behind) = v.amount ++ behind := by
    refine Str.trimStart_eq_self fun c hc => ?_
    rw [TagValue.amount, hnumber] at hc
    obtain rfl := Option.some.inj hc
    exact hvisible
  have hcomparison : ∃ comparison,
      readComparison (Str.trimStart (v.text ++ behind)) = (comparison, v.amount ++ behind) := by
    rw [TagValue.text]
    cases hsign : v.comparison with
    | none =>
        have hnone : ∀ c rest, c = '<' ∨ c = '>' → v.amount ++ behind = c :: rest → False := by
          rintro c rest hc heq
          rw [TagValue.amount, hnumber] at heq
          obtain ⟨rfl, -⟩ := List.cons.inj heq
          rcases hc with rfl | rfl <;> exact absurd hfirst (by decide)
        refine ⟨none, ?_⟩
        rw [Option.toList_none, List.nil_append, hamount, readComparison]
        · exact fun rest => hnone '<' rest (Or.inl rfl)
        · exact fun rest => hnone '>' rest (Or.inr rfl)
    | some sign =>
        rcases h.comparison sign hsign with rfl | rfl
        · exact ⟨some ['<'], rfl⟩
        · exact ⟨some ['>'], rfl⟩
  obtain ⟨comparison, hcomparison⟩ := hcomparison
  -- behind the number there is a space or a letter
  obtain ⟨next, rest, hnext, hstop⟩ : ∃ next rest,
      List.replicate v.spaces ' ' ++ (v.units ++ behind) = next :: rest ∧
        isNumeric next = false := by
    cases v.spaces with
    | zero =>
        refine ⟨letter, units ++ behind, by rw [hletter]; rfl, hletters _ (Or.inr ?_)⟩
        exact halpha _ (hletter ▸ List.mem_cons_self)
    | succ n => exact ⟨' ', _, rfl, hletters _ (Or.inl rfl)⟩
  have hsplit : v.amount ++ behind =
      v.number ++ (List.replicate v.spaces ' ' ++ (v.units ++ behind)) := by
    rw [TagValue.amount, List.append_assoc, List.append_assoc]
  have htake : (v.amount ++ behind).takeWhile isNumeric = v.number := by
    rw [hsplit, List.takeWhile_append_of_pos hnumeric, hnext,
      List.takeWhile_cons_of_neg (by simp [hstop]), List.append_nil]
  have hdrop : (v.amount ++ behind).dropWhile isNumeric =
      List.replicate v.spaces ' ' ++ (v.units ++ behind) := by
    rw [hsplit, List.dropWhile_append_of_pos hnumeric, hnext,
      List.dropWhile_cons_of_neg (by simp [hstop])]
  have hrest : Str.trimStart (List.replicate v.spaces ' ' ++ (v.units ++ behind)) =
      v.units ++ behind := by
    rw [Str.trimStart_spaces_append isWhitespace_of_mem_spaces, Str.trimStart_eq_self]
    intro c hc
    rw [hletter] at hc
    obtain rfl := Option.some.inj hc
    exact Str.isWhitespace_of_isAlpha (halpha _ (hletter ▸ List.mem_cons_self))
  refine ⟨⟨comparison, v.number, v.units⟩, ?_⟩
  rw [readLegacyValue, hcomparison]
  dsimp only
  rw [hamount, htake, hdrop, hrest, if_neg h.number_ne_nil, findSome_units hallowed h.units]
  rfl

/-- Neither spaces nor letters belong to a number. -/
theorem isDecimal_eq_false (h : c = ' ' ∨ c.isAlpha = true) : isDecimal c = false := by
  rcases h with rfl | halpha
  · decide
  · rw [← Bool.not_eq_true, isDecimal, Bool.or_eq_true, decide_eq_true_eq]
    rintro (hdigit | rfl)
    · rw [Str.isAlpha_of_isDigit hdigit] at halpha
      cases halpha
    · exact absurd halpha (by decide)

/-- A wind is read as the first half of the expression. -/
theorem readLegacyWind_text (h : v.IsWind) (behind : Str) : ∃ tag,
    readLegacyWind ("WIND".toList ++ (DOTS ++ v.text) ++ behind) = some (tag, behind) := by
  obtain ⟨hrange, hfraction⟩ := h
  have hnumeric : ∀ c ∈ v.number, c.isDigit = true := by
    intro c hc
    rw [TagValue.number, hfraction] at hc
    exact hrange.digits.2 c (List.mem_append_left _ hc)
  obtain ⟨tag, htag⟩ := readLegacyValue_text (by decide) hrange hnumeric
    (fun c hc => (Bool.or_eq_false_iff.mp (isDecimal_eq_false hc)).1) behind
  refine ⟨tag, ?_⟩
  have hword := stripWord_append "WIND...".toList (v.text ++ behind)
  rw [readLegacyWind, show "WIND".toList ++ (DOTS ++ v.text) ++ behind =
    "WIND...".toList ++ (v.text ++ behind) from rfl, hword]
  exact htag

/-- A hail is read as the second half. -/
theorem readLegacyHail_text (h : v.IsHail) (behind : Str) : ∃ tag,
    readLegacyHail ("HAIL".toList ++ (DOTS ++ v.text) ++ behind) = some (tag, behind) := by
  have hnumeric : ∀ c ∈ v.number, isDecimal c = true := by
    intro c hc
    rcases h.mem_number hc with hdigit | rfl
    · rw [isDecimal, hdigit, Bool.true_or]
    · decide
  obtain ⟨tag, htag⟩ := readLegacyValue_text (by decide) h hnumeric
    (fun c => isDecimal_eq_false) behind
  refine ⟨tag, ?_⟩
  have hword := stripWord_append "HAIL...".toList (v.text ++ behind)
  rw [readLegacyHail, show "HAIL".toList ++ (DOTS ++ v.text) ++ behind =
    "HAIL...".toList ++ (v.text ++ behind) from rfl, hword]
  exact htag

/-! ## Where the expression matches -/

/-- What stands in front of the first three points of a line. -/
def labelOf : TagLine → Str
  | .plain _ => []
  | .pair _ _ _ => "WIND".toList
  | .wind label _ | .hail label _ | .windThreat label _ | .hailThreat label _ => label

/-- A word in front of three points is the end of the label. -/
theorem labelOf_of_spells {rest : Str} (h : tag.InRange) (hpair : tag.isPair = false)
    (hword : IsPlainWord word) (hne : word ≠ []) (hw : Spells word w)
    (htext : tag.text = u ++ (w ++ (DOTS ++ rest))) : u ++ w = labelOf tag := by
  have hwne : w ≠ [] := by
    rintro rfl
    exact hne (List.forall₂_nil_right_iff.mp hw)
  have hpoint : '.' ∉ w := fun hmem => (hw.visible hword _ hmem).2 rfl
  cases tag with
  | plain text =>
      refine absurd ⟨u ++ w, rest, ?_⟩ h
      rw [List.append_assoc, List.append_assoc]
      exact htext.symm
  | pair first spaces second => cases hpair
  | wind label value =>
      refine label_of_dots ?_ (h.2.1.not_dots (by decide)) hwne hpoint htext
      rcases h.1 with hlabel | hnormalized
      · rw [show labelOf _ = label from rfl, hlabel]
        decide
      · exact notMem_of_normalizeModernLabel hnormalized (by decide)
  | hail label value =>
      refine label_of_dots ?_ (h.2.not_dots (by decide)) hwne hpoint htext
      rcases h.1 with hlabel | hnormalized
      · rw [show labelOf _ = label from rfl, hlabel]
        decide
      · exact notMem_of_normalizeModernLabel hnormalized (by decide)
  | windThreat label threat | hailThreat label threat =>
      exact label_of_dots (notMem_of_normalizeModernLabel h.1 (by decide)) h.2 hwne hpoint htext

/-- Most letters have no case beyond ASCII. -/
theorem toUpper_of_isLetter (h : isLetter letter c = true) (hcases : letter ≠ 'K' ∧ letter ≠ 'S')
    (hupper : letter.toUpper = letter ∧ letter.toLower.toUpper = letter) : c.toUpper = letter := by
  simp only [isLetter, Bool.or_eq_true, Bool.and_eq_true, decide_eq_true_eq] at h
  rcases h with ((rfl | rfl) | ⟨hk, -⟩) | ⟨hs, -⟩
  · exact hupper.1
  · exact hupper.2
  · exact absurd hk hcases.1
  · exact absurd hs hcases.2

/-- The last letter of a label that ends with a word is that of the word. -/
theorem getLast_of_spells (word : Str) (hspace : Str.isWhitespace letter = false ∧
    Str.isWhitespace letter.toLower = false) (hcases : letter ≠ 'K' ∧ letter ≠ 'S')
    (hupper : letter.toUpper = letter ∧ letter.toLower.toUpper = letter)
    (hw : Spells (word ++ [letter]) w) :
    (normalizeModernLabel (u ++ w)).getLast? = some letter := by
  obtain ⟨front, c, hc, rfl⟩ : ∃ front c, isLetter letter c = true ∧ w = front ++ [c] := by
    induction word generalizing w with
    | nil =>
        obtain ⟨c, rest, hc, hrest, rfl⟩ := List.forall₂_cons_left_iff.mp hw
        rw [List.forall₂_nil_left_iff.mp hrest]
        exact ⟨[], c, hc, rfl⟩
    | cons _ word ih =>
        obtain ⟨d, rest, -, hrest, rfl⟩ := List.forall₂_cons_left_iff.mp hw
        obtain ⟨front, c, hc, rfl⟩ := ih hrest
        exact ⟨d :: front, c, hc, rfl⟩
  rw [normalizeModernLabel, ← List.append_assoc, List.filter_append, List.filter_singleton,
    visible_of_isLetter hc hspace, Str.toAsciiUppercase, List.map_append]
  show (_ ++ [c.toUpper]).getLast? = _
  rw [List.getLast?_concat, toUpper_of_isLetter hc hcases hupper]

/-- The labels of other lines, normalized. -/
def OTHER_LABELS : List Str :=
  ["", "MAXWINDGUST", "MAXHAILSIZE", "WINDTHREAT", "HAILTHREAT"].map String.toList

/-- A line has a tag of its own, or another label. -/
theorem labelOf_cases (h : tag.InRange) (hpair : tag.isPair = false) :
    (∃ v, tag = .wind "WIND".toList v) ∨ (∃ v, tag = .hail "HAIL".toList v) ∨
      normalizeModernLabel (labelOf tag) ∈ OTHER_LABELS := by
  cases tag with
  | plain text => exact Or.inr (Or.inr List.mem_cons_self)
  | pair first spaces second => cases hpair
  | wind label value =>
      rcases h.1 with rfl | hnormalized
      · exact Or.inl ⟨value, rfl⟩
      · refine Or.inr (Or.inr ?_)
        rw [show labelOf _ = label from rfl, hnormalized]
        decide
  | hail label value =>
      rcases h.1 with rfl | hnormalized
      · exact Or.inr (Or.inl ⟨value, rfl⟩)
      · refine Or.inr (Or.inr ?_)
        rw [show labelOf _ = label from rfl, hnormalized]
        decide
  | windThreat label threat | hailThreat label threat =>
      refine Or.inr (Or.inr ?_)
      rw [show labelOf _ = label from rfl, h.1]
      decide

/-- **Winds.**  Only a wind of its own begins as the expression does. -/
theorem wind_of_readLegacyWind (h : tag.InRange) (hpair : tag.isPair = false)
    (htext : tag.text = u ++ s) (hblank : ∀ c ∈ blank, Str.isWhitespace c = true)
    (hend : blank = [] → t = []) (hread : (readLegacyWind (s ++ (blank ++ t))).isSome) :
    u = [] ∧ ∃ v, tag = .wind "WIND".toList v := by
  have hstrip : (stripWord ("WIND".toList ++ DOTS) (s ++ (blank ++ t))).isSome := by
    obtain ⟨found, hfound⟩ := Option.isSome_iff_exists.mp hread
    obtain ⟨word, hword, -⟩ := Option.bind_eq_some_iff.mp hfound
    exact Option.isSome_iff_exists.mpr ⟨word, hword⟩
  obtain ⟨w, rest, rfl, hw⟩ := exists_of_stripWord (by decide) hblank hend hstrip
  have hlabel := labelOf_of_spells h hpair (by decide) (by decide) hw htext
  have hlast : (normalizeModernLabel (labelOf tag)).getLast? = some 'D' := by
    rw [← hlabel]
    exact getLast_of_spells "WIN".toList (by decide) (by decide) (by decide) hw
  rcases labelOf_cases h hpair with ⟨value, rfl⟩ | ⟨value, rfl⟩ | hother
  · have hlength := congrArg List.length hlabel
    rw [List.length_append, ← hw.length_eq] at hlength
    exact ⟨List.eq_nil_of_length_eq_zero (Nat.add_eq_right.mp hlength), value, rfl⟩
  · have hhail : (normalizeModernLabel "HAIL".toList).getLast? = some 'D' := hlast
    exact absurd hhail (by decide)
  · have hnone : ∀ normalized ∈ OTHER_LABELS, normalized.getLast? ≠ some 'D' := by decide
    exact absurd hlast (hnone _ hother)

/-- **Hail.**  Only a hail of its own begins as the second half does. -/
theorem hail_of_readLegacyHail (h : tag.InRange) (hpair : tag.isPair = false)
    (hblank : ∀ c ∈ blank, Str.isWhitespace c = true) (hend : blank = [] → t = [])
    (hread : (readLegacyHail (tag.text ++ (blank ++ t))).isSome) :
    ∃ v, tag = .hail "HAIL".toList v := by
  have hstrip : (stripWord ("HAIL".toList ++ DOTS) (tag.text ++ (blank ++ t))).isSome := by
    obtain ⟨found, hfound⟩ := Option.isSome_iff_exists.mp hread
    obtain ⟨word, hword, -⟩ := Option.bind_eq_some_iff.mp hfound
    exact Option.isSome_iff_exists.mpr ⟨word, hword⟩
  obtain ⟨w, rest, htext, hw⟩ := exists_of_stripWord (by decide) hblank hend hstrip
  have hlabel := labelOf_of_spells (u := []) h hpair (by decide) (by decide) hw htext
  have hlast : (normalizeModernLabel (labelOf tag)).getLast? = some 'L' := by
    rw [← hlabel]
    exact getLast_of_spells "HAI".toList (by decide) (by decide) (by decide) hw
  rcases labelOf_cases h hpair with ⟨value, rfl⟩ | ⟨value, rfl⟩ | hother
  · have hwind : (normalizeModernLabel "WIND".toList).getLast? = some 'L' := hlast
    exact absurd hwind (by decide)
  · exact ⟨value, rfl⟩
  · have hnone : ∀ normalized ∈ OTHER_LABELS, normalized.getLast? ≠ some 'L' := by decide
    exact absurd hlast (hnone _ hother)

/-! ## Whole texts -/

/-- A printed text begins with the text of its first line. -/
theorem IsPrinted.exists_of_cons (h : IsPrinted (tag :: tags) text) :
    ∃ front blank t, text = front ++ (tag.text ++ (blank ++ t)) ∧ IsPrinted tags t ∧
      (∀ c ∈ front, Str.isWhitespace c = true) ∧ (∀ c ∈ blank, Str.isWhitespace c = true) ∧
      (blank = [] → t = []) ∧ ∀ c ∈ tag.text.head?, Str.isWhitespace c = false := by
  obtain ⟨line, lines, htag, hrest, hlines⟩ := List.forall₂_cons_left_iff.mp h
  obtain ⟨front, blank, t, htext, hbehind, hfront, hblank, hend⟩ :=
    Str.exists_of_lines_eq_cons hlines
  refine ⟨front, blank, t, by rw [htext, htag], ?_, hfront, hblank, hend, ?_⟩
  · rw [IsPrinted, hbehind]
    exact hrest
  · rw [← htag]
    exact Str.isWhitespace_head_trim line

/-- Nothing is printed of no lines. -/
theorem IsPrinted.eq_nil (h : IsPrinted [] text) : text = [] :=
  Str.eq_nil_of_lines (List.forall₂_nil_left_iff.mp h)

/-- The expression goes on with a hail exactly if one is next. -/
theorem IsPrinted.readLegacyHail_iff (h : IsPrinted tags text) (hrange : ∀ tag ∈ tags, tag.InRange)
    (hpairs : ∀ tag ∈ tags, tag.isPair = false) :
    (readLegacyHail (Str.trimStart text)).isSome = hailIsNext tags := by
  induction tags generalizing text with
  | nil =>
      rw [h.eq_nil]
      rfl
  | cons tag tags ih =>
      obtain ⟨front, blank, t, rfl, ht, hfront, hblank, hend, hhead⟩ := h.exists_of_cons
      obtain ⟨htag, htags⟩ := List.forall_mem_cons.mp hrange
      obtain ⟨hpair, hothers⟩ := List.forall_mem_cons.mp hpairs
      rw [Str.trimStart_spaces_append hfront]
      by_cases hempty : tag.text = []
      · -- a blank line is passed over
        have hplain : tag = .plain [] := by
          cases tag with
          | plain text => rw [show text = [] from hempty]
          | _ => simp [TagLine.text, DOTS] at hempty
        rw [hplain, TagLine.text, List.nil_append, Str.trimStart_spaces_append hblank, hailIsNext,
          ih ht htags hothers]
        rfl
      · rw [Str.trimStart_eq_self (by rwa [List.head?_append_of_ne_nil _ hempty]), Bool.eq_iff_iff]
        constructor
        · intro hread
          obtain ⟨v, rfl⟩ := hail_of_readLegacyHail htag hpair hblank hend hread
          rfl
        · intro hnext
          cases tag with
          | plain text =>
              rw [hailIsNext, Bool.and_eq_true, List.isEmpty_iff] at hnext
              exact absurd hnext.1 hempty
          | hail label v =>
              obtain rfl : label = "HAIL".toList := of_decide_eq_true hnext
              obtain ⟨found, hfound⟩ := readLegacyHail_text htag.2 (blank ++ t)
              rw [TagLine.text, hfound]
              rfl
          | _ => cases hnext

/-- **Matches.**  Without pairs, the expression matches exactly where a wind stands above a hail. -/
theorem IsPrinted.legacyCaptures_iff (h : IsPrinted tags text) (hrange : ∀ tag ∈ tags, tag.InRange)
    (hpairs : ∀ tag ∈ tags, tag.isPair = false) :
    legacyCaptures text = [] ↔ windAboveHail tags = false := by
  induction tags generalizing text with
  | nil =>
      rw [h.eq_nil]
      exact iff_of_true Matches.Pattern.all_nil rfl
  | cons tag tags ih =>
      obtain ⟨front, blank, t, rfl, ht, hfront, hblank, hend, hhead⟩ := h.exists_of_cons
      obtain ⟨htag, htags⟩ := List.forall_mem_cons.mp hrange
      obtain ⟨hpair, hothers⟩ := List.forall_mem_cons.mp hpairs
      have hnext := ht.readLegacyHail_iff htags hothers
      -- no match begins in white space
      have hskip : ∀ spaces s, (∀ c ∈ spaces, Str.isWhitespace c = true) →
          legacyCaptures (spaces ++ s) = legacyCaptures s := by
        intro spaces s hspaces
        refine Matches.Pattern.all_append fun u v hsplit hv => ?_
        obtain ⟨c, v, rfl⟩ := List.exists_cons_of_ne_nil hv
        have hspace := hspaces c (hsplit ▸ List.mem_append_right _ List.mem_cons_self)
        rw [← Option.not_isSome_iff_eq_none]
        intro hrun
        obtain ⟨_, _, hwind, -⟩ := isSome_readLegacyPair_iff.mp hrun
        obtain ⟨⟨found, behind⟩, hstrip, -⟩ := Option.bind_eq_some_iff.mp hwind
        obtain ⟨hfound, hspells⟩ := stripWord_eq_some_iff.mp hstrip
        obtain ⟨d, rest, hletter, -, rfl⟩ := List.forall₂_cons_left_iff.mp hspells
        obtain ⟨rfl, -⟩ := List.cons.inj hfound
        rw [visible_of_isLetter hletter (by decide)] at hspace
        cases hspace
      rw [hskip front _ hfront]
      by_cases hmatch : ∃ v, tag = .wind "WIND".toList v ∧ hailIsNext tags = true
      · obtain ⟨v, rfl, hhail⟩ := hmatch
        refine iff_of_false (fun hnil => ?_) (by simp [windAboveHail, hhail])
        obtain ⟨wind, hwind⟩ := readLegacyWind_text htag.2 (blank ++ t)
        rw [← Str.trimStart_spaces_append hblank, hhail] at hnext
        have hspace : (blank ++ t).head?.any Str.isWhitespace = true := by
          cases blank with
          | nil =>
              rw [hend rfl] at hnext
              cases hnext
          | cons c blank => exact hblank c List.mem_cons_self
        have hpair := isSome_readLegacyPair_iff.mpr ⟨wind, _, hwind, hspace, hnext⟩
        obtain ⟨⟨capture, rest⟩, hrun⟩ := Option.isSome_iff_exists.mp hpair
        exact Matches.Pattern.all_ne_nil (p := legacyWindHailRegex) hrun hnil
      · have hinside : legacyCaptures (tag.text ++ (blank ++ t)) = legacyCaptures (blank ++ t) := by
          refine Matches.Pattern.all_append fun u v hsplit _ => ?_
          rw [← Option.not_isSome_iff_eq_none]
          intro hrun
          obtain ⟨wind, behind, hwind, -, hhail⟩ := isSome_readLegacyPair_iff.mp hrun
          obtain ⟨rfl, value, rfl⟩ := wind_of_readLegacyWind htag hpair hsplit hblank hend
            (Option.isSome_iff_exists.mpr ⟨_, hwind⟩)
          obtain ⟨wind', hwind'⟩ := readLegacyWind_text htag.2 (blank ++ t)
          obtain rfl : v = _ := hsplit.symm
          have hbehind := Option.some.inj (hwind.symm.trans hwind')
          rw [(Prod.mk.inj hbehind).2, Str.trimStart_spaces_append hblank, hnext] at hhail
          exact hmatch ⟨value, rfl, hhail⟩
        rw [hinside, hskip blank _ hblank, ih ht htags hothers]
        cases tag with
        | wind label value =>
            have hnot : (decide (label = "WIND".toList) && hailIsNext tags) = false := by
              rw [← Bool.not_eq_true, Bool.and_eq_true, decide_eq_true_eq]
              rintro ⟨rfl, hhail⟩
              exact hmatch ⟨value, rfl, hhail⟩
            rw [windAboveHail, hnot, Bool.false_or]
        | _ => rfl

/-! ## Entries -/

/-- A match makes two entries, or an issue. -/
theorem legacyEntries_cases (capture : LegacyCapture) :
    (∃ first second, legacyEntries (F := Number) capture = .ok [first, second]) ∨
      ∃ issue, legacyEntries (F := Number) capture = .error issue := by
  unfold legacyEntries
  split
  · exact Or.inl ⟨_, _, rfl⟩
  · exact Or.inr ⟨_, rfl⟩

/-- What the line parser makes of a printed text. -/
theorem IsPrinted.modern_eq (h : IsPrinted tags text) :
    (Str.lines text).map (fun line => parseModernWindHailLine (F := Number) (Str.trim line)) =
      tags.map fun tag => parseModernWindHailLine tag.text := by
  unfold IsPrinted at h
  generalize Str.lines text = lines at h ⊢
  induction h with
  | nil => rfl
  | cons hline _ ih => rw [List.map_cons, List.map_cons, hline, ih]

/-- Without pairs, the lines make the entries that they print, and no issues. -/
theorem modern_of_no_pairs (hrange : ∀ tag ∈ tags, tag.InRange)
    (hpairs : ∀ tag ∈ tags, tag.isPair = false) :
    ((tags.map fun tag => parseModernWindHailLine (F := Number) tag.text).filterMap
        Except.toOption).filterMap id = tags.flatMap TagLine.entries ∧
      issuesOf (tags.map fun tag => parseModernWindHailLine (F := Number) tag.text) = [] := by
  induction tags with
  | nil => exact ⟨rfl, rfl⟩
  | cons tag tags ih =>
      obtain ⟨htag, htags⟩ := List.forall_mem_cons.mp hrange
      obtain ⟨hpair, hothers⟩ := List.forall_mem_cons.mp hpairs
      obtain ⟨hentries, hissues⟩ := ih htags hothers
      rw [List.map_cons, parseModernWindHailLine_text htag hpair, List.flatMap_cons, ← hentries]
      refine ⟨?_, hissues⟩
      cases tag with
      | plain text => rfl
      | pair first spaces second => cases hpair
      | _ => rfl

/-- A pair is an issue. -/
theorem issues_ne_nil_of_pair (hrange : ∀ tag ∈ tags, tag.InRange) (hmem : tag ∈ tags)
    (hpair : tag.isPair = true) :
    issuesOf (tags.map fun tag => parseModernWindHailLine (F := Number) tag.text) ≠ [] := by
  cases tag with
  | pair first spaces second =>
      obtain ⟨hfirst, hsecond⟩ := hrange _ hmem
      obtain ⟨issue, hissue⟩ := parseModernWindHailLine_pair hfirst hsecond spaces
      have hresult := List.mem_map_of_mem (f := fun tag : TagLine =>
        parseModernWindHailLine (F := Number) tag.text) hmem
      exact List.ne_nil_of_mem (List.mem_filterMap.mpr ⟨_, hresult, by rw [hissue]⟩)
  | _ => cases hpair

/-- Each match adds entries, or an issue. -/
theorem legacy_of_captures {captures : List LegacyCapture}
    (hentries : ((captures.map
      (legacyEntries (F := Number))).filterMap Except.toOption).flatten = [])
    (hissues : issuesOf (captures.map (legacyEntries (F := Number))) = []) : captures = [] := by
  cases captures with
  | nil => rfl
  | cons capture captures =>
      rcases legacyEntries_cases capture with ⟨first, second, hpair⟩ | ⟨issue, hissue⟩
      · rw [List.map_cons, hpair] at hentries
        cases hentries
      · rw [List.map_cons, hissue] at hissues
        cases hissues

/-- **Counted once.**  Each printed wind, hail and threat has one entry and there are no issues
exactly if no line has a pair, and no wind of its own stands above a hail of its own. -/
theorem counted_once_iff (tags : List TagLine) (text : Str) (hrange : ∀ tag ∈ tags, tag.InRange)
    (hprinted : IsPrinted tags text) :
    CountedOnce tags text ↔ (∀ tag ∈ tags, tag.isPair = false) ∧ windAboveHail tags = false := by
  have hmodern := hprinted.modern_eq
  rw [CountedOnce, parseWindHailEntriesWithIssues]
  simp only [hmodern]
  constructor
  · rintro ⟨hentries, hissues⟩
    obtain ⟨hlegacy, hlines⟩ := List.append_eq_nil_iff.mp hissues
    have hpairs : ∀ tag ∈ tags, tag.isPair = false := by
      intro tag hmem
      rw [← Bool.not_eq_true]
      exact fun hpair => issues_ne_nil_of_pair hrange hmem hpair hlines
    refine ⟨hpairs, (hprinted.legacyCaptures_iff hrange hpairs).mp ?_⟩
    -- the lines make all that is printed, so the matches make nothing
    rw [(modern_of_no_pairs hrange hpairs).1] at hentries
    have hlength := hentries.length_eq
    rw [List.length_append] at hlength
    exact legacy_of_captures (List.eq_nil_of_length_eq_zero (by omega)) hlegacy
  · rintro ⟨hpairs, habove⟩
    obtain ⟨hentries, hissues⟩ := modern_of_no_pairs hrange hpairs
    rw [(hprinted.legacyCaptures_iff hrange hpairs).mpr habove, hentries, hissues]
    exact ⟨List.Perm.refl _, rfl⟩

/-- Tags of their own, with a line of text between the wind and the hail. -/
theorem counted_once_iff_storm :
    CountedOnce [.wind "MAX WIND GUST".toList ⟨none, "60".toList, none, 1, "MPH".toList⟩,
      .hailThreat "HAIL THREAT".toList "RADAR INDICATED".toList,
      .wind "WIND".toList ⟨some '>', "58".toList, none, 0, "MPH".toList⟩,
      .plain "MOVING EAST".toList,
      .hail "HAIL".toList ⟨some '<', "1".toList, some "00".toList, 0, "IN".toList⟩]
      ("MAX WIND GUST...60 MPH\nHAIL THREAT...RADAR INDICATED\r\n WIND...>58MPH\n".toList ++
        "MOVING EAST\nHAIL...<1.00IN\n".toList) :=
  (counted_once_iff _ _ (by decide) (by decide)).mpr ⟨by decide, by decide⟩

/-- A pair has an issue. -/
theorem issue_of_a_pair :
    ¬∀ (tags : List TagLine) (text : Str), (∀ tag ∈ tags, tag.InRange) → IsPrinted tags text →
      CountedOnce tags text := by
  intro h
  have hrange : ∀ tag ∈ [TagLine.pair ⟨some '>', "60".toList, none, 0, "MPH".toList⟩ 0
      ⟨some '<', "1".toList, some "00".toList, 0, "IN".toList⟩], tag.InRange := by
    decide
  have hprinted : IsPrinted [TagLine.pair ⟨some '>', "60".toList, none, 0, "MPH".toList⟩ 0
      ⟨some '<', "1".toList, some "00".toList, 0, "IN".toList⟩]
      "WIND...>60MPH HAIL...<1.00IN".toList := by
    decide
  have hissues := (List.append_eq_nil_iff.mp (h _ _ hrange hprinted).2).2
  rw [hprinted.modern_eq] at hissues
  exact issues_ne_nil_of_pair hrange List.mem_cons_self rfl hissues

end Parser.WindHail
