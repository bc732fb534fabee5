/-
# Pairs of wind and hail

`legacy_wind_hail_regex` of `body/wind_hail.rs` finds a wind with its units and behind it, after
some white space, a hail with its units.  It ignores the case of letters, and its white space may be
line feeds.

Each of its repetitions takes all the characters it can: what stands behind it begins with another
one.  So there is one way to match at the front of a text, and no match is empty.
-/
import Emwin.Lib.Layout
import Emwin.Lib.Matches
import Emwin.Parser.WindHail

namespace Parser.WindHail

/-! ## The expression -/

/-- Whether a character is a letter of the expression, in any case; `K` and `S` have a case beyond
ASCII. -/
def isLetter (letter c : Char) : Bool :=
  c = letter || c = letter.toLower || (letter = 'K' && c = '\u212A') ||
    (letter = 'S' && c = '\u017F')

/-- A word of the expression at the front of a text, and what is behind it. -/
def stripWord : Str → Str → Option (Str × Str)
  | [], s => some ([], s)
  | _ :: _, [] => none
  | letter :: word, c :: s =>
      if isLetter letter c then (stripWord word s).map fun (found, behind) => (c :: found, behind)
      else none

/-- The groups of one half of the expression. -/
structure LegacyTag where
  comparison : Option Str
  value : Str
  units : Str
  deriving DecidableEq, Repr

/-- `([<>])?` -/
def readComparison (s : Str) : Option Str × Str :=
  match s with
  | '<' :: behind => (some ['<'], behind)
  | '>' :: behind => (some ['>'], behind)
  | _ => (none, s)

/-- What stands behind the word: `\s*([<>])?\s*([0-9]+)\s*(MPH|KTS)`, or other characters of the
value and other units. -/
def readLegacyValue (isNumeric : Char → Bool) (allowedUnits : List Str) (s : Str) :
    Option (LegacyTag × Str) := do
  let (comparison, behind) := readComparison (Str.trimStart s)
  let value := (Str.trimStart behind).takeWhile isNumeric
  let behind := Str.trimStart ((Str.trimStart behind).dropWhile isNumeric)
  if value = [] then none
  else
    let (units, behind) ← allowedUnits.findSome? fun units => stripWord units behind
    some (⟨comparison, value, units⟩, behind)

/-- The characters of a hail, `[0-9.]`. -/
def isDecimal (c : Char) : Bool := c.isDigit || c = '.'

/-- The first half of the expression. -/
def readLegacyWind (s : Str) : Option (LegacyTag × Str) := do
  let (_, behind) ← stripWord "WIND...".toList s
  readLegacyValue Char.isDigit ["MPH".toList, "KTS".toList] behind

/-- The second half of the expression. -/
def readLegacyHail (s : Str) : Option (LegacyTag × Str) := do
  let (_, behind) ← stripWord "HAIL...".toList s
  readLegacyValue isDecimal ["IN".toList] behind

/-- The expression at the front of a text. -/
def readLegacyPair (s : Str) : Option (LegacyCapture × Str) := do
  let (wind, behind) ← readLegacyWind s
  if behind.head?.any Str.isWhitespace then
    let (hail, behind) ← readLegacyHail (Str.trimStart behind)
    some ({ raw := s.take (s.length - behind.length)
            windComparison := wind.comparison
            windValue := some wind.value
            windUnits := some wind.units
            hailComparison := hail.comparison
            hailValue := some hail.value }, behind)
  else none

/-- The expression matches if its halves do, with white space between them. -/
theorem isSome_readLegacyPair_iff {s : Str} :
    (readLegacyPair s).isSome ↔ ∃ wind behind, readLegacyWind s = some (wind, behind) ∧
      behind.head?.any Str.isWhitespace = true ∧
      (readLegacyHail (Str.trimStart behind)).isSome := by
  rw [readLegacyPair]
  rcases readLegacyWind s with _ | ⟨wind, behind⟩
  · simp
  · simp only [Option.bind_eq_bind, Option.bind_some, Option.some.injEq, Prod.mk.injEq]
    constructor
    · intro h
      split_ifs at h with hspace
      · refine ⟨wind, behind, ⟨rfl, rfl⟩, hspace, ?_⟩
        exact Option.isSome_of_isSome_bind h
      · cases h
    · rintro ⟨_, _, ⟨rfl, rfl⟩, hspace, hhail⟩
      obtain ⟨hail, hhail⟩ := Option.isSome_iff_exists.mp hhail
      rw [if_pos hspace, hhail]
      rfl

/-! ## Lengths -/

/-- A word is found where its letters are. -/
theorem stripWord_eq_some_iff {word s found behind : Str} :
    stripWord word s = some (found, behind) ↔
      s = found ++ behind ∧ List.Forall₂ (fun letter c => isLetter letter c = true) word found := by
  induction word generalizing s found with
  | nil =>
      rw [stripWord, Option.some.injEq, Prod.mk.injEq, List.forall₂_nil_left_iff]
      constructor
      · rintro ⟨rfl, rfl⟩
        exact ⟨rfl, rfl⟩
      · rintro ⟨rfl, rfl⟩
        exact ⟨rfl, rfl⟩
  | cons letter word ih =>
      cases s with
      | nil =>
          refine iff_of_false nofun ?_
          rintro ⟨hnil, hfound⟩
          obtain ⟨rfl, -⟩ := List.append_eq_nil_iff.mp hnil.symm
          cases hfound
      | cons c s =>
          rw [stripWord, List.forall₂_cons_left_iff]
          constructor
          · intro h
            split_ifs at h with hletter
            obtain ⟨⟨found', behind'⟩, hstrip, heq⟩ := Option.map_eq_some_iff.mp h
            obtain ⟨rfl, rfl⟩ := Prod.mk.inj heq
            obtain ⟨rfl, hfound⟩ := ih.mp hstrip
            exact ⟨rfl, c, found', hletter, hfound, rfl⟩
          · rintro ⟨hs, d, found', hletter, hfound, rfl⟩
            obtain ⟨rfl, hs'⟩ := List.cons.inj hs
            rw [if_pos hletter, ih.mpr ⟨hs', hfound⟩]
            rfl

theorem length_of_stripWord {word s found behind : Str}
    (h : stripWord word s = some (found, behind)) : s.length = word.length + behind.length := by
  obtain ⟨rfl, hfound⟩ := stripWord_eq_some_iff.mp h
  rw [List.length_append, hfound.length_eq]

theorem length_trimStart_le (s : Str) : (Str.trimStart s).length ≤ s.length :=
  (List.dropWhile_suffix _).length_le

theorem length_readComparison_le (s : Str) : (readComparison s).2.length ≤ s.length := by
  unfold readComparison
  split
  · exact Nat.le_succ _
  · exact Nat.le_succ _
  · exact Nat.le_refl _

theorem length_le_of_readLegacyValue {isNumeric : Char → Bool} {allowedUnits : List Str}
    {s behind : Str} {tag : LegacyTag}
    (h : readLegacyValue isNumeric allowedUnits s = some (tag, behind)) :
    behind.length ≤ s.length := by
  unfold readLegacyValue at h
  dsimp only at h
  split_ifs at h
  obtain ⟨⟨units, behind'⟩, hunits, heq⟩ := Option.bind_eq_some_iff.mp h
  obtain ⟨-, rfl⟩ := Prod.mk.inj (Option.some.inj heq)
  obtain ⟨word, -, hstrip⟩ := List.exists_of_findSome?_eq_some hunits
  have hword := length_of_stripWord hstrip
  have hspaces := length_trimStart_le
    ((Str.trimStart (readComparison (Str.trimStart s)).2).dropWhile isNumeric)
  have hvalue : ((Str.trimStart (readComparison (Str.trimStart s)).2).dropWhile isNumeric).length ≤
      (Str.trimStart (readComparison (Str.trimStart s)).2).length :=
    (List.dropWhile_suffix _).length_le
  have hgap := length_trimStart_le (readComparison (Str.trimStart s)).2
  have hcomparison := length_readComparison_le (Str.trimStart s)
  have hfront := length_trimStart_le s
  dsimp only
  omega

/-- A match is not empty. -/
theorem length_lt_of_readLegacyPair {s behind : Str} {capture : LegacyCapture}
    (h : readLegacyPair s = some (capture, behind)) : behind.length < s.length := by
  obtain ⟨⟨wind, between⟩, hwind, h⟩ := Option.bind_eq_some_iff.mp h
  dsimp only at h
  split_ifs at h
  obtain ⟨⟨hail, behind'⟩, hhail, heq⟩ := Option.bind_eq_some_iff.mp h
  obtain ⟨-, rfl⟩ := Prod.mk.inj (Option.some.inj heq)
  obtain ⟨⟨_, windBehind⟩, hwindWord, hwindValue⟩ := Option.bind_eq_some_iff.mp hwind
  obtain ⟨⟨_, hailBehind⟩, hhailWord, hhailValue⟩ := Option.bind_eq_some_iff.mp hhail
  -- each part leaves no more than it is given, and the word takes seven characters
  have hfirst := length_of_stripWord hwindWord
  have hsecond := length_le_of_readLegacyValue hwindValue
  have hspaces := length_trimStart_le between
  have hthird := length_of_stripWord hhailWord
  have hfourth := length_le_of_readLegacyValue hhailValue
  have hseven : "WIND...".toList.length = 7 := rfl
  dsimp only at hsecond hfourth ⊢
  omega

/-- `legacy_wind_hail_regex`. -/
def legacyWindHailRegex : Matches.Pattern Char LegacyCapture where
  run := readLegacyPair
  shorter := length_lt_of_readLegacyPair

/-- `captures_iter` of the expression. -/
def legacyCaptures (text : Str) : List LegacyCapture := legacyWindHailRegex.all text

end Parser.WindHail
