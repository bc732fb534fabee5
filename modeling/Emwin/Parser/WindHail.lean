/-
# Wind and hail

`body/wind_hail.rs` reads the tags of a warning: `MAXWINDGUST...60 MPH` line by line, and pairs
`WIND...>60MPH HAIL...<1.00IN` anywhere.  The pairs are found by a regular expression; its
matches are a parameter.
-/
import Emwin.Parser.Support

namespace Parser

open Floats

variable {F : Type} [FloatArith F]

/-- What a tag is about. -/
inductive WindHailKind where
  | legacyWind
  | legacyHail
  | windThreat
  | maxWindGust
  | hailThreat
  | maxHailSize
  deriving DecidableEq, Repr

/-- A tag with its value. -/
structure WindHailEntry (F : Type) where
  kind : WindHailKind
  numericValue : Option F
  units : Option Str
  comparison : Option Char
  deriving DecidableEq, Repr

/-- A match of the legacy regular expression with its groups. -/
structure LegacyCapture where
  raw : Str
  windComparison : Option Str
  windValue : Option Str
  windUnits : Option Str
  hailComparison : Option Str
  hailValue : Option Str
  deriving DecidableEq, Repr

/-- `invalid_wind_hail_issue`. -/
def invalidWindHailIssue (raw : Str) : ProductParseIssue where
  kind := "wind_hail_parse".toList
  code := "invalid_wind_hail_format".toList
  message := "could not parse wind/hail line: `".toList ++ raw ++ "`".toList
  line := some raw

/-- `invalid_numeric_issue`. -/
def invalidNumericIssue (code raw : Str) : ProductParseIssue where
  kind := "wind_hail_parse".toList
  code := code
  message := "could not parse wind/hail value from line: `".toList ++ raw ++ "`".toList
  line := some raw

/-- The entries of a match, or its issue. -/
def legacyEntries (capture : LegacyCapture) :
    Except ProductParseIssue (List (WindHailEntry F)) :=
  match capture.windValue.bind parse, capture.windUnits.map Str.toAsciiUppercase,
      capture.hailValue.bind parse with
  | some windValue, some windUnits, some hailValue =>
      .ok [⟨.legacyWind, some windValue, some windUnits, capture.windComparison.bind List.head?⟩,
        ⟨.legacyHail, some hailValue, some "IN".toList, capture.hailComparison.bind List.head?⟩]
  | _, _, _ => .error (invalidWindHailIssue capture.raw)

/-- `normalize_modern_label`. -/
def normalizeModernLabel (label : Str) : Str :=
  Str.toAsciiUppercase (label.filter fun c => !Str.isWhitespace c)

/-- The loop of `normalize_modern_value`: remove terminators at the end. -/
def stripTerminators (value : Str) : Str :=
  match _ : (Str.stripSuffix "$$".toList value).or (Str.stripSuffix "&&".toList value) with
  | none => value
  | some stripped => stripTerminators (Str.trimEnd stripped)
termination_by value.length
decreasing_by
  rename_i h
  have hle : (Str.trimEnd stripped).length ≤ stripped.length :=
    (List.rdropWhile_prefix _ _).length_le
  have hlt : stripped.length < value.length := by
    rcases Option.or_eq_some_iff.mp h with h | ⟨-, h⟩
    all_goals exact Str.length_lt_of_stripSuffix (by decide) h
  omega

/-- `normalize_modern_value`. -/
def normalizeModernValue (value : Str) : Str :=
  Str.trimEnd (Str.trimEndMatches ['.', ',', ';', ':'] (stripTerminators (Str.trim value)))

/-- `split_numeric_and_units`. -/
def splitNumericAndUnits (value : Str) (allowedUnits : List Str) : Option (Str × Str) :=
  let allowed := fun units => (allowedUnits.find? (· = Str.toAsciiUppercase units))
  match Str.splitWhitespace value with
  | [] => none
  | [first] =>
      if first.any Char.isAlpha && !first.head?.any Char.isAlpha then
        (allowed (first.dropWhile fun c => !c.isAlpha)).map fun units =>
          (first.takeWhile fun c => !c.isAlpha, units)
      else none
  | [first, second] => (allowed second).map fun units => (first, units)
  | _ => none

/-- `parse_numeric_value`. -/
def parseNumericValue (value : Str) (kind : WindHailKind) (allowedUnits : List Str)
    (errorCode raw : Str) : Except ProductParseIssue (WindHailEntry F) :=
  let value := normalizeModernValue value
  let (comparison, remainder) := match value with
    | '<' :: remainder => (some '<', Str.trim remainder)
    | '>' :: remainder => (some '>', Str.trim remainder)
    | _ => (none, value)
  match splitNumericAndUnits remainder allowedUnits with
  | none => .error (invalidNumericIssue errorCode raw)
  | some (numeric, units) =>
      match parse numeric with
      | none => .error (invalidNumericIssue errorCode raw)
      | some numericValue => .ok ⟨kind, some numericValue, some units, comparison⟩

/-- `parse_modern_wind_hail_line`. -/
def parseModernWindHailLine (line : Str) : Except ProductParseIssue (Option (WindHailEntry F)) :=
  match Str.find "...".toList line with
  | none => .ok none
  | some i =>
      let label := normalizeModernLabel (line.take i)
      let value := Str.trim (line.drop (i + 3))
      if label = "HAILTHREAT".toList then .ok (some ⟨.hailThreat, none, none, none⟩)
      else if label = "WINDTHREAT".toList then .ok (some ⟨.windThreat, none, none, none⟩)
      else if label = "HAIL".toList ∨ label = "MAXHAILSIZE".toList then
        (parseNumericValue value .maxHailSize ["IN".toList]
          "invalid_wind_hail_hail_value".toList line).map some
      else if label = "WIND".toList ∨ label = "MAXWINDGUST".toList then
        (parseNumericValue value .maxWindGust ["MPH".toList, "KTS".toList]
          "invalid_wind_hail_wind_value".toList line).map some
      else .ok none

/-- The issues among some results. -/
def issuesOf {α : Type} (results : List (Except ProductParseIssue α)) : List ProductParseIssue :=
  results.filterMap fun result => match result with
    | .ok _ => none
    | .error issue => some issue

/-- `parse_wind_hail_entries_with_issues`, for the matches that the regular expression has in
the text. -/
def parseWindHailEntriesWithIssues (legacyCaptures : Str → List LegacyCapture) (text : Str) :
    List (WindHailEntry F) × List ProductParseIssue :=
  let legacy : List (Except ProductParseIssue (List (WindHailEntry F))) :=
    (legacyCaptures text).map legacyEntries
  let modern : List (Except ProductParseIssue (Option (WindHailEntry F))) :=
    (Str.lines text).map fun line => parseModernWindHailLine (Str.trim line)
  ((legacy.filterMap Except.toOption).flatten ++
      (modern.filterMap Except.toOption).filterMap id,
    issuesOf legacy ++ issuesOf modern)

/-! ## Units -/

/-- An entry as this parser makes it: a wind has units, and units are of those it knows. -/
def WindHailEntry.HasKnownUnits (entry : WindHailEntry F) : Prop :=
  (entry.kind = .legacyWind ∨ entry.kind = .maxWindGust → entry.units.isSome = true) ∧
    ∀ units ∈ entry.units, units ∈ ["IN".toList, "MPH".toList, "KTS".toList]

theorem mem_of_splitNumericAndUnits {value numeric units : Str} {allowedUnits : List Str}
    (h : splitNumericAndUnits value allowedUnits = some (numeric, units)) :
    units ∈ allowedUnits := by
  unfold splitNumericAndUnits at h
  dsimp only at h
  split at h
  · cases h
  · split at h
    · obtain ⟨_, hfind, heq⟩ := Option.map_eq_some_iff.mp h
      obtain ⟨-, rfl⟩ := Prod.mk.inj heq
      exact List.mem_of_find?_eq_some hfind
    · cases h
  · obtain ⟨_, hfind, heq⟩ := Option.map_eq_some_iff.mp h
    obtain ⟨-, rfl⟩ := Prod.mk.inj heq
    exact List.mem_of_find?_eq_some hfind
  · cases h

theorem hasKnownUnits_of_parseNumericValue {value : Str} {kind : WindHailKind}
    {allowedUnits : List Str} {errorCode raw : Str} {entry : WindHailEntry F}
    (hallowed : allowedUnits ⊆ ["IN".toList, "MPH".toList, "KTS".toList])
    (h : parseNumericValue value kind allowedUnits errorCode raw = .ok entry) :
    entry.HasKnownUnits := by
  unfold parseNumericValue at h
  dsimp only at h
  split at h
  · cases h
  · next numeric units hsplit =>
      split at h
      · cases h
      · cases h
        refine ⟨fun _ => rfl, fun units' hunits => ?_⟩
        cases hunits
        exact hallowed (mem_of_splitNumericAndUnits hsplit)

theorem hasKnownUnits_of_modernLine {line : Str} {entry : WindHailEntry F}
    (h : parseModernWindHailLine line = .ok (some entry)) : entry.HasKnownUnits := by
  unfold parseModernWindHailLine at h
  split at h
  · cases h
  · dsimp only at h
    split_ifs at h
    · cases h
      exact ⟨fun hkind => by simp at hkind, fun units hunits => by cases hunits⟩
    · cases h
      exact ⟨fun hkind => by simp at hkind, fun units hunits => by cases hunits⟩
    · cases hparse : parseNumericValue (F := F) (Str.trim (line.drop _)) .maxHailSize
        ["IN".toList] "invalid_wind_hail_hail_value".toList line with
      | error e => rw [hparse] at h; cases h
      | ok entry' =>
          rw [hparse] at h
          cases h
          exact hasKnownUnits_of_parseNumericValue (by decide) hparse
    · cases hparse : parseNumericValue (F := F) (Str.trim (line.drop _)) .maxWindGust
        ["MPH".toList, "KTS".toList] "invalid_wind_hail_wind_value".toList line with
      | error e => rw [hparse] at h; cases h
      | ok entry' =>
          rw [hparse] at h
          cases h
          exact hasKnownUnits_of_parseNumericValue (by decide) hparse
    · cases h

theorem hasKnownUnits_of_legacyEntries {capture : LegacyCapture} {entries : List (WindHailEntry F)}
    (hcapture : ∀ units ∈ capture.windUnits, Str.toAsciiUppercase units ∈
      ["MPH".toList, "KTS".toList])
    (h : legacyEntries capture = .ok entries) : ∀ entry ∈ entries, entry.HasKnownUnits := by
  unfold legacyEntries at h
  split at h
  · next windValue windUnits hailValue hwind hunits hhail =>
      cases h
      obtain ⟨units, hgroup, rfl⟩ := Option.map_eq_some_iff.mp hunits
      rintro entry hentry
      rcases List.mem_cons.mp hentry with rfl | hentry
      · refine ⟨fun _ => rfl, fun units' hunits' => ?_⟩
        cases hunits'
        exact List.mem_cons_of_mem _ (hcapture units hgroup)
      · rw [List.mem_singleton.mp hentry]
        exact ⟨fun _ => rfl, fun units' hunits' => by cases hunits'; simp⟩
  · cases h

/-- The entries of a text have known units, if the regular expression matches them only. -/
theorem hasKnownUnits_of_parse {legacyCaptures : Str → List LegacyCapture} {text : Str}
    (hcaptures : ∀ capture ∈ legacyCaptures text, ∀ units ∈ capture.windUnits,
      Str.toAsciiUppercase units ∈ ["MPH".toList, "KTS".toList]) :
    ∀ entry ∈ (parseWindHailEntriesWithIssues (F := F) legacyCaptures text).1,
      entry.HasKnownUnits := by
  intro entry hentry
  rcases List.mem_append.mp hentry with hentry | hentry
  · obtain ⟨entries, hentries, hentry⟩ := List.mem_flatten.mp hentry
    obtain ⟨result, hresult, hok⟩ := List.mem_filterMap.mp hentries
    obtain ⟨capture, hcapture, rfl⟩ := List.mem_map.mp hresult
    cases hlegacy : legacyEntries (F := F) capture with
    | error e => rw [hlegacy] at hok; cases hok
    | ok entries' =>
        rw [hlegacy] at hok
        cases hok
        exact hasKnownUnits_of_legacyEntries (hcaptures capture hcapture) hlegacy entry hentry
  · obtain ⟨found, hfound, hid⟩ := List.mem_filterMap.mp hentry
    obtain ⟨result, hresult, hok⟩ := List.mem_filterMap.mp hfound
    obtain ⟨line, -, rfl⟩ := List.mem_map.mp hresult
    cases hline : parseModernWindHailLine (F := F) (Str.trim line) with
    | error e => rw [hline] at hok; cases hok
    | ok found' =>
        rw [hline] at hok
        cases hok
        cases hid
        exact hasKnownUnits_of_modernLine hline

end Parser
