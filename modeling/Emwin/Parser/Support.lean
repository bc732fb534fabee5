/-
# What the body parsers share

The issues a parser reports, the resolution of partial timestamps against a reference time
(`time.rs`), and the search for a marker in ASCII of any case (`body/support.rs`).
-/
import Emwin.Lib.Chrono
import Emwin.Lib.Floats
import Emwin.Lib.Lines
import Emwin.Lib.Slices
import Mathlib.Data.List.MinMax
import Mathlib.Tactic.IntervalCases

namespace Parser

open Calendar Chrono

/-- What a parser reports about a text that it could not read completely. -/
structure ProductParseIssue where
  kind : Str
  code : Str
  message : Str
  line : Option Str
  deriving DecidableEq, Repr

/-! ## Partial timestamps -/

/-- `build_candidate`. -/
def buildCandidate (year : ℤ) (month day hour minute : ℕ) : Option DateTime := do
  let date ← fromYmdOpt year month day
  let time ← fromHmsOpt hour minute 0
  some (utc date time)

/-- `surrounding_months`. -/
def surroundingMonths (year : ℤ) (month : ℕ) : List (ℤ × ℕ) :=
  let previous := if month = 1 then (year - 1, 12) else (year, month - 1)
  let next := if month = 12 then (year + 1, 1) else (year, month + 1)
  [previous, (year, month), next]

/-- `candidate_datetimes`. -/
def candidateDatetimes (reference : DateTime) (day hour minute : ℕ) : Option (List DateTime) :=
  if day = 0 ∨ 31 < day ∨ 23 < hour ∨ 59 < minute then none
  else
    match (surroundingMonths (date reference).year (date reference).month).filterMap
        fun (year, month) => buildCandidate year month day hour minute with
    | [] => none
    | candidates => some candidates

/-- How far a candidate is from the reference, in whole seconds. -/
def secondsFrom (reference candidate : DateTime) : ℕ := (numSeconds (candidate - reference)).natAbs

/-- `resolve_day_time_nearest`. -/
def resolveDayTimeNearest (reference : DateTime) (day hour minute : ℕ) : Option DateTime := do
  let candidates ← candidateDatetimes reference day hour minute
  candidates.argmin (secondsFrom reference)

/-- `resolve_clock_time_nearest`. -/
def resolveClockTimeNearest (reference : DateTime) (hour minute : ℕ) : Option DateTime :=
  if 23 < hour ∨ 59 < minute then none
  else do
    let time ← fromHmsOpt hour minute 0
    let candidates ← [-1, 0, 1].mapM fun offset => do
      let midnight ← checkedAdd (utc (dayNumber reference) 0) (offset * DAY)
      some (midnight + time * SECOND)
    candidates.argmin (secondsFrom reference)

/-- `resolve_day_time_not_before`. -/
def resolveDayTimeNotBefore (reference : DateTime) (day hour minute : ℕ) : Option DateTime := do
  let candidates ← candidateDatetimes reference day hour minute
  ((candidates.filter (reference ≤ ·)).min?).or candidates.max?

/-- A month of 31 days is one of the months around. -/
theorem exists_month_of_31 (year : ℤ) {month : ℕ} (hmonth : 1 ≤ month ∧ month ≤ 12) :
    ∃ m, (year, m) ∈ surroundingMonths year month ∧ 1 ≤ m ∧ m ≤ 12 ∧ daysInMonth year m = 31 := by
  obtain ⟨h1, h12⟩ := hmonth
  by_cases hlong : daysInMonth year month = 31
  · exact ⟨month, by simp [surroundingMonths], h1, h12, hlong⟩
  · -- a shorter month comes behind a month of 31 days of the same year
    refine ⟨month - 1, ?_, ?_⟩
    all_goals interval_cases month <;> simp_all [surroundingMonths, daysInMonth]

/-- Every day and time of day is resolved. -/
theorem resolveDayTimeNotBefore_isSome {reference : DateTime} {day hour minute : ℕ}
    (href : InRange reference) (hday : 1 ≤ day ∧ day ≤ 31) (hhour : hour ≤ 23)
    (hminute : minute ≤ 59) : (resolveDayTimeNotBefore reference day hour minute).isSome := by
  obtain ⟨m, hmem, hm1, hm12, hm⟩ :=
    exists_month_of_31 (date reference).year (civilFromDays_month (dayNumber reference))
  have hcandidate : ∃ t, buildCandidate (date reference).year m day hour minute = some t := by
    simp only [buildCandidate, fromYmdOpt, fromHmsOpt]
    rw [if_pos ⟨href.1, href.2, hm1, hm12, hday.1, by omega⟩, if_pos (by omega)]
    exact ⟨_, rfl⟩
  obtain ⟨t, ht⟩ := hcandidate
  have hlist : t ∈ (surroundingMonths (date reference).year (date reference).month).filterMap
      fun (year, month) => buildCandidate year month day hour minute :=
    List.mem_filterMap.mpr ⟨_, hmem, ht⟩
  obtain ⟨candidates, hcandidates, hne⟩ :
      ∃ candidates, candidateDatetimes reference day hour minute = some candidates ∧
        candidates ≠ [] := by
    unfold candidateDatetimes
    rw [if_neg (by omega)]
    split
    · next hnil =>
        rw [hnil] at hlist
        cases hlist
    · next hne => exact ⟨_, rfl, hne⟩
  have hmax : candidates.max?.isSome := by simpa [List.isSome_max?_iff] using hne
  rw [resolveDayTimeNotBefore, hcandidates]
  simp [Option.isSome_or, hmax]

/-! ## Markers -/

/-- `eq_ignore_ascii_case` on bytes. -/
def byteToLower (b : UInt8) : UInt8 := if 65 ≤ b ∧ b ≤ 90 then b + 32 else b

/-- The offset of the first window of bytes that is the needle in any case. -/
def windowPosition (needle : List UInt8) : List UInt8 → Option ℕ
  | [] => none
  | b :: bs =>
      if ((b :: bs).take needle.length).map byteToLower = needle.map byteToLower then some 0
      else (windowPosition needle bs).map (· + 1)

/-- `ascii_find_case_insensitive`: an offset in bytes. -/
def asciiFindCaseInsensitive (haystack needle : Str) : Option ℕ :=
  if needle = [] then some 0 else windowPosition (Utf8.encode needle) (Utf8.encode haystack)

/-! ## Blocks behind a marker -/

/-- Go on with a value that may be missing; the outer `none` is a panic. -/
def andThen {α β : Type*} (x : Option (Option α)) (f : α → Option (Option β)) :
    Option (Option β) :=
  match x with
  | none => none
  | some none => some none
  | some (some a) => f a

/-- Going on gives a value exactly if both steps do. -/
theorem andThen_eq_some_iff {α β : Type*} {x : Option (Option α)} {f : α → Option (Option β)}
    {b : β} : andThen x f = some (some b) ↔ ∃ a, x = some (some a) ∧ f a = some (some b) := by
  rcases x with _ | _ | a <;> simp [andThen]

/-- Going on never panics if no step does. -/
theorem andThen_ne_none {α β : Type*} {x : Option (Option α)} {f : α → Option (Option β)}
    (hx : x ≠ none) (hf : ∀ a, f a ≠ none) : andThen x f ≠ none := by
  rcases x with _ | _ | a
  · exact absurd rfl hx
  · exact nofun
  · exact hf a

/-- Going on with each value panics if one of them does. -/
theorem mapM_eq_none_iff {α β : Type} {f : α → Option β} {l : List α} :
    l.mapM f = none ↔ ∃ a ∈ l, f a = none := by
  induction l with
  | nil => simp
  | cons a l ih =>
      rw [List.mapM_cons, List.exists_mem_cons_iff, ← ih]
      cases f a with
      | none => simp
      | some b => cases l.mapM f <;> simp

/-- A loop panics if a round of it does, where that is a matter of the value only. -/
theorem foldlM_eq_none_iff {σ α : Type} {f : σ → α → Option σ} {P : α → Prop}
    (h : ∀ s a, f s a = none ↔ P a) (s : σ) (l : List α) :
    l.foldlM f s = none ↔ ∃ a ∈ l, P a := by
  induction l generalizing s with
  | nil => simp
  | cons a l ih =>
      rw [List.foldlM_cons, List.exists_mem_cons_iff, ← h s a]
      cases f s a with
      | none => simp
      | some next => simpa using ih next

/-- A loop keeps what each round of it keeps. -/
theorem subset_of_foldlM {σ α β : Type} {f : σ → α → Option σ} (kept : σ → List β)
    (hkeep : ∀ s a s', f s a = some s' → kept s ⊆ kept s') {s s' : σ} {l : List α}
    (h : l.foldlM f s = some s') : kept s ⊆ kept s' := by
  induction l generalizing s with
  | nil =>
      obtain rfl : s = s' := Option.some.inj h
      exact List.Subset.refl _
  | cons a l ih =>
      rw [List.foldlM_cons] at h
      obtain ⟨next, hnext, hrest⟩ := Option.bind_eq_some_iff.mp h
      exact List.Subset.trans (hkeep s a next hnext) (ih hrest)

/-- What the round of a value keeps is there behind the loop. -/
theorem exists_round_of_foldlM {σ α β : Type} {f : σ → α → Option σ} (kept : σ → List β)
    (hkeep : ∀ s a s', f s a = some s' → kept s ⊆ kept s') {s s' : σ} {l : List α}
    (h : l.foldlM f s = some s') {a : α} (ha : a ∈ l) :
    ∃ t t', f t a = some t' ∧ kept t' ⊆ kept s' := by
  induction l generalizing s with
  | nil => cases ha
  | cons first l ih =>
      rw [List.foldlM_cons] at h
      obtain ⟨next, hnext, hrest⟩ := Option.bind_eq_some_iff.mp h
      rcases List.mem_cons.mp ha with rfl | ha
      · exact ⟨s, next, hnext, subset_of_foldlM kept hkeep hrest⟩
      · exact ih hrest ha

/-- Every result is that of a value. -/
theorem exists_of_mem_mapM {α β : Type} {f : α → Option β} {l : List α} {results : List β}
    (h : l.mapM f = some results) {b : β} (hb : b ∈ results) : ∃ a ∈ l, f a = some b := by
  induction l generalizing results with
  | nil =>
      obtain rfl : [] = results := by simpa using h
      cases hb
  | cons a l ih =>
      rw [List.mapM_cons] at h
      cases ha : f a with
      | none => simp [ha] at h
      | some first =>
          cases hl : l.mapM f with
          | none => simp [ha, hl] at h
          | some rest =>
              obtain rfl : first :: rest = results := by simpa [ha, hl] using h
              rcases List.mem_cons.mp hb with rfl | hb
              · exact ⟨a, List.mem_cons_self, ha⟩
              · obtain ⟨a', ha', hfound⟩ := ih hl hb
                exact ⟨a', List.mem_cons_of_mem _ ha', hfound⟩

/-- Every value stands beside its result. -/
theorem exists_mem_zip_mapM {α β : Type} {f : α → Option β} {l : List α} {results : List β}
    (h : l.mapM f = some results) {a : α} (ha : a ∈ l) :
    ∃ b, (a, b) ∈ l.zip results ∧ f a = some b := by
  induction l generalizing results with
  | nil => cases ha
  | cons first l ih =>
      rw [List.mapM_cons] at h
      cases hfirst : f first with
      | none => simp [hfirst] at h
      | some b =>
          cases hl : l.mapM f with
          | none => simp [hfirst, hl] at h
          | some rest =>
              obtain rfl : b :: rest = results := by simpa [hfirst, hl] using h
              rcases List.mem_cons.mp ha with rfl | ha
              · exact ⟨b, List.mem_cons_self, hfirst⟩
              · obtain ⟨b', hb', hfound⟩ := ih hl ha
                exact ⟨b', List.mem_cons_of_mem _ hb', hfound⟩

/-- Every value has its result. -/
theorem exists_mem_mapM {α β : Type} {f : α → Option β} {l : List α} {results : List β}
    (h : l.mapM f = some results) {a : α} (ha : a ∈ l) : ∃ b ∈ results, f a = some b := by
  obtain ⟨b, hb, hfound⟩ := exists_mem_zip_mapM h ha
  exact ⟨b, (List.of_mem_zip hb).2, hfound⟩

/-- How the blocks behind a marker are collected. -/
structure MarkerRules where
  marker : Str
  marker_ne_nil : marker ≠ []
  /-- The marker is ASCII, without white space. -/
  marker_visible : ∀ b ∈ Utf8.encode marker, 32 < b.toNat ∧ b.toNat < 128
  /-- `looks_like_coordinate_line`. -/
  looksLikeCoordinateLine : Str → Bool
  /-- Whether a block may end in front of a line that stops it. -/
  mayEnd : Str → Bool

/-- `starts_new_section_header` of the modules with a marker. -/
def MarkerRules.startsNewSectionHeader (rules : MarkerRules) (line : Str) : Bool :=
  let trimmed := Str.trim line
  trimmed ≠ [] && !rules.looksLikeCoordinateLine trimmed &&
    ((Str.find "...".toList trimmed).isSome || trimmed.head? == some '/' ||
      (Str.splitWhitespace trimmed).head?.any fun token =>
        token.all Char.isUpper && decide (3 ≤ Str.byteLen token))

/-- Whether a block ends in front of a trimmed line. -/
def MarkerRules.stops (rules : MarkerRules) (line : Str) : Bool :=
  line = [] || (asciiFindCaseInsensitive line rules.marker).isSome ||
    (rules.startsNewSectionHeader line && !rules.looksLikeCoordinateLine line)

/-- The loop that joins the lines of a block, and counts them. -/
def MarkerRules.collectLines (rules : MarkerRules) (raw : Str) : List Str → Str × ℕ
  | [] => (raw, 0)
  | line :: lines =>
      let nextLine := Str.trim line
      if rules.stops nextLine then (raw, 0)
      else
        let raw := (if raw = [] then raw else raw ++ [' ']) ++ nextLine
        if rules.mayEnd raw && lines.head?.all fun peek => rules.stops (Str.trim peek) then (raw, 1)
        else
          let (joined, further) := rules.collectLines raw lines
          (joined, further + 1)

/-- Whether a line has the marker. -/
def MarkerRules.starts (rules : MarkerRules) (line : Str) : Bool :=
  (asciiFindCaseInsensitive line rules.marker).isSome

/-- The block that begins at the marker of a line. -/
def MarkerRules.collect (rules : MarkerRules) (line : Str) (lines : List Str) :
    Option (Str × ℕ) := do
  let behind ← Str.sliceFrom ((asciiFindCaseInsensitive line rules.marker).getD 0) line
  some (rules.collectLines (Str.trim behind) lines)

/-- The loop of `consume_coordinate_token`: join tokens until there are four to eight bytes. -/
def consumeCoordinateToken (token : Str) : List Str → Option (Str × List Str)
  | [] => none
  | next :: tokens =>
      let token := token ++ Str.trim next
      if 4 ≤ Str.byteLen token ∧ Str.byteLen token ≤ 8 then some (token, tokens)
      else if 8 < Str.byteLen token then none
      else consumeCoordinateToken token tokens

/-- Consuming a token leaves fewer. -/
theorem length_lt_of_consumeCoordinateToken {token joined : Str} {tokens rest : List Str}
    (h : consumeCoordinateToken token tokens = some (joined, rest)) :
    rest.length < tokens.length := by
  induction tokens generalizing token with
  | nil => cases h
  | cons next tokens ih =>
      rw [consumeCoordinateToken] at h
      split_ifs at h
      · obtain rfl : tokens = rest := congrArg Prod.snd (Option.some.inj h)
        simp
      · exact (ih h).trans (by simp)

/-- Read the unsigned number between two offsets. -/
def readUnsigned (i j : ℕ) (s : Str) : Option (Option ℕ) :=
  (Str.slice i j s).map (Str.parseUnsigned (2 ^ 32 - 1))

/-- Read the floating-point number between two offsets. -/
def readPiece {F : Type*} [Floats.FloatArith F] (i j : ℕ) (s : Str) : Option (Option F) :=
  (Str.slice i j s).map Floats.parse

end Parser
