/-
# What the aviation parsers share

METAR and TAF read the same groups for wind, and times in the same form.  A group for wind is
cut behind its third byte before the direction is looked at, so that a character of several
bytes there is a panic (`parseWind_eq_none_iff`); the cut in a time stands in front of its `Z`.

The outer `none` is a panic.
-/
import Emwin.Lib.Ascii
import Emwin.Parser.Support

namespace Parser.Aviation

/-! ## Times -/

/-- `is_observation_time` and `is_issue_time_token`. -/
def isTimeToken (token : Str) : Option Bool :=
  if Str.byteLen token = 7 ∧ token.getLast? = some 'Z' then
    (Str.sliceTo 6 token).map fun digits => digits.all Char.isDigit
  else some false

/-- Whether a token is a time. -/
def timeToken (token : Str) : Bool :=
  decide (Str.byteLen token = 7 ∧ token.getLast? = some 'Z') && token.dropLast.all Char.isDigit

/-- Looking for a time never panics. -/
theorem isTimeToken_eq (token : Str) : isTimeToken token = some (timeToken token) := by
  unfold isTimeToken timeToken
  split
  · next h =>
      rw [Str.sliceTo_of_getLast (by decide) h.2 h.1, decide_eq_true h]
      rfl
  · next h =>
      rw [decide_eq_false h]
      rfl

/-! ## Wind -/

/-- A group for wind. -/
structure Wind where
  directionDegrees : Option ℕ
  speedKt : ℕ
  gustKt : Option ℕ
  isVariable : Bool
  deriving DecidableEq, Repr

/-- Parse as `u16`. -/
def parseU16 (s : Str) : Option ℕ := Str.parseUnsigned (2 ^ 16 - 1) s

/-- The speed, and the gusts behind a `G`. -/
def parseSpeed (remainder : Str) : Option (ℕ × Option ℕ) :=
  match Str.splitOnce 'G' remainder with
  | some (speed, gust) => do
      let speed ← parseU16 speed
      let gust ← parseU16 gust
      some (speed, some gust)
  | none => (parseU16 remainder).map fun speed => (speed, none)

/-- The branch of `parse_wind` for a wind with a direction. -/
def parseDirectedWind (digitsOnly : Bool) (core : Str) : Option (Option Wind) :=
  if Str.byteLen core < 5 then some none
  else
    (Str.splitAtByte 3 core).map fun (direction, rest) =>
      if digitsOnly && !direction.all Char.isDigit then none
      else do
        let direction ← parseU16 direction
        let (speed, gust) ← parseSpeed rest
        some ⟨some direction, speed, gust, false⟩

/-- `parse_wind`; in a TAF the direction must consist of digits. -/
def parseWind (digitsOnly : Bool) (token : Str) : Option (Option Wind) :=
  match Str.stripSuffix "KT".toList token with
  | none => some none
  | some core =>
      match Str.stripPrefix "VRB".toList core with
      | some rest =>
          some ((parseSpeed rest).map fun (speed, gust) => ⟨none, speed, gust, true⟩)
      | none => parseDirectedWind digitsOnly core

/-- Whether a group for wind is cut between characters. -/
def windOnBoundary (token : Str) : Bool :=
  match Str.stripSuffix "KT".toList token with
  | none => true
  | some core =>
      (Str.stripPrefix "VRB".toList core).isSome || decide (Str.byteLen core < 5) ||
        Str.isCharBoundary 3 core

theorem parseDirectedWind_eq_none_iff {digitsOnly : Bool} {core : Str} :
    parseDirectedWind digitsOnly core = none ↔
      (decide (Str.byteLen core < 5) || Str.isCharBoundary 3 core) = false := by
  unfold parseDirectedWind Str.isCharBoundary
  split
  · next hshort => simp [hshort]
  · next hlong => simp [hlong]

/-- Reading a group for wind panics exactly if it is cut inside a character. -/
theorem parseWind_eq_none_iff {digitsOnly : Bool} {token : Str} :
    parseWind digitsOnly token = none ↔ windOnBoundary token = false := by
  unfold parseWind windOnBoundary
  cases Str.stripSuffix "KT".toList token with
  | none => simp
  | some core =>
      dsimp only
      cases Str.stripPrefix "VRB".toList core with
      | some rest => simp
      | none =>
          dsimp only
          rw [parseDirectedWind_eq_none_iff, Option.isSome_none, Bool.false_or]

/-- Whether a token is a group for wind. -/
def isWind (digitsOnly : Bool) (token : Str) : Bool :=
  (parseWind digitsOnly token).any Option.isSome

theorem exists_of_isWind {digitsOnly : Bool} {token : Str} (h : isWind digitsOnly token = true) :
    ∃ wind, parseWind digitsOnly token = some (some wind) := by
  unfold isWind at h
  rcases hparsed : parseWind digitsOnly token with _ | _ | wind
  · rw [hparsed] at h
    cases h
  · rw [hparsed] at h
    cases h
  · exact ⟨wind, rfl⟩

/-- The tokens up to the first with a property, and that one. -/
def upToFirst (p : Str → Bool) : List Str → List Str
  | [] => []
  | token :: tokens => token :: if p token then [] else upToFirst p tokens

/-- What is looked for among these tokens stands in front, or behind one that is not the last. -/
theorem exists_upToFirst_cons {p : Str → Bool} {q : Str → Prop} {token : Str} {tokens : List Str} :
    (∃ t ∈ upToFirst p (token :: tokens), q t) ↔
      q token ∨ (p token = false ∧ ∃ t ∈ upToFirst p tokens, q t) := by
  rw [upToFirst, List.exists_mem_cons_iff]
  cases p token <;> simp

/-! ## Sky -/

/-- The cover, the height in feet, and what follows it. -/
def parseSky (covers : List String) (token : Str) : Option (Str × Option ℕ × Option Str) := do
  let cover ← Str.sliceTo 3 token
  if cover ∈ covers.map String.toList then
    let height := ((Str.slice 3 6 token).filter fun digits => digits.all Char.isDigit).bind
      (Str.parseUnsigned (2 ^ 32 - 1))
    let modifier := (Str.sliceFrom 6 token).filter fun suffix => suffix ≠ []
    some (cover, height.map (· * 100), modifier)
  else none

end Parser.Aviation
