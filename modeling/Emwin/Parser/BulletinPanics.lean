/-
# Which bulletins panic the parsers

The parsers of METAR, TAF, winds aloft and model guidance return exactly if every group, time
and name that they cut is cut between characters, and every hour counted from a run is
representable (`bulletin_parsers_return_iff`).
-/
import Emwin.Parser.FdSlices
import Emwin.Parser.MetarSlices
import Emwin.Parser.MosSlices
import Emwin.Parser.TafSlices

namespace Parser

open Chrono

/-- The parsers of bulletins all return for a text. -/
def ParsersReturn (isDecimal : Char → Bool) (text : Str) (routingCode : Option Str)
    (referenceTime : DateTime) : Prop :=
  (Metar.parseMetarBulletin text).isSome ∧ (Taf.parseTafBulletin text).isSome ∧
    (Fd.parseFdBulletin text routingCode referenceTime).isSome ∧
    (Mos.parseMosBulletin isDecimal text referenceTime).isSome

/-- What the parsers of bulletins cut out of a text is cut between characters, and the hours that
are counted from a run are representable. -/
structure OnBoundaries (text : Str) (referenceTime : DateTime) : Prop where
  metar : ∀ token ∈ Metar.bulletinWindTokens text, Aviation.windOnBoundary token = true
  taf : ∀ header ∈ Taf.tafHeader text, ∀ tokens ∈ Taf.conditionTokens header.remainder,
    Taf.ConditionsOnBoundaries tokens
  fd : ∀ time ∈ Fd.headerTimes referenceTime (Fd.iterNonemptyFdLines text),
    Fd.timeOnBoundaries time = true
  mos : ∀ guidance ∈ Mos.guidanceSections text, Mos.SectionOnBoundaries guidance

/-- **Panics.**  The parsers return exactly if all cuts are between characters and all hours
representable. -/
theorem bulletin_parsers_return_iff (isDecimal : Char → Bool) (text : Str)
    (routingCode : Option Str) (referenceTime : DateTime) :
    ParsersReturn isDecimal text routingCode referenceTime ↔ OnBoundaries text referenceTime := by
  have hmetar : (Metar.parseMetarBulletin text).isSome ↔
      ∀ token ∈ Metar.bulletinWindTokens text, Aviation.windOnBoundary token = true := by
    rw [Option.isSome_iff_ne_none, Ne, Metar.parseMetarBulletin_eq_none_iff]
    simp
  have htaf : (Taf.parseTafBulletin text).isSome ↔ ∀ header ∈ Taf.tafHeader text,
      ∀ tokens ∈ Taf.conditionTokens header.remainder, Taf.ConditionsOnBoundaries tokens := by
    rw [Option.isSome_iff_ne_none, Ne, Taf.parseTafBulletin_eq_none_iff]
    simp
  have hfd : (Fd.parseFdBulletin text routingCode referenceTime).isSome ↔
      ∀ time ∈ Fd.headerTimes referenceTime (Fd.iterNonemptyFdLines text),
        Fd.timeOnBoundaries time = true := by
    rw [Option.isSome_iff_ne_none, Ne, Fd.parseFdBulletin_eq_none_iff]
    simp
  have hmos : (Mos.parseMosBulletin isDecimal text referenceTime).isSome ↔
      ∀ guidance ∈ Mos.guidanceSections text, Mos.SectionOnBoundaries guidance := by
    rw [Option.isSome_iff_ne_none, Ne, Mos.parseMosBulletin_eq_none_iff]
    simp
  rw [ParsersReturn, hmetar, htaf, hfd, hmos]
  exact ⟨fun ⟨metar, taf, fd, mos⟩ => ⟨metar, taf, fd, mos⟩,
    fun ⟨metar, taf, fd, mos⟩ => ⟨metar, taf, fd, mos⟩⟩

/-- A group for wind with a character of two bytes at the end of its direction. -/
theorem bulletin_parsers_panic :
    ¬ ∀ (isDecimal : Char → Bool) (text : Str) (routingCode : Option Str)
        (referenceTime : DateTime), ParsersReturn isDecimal text routingCode referenceTime := by
  intro h
  have hmetar := (h Char.isDigit "METAR KBOS 071200Z 12é45KT=".toList none 0).1
  revert hmetar
  decide +kernel

end Parser
