/-
# Wildcards in filenames

`wildcard_match` compares two bytes before it asks whether the byte of the pattern is a star.
So a star of the pattern that meets a star of the filename is used up by it, and the filenames
that match are the strict fits (`Glob.Strict`): of the filenames that fit the pattern the
matcher misses those where such a star would have to take more, or less, than that one
character (`wildcardMatch_iff`).  Without stars in the filename it is right
(`wildcardMatch_of_not_mem`).
-/
import Emwin.FileEvents.Filter
import Emwin.Lib.Ascii

namespace FileEvents

/-- **Filenames.**  The matcher accepts the strict fits. -/
theorem wildcardMatch_eq_true {pattern text : Str} :
    wildcardMatch pattern text = true ↔ Glob.Strict STAR (lowerBytes pattern) (lowerBytes text) :=
  Glob.fits_iff

/-- **Filenames.**  The matcher decides whether a filename fits a pattern exactly where the
filename does not fit, or fits so that every star of the pattern that stands before a star of
the filename takes just that one. -/
theorem wildcardMatch_iff (pattern text : Str) :
    (wildcardMatch pattern text = true ↔
        Glob.Matches STAR (lowerBytes pattern) (lowerBytes text)) ↔
      (Glob.Matches STAR (lowerBytes pattern) (lowerBytes text) →
        Glob.Strict STAR (lowerBytes pattern) (lowerBytes text)) := by
  rw [wildcardMatch_eq_true]
  exact ⟨Iff.mpr, fun h => ⟨Glob.Strict.matches, h⟩⟩

/-- The pattern `*b` fits the filename `*ab`, and the matcher says no. -/
theorem wildcardMatch_star_in_text :
    ¬ (wildcardMatch "*b".toList "*ab".toList = true ↔
        Glob.Matches STAR (lowerBytes "*b".toList) (lowerBytes "*ab".toList)) := by
  rw [wildcardMatch_iff]
  intro h
  have hfit : Glob.Matches STAR (lowerBytes "*b".toList) (lowerBytes "*ab".toList) :=
    (Glob.Matches.nil.symbol 98).star [42, 97]
  have hstrict : Glob.Strict STAR [98] [97, 98] := (Glob.strict_cons_cons 42).mp (h hfit)
  exact Glob.not_strict_of_ne (by decide) (by decide) hstrict

/-- Without a star in the filename the matcher is right. -/
theorem wildcardMatch_of_not_mem {pattern text : Str} (h : STAR ∉ lowerBytes text) :
    wildcardMatch pattern text = true ↔
      Glob.Matches STAR (lowerBytes pattern) (lowerBytes text) := by
  rw [wildcardMatch_iff]
  exact fun hfit => hfit.strict h

/-! ## ASCII -/

theorem isAscii_toAsciiLowercase (s : Str) :
    Str.IsAscii (Str.toAsciiLowercase s) ↔ Str.IsAscii s := by
  simp only [Str.IsAscii, Str.toAsciiLowercase, List.forall_mem_map, Str.toLower_lt_iff]

/-- On ASCII the matcher compares characters. -/
theorem wildcardMatch_of_ascii {pattern text : Str} (hpattern : Str.IsAscii pattern)
    (htext : Str.IsAscii text) :
    wildcardMatch pattern text = true ↔
      Glob.Strict '*' (Str.toAsciiLowercase pattern) (Str.toAsciiLowercase text) := by
  have hinj : Set.InjOn (fun c : Char => UInt8.ofNat c.toNat) {c | c.toNat < 128} := by
    intro c hc d hd heq
    have hnat := congrArg UInt8.toNat heq
    change c.toNat < 128 at hc
    change d.toNat < 128 at hd
    dsimp only at hnat
    rw [Utf8.toNat_ofNat_of_lt (by omega), Utf8.toNat_ofNat_of_lt (by omega)] at hnat
    exact Char.toNat_inj.mp hnat
  rw [← isAscii_toAsciiLowercase] at hpattern htext
  rw [wildcardMatch_eq_true, lowerBytes, lowerBytes, Str.encode_of_ascii hpattern,
    Str.encode_of_ascii htext]
  have hstar : '*' ∈ {c : Char | c.toNat < 128} := by decide
  exact Glob.strict_map hinj hstar hpattern htext

/-- A pattern with other characters accepts no ASCII. -/
theorem wildcardMatch_of_not_ascii {pattern text : Str} (hpattern : ¬ Str.IsAscii pattern)
    (htext : Str.IsAscii text) : wildcardMatch pattern text = false := by
  rw [← isAscii_toAsciiLowercase] at hpattern htext
  obtain ⟨b, hb, hhigh⟩ := Str.exists_byte_of_not_ascii hpattern
  rw [← Bool.not_eq_true, wildcardMatch_eq_true]
  intro h
  have hne : b ≠ STAR := by
    rintro rfl
    exact absurd hhigh (by decide)
  have hmem : b ∈ lowerBytes text :=
    h.matches.sublist.subset (List.mem_filter.mpr ⟨hb, by simpa using hne⟩)
  rw [lowerBytes, Str.encode_of_ascii htext] at hmem
  obtain ⟨c, hc, rfl⟩ := List.mem_map.mp hmem
  have hlow := htext c hc
  rw [Utf8.toNat_ofNat_of_lt (by omega)] at hhigh
  omega

end FileEvents
