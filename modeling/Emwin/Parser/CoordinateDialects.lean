/-
# Two dialects of coordinates

The parsers of polygons and of storm motions read the same notation, each in its own way.  A
longitude below 40 degrees is taken by the first for one that has lost its leading hundred; the
second takes it as it stands.  So the two place a storm differently exactly if one of its
longitudes is that small.
-/
import Emwin.Parser.CoordinatePairs

namespace Parser

open Floats

variable {pairs : List CoordinatePair}

/-- A longitude below 40 degrees is completed. -/
theorem completeLongitude_finite (x : ℚ) : LatLon.completeLongitude (Number.finite x) =
    .finite (if x < 40 then x + 100 else x) := by
  have hlt : FloatArith.lt (Number.finite x) (const 40) = decide (x < 40) := by
    rw [Number.const_eq]
    rfl
  rw [LatLon.completeLongitude, hlt]
  by_cases h : x < 40
  · rw [if_pos (decide_eq_true h), if_pos h, Number.const_eq]
    rfl
  · rw [if_neg (by simpa using h), if_neg h]

/-- A longitude is left as it is if it has forty degrees. -/
theorem completeLongitude_degrees_iff (digits : Str) :
    LatLon.completeLongitude (degrees digits) = degrees digits ↔
      4000 ≤ Str.digitsValue digits := by
  have hforty : ((Str.digitsValue digits : ℚ) / 100 < 40) ↔ Str.digitsValue digits < 4000 := by
    rw [div_lt_iff₀ (by norm_num)]
    norm_num
  rw [degrees, completeLongitude_finite, Number.finite.injEq]
  by_cases h : Str.digitsValue digits < 4000
  · rw [if_pos (hforty.mpr h)]
    refine iff_of_false (fun heq => ?_) (Nat.not_le.mpr h)
    linarith
  · rw [if_neg (mt hforty.mp h)]
    exact iff_of_true rfl (Nat.not_lt.mp h)

/-- Both dialects place a pair in one point exactly if its longitude has forty degrees. -/
theorem pointOf_eq_iff (pair : CoordinatePair) :
    LatLon.pointOf pair = TimeMotLoc.pointOf pair ↔ 4000 ≤ Str.digitsValue pair.lon := by
  rw [← completeLongitude_degrees_iff, LatLon.pointOf, TimeMotLoc.pointOf, Prod.mk.injEq]
  have hneg : ∀ x y : Number, -x = -y → x = y := by
    intro x y h
    have h' : x.neg.neg = y.neg.neg := congrArg Number.neg h
    have hself : ∀ z : Number, z.neg.neg = z := by
      intro z
      cases z <;> simp [Number.neg]
    rwa [hself, hself] at h'
  exact ⟨fun h => hneg _ _ h.2, fun h => ⟨rfl, congrArg _ h⟩⟩

/-- **Polygons.**  At least three pairs are the points of a polygon. -/
theorem LatLon.tokenPoints_pairs (h : ∀ pair ∈ pairs, pair.IsWritten) (hcount : 3 ≤ pairs.length)
    (raw : Str) : LatLon.tokenPoints Number raw (pairTokens pairs) =
      some (.ok (pairs.map LatLon.pointOf), []) := by
  have hpoints := LatLon.pointsFrom_pairs h raw []
  rw [if_neg (by rw [List.length_nil]; omega), List.nil_append] at hpoints
  rw [LatLon.tokenPoints, LatLon.normalize_pairs h rfl, List.nil_append]
  simp only [Option.bind_eq_bind, Option.bind_some]
  rw [LatLon.parsePoints, hpoints]
  rfl

/-- **Storm motions.**  At least one pair is the places of a storm. -/
theorem TimeMotLoc.tokenPoints_pairs (h : ∀ pair ∈ pairs, pair.IsWritten) (hne : pairs ≠ [])
    (raw : Str) : TimeMotLoc.tokenPoints Number raw (pairTokens pairs) =
      some (.ok (pairs.map TimeMotLoc.pointOf, [])) := by
  have hlen := length_pairCoords pairs
  have hpos := List.length_pos_iff.mpr hne
  have hdangling : TimeMotLoc.dropDangling (pairCoords pairs) raw = (pairCoords pairs, []) := by
    rw [TimeMotLoc.dropDangling, if_neg (by omega)]
  rw [TimeMotLoc.tokenPoints, TimeMotLoc.normalize_pairs h rfl, List.nil_append]
  simp only [Option.bind_eq_bind, Option.bind_some]
  rw [hdangling]
  dsimp only
  rw [if_neg (by omega), TimeMotLoc.parsePoints_pairs h]
  rfl

/-- **Agreement.**  The two dialects read the same points from the same tokens exactly if every
longitude has forty degrees. -/
theorem dialects_agree_iff (raw raw' : Str) (pairs : List CoordinatePair)
    (hcount : 3 ≤ pairs.length) (hwritten : ∀ pair ∈ pairs, pair.IsWritten) :
    ∃ polygon track : List (Number × Number),
      LatLon.tokenPoints Number raw (pairTokens pairs) = some (.ok polygon, []) ∧
      TimeMotLoc.tokenPoints Number raw' (pairTokens pairs) = some (.ok (track, [])) ∧
      (polygon = track ↔ ∀ pair ∈ pairs, 4000 ≤ Str.digitsValue pair.lon) := by
  have hne : pairs ≠ [] := List.ne_nil_of_length_pos (by omega)
  refine ⟨_, _, LatLon.tokenPoints_pairs hwritten hcount raw,
    TimeMotLoc.tokenPoints_pairs hwritten hne raw', ?_⟩
  rw [List.map_inj_left]
  exact forall₂_congr fun pair _ => pointOf_eq_iff pair

instance CoordinatePair.decidableIsWritten (pair : CoordinatePair) : Decidable pair.IsWritten :=
  decidable_of_iff ((∀ c ∈ pair.lat, c.isDigit = true) ∧ pair.lat.length = 4 ∧
      (∀ c ∈ pair.lon, c.isDigit = true) ∧ (pair.lon.length = 4 ∨ pair.lon.length = 5) ∧
      (pair.packed = true → pair.lon.length = 4))
    ⟨fun ⟨a, b, c, d, e⟩ => ⟨a, b, c, d, e⟩, fun ⟨a, b, c, d, e⟩ => ⟨a, b, c, d, e⟩⟩

/-- A storm in the east: nothing has to be completed. -/
theorem dialects_agree_iff_east : ∃ polygon track : List (Number × Number),
    LatLon.tokenPoints Number [] (pairTokens [⟨"3221".toList, "08853".toList, false⟩,
      ⟨"3226".toList, "8816".toList, false⟩, ⟨"3203".toList, "8820".toList, false⟩]) =
        some (.ok polygon, []) ∧
    TimeMotLoc.tokenPoints Number [] (pairTokens [⟨"3221".toList, "08853".toList, false⟩,
      ⟨"3226".toList, "8816".toList, false⟩, ⟨"3203".toList, "8820".toList, false⟩]) =
        some (.ok (track, [])) ∧
    (polygon = track ↔ ∀ pair ∈ [(⟨"3221".toList, "08853".toList, false⟩ : CoordinatePair),
      ⟨"3226".toList, "8816".toList, false⟩, ⟨"3203".toList, "8820".toList, false⟩],
        4000 ≤ Str.digitsValue pair.lon) :=
  dialects_agree_iff [] [] _ (by decide) (by decide)

/-- The longitude `1123` is 111.23 degrees west in a polygon, and 11.23 in the track of a storm. -/
theorem dialects_differ : ∃ polygon track : List (Number × Number),
    LatLon.tokenPoints Number [] ["4000".toList, "1123".toList, "4100".toList, "1123".toList,
      "4000".toList, "1000".toList] = some (.ok polygon, []) ∧
    TimeMotLoc.tokenPoints Number [] ["4000".toList, "1123".toList, "4100".toList, "1123".toList,
      "4000".toList, "1000".toList] = some (.ok (track, [])) ∧
    polygon.head? = some (.finite 40, .finite (-11123 / 100)) ∧
    track.head? = some (.finite 40, .finite (-1123 / 100)) ∧ polygon ≠ track := by
  have hwritten : ∀ pair ∈ [(⟨"4000".toList, "1123".toList, false⟩ : CoordinatePair),
      ⟨"4100".toList, "1123".toList, false⟩, ⟨"4000".toList, "1000".toList, false⟩],
      pair.IsWritten := by decide
  exact ⟨_, _, LatLon.tokenPoints_pairs hwritten (by decide) [],
    TimeMotLoc.tokenPoints_pairs hwritten (by decide) [], by decide +kernel, by decide +kernel,
    by decide +kernel⟩

end Parser
