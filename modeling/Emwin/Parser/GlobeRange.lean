/-
# Geometry on the globe

The parser of storm motions puts a coordinate together from fields that may be any numbers, and
like the parser of polygons it does not compare the result with anything.  Both parsers give
places on the globe exactly if what is written in the blocks that they accept is on it, and
neither panics (`geometry_on_globe_iff`).
-/
import Emwin.Parser.PolygonRange
import Emwin.Parser.TimeMotLocSlices
import Mathlib.Data.List.GetD

namespace Parser

open Chrono Floats

namespace TimeMotLoc

/-! ## Fields -/

/-- What the last field of a coordinate of some bytes counts: so many make a degree. -/
def fieldsPerDegree (n : ℕ) : ℕ :=
  match n with
  | 4 | 5 => 100
  | 6 => 60
  | _ => 6000

/-- How many of them the fields are. -/
def countFields (n : ℕ) (values : List ℚ) : ℚ :=
  match n with
  | 4 | 5 => 100 * values.getD 0 0 + values.getD 1 0
  | 6 => 60 * values.getD 0 0 + values.getD 1 0
  | _ => 6000 * values.getD 0 0 + 100 * values.getD 1 0 + values.getD 2 0

/-- The fields of a coordinate are finite numbers, and within its limit. -/
def FieldsOnGlobe (isLat : Bool) (coord : Str) : Prop :=
  ∃ values : List ℚ,
    readFields Number (fieldLengths isLat coord) (signless coord) =
      some (some (values.map Number.finite)) ∧
    |countFields (Str.byteLen (signless coord)) values| ≤
      limitOf isLat * fieldsPerDegree (Str.byteLen (signless coord))

theorem fieldsPerDegree_pos (n : ℕ) : 0 < fieldsPerDegree n := by
  unfold fieldsPerDegree
  split <;> decide

/-- Fields that are finite numbers. -/
theorem combine_finite (n : ℕ) (values : List ℚ) : combine n (values.map Number.finite) =
    .finite (countFields n values / fieldsPerDegree n) := by
  have hget : ∀ i, (values.map Number.finite).getD i (const 0) = .finite (values.getD i 0) := by
    intro i
    rw [Number.const_eq, Nat.cast_zero, List.getD_map]
  unfold combine countFields fieldsPerDegree
  simp only [hget]
  split
  all_goals
    simp only [Number.finite_div_const _ (show (60 : ℕ) ≠ 0 by decide),
      Number.finite_div_const _ (show (100 : ℕ) ≠ 0 by decide), Number.finite_add,
        Number.finite.injEq]
    push_cast
    ring

/-- Numbers that are all finite are rational. -/
theorem exists_rationals {values : List Number} (h : ∀ value ∈ values, value.IsFinite) :
    ∃ rationals : List ℚ, values = rationals.map Number.finite := by
  induction values with
  | nil => exact ⟨[], rfl⟩
  | cons value values ih =>
      obtain ⟨hvalue, hrest⟩ := List.forall_mem_cons.mp h
      obtain ⟨q, rfl⟩ := Number.isFinite_iff.mp hvalue
      obtain ⟨rationals, rfl⟩ := ih hrest
      exact ⟨q :: rationals, rfl⟩

/-- **Range.**  A coordinate that is read is within its limit exactly if its fields are. -/
theorem within_iff_fieldsOnGlobe {coord : Str} {isLat : Bool} {value : Number}
    (h : parseCoordinate coord isLat = some (some value)) :
    Within (limitOf isLat) value ↔ FieldsOnGlobe isLat coord := by
  obtain ⟨values, hne, hfields, rfl⟩ := exists_fields_of_parseCoordinate h
  have hfinite := isFinite_combine_iff (length_of_readFields hfields) hne
  have hrational : ∀ rationals : List ℚ, values = rationals.map Number.finite →
      (Within (limitOf isLat) (signed isLat (combine (Str.byteLen (signless coord)) values)) ↔
        |countFields (Str.byteLen (signless coord)) rationals| ≤
          limitOf isLat * fieldsPerDegree (Str.byteLen (signless coord))) := by
    rintro rationals rfl
    have hpos : (0 : ℚ) < fieldsPerDegree (Str.byteLen (signless coord)) := by
      exact_mod_cast fieldsPerDegree_pos _
    have habs : Within (limitOf isLat) (signed isLat (.finite
        (countFields (Str.byteLen (signless coord)) rationals /
          fieldsPerDegree (Str.byteLen (signless coord))))) ↔
        |countFields (Str.byteLen (signless coord)) rationals /
          (fieldsPerDegree (Str.byteLen (signless coord)) : ℚ)| ≤ limitOf isLat := by
      cases isLat <;> simp [signed]
    rw [combine_finite, habs, abs_div, abs_of_pos hpos, div_le_iff₀ hpos]
  constructor
  · intro hwithin
    have hvalues : ∀ value ∈ values, value.IsFinite := by
      rw [← hfinite]
      obtain ⟨q, hq, -⟩ := hwithin
      have : (signed isLat (combine (Str.byteLen (signless coord)) values)).IsFinite :=
        Number.isFinite_iff.mpr ⟨q, hq⟩
      cases isLat
      · exact Number.isFinite_neg_iff.mp this
      · exact this
    obtain ⟨rationals, hvalues⟩ := exists_rationals hvalues
    exact ⟨rationals, hvalues ▸ hfields, (hrational rationals hvalues).mp hwithin⟩
  · rintro ⟨rationals, hread, hle⟩
    rw [hfields, Option.some.injEq, Option.some.injEq] at hread
    exact (hrational rationals hread).mpr hle

/-! ## Entries -/

/-- **Points.**  The points are on the globe exactly if the fields of all coordinates are within
their limits. -/
theorem onGlobe_of_parsePoints {raw : Str} :
    ∀ {coords : List Str} {points : List (Number × Number)},
    parsePoints raw coords = some (.ok points) →
      ((∀ point ∈ points, OnGlobe point) ↔
        ∀ reading ∈ readCoordinates coords, FieldsOnGlobe reading.1 reading.2)
  | [], points, h | [_], points, h => by
      obtain rfl : [] = points := by simpa [parsePoints] using h
      simp [readCoordinates]
  | lat :: lon :: coords, points, h => by
      rw [parsePoints] at h
      rcases parseCoordinate_trichotomy lat true with ⟨h', -⟩ | ⟨h', -⟩ | ⟨x, hx, -, hlat⟩
      · simp [h'] at h
      · simp [h'] at h
      rcases parseCoordinate_trichotomy lon false with ⟨h', -⟩ | ⟨h', -⟩ | ⟨y, hy, -, hlon⟩
      · simp [hx, h'] at h
      · simp [hx, h'] at h
      rcases hrest : parsePoints (F := Number) raw coords with _ | issue | found
      · simp [hx, hy, hrest] at h
      · simp [hx, hy, hrest, Except.map] at h
      obtain rfl : (x, y) :: found = points := by simpa [hx, hy, hrest, Except.map] using h
      have hlatIff := within_iff_fieldsOnGlobe hx
      have hlonIff := within_iff_fieldsOnGlobe hy
      rw [readCoordinates, if_pos hlat, if_pos hlon, List.forall_mem_cons, List.forall_mem_cons,
        List.forall_mem_cons, ← hlatIff, ← hlonIff, ← onGlobe_of_parsePoints hrest, ← and_assoc]
      exact Iff.rfl

/-- The parser returns; all points of its entries are on the globe; and a block without an entry
is reported. -/
def EntriesOnGlobe (text : Str) (referenceTime : DateTime) : Prop :=
  ∃ entries issues,
    parseTimeMotLocEntriesWithIssues (F := Number) text referenceTime = some (entries, issues) ∧
    (∀ entry ∈ entries, ∀ point ∈ entry.points, OnGlobe point) ∧
    ∀ candidate ∈ candidateTexts text,
      (∃ entry ∈ entries, ∃ repairs,
        parseTimeMotLocCandidate candidate referenceTime = some (.ok (entry, repairs))) ∨
      ∃ issue ∈ issues,
        parseTimeMotLocCandidate (F := Number) candidate referenceTime = some (.error issue)

/-- Every block makes an entry or is reported. -/
theorem reported_of_parse {text : Str} {referenceTime : DateTime}
    {entries : List (TimeMotLocEntry Number)} {issues : List ProductParseIssue}
    (h : parseTimeMotLocEntriesWithIssues text referenceTime = some (entries, issues)) :
    ∀ candidate ∈ candidateTexts text,
      (∃ entry ∈ entries, ∃ repairs,
        parseTimeMotLocCandidate candidate referenceTime = some (.ok (entry, repairs))) ∨
      ∃ issue ∈ issues,
        parseTimeMotLocCandidate (F := Number) candidate referenceTime = some (.error issue) := by
  intro candidate hcandidate
  obtain ⟨count, hcount⟩ := Option.isSome_iff_exists.mp (countMarkers_isSome text)
  obtain ⟨candidates, hcandidates⟩ := findTimeMotLocCandidates_isSome text
  have hentries := mem_entries_iff h
  rw [parseTimeMotLocEntriesWithIssues, hcount, hcandidates] at h
  simp only [Option.bind_eq_bind, Option.bind_some] at h
  obtain ⟨results, hresults, h⟩ := Option.bind_eq_some_iff.mp h
  obtain ⟨rfl, rfl⟩ := Prod.mk.inj (Option.some.inj h)
  have hmem := hcandidate
  rw [candidateTexts, hcandidates] at hmem
  obtain ⟨block, hblock, rfl⟩ := List.mem_map.mp hmem
  obtain ⟨result, hzip, hparse⟩ := exists_mem_zip_mapM hresults hblock
  cases result with
  | ok found =>
      obtain ⟨entry, repairs⟩ := found
      exact .inl ⟨entry, (hentries entry).mpr ⟨_, hcandidate, repairs, hparse⟩, repairs, hparse⟩
  | error issue =>
      have hissue : issue ∈ candidateIssues block (.error issue : EntryResult Number) :=
        List.mem_append_right _ (List.mem_singleton_self issue)
      exact .inr ⟨issue, List.mem_append_left _ (List.mem_flatMap.mpr ⟨_, hzip, hissue⟩), hparse⟩

/-- **Entries.**  The parser returns entries on the globe exactly if all cuts are between
characters and the fields of all blocks that can be read are within their limits. -/
theorem entriesOnGlobe_iff (text : Str) (referenceTime : DateTime) :
    EntriesOnGlobe text referenceTime ↔
      ∀ tokens ∈ timeMotLocTokens text referenceTime,
        (∀ token ∈ splitTokens [] tokens, HalvesOnBoundaries token) ∧
        (∀ reading ∈ readCoordinates (blockCoordinates tokens),
          CoordinateOnBoundaries reading.1 reading.2) ∧
        (allReadable (blockCoordinates tokens) = true →
          ∀ reading ∈ readCoordinates (blockCoordinates tokens),
            FieldsOnGlobe reading.1 reading.2) := by
  constructor
  · rintro ⟨entries, issues, hparse, hglobe, -⟩ tokens htokens
    obtain ⟨hhalves, hfields⟩ :=
      (exists_parseTimeMotLocEntries_iff text referenceTime).mp ⟨_, _, hparse⟩ tokens htokens
    refine ⟨hhalves, hfields, fun hall reading hreading => ?_⟩
    have hne : blockCoordinates tokens ≠ [] := by
      intro hnil
      rw [hnil] at hreading
      cases hreading
    obtain ⟨candidate, hcandidate, htokens⟩ := List.mem_filterMap.mp htokens
    obtain ⟨entry, repairs, hentry⟩ := exists_entry htokens hne hall
    obtain ⟨tokens', htokens', -, hpoints⟩ := points_of_entry hentry
    obtain rfl : tokens' = tokens :=
      Option.some.inj ((Option.mem_def.mp htokens').symm.trans htokens)
    have hmem := (mem_entries_iff hparse entry).mpr ⟨candidate, hcandidate, repairs, hentry⟩
    exact (onGlobe_of_parsePoints hpoints).mp (hglobe entry hmem) reading hreading
  · intro hsafe
    obtain ⟨entries, issues, hparse⟩ := (exists_parseTimeMotLocEntries_iff text referenceTime).mpr
      fun tokens htokens => ⟨(hsafe tokens htokens).1, (hsafe tokens htokens).2.1⟩
    refine ⟨entries, issues, hparse, fun entry hentry => ?_, reported_of_parse hparse⟩
    obtain ⟨candidate, hcandidate, repairs, hparsed⟩ := (mem_entries_iff hparse entry).mp hentry
    obtain ⟨tokens, htokens, hall, hpoints⟩ := points_of_entry hparsed
    have hmem : tokens ∈ timeMotLocTokens text referenceTime :=
      List.mem_filterMap.mpr ⟨candidate, hcandidate, htokens⟩
    exact (onGlobe_of_parsePoints hpoints).mpr ((hsafe tokens hmem).2.2 hall)

end TimeMotLoc

/-! ## Both parsers -/

/-- **The globe.**  Polygons and storm motions are on the globe exactly if the digits of the blocks
that make polygons, and the fields of those that make entries, are within their limits, and no
token or coordinate of a storm motion is cut inside a character. -/
theorem geometry_on_globe_iff (text : Str) (referenceTime : DateTime) :
    (LatLon.PolygonsOnGlobe text ↔
      ∀ candidate ∈ (LatLon.findLatlonCandidates text).getD [], LatLon.IsAccepted candidate →
        LatLon.AllOnGlobe true (LatLon.blockCoords candidate)) ∧
    (TimeMotLoc.EntriesOnGlobe text referenceTime ↔
      ∀ tokens ∈ TimeMotLoc.timeMotLocTokens text referenceTime,
        (∀ token ∈ TimeMotLoc.splitTokens [] tokens, TimeMotLoc.HalvesOnBoundaries token) ∧
        (∀ reading ∈ TimeMotLoc.readCoordinates (TimeMotLoc.blockCoordinates tokens),
          TimeMotLoc.CoordinateOnBoundaries reading.1 reading.2) ∧
        (TimeMotLoc.allReadable (TimeMotLoc.blockCoordinates tokens) = true →
          ∀ reading ∈ TimeMotLoc.readCoordinates (TimeMotLoc.blockCoordinates tokens),
            TimeMotLoc.FieldsOnGlobe reading.1 reading.2)) :=
  ⟨LatLon.polygonsOnGlobe_iff text, TimeMotLoc.entriesOnGlobe_iff text referenceTime⟩

/-- Behind a sign a longitude has thousands of degrees, and the digits of a latitude are not
compared with ninety. -/
theorem geometry_off_globe :
    ¬ LatLon.PolygonsOnGlobe "LAT...LON 4000 -9811 4100 -9811 4100 -9911".toList ∧
    ¬ TimeMotLoc.EntriesOnGlobe "TIME...MOT...LOC 2310Z 238DEG 39KT 9999 08853".toList 0 := by
  have hpolygon : ((LatLon.parseLatlonPolygonsWithIssues (F := Number)
      "LAT...LON 4000 -9811 4100 -9811 4100 -9911".toList).map fun found =>
        found.1.map (·.points)) = some [[(.finite 40, .finite (-9811)),
          (.finite 41, .finite (-9811)), (.finite 41, .finite (-9911)),
          (.finite 40, .finite (-9811))]] := by
    decide +kernel
  have hentry : ((TimeMotLoc.parseTimeMotLocEntriesWithIssues (F := Number)
      "TIME...MOT...LOC 2310Z 238DEG 39KT 9999 08853".toList 0).map fun found =>
        found.1.map (·.points)) = some [[(.finite (9999 / 100), .finite (-8853 / 100))]] := by
    decide +kernel
  constructor
  · rintro ⟨polygons, issues, hparse, hglobe, -⟩
    rw [hparse, Option.map_some, Option.some.injEq] at hpolygon
    have hpoints := List.mem_singleton_self
      [(Number.finite 40, Number.finite (-9811)), (.finite 41, .finite (-9811)),
        (.finite 41, .finite (-9911)), (.finite 40, .finite (-9811))]
    rw [← hpolygon] at hpoints
    obtain ⟨polygon, hpolygon, hpoints⟩ := List.mem_map.mp hpoints
    have hfirst := (hglobe polygon hpolygon (.finite 40, .finite (-9811))
      (hpoints ▸ List.mem_cons_self)).2
    rw [within_finite] at hfirst
    norm_num at hfirst
  · rintro ⟨entries, issues, hparse, hglobe, -⟩
    rw [hparse, Option.map_some, Option.some.injEq] at hentry
    have hpoints := List.mem_singleton_self [(Number.finite (9999 / 100),
        Number.finite (-8853 / 100))]
    rw [← hentry] at hpoints
    obtain ⟨entry, hentry, hpoints⟩ := List.mem_map.mp hpoints
    have hfirst := (hglobe entry hentry (.finite (9999 / 100), .finite (-8853 / 100))
      (hpoints ▸ List.mem_cons_self)).1
    rw [within_finite] at hfirst
    norm_num at hfirst

end Parser
