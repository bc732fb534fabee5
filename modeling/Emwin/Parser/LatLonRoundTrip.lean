/-
# Polygons in print

A polygon is printed as pairs of hundredths of degrees, longitudes from 100 to 139.99 degrees
also without their first digit, and pairs of eight digits also as one token.  However it is
broken over lines, its points are read back in order, and the ring is closed; only a polygon
that crosses itself is refused.
-/
import Emwin.Lib.PaddedDigits
import Emwin.Parser.CoordinateDialects

namespace Parser.LatLon

open Calendar Floats

/-! ## Printing -/

/-- How a pair is printed: a longitude of five digits, one of four, or one token. -/
inductive Layout where
  | five
  | four
  | packed
  deriving DecidableEq, Repr

/-- A point in hundredths of degrees north and west, with the way it is printed. -/
structure PrintedPoint where
  lat : ℕ
  lon : ℕ
  layout : Layout
  deriving DecidableEq, Repr

/-- The points that can be printed. -/
structure PrintedPoint.InRange (p : PrintedPoint) : Prop where
  lat : p.lat ≤ 9000
  lon : 4000 ≤ p.lon ∧ p.lon ≤ 17999
  /-- Four digits are enough below 140 degrees. -/
  layout : p.layout = .five ∨ p.lon < 14000

/-- What is printed of a point. -/
def PrintedPoint.pair (p : PrintedPoint) : CoordinatePair where
  lat := padded 4 p.lat
  lon := if p.layout = .five then padded 5 p.lon
    else padded 4 (if p.lon < 10000 then p.lon else p.lon - 10000)
  packed := decide (p.layout = .packed)

/-- A point in degrees; west is negative. -/
def PrintedPoint.point (p : PrintedPoint) : Number × Number :=
  (.finite (p.lat / 100), .finite (-(p.lon / 100)))

/-- A text is a marker with the tokens of some points, on lines that are not blank. -/
structure IsPrinted (points : List PrintedPoint) (text : Str) : Prop where
  marker : MARKER <+: text
  words : Str.splitWhitespace text = MARKER :: pairTokens (points.map PrintedPoint.pair)
  lines : ∀ line ∈ Str.lines text, Str.trim line ≠ []

/-- Points with the first at the end. -/
def closeRing (points : List (Number × Number)) : List (Number × Number) :=
  if points.head? = points.getLast? then points else points ++ points.head?.toList

/-- The issue of a polygon that crosses itself. -/
def selfIntersectionIssue (raw : Str) : ProductParseIssue :=
  latlonIssue "latlon_geometry_invalid"
    "LAT...LON block produced a self-intersecting polygon: `" raw

variable {p : PrintedPoint} {points : List PrintedPoint} {text line : Str}

/-! ## Points -/

/-- What is printed is digits. -/
theorem PrintedPoint.InRange.isWritten (h : p.InRange) : p.pair.IsWritten where
  lat_digits _ := Str.isDigit_of_mem_padded
  lat_length := Str.length_padded (by decide) (lt_of_le_of_lt h.lat (by decide))
  lon_digits c hc := by
    unfold PrintedPoint.pair at hc
    dsimp only at hc
    split at hc
    all_goals exact Str.isDigit_of_mem_padded hc
  lon_length := by
    have hlon := h.lon
    by_cases hfive : p.layout = .five
    · refine Or.inr ?_
      rw [PrintedPoint.pair, if_pos hfive]
      exact Str.length_padded (by decide) (by omega)
    · have hlow : p.lon < 14000 := h.layout.resolve_left hfive
      refine Or.inl ?_
      rw [PrintedPoint.pair, if_neg hfive]
      exact Str.length_padded (by decide) (by split_ifs <;> omega)
  packed_length hpacked := by
    have hpacked : p.layout = .packed := of_decide_eq_true hpacked
    have hfive : p.layout ≠ .five := by
      rw [hpacked]
      decide
    have hlow : p.lon < 14000 := h.layout.resolve_left hfive
    have hlon := h.lon
    rw [PrintedPoint.pair, if_neg hfive]
    exact Str.length_padded (by decide) (by split_ifs <;> omega)

/-- **One point.**  A printed point is read back. -/
theorem PrintedPoint.InRange.pointOf_pair (h : p.InRange) : pointOf p.pair = p.point := by
  have hlon := h.lon
  have hlat : degrees p.pair.lat = .finite (p.lat / 100) := by
    rw [degrees, PrintedPoint.pair, Str.digitsValue_padded]
  -- a longitude of at least 40 degrees is not completed, what is left of one above 100 is
  have hcomplete : completeLongitude (degrees p.pair.lon) = .finite (p.lon / 100) := by
    have hforty : (40 : ℚ) ≤ p.lon / 100 := by
      rw [le_div_iff₀ (by norm_num)]
      norm_num
      exact_mod_cast hlon.1
    by_cases hprinted : p.layout = .five ∨ p.lon < 10000
    · have hvalue : Str.digitsValue p.pair.lon = p.lon := by
        rw [PrintedPoint.pair]
        dsimp only
        split_ifs with hfive hlow
        · rw [Str.digitsValue_padded]
        · rw [Str.digitsValue_padded]
        · exact absurd hprinted (not_or.mpr ⟨hfive, hlow⟩)
      rw [degrees, hvalue, completeLongitude_finite, if_neg (not_lt.mpr hforty)]
    · obtain ⟨hfive, hhigh⟩ := not_or.mp hprinted
      have hlow : p.lon < 14000 := h.layout.resolve_left hfive
      have hvalue : Str.digitsValue p.pair.lon = p.lon - 10000 := by
        rw [PrintedPoint.pair]
        dsimp only
        rw [if_neg hfive, if_neg hhigh, Str.digitsValue_padded]
      have hcast : ((p.lon - 10000 : ℕ) : ℚ) = p.lon - 10000 := by
        push_cast [Nat.cast_sub (Nat.not_lt.mp hhigh)]
        rfl
      have hbelow : ((p.lon : ℚ) - 10000) / 100 < 40 := by
        have hlow' : (p.lon : ℚ) < 14000 := by exact_mod_cast hlow
        rw [div_lt_iff₀ (by norm_num)]
        linarith
      rw [degrees, hvalue, hcast, completeLongitude_finite, if_pos hbelow]
      refine congrArg Number.finite ?_
      ring
  rw [pointOf, hlat, hcomplete]
  rfl

/-- Points differ exactly if they are not equal. -/
theorem pointsDiffer_point (p q : PrintedPoint) :
    pointsDiffer p.point q.point = decide (p.point ≠ q.point) := by
  have heq : ∀ x y : ℚ, FloatArith.eq (Number.finite x) (.finite y) =
      decide (Number.finite x = .finite y) := by
    intro x y
    show decide (Number.finite x = .finite y ∧ Number.finite x ≠ .nan) = _
    simp
  rw [pointsDiffer, PrintedPoint.point, PrintedPoint.point, heq, heq]
  simp [Prod.ext_iff]

/-- A ring is closed as soon as it has a point. -/
theorem closed_points (hne : points ≠ []) :
    closed (points.map PrintedPoint.point) = closeRing (points.map PrintedPoint.point) := by
  obtain ⟨first, hfirst⟩ : ∃ first, points.head? = some first :=
    Option.isSome_iff_exists.mp (List.isSome_head?.mpr hne)
  obtain ⟨last, hlast⟩ : ∃ last, points.getLast? = some last :=
    ⟨_, List.getLast?_eq_getLast_of_ne_nil hne⟩
  have hhead : (points.map PrintedPoint.point).head? = some first.point := by
    rw [List.head?_map, hfirst, Option.map_some]
  have hend : (points.map PrintedPoint.point).getLast? = some last.point := by
    rw [List.getLast?_map, hlast, Option.map_some]
  rw [closed_eq hhead hend, pointsDiffer_point, closeRing, hhead, hend]
  by_cases hsame : first.point = last.point
  · rw [if_neg (by simpa using hsame), if_pos (congrArg some hsame)]
  · rw [if_pos (by simpa using hsame), if_neg fun h => hsame (Option.some.inj h)]
    rfl

/-- **Rings.**  At least three points make a ring if it does not cross itself. -/
theorem validatePolygon_points (hcount : 3 ≤ points.length) (raw : Str) :
    validatePolygon (points.map PrintedPoint.point) raw =
      if 4 < (closeRing (points.map PrintedPoint.point)).length ∧
          hasSelfIntersection (closeRing (points.map PrintedPoint.point)) = true then
        .error (selfIntersectionIssue raw)
      else .ok (closeRing (points.map PrintedPoint.point)) := by
  rw [validatePolygon_eq, if_neg (by rw [List.length_map]; omega),
    closed_points (List.ne_nil_of_length_pos (by omega))]
  simp only [Bool.and_eq_true, decide_eq_true_eq]
  rfl

/-! ## Blocks -/

/-- A text whose words are digits has digits and white space. -/
theorem isDigit_or_isWhitespace {c : Char}
    (h : ∀ word ∈ Str.splitWhitespace line, ∀ c ∈ word, c.isDigit = true) (hc : c ∈ line) :
    c.isDigit = true ∨ Str.isWhitespace c = true := by
  by_cases hspace : Str.isWhitespace c = true
  · exact Or.inr hspace
  · obtain ⟨word, hword, hmem⟩ := Str.exists_word_of_mem hc (Bool.not_eq_true _ ▸ hspace)
    exact Or.inl (h word hword c hmem)

/-- A line of coordinates has no marker. -/
theorem find_marker_eq_none
    (h : ∀ word ∈ Str.splitWhitespace line, ∀ c ∈ word, c.isDigit = true) :
    asciiFindCaseInsensitive line MARKER = none := by
  rw [Option.eq_none_iff_forall_ne_some]
  intro n hn
  obtain ⟨c, hc, b, b', hb, hhead, hlower⟩ := rules.exists_mem_of_find hn
  obtain rfl : 76 = b' := Option.some.inj hhead
  have hletter : b = 76 ∨ b = 108 := by
    unfold byteToLower at hlower
    split_ifs at hlower <;> simp_all [UInt8.le_iff_toNat_le, UInt8.ext_iff]
    omega
  have hchar : c = 'L' ∨ c = 'l' := by
    rcases hletter with rfl | rfl
    · exact Or.inl (Char.toNat_inj.mp hb)
    · exact Or.inr (Char.toNat_inj.mp hb)
  rcases isDigit_or_isWhitespace h hc with hdigit | hspace
  · rcases hchar with rfl | rfl <;> exact absurd hdigit (by decide)
  · rcases hchar with rfl | rfl <;> exact absurd hspace (by decide)

/-- A line of coordinates looks like one. -/
theorem looksLikeCoordinateLine_of_digits
    (h : ∀ word ∈ Str.splitWhitespace line, ∀ c ∈ word, c.isDigit = true) :
    looksLikeCoordinateLine line = true := by
  refine List.all_eq_true.mpr fun word hword => ?_
  have hne : word ≠ [] := of_decide_eq_true (List.mem_filter.mp hword).2
  dsimp only
  rw [dropWhile_minus (h word hword), decide_eq_true hne, List.all_eq_true.mpr (h word hword)]
  rfl

/-- The tokens of written pairs are digits. -/
theorem isDigit_of_mem_pairTokens {pairs : List CoordinatePair}
    (h : ∀ pair ∈ pairs, pair.IsWritten) :
    ∀ token ∈ pairTokens pairs, ∀ c ∈ token, c.isDigit = true := by
  intro token htoken
  obtain ⟨pair, hpair, hmem⟩ := List.mem_flatMap.mp htoken
  have hwritten := h pair hpair
  unfold CoordinatePair.tokens at hmem
  split at hmem
  · rw [List.mem_singleton.mp hmem]
    exact hwritten.packed_digits
  · rcases List.mem_cons.mp hmem with rfl | hmem
    · exact hwritten.lat_digits
    · rw [List.mem_singleton.mp hmem]
      exact hwritten.lon_digits

/-- **Blocks.**  A printed polygon is one block with all its tokens. -/
theorem findLatlonCandidates_printed (hrange : ∀ p ∈ points, p.InRange)
    (hprinted : IsPrinted points text) : ∃ raw, findLatlonCandidates text = some [raw] ∧
      Str.splitWhitespace raw = MARKER :: pairTokens (points.map PrintedPoint.pair) := by
  obtain ⟨behind, rfl⟩ := hprinted.marker
  have hlines : ∃ t others, Str.lines (MARKER ++ behind) = (MARKER ++ t) :: others := by
    rw [Str.lines, Str.linesFrom_append_piece (by decide), List.nil_append]
    simpa using Str.exists_linesFrom_eq_cons (show MARKER ≠ [] by decide) (by decide) [] behind
  obtain ⟨t, others, hlines⟩ := hlines
  have hwords := Str.flatMap_splitWhitespace_lines (MARKER ++ behind)
  rw [hprinted.words, hlines, List.flatMap_cons] at hwords
  have hne : Str.splitWhitespace (MARKER ++ t) ≠ [] := by
    have hmem : 'L' ∈ MARKER ++ t := List.mem_append_left _ (by decide)
    obtain ⟨word, hword, -⟩ := Str.exists_word_of_mem hmem (by decide)
    exact List.ne_nil_of_mem hword
  obtain ⟨first, front, hfirst⟩ := List.exists_cons_of_ne_nil hne
  rw [hfirst, List.cons_append, List.cons.injEq] at hwords
  obtain ⟨rfl, htokens⟩ := hwords
  have hwritten : ∀ pair ∈ points.map PrintedPoint.pair, pair.IsWritten := by
    intro pair hpair
    obtain ⟨p, hp, rfl⟩ := List.mem_map.mp hpair
    exact (hrange p hp).isWritten
  -- behind the first line there are coordinates only
  have hcontinues : ∀ line ∈ others, rules.stops (Str.trim line) = false := by
    intro line hline
    have hdigits : ∀ word ∈ Str.splitWhitespace (Str.trim line), ∀ c ∈ word, c.isDigit = true := by
      intro word hword
      rw [Str.splitWhitespace_trim] at hword
      refine isDigit_of_mem_pairTokens hwritten word ?_
      rw [← htokens]
      exact List.mem_append_right _ (List.mem_flatMap.mpr ⟨line, hline, hword⟩)
    refine rules.stops_eq_false (hprinted.lines line ?_) (find_marker_eq_none hdigits)
      (looksLikeCoordinateLine_of_digits hdigits)
    rw [hlines]
    exact List.mem_cons_of_mem _ hline
  obtain ⟨hlength, hcollected⟩ :=
    rules.collectLines_of_not_stops (Str.trim (MARKER ++ t)) hcontinues
  have hfind : asciiFindCaseInsensitive (MARKER ++ t) rules.marker = some 0 := rules.find_marker t
  have hcollect : rules.collect (MARKER ++ t) others =
      some (rules.collectLines (Str.trim (MARKER ++ t)) others) := by
    have hslice : Str.sliceFrom 0 (MARKER ++ t) = some (MARKER ++ t) := Str.sliceFrom_append [] _
    rw [MarkerRules.collect, hfind, Option.getD_some, hslice]
    rfl
  refine ⟨(rules.collectLines (Str.trim (MARKER ++ t)) others).1, ?_, ?_⟩
  · have hstarts : rules.starts (MARKER ++ t) = true := by
      rw [MarkerRules.starts, hfind]
      rfl
    rw [findLatlonCandidates, hlines, Lines.scan, if_pos hstarts, collectLatlonCandidate, hcollect]
    simp [hlength, Lines.scan]
  · rw [hcollected, Str.splitWhitespace_trim, hfirst, List.cons_append, htokens]

/-- The block of a printed polygon makes a polygon of its points. -/
theorem parseLatlonPolygons_printed (hcount : 3 ≤ points.length)
    (hrange : ∀ p ∈ points, p.InRange) (hprinted : IsPrinted points text) : ∃ raw,
      findLatlonCandidates text = some [raw] ∧
      parseLatlonPolygonsWithIssues (F := Number) text =
        some ((polygonOf (Str.trim raw) (.ok (points.map PrintedPoint.point), [])).1.toList,
          (polygonOf (Str.trim raw) (.ok (points.map PrintedPoint.point), [])).2) := by
  obtain ⟨raw, hcandidates, hwords⟩ := findLatlonCandidates_printed hrange hprinted
  have hwritten : ∀ pair ∈ points.map PrintedPoint.pair, pair.IsWritten := by
    intro pair hpair
    obtain ⟨p, hp, rfl⟩ := List.mem_map.mp hpair
    exact (hrange p hp).isWritten
  have hpoints : (points.map PrintedPoint.pair).map pointOf = points.map PrintedPoint.point := by
    rw [List.map_map]
    exact List.map_congr_left fun p hp => (hrange p hp).pointOf_pair
  have hblock : parseLatlonCandidate (F := Number) raw =
      some (polygonOf (Str.trim raw) (.ok (points.map PrintedPoint.point), [])) := by
    rw [parseLatlonCandidate_eq (by rw [Str.splitWhitespace_trim, hwords]) (by decide),
      tokenPoints_pairs hwritten (by rwa [List.length_map]), hpoints]
    rfl
  refine ⟨raw, hcandidates, ?_⟩
  rw [parseLatlonPolygonsWithIssues, hcandidates]
  simp only [Option.bind_eq_bind, Option.bind_some, List.mapM_cons, List.mapM_nil, hblock]
  generalize polygonOf (Str.trim raw) (.ok (points.map PrintedPoint.point), []) = found
  rcases found with ⟨_ | polygon, issues⟩ <;> simp

/-- **Round trip.**  A printed polygon is read back, unless it crosses itself. -/
theorem latlon_round_trip (points : List PrintedPoint) (text : Str) (hcount : 3 ≤ points.length)
    (hrange : ∀ p ∈ points, p.InRange) (hprinted : IsPrinted points text) :
    let ring := closeRing (points.map PrintedPoint.point)
    ∃ raw, parseLatlonPolygonsWithIssues (F := Number) text =
      some (if 4 < ring.length ∧ hasSelfIntersection ring = true then
        ([], [selfIntersectionIssue raw])
      else ([⟨ring, formatPolygonWkt ring⟩], [])) := by
  intro ring
  obtain ⟨raw, -, hparse⟩ := parseLatlonPolygons_printed hcount hrange hprinted
  refine ⟨Str.trim raw, ?_⟩
  rw [hparse, polygonOf]
  simp only [Except.bind]
  rw [validatePolygon_points hcount]
  split_ifs <;> rfl

/-- A triangle whose second point has lost the first digit of its longitude, on two lines. -/
theorem latlon_round_trip_triangle : ∃ polygon : LatLonPolygon Number,
    parseLatlonPolygonsWithIssues "LAT...LON 4000 9800\n 41000800 4200 09900".toList =
      some ([polygon], []) ∧
    polygon.points = [(.finite 40, .finite (-98)), (.finite 41, .finite (-108)),
      (.finite 42, .finite (-99)), (.finite 40, .finite (-98))] := by
  have hrange : ∀ p ∈ [(⟨4000, 9800, .four⟩ : PrintedPoint), ⟨4100, 10800, .packed⟩,
      ⟨4200, 9900, .five⟩], p.InRange := by
    intro p hp
    simp only [List.mem_cons, List.not_mem_nil, or_false] at hp
    rcases hp with rfl | rfl | rfl <;> exact ⟨by decide, by decide, by decide⟩
  obtain ⟨raw, hparse⟩ := latlon_round_trip _ "LAT...LON 4000 9800\n 41000800 4200 09900".toList
    (by decide) hrange ⟨by decide, by decide, by decide⟩
  rw [if_neg (by decide +kernel)] at hparse
  exact ⟨_, hparse, by decide +kernel⟩

end Parser.LatLon
