/-
# Outlooks on the map

The points of an outlook are the tokens of eight digits of a `LAT...LON` block: a longitude from 100
degrees west on is printed without its first digit.  `parse_coordinate` of `body/latlon.rs` restores
the digit; the copy in `specialized/spc_outlook.rs` does not.  So the two place a polygon alike
exactly if no longitude of it has lost its digit (`same_places_iff`).  The rest of a printed outlook
is read back as it is printed (`outlook_round_trip`).
-/
import Emwin.Parser.LatLonRoundTrip
import Emwin.Parser.SpcOutlook

namespace Parser.SpcOutlook

open Calendar Floats LatLon

/-! ## Printing -/

/-- A point as it is packed: hundredths of degrees north and west, four digits each. -/
structure PackedPoint where
  lat : ℕ
  lon : ℕ
  lat_le : lat ≤ 9000
  lon_lt : lon < 10000

/-- The token of a point. -/
def PackedPoint.token (p : PackedPoint) : Str := padded 4 p.lat ++ padded 4 p.lon

/-- The point with the longitude that is printed. -/
def PackedPoint.unrestored (p : PackedPoint) : PrintedPoint := ⟨p.lat, p.lon, .packed⟩

/-- The point whose longitude has lost its first digit, if less than 40 degrees are printed. -/
def PackedPoint.restored (p : PackedPoint) : PrintedPoint :=
  ⟨p.lat, if p.lon < 4000 then p.lon + 10000 else p.lon, .packed⟩

/-- The tokens of groups of points, with separators between the groups. -/
def groupTokens (groups : List (List PackedPoint)) : List Str :=
  List.intercalate [SEPARATOR] (groups.map fun group => group.map PackedPoint.token)

/-- A text is a marker with the tokens of a group, on lines that are not blank. -/
structure AfterMarker (group : List PackedPoint) (text : Str) : Prop where
  marker : MARKER <+: text
  words : Str.splitWhitespace text = MARKER :: group.map PackedPoint.token
  lines : ∀ line ∈ Str.lines text, Str.trim line ≠ []

/-- A polygon has the points that `LAT...LON` finds in the same tokens, if it accepts them. -/
def PlacedAlike (group : List PackedPoint) (polygon : LatLonPolygon Number) : Prop :=
  ∀ text found issues, AfterMarker group text →
    parseLatlonPolygonsWithIssues text = some (found, issues) →
      ∀ other ∈ found, polygon.points = other.points

/-- The outlook has a polygon for each group of at least three points, and they are placed alike. -/
def SamePlaces (groups : List (List PackedPoint)) (rawPoints : Str) : Prop :=
  ∃ polygons, parsePolygonTokens rawPoints = some polygons ∧
    List.Forall₂ PlacedAlike (groups.filter fun group => 3 ≤ group.length) polygons

/-- The ring of the restored points crosses itself, so that `LAT...LON` refuses it. -/
def CrossesItself (group : List PackedPoint) : Prop :=
  4 < (closeRing (group.map fun p => p.restored.point)).length ∧
    hasSelfIntersection (closeRing (group.map fun p => p.restored.point)) = true

instance (group : List PackedPoint) : Decidable (CrossesItself group) :=
  inferInstanceAs (Decidable (_ ∧ _))

variable {p : PackedPoint} {group : List PackedPoint} {groups : List (List PackedPoint)}
  {text rawPoints : Str}

/-! ## Tokens -/

namespace PackedPoint

theorem length_lat (p : PackedPoint) : (padded 4 p.lat).length = 4 :=
  Str.length_padded (by decide) (lt_of_le_of_lt p.lat_le (by decide))

theorem length_lon (p : PackedPoint) : (padded 4 p.lon).length = 4 :=
  Str.length_padded (by decide) p.lon_lt

theorem isDigit_of_mem_token {c : Char} (h : c ∈ p.token) : c.isDigit = true :=
  (List.mem_append.mp h).elim Str.isDigit_of_mem_padded Str.isDigit_of_mem_padded

theorem isPoint_token (p : PackedPoint) : isPoint p.token = true := by
  have hdigits : ∀ c ∈ p.token, c.isDigit = true := fun _ => isDigit_of_mem_token
  have hlen : Str.byteLen p.token = 8 := by
    rw [Str.byteLen_of_ascii (Str.isAscii_of_isDigit hdigits), token, List.length_append,
      p.length_lat, p.length_lon]
  rw [isPoint, hlen, List.all_eq_true.mpr hdigits]
  rfl

/-- No latitude is printed as the separator begins. -/
theorem token_ne_separator (p : PackedPoint) : p.token ≠ SEPARATOR := by
  intro h
  have hfront : (padded 4 p.lat ++ padded 4 p.lon).take 4 = SEPARATOR.take 4 :=
    congrArg (List.take 4) h
  rw [List.take_left' p.length_lat] at hfront
  have hvalue := congrArg Str.digitsValue hfront
  rw [Str.digitsValue_padded] at hvalue
  have hlat := p.lat_le
  -- a latitude is at most 90 degrees
  have hseparator : Str.digitsValue (SEPARATOR.take 4) = 9999 := by decide
  omega

theorem isWord_token (p : PackedPoint) : Str.IsWord p.token := by
  constructor
  · intro h
    have hlen := congrArg List.length h
    rw [token, List.length_append, p.length_lat] at hlen
    simp at hlen
  · exact fun c hc => Str.isWhitespace_of_isDigit (isDigit_of_mem_token hc)

/-- Restored points are in the range of what `LAT...LON` reads back. -/
theorem inRange_restored (p : PackedPoint) : p.restored.InRange where
  lat := p.lat_le
  lon := by
    have hlon := p.lon_lt
    unfold restored
    dsimp only
    split_ifs <;> omega
  layout := by
    have hlon := p.lon_lt
    refine Or.inr ?_
    unfold restored
    dsimp only
    split_ifs <;> omega

/-- Restored points are printed as the same token. -/
theorem tokens_restored (p : PackedPoint) : p.restored.pair.tokens = [p.token] := by
  have hlon : (if p.restored.lon < 10000 then p.restored.lon else p.restored.lon - 10000) =
      p.lon := by
    have := p.lon_lt
    unfold restored
    dsimp only
    split_ifs <;> omega
  have hpacked : p.restored.pair.packed = true := rfl
  rw [CoordinatePair.tokens, if_pos hpacked, PrintedPoint.pair]
  have hlayout : p.restored.layout ≠ .five := by
    rintro ⟨⟩
  dsimp only
  rw [if_neg hlayout, hlon]
  rfl

/-- Restoring changes a point exactly if its longitude has lost a digit. -/
theorem point_restored_iff (p : PackedPoint) :
    p.unrestored.point = p.restored.point ↔ 4000 ≤ p.lon := by
  have hne : ((p.lon + 10000 : ℕ) : ℚ) ≠ p.lon := by
    exact_mod_cast (show p.lon + 10000 ≠ p.lon by omega)
  rw [PrintedPoint.point, PrintedPoint.point, unrestored, restored]
  dsimp only
  split_ifs with hlow
  · refine iff_of_false (fun h => hne ?_) (by omega)
    have hlon := Number.finite.inj (Prod.ext_iff.mp h).2
    linarith
  · exact iff_of_true rfl (by omega)

end PackedPoint

/-! ## Outlooks -/

/-- The points of tokens are those that are printed. -/
theorem buildPoints_tokens (group : List PackedPoint) :
    buildPoints (group.map PackedPoint.token) =
      some (some (group.map fun p => p.unrestored.point)) := by
  induction group with
  | nil => rfl
  | cons p group ih =>
      have hto : Str.sliceTo 4 p.token = some (padded 4 p.lat) := by
        rw [(slices_of_isPoint p.isPoint_token).1, PackedPoint.token, List.take_left' p.length_lat]
      have hfrom : Str.sliceFrom 4 p.token = some (padded 4 p.lon) := by
        rw [(slices_of_isPoint p.isPoint_token).2, PackedPoint.token, List.drop_left' p.length_lat]
      have hlat : (parse (padded 4 p.lat) : Option Number) = some (.finite p.lat) := by
        rw [Number.parse_of_digits Str.padded_ne_nil fun _ => Str.isDigit_of_mem_padded,
          Str.digitsValue_padded]
      have hlon : (parse (padded 4 p.lon) : Option Number) = some (.finite p.lon) := by
        rw [Number.parse_of_digits Str.padded_ne_nil fun _ => Str.isDigit_of_mem_padded,
          Str.digitsValue_padded]
      rw [List.map_cons, buildPoints, hto, hfrom, ih, Option.map_some, Option.map_some, hlat, hlon]
      simp only [andThen, Number.finite_div_const _ (show (100 : ℕ) ≠ 0 by decide)]
      rfl

/-- The polygon of a group, with the longitudes that are printed. -/
def outlookPolygon (group : List PackedPoint) : LatLonPolygon Number :=
  let ring := closeRing (group.map fun p => p.unrestored.point)
  ⟨ring, LatLon.formatPolygonWkt ring⟩

/-- A group makes a polygon if it has at least three points. -/
theorem buildPolygon_tokens (group : List PackedPoint) :
    buildPolygon (group.map PackedPoint.token) =
      some (if 3 ≤ group.length then some (outlookPolygon group) else none) := by
  rw [buildPolygon, List.length_map, buildPoints_tokens]
  by_cases hcount : 3 ≤ group.length
  · have hne : group.map PackedPoint.unrestored ≠ [] :=
      List.ne_nil_of_length_pos (by rw [List.length_map]; omega)
    have hring := closed_points hne
    rw [List.map_map] at hring
    rw [if_neg (by omega), if_pos hcount, outlookPolygon]
    show some (some (LatLonPolygon.mk (closed _) (LatLon.formatPolygonWkt (closed _)))) = _
    rw [show (group.map fun p => p.unrestored.point) =
      group.map (PrintedPoint.point ∘ PackedPoint.unrestored) from rfl, hring]
  · rw [if_pos (by omega), if_neg hcount]

/-- Points are collected up to the next separator. -/
theorem polygonsFrom_tokens (polygons : List (LatLonPolygon Number)) (current : List Str)
    (group : List PackedPoint) (tokens : List Str) :
    polygonsFrom polygons current (group.map PackedPoint.token ++ tokens) =
      polygonsFrom polygons (current ++ group.map PackedPoint.token) tokens := by
  induction group generalizing current with
  | nil => rw [List.map_nil, List.append_nil, List.nil_append]
  | cons p group ih =>
      rw [List.map_cons, List.cons_append, polygonsFrom, if_neg p.token_ne_separator,
        if_pos p.isPoint_token, ih, List.append_assoc, List.singleton_append]

/-- **Groups.**  Each group of at least three points makes a polygon. -/
theorem polygonsFrom_groupTokens (polygons : List (LatLonPolygon Number))
    (groups : List (List PackedPoint)) :
    polygonsFrom polygons [] (groupTokens groups) =
      some (polygons ++ (groups.filter fun group => 3 ≤ group.length).map outlookPolygon) := by
  induction groups generalizing polygons with
  | nil => simp [groupTokens, polygonsFrom, buildPolygon]
  | cons group groups ih =>
      have hpolygon : (if 3 ≤ group.length then some (outlookPolygon group) else none).toList =
          ([group].filter fun group => 3 ≤ group.length).map outlookPolygon := by
        by_cases hcount : 3 ≤ group.length <;> simp [hcount]
      by_cases hlast : groups = []
      · -- behind the last group there is no separator
        have htokens := polygonsFrom_tokens polygons [] group []
        rw [List.append_nil, List.nil_append] at htokens
        rw [hlast, groupTokens, List.map_singleton, List.intercalate_singleton, htokens,
          polygonsFrom, buildPolygon_tokens, Option.map_some, hpolygon]
      · rw [groupTokens, List.map_cons, List.intercalate_cons_of_ne_nil (by simpa using hlast),
          List.append_assoc, polygonsFrom_tokens, List.nil_append, List.singleton_append,
          polygonsFrom, if_pos rfl, buildPolygon_tokens]
        simp only [Option.bind_eq_bind, Option.bind_some, hpolygon]
        rw [← groupTokens, ih, List.append_assoc, ← List.map_append, ← List.filter_append,
          List.singleton_append]

/-! ## The same tokens behind a marker -/

/-- The tokens behind a marker are those of the restored points. -/
theorem AfterMarker.isPrinted (h : AfterMarker group text) :
    IsPrinted (group.map PackedPoint.restored) text where
  marker := h.marker
  words := by
    have htokens : ∀ group : List PackedPoint,
        pairTokens ((group.map PackedPoint.restored).map PrintedPoint.pair) =
          group.map PackedPoint.token := by
      intro group
      induction group with
      | nil => rfl
      | cons p group ih =>
          rw [List.map_cons, List.map_cons, pairTokens, List.flatMap_cons, p.tokens_restored,
            List.map_cons, ← ih]
          rfl
    rw [htokens]
    exact h.words
  lines := h.lines

/-- There is such a text, on one line. -/
theorem exists_afterMarker (group : List PackedPoint) : ∃ text, AfterMarker group text := by
  have hwords : ∀ word ∈ MARKER :: group.map PackedPoint.token, Str.IsWord word := by
    refine List.forall_mem_cons.mpr ⟨by decide, ?_⟩
    simpa using fun p _ => PackedPoint.isWord_token p
  have hmarker : MARKER <+: Str.unwords (MARKER :: group.map PackedPoint.token) := by
    by_cases hnil : group.map PackedPoint.token = []
    · rw [hnil, Str.unwords_singleton]
    · rw [Str.unwords_cons _ hnil]
      exact List.prefix_append _ _
  have hfeed : '\n' ∉ Str.unwords (MARKER :: group.map PackedPoint.token) := by
    intro h
    rcases Str.mem_intercalate h with h | ⟨word, hword, hc⟩
    · exact absurd h (by decide)
    · exact absurd ((hwords word hword).2 _ hc) (by decide)
  refine ⟨_, hmarker, Str.splitWhitespace_unwords hwords, fun line hline => ?_⟩
  rw [Str.lines, Str.linesFrom_line hfeed (Str.unwords_ne_nil (List.cons_ne_nil _ _) hwords),
    List.nil_append, List.mem_singleton] at hline
  intro hblank
  -- a blank line has no words, and this one has the marker
  have hnone := Str.splitWhitespace_trim (Str.unwords (MARKER :: group.map PackedPoint.token))
  rw [← hline, hblank, hline, Str.splitWhitespace_unwords hwords] at hnone
  cases hnone

/-- **LAT...LON.**  At least three tokens are read as their restored points, unless these cross
themselves. -/
theorem parseLatlonPolygons_afterMarker (hcount : 3 ≤ group.length) (h : AfterMarker group text) :
    ∃ found issues, parseLatlonPolygonsWithIssues (F := Number) text = some (found, issues) ∧
      found.map LatLonPolygon.points =
        if CrossesItself group then [] else [closeRing (group.map fun p => p.restored.point)] := by
  obtain ⟨raw, hfound⟩ := latlon_round_trip (group.map PackedPoint.restored) text
    (by rwa [List.length_map])
    (by simpa using fun p _ => PackedPoint.inRange_restored p) h.isPrinted
  rw [List.map_map] at hfound
  split_ifs at hfound with hcrosses
  · refine ⟨_, _, hfound, ?_⟩
    rw [if_pos (show CrossesItself group from hcrosses)]
    rfl
  · refine ⟨_, _, hfound, ?_⟩
    rw [if_neg (show ¬CrossesItself group from hcrosses)]
    rfl

/-- Rings are equal only if their points are. -/
theorem closeRing_inj {points others : List (Number × Number)}
    (hlength : points.length = others.length) :
    closeRing points = closeRing others ↔ points = others := by
  have htake : ∀ points, (closeRing points).take points.length = points := by
    intro points
    unfold closeRing
    split_ifs
    · exact List.take_length
    · exact List.take_left
  refine ⟨fun h => ?_, congrArg _⟩
  rw [← htake points, h, hlength, htake]

/-- The points of an outlook are those that `LAT...LON` restores exactly if no digit was lost. -/
theorem points_outlookPolygon_iff (group : List PackedPoint) :
    (outlookPolygon group).points = closeRing (group.map fun p => p.restored.point) ↔
      ∀ p ∈ group, 4000 ≤ p.lon := by
  rw [outlookPolygon, closeRing_inj (by simp), List.map_inj_left]
  exact forall₂_congr fun p _ => p.point_restored_iff

/-- **One group.**  A group is placed alike exactly if it has all its digits, or is refused. -/
theorem placedAlike_iff (hcount : 3 ≤ group.length) :
    PlacedAlike group (outlookPolygon group) ↔
      (∀ p ∈ group, 4000 ≤ p.lon) ∨ CrossesItself group := by
  rw [← points_outlookPolygon_iff]
  constructor
  · intro halike
    -- there is such a text, so what is asked of all of them is asked of one
    obtain ⟨text, htext⟩ := exists_afterMarker group
    obtain ⟨found, issues, hparse, hpoints⟩ := parseLatlonPolygons_afterMarker hcount htext
    by_cases hcrosses : CrossesItself group
    · exact Or.inr hcrosses
    · rw [if_neg hcrosses, List.map_eq_singleton_iff] at hpoints
      obtain ⟨other, hfound, hother⟩ := hpoints
      have hsame := halike text found issues htext hparse other
        (hfound ▸ List.mem_singleton_self other)
      exact Or.inl (hsame.trans hother)
  · intro h text found issues htext hparse other hother
    obtain ⟨found', issues', hparse', hpoints⟩ := parseLatlonPolygons_afterMarker hcount htext
    obtain ⟨rfl, rfl⟩ := Prod.mk.inj (Option.some.inj (hparse.symm.trans hparse'))
    have hmem := List.mem_map_of_mem (f := LatLonPolygon.points) hother
    rw [hpoints] at hmem
    split_ifs at hmem with hcrosses
    · cases hmem
    · rw [h.resolve_right hcrosses, List.mem_singleton.mp hmem]

/-- Tokens are read as the polygons of their groups. -/
theorem parsePolygonTokens_of_tokens {groups : List (List PackedPoint)} {rawPoints : Str}
    (hprinted : Str.splitWhitespace rawPoints = groupTokens groups) :
    parsePolygonTokens rawPoints =
      some ((groups.filter fun group => 3 ≤ group.length).map outlookPolygon) := by
  rw [parsePolygonTokens, hprinted, polygonsFrom_groupTokens, List.nil_append]

/-- The polygons of groups are placed alike if each is. -/
theorem forall₂_placedAlike_iff (groups : List (List PackedPoint)) :
    List.Forall₂ PlacedAlike (groups.filter fun group => 3 ≤ group.length)
        ((groups.filter fun group => 3 ≤ group.length).map outlookPolygon) ↔
      ∀ group ∈ groups, 3 ≤ group.length → PlacedAlike group (outlookPolygon group) := by
  rw [List.forall₂_map_right_iff, List.forall₂_same]
  simp only [List.mem_filter, decide_eq_true_eq, and_imp]

/-- The polygons of an outlook are those of its groups. -/
theorem samePlaces_iff_forall (hprinted : Str.splitWhitespace rawPoints = groupTokens groups) :
    SamePlaces groups rawPoints ↔ ∀ group ∈ groups, 3 ≤ group.length →
      PlacedAlike group (outlookPolygon group) := by
  have hparse := parsePolygonTokens_of_tokens hprinted
  have hsame : SamePlaces groups rawPoints ↔
      List.Forall₂ PlacedAlike (groups.filter fun group => 3 ≤ group.length)
        ((groups.filter fun group => 3 ≤ group.length).map outlookPolygon) := by
    constructor
    · rintro ⟨polygons, hpolygons, halike⟩
      rwa [Option.some.inj (hparse.symm.trans hpolygons)]
    · exact fun halike => ⟨_, hparse, halike⟩
  rw [hsame, forall₂_placedAlike_iff]

/-- **Same places.**  An outlook places its polygons where `LAT...LON` places them exactly if each
is printed with all its digits, or crosses itself and is refused there. -/
theorem same_places_iff (groups : List (List PackedPoint)) (rawPoints : Str)
    (hprinted : Str.splitWhitespace rawPoints = groupTokens groups) :
    SamePlaces groups rawPoints ↔ ∀ group ∈ groups, 3 ≤ group.length →
      (∀ p ∈ group, 4000 ≤ p.lon) ∨ CrossesItself group := by
  rw [samePlaces_iff_forall hprinted]
  exact forall₂_congr fun group _ => forall_congr' placedAlike_iff

/-- A polygon with all its digits, and behind a separator a point without its first. -/
theorem same_places_iff_kansas :
    SamePlaces [[⟨3941, 9768, by decide, by decide⟩, ⟨3981, 9865, by decide, by decide⟩,
      ⟨4074, 9901, by decide, by decide⟩], [⟨4906, 1987, by decide, by decide⟩]]
      "39419768 39819865 40749901 99999999\n49061987".toList :=
  (same_places_iff _ _ (by decide)).mpr (by simp)

/-- Three points at 119 degrees west are placed at 19 degrees west. -/
theorem outlook_in_the_atlantic :
    ¬∀ (groups : List (List PackedPoint)) (rawPoints : Str),
      Str.splitWhitespace rawPoints = groupTokens groups → SamePlaces groups rawPoints := by
  intro h
  have hsame := h [[⟨4906, 1987, by decide, by decide⟩, ⟨4845, 1952, by decide, by decide⟩,
    ⟨4776, 1927, by decide, by decide⟩]] "49061987 48451952 47761927".toList (by decide)
  have halike := (samePlaces_iff_forall (by decide)).mp hsame _ List.mem_cons_self (by decide)
  rcases (placedAlike_iff (by decide)).mp halike with hdigits | hcrosses
  · exact absurd (hdigits _ List.mem_cons_self) (by decide)
  · exact absurd hcrosses (by decide +kernel)

/-! ## Printed outlooks -/

/-- An area as it is printed: a line with the threshold, and the tokens of its groups on the rest of
this line and on lines of their own. -/
structure PrintedArea where
  threshold : Str
  groups : List (List PackedPoint)
  first : Str
  behind : Str
  rows : List Str
  isThreshold : IsThreshold threshold
  first_eq : Str.trim first = threshold ++ behind
  spaced : ∀ c ∈ behind.head?, Str.isWhitespace c = true
  words : Str.splitWhitespace behind ++ rows.flatMap Str.splitWhitespace = groupTokens groups

def PrintedArea.lines (area : PrintedArea) : List Str := area.first :: area.rows

/-- What is read of an area: its threshold, with the polygons of its groups. -/
def PrintedArea.read (category : Str) (area : PrintedArea) : SpcOutlookArea Number :=
  ⟨category, area.threshold,
    (area.groups.filter fun group => 3 ≤ group.length).map outlookPolygon⟩

/-- A category as it is printed: its name between dots, the areas below it, and the end of their
points, with other lines in front of the name and of the areas. -/
structure PrintedCategory (isWord : Char → Bool) where
  name : Str
  areas : List PrintedArea
  heading : List Str
  line : Str
  notes : List Str
  stop : Str
  heading_notes : ∀ note ∈ heading, IsNote isWord note
  name_ne_nil : name ≠ []
  name_letters : ∀ c ∈ name, c.isUpper = true ∨ c = ' '
  line_eq : ∃ between, Str.trim line = "...".toList ++ between ++ "...".toList ∧
    Str.trim between = name
  notes_notes : ∀ note ∈ notes, IsNote isWord note
  stop_eq : Str.trim stop = "&&".toList

variable {isWord : Char → Bool}

def PrintedCategory.lines (category : PrintedCategory isWord) : List Str :=
  category.heading ++ category.line ::
    (category.notes ++ (category.areas.flatMap PrintedArea.lines ++ [category.stop]))

/-- What is read of a category: its areas, with its name. -/
def PrintedCategory.read (category : PrintedCategory isWord) : List (SpcOutlookArea Number) :=
  category.areas.map (PrintedArea.read category.name)

/-- The polygons of an area are placed as `LAT...LON` places them. -/
def PrintedArea.Placed (area : PrintedArea) (found : SpcOutlookArea Number) : Prop :=
  List.Forall₂ PlacedAlike (area.groups.filter fun group => 3 ≤ group.length) found.polygons

/-- The name of a category is found between its dots. -/
theorem PrintedCategory.categoryName_line (category : PrintedCategory isWord) :
    categoryName (Str.trim category.line) = some category.name := by
  obtain ⟨between, hline, hbetween⟩ := category.line_eq
  have hall : (category.name.all fun c => c.isUpper || c = ' ') = true := by
    rw [List.all_eq_true]
    intro c hc
    simpa using category.name_letters c hc
  rw [categoryName, hline, List.append_assoc, Str.stripPrefix_append, Option.bind_some,
    Str.stripSuffix_append, Option.bind_some]
  dsimp only
  rw [hbetween, if_pos category.name_ne_nil, if_pos hall]

/-- The line of a threshold is neither a category nor the end of points. -/
theorem PrintedArea.first_spec (area : PrintedArea)
    (hspace : ∀ c, Str.isWhitespace c = true → isWord c = false) :
    categoryName (Str.trim area.first) = none ∧ Str.trim area.first ≠ "&&".toList ∧
      thresholdOf isWord (Str.trim area.first) = some (area.threshold, area.behind) := by
  have hfound := thresholdOf_append area.isThreshold fun c hc => hspace c (area.spaced c hc)
  obtain ⟨c, rest, hthreshold, hc⟩ := area.isThreshold.head
  rw [area.first_eq]
  refine ⟨categoryName_of_noDots fun hdots => ?_, fun hstop => ?_, hfound⟩
  · rw [hthreshold] at hdots
    obtain rfl : '.' = c := (List.cons_prefix_cons.mp hdots).1
    exact absurd hc (by decide)
  · rw [hthreshold] at hstop
    obtain rfl : c = '&' := (List.cons.inj hstop).1
    exact absurd hc (by decide)

/-- The tokens of groups are digits. -/
theorem isDigit_of_mem_groupTokens {groups : List (List PackedPoint)} {token : Str}
    (htoken : token ∈ groupTokens groups) {c : Char} (hc : c ∈ token) : c.isDigit = true := by
  rcases Str.mem_intercalate htoken with rfl | ⟨tokens, htokens, hmem⟩
  · exact List.all_eq_true.mp (show SEPARATOR.all Char.isDigit = true by decide) c hc
  · obtain ⟨group, -, rfl⟩ := List.mem_map.mp htokens
    obtain ⟨p, -, rfl⟩ := List.mem_map.mp hmem
    exact PackedPoint.isDigit_of_mem_token hc

/-- The lines below a threshold are rows. -/
theorem PrintedArea.isRow (area : PrintedArea) {row : Str} (hrow : row ∈ area.rows) :
    IsRow row := by
  intro c hc
  by_cases hspace : Str.isWhitespace c = true
  · exact Or.inr hspace
  · obtain ⟨token, htoken, hmem⟩ := Str.exists_word_of_mem hc (Bool.eq_false_iff.mpr hspace)
    have hprinted : token ∈ groupTokens area.groups := by
      rw [← area.words]
      exact List.mem_append_right _ (List.mem_flatMap.mpr ⟨row, hrow, htoken⟩)
    exact Or.inl (isDigit_of_mem_groupTokens hprinted hmem)

/-! ## Areas -/

/-- An area below a category is read, and what is behind its points follows. -/
theorem areasFrom_area (hspace : ∀ c, Str.isWhitespace c = true → isWord c = false)
    (category : Str) (area : PrintedArea) (lines : List Str)
    (hpoints : (takePoints isWord lines).1 = []) :
    (areasFrom isWord (some category) (area.lines ++ lines) :
      Option (List (SpcOutlookArea Number))) =
        (areasFrom isWord (some category) (takePoints isWord lines).2).map
          (area.read category :: ·) := by
  obtain ⟨hcategory, hstop, hthreshold⟩ := area.first_spec hspace
  -- the words of the joined lines are the tokens of the area
  have hwords : Str.splitWhitespace
      (Str.unwords (Str.trim area.behind :: area.rows.map Str.trim)) = groupTokens area.groups := by
    rw [Str.splitWhitespace_unwords_flatMap, List.flatMap_cons, Str.splitWhitespace_trim,
      List.flatMap_map, ← area.words]
    congr 1
    exact List.flatMap_congr fun row _ => Str.splitWhitespace_trim row
  rw [PrintedArea.lines, List.cons_append, areasFrom.eq_def]
  dsimp only
  rw [hcategory, hthreshold]
  dsimp only
  rw [if_neg hstop, takePoints_append (fun _ => area.isRow), hpoints, List.append_nil,
    parsePolygonTokens_of_tokens hwords, toAsciiUppercase_threshold area.isThreshold]
  cases (areasFrom isWord (some category) (takePoints isWord lines).2 :
    Option (List (SpcOutlookArea Number))) <;> rfl

/-- The areas below a category are read up to the end of the points. -/
theorem areasFrom_areas (hspace : ∀ c, Str.isWhitespace c = true → isWord c = false)
    (category : Str) (areas : List PrintedArea) {stop : Str} (hstop : Str.trim stop = "&&".toList)
    (lines : List Str) :
    (areasFrom isWord (some category) (areas.flatMap PrintedArea.lines ++ stop :: lines) :
      Option (List (SpcOutlookArea Number))) =
        (areasFrom isWord (some category) lines).map
          (areas.map (PrintedArea.read category) ++ ·) := by
  induction areas with
  | nil =>
      rw [List.flatMap_nil, List.nil_append, areasFrom.eq_def]
      dsimp only
      rw [hstop, show categoryName "&&".toList = none from by decide]
      dsimp only
      rw [if_pos rfl]
      exact Option.map_id'.symm
  | cons area areas ih =>
      rw [List.flatMap_cons, List.append_assoc]
      cases areas with
      | nil =>
          -- the points of the last area end with the points of the category
          have htake : takePoints isWord (stop :: lines) = ([], lines) := by
            rw [takePoints, hstop]
            rfl
          rw [areasFrom_area hspace _ _ _ (by rw [List.flatMap_nil, List.nil_append, htake]),
            List.flatMap_nil, List.nil_append, htake]
          rfl
      | cons next areas =>
          -- those of another end in front of the next threshold
          have htake :
              takePoints isWord ((next :: areas).flatMap PrintedArea.lines ++ stop :: lines) =
                ([], (next :: areas).flatMap PrintedArea.lines ++ stop :: lines) := by
            obtain ⟨hcategory, hne, hthreshold⟩ := next.first_spec hspace
            rw [List.flatMap_cons, PrintedArea.lines, List.cons_append, List.cons_append,
              takePoints]
            dsimp only
            rw [if_neg hne, if_pos (by simp [hthreshold])]
          rw [areasFrom_area hspace _ _ _ (by rw [htake]), htake, ih, Option.map_map]
          rfl

/-- The categories are read one after another. -/
theorem areasFrom_categories (hspace : ∀ c, Str.isWhitespace c = true → isWord c = false)
    (before : Option Str) (categories : List (PrintedCategory isWord)) {closing : List Str}
    (hclosing : ∀ note ∈ closing, IsNote isWord note) :
    areasFrom isWord before (categories.flatMap PrintedCategory.lines ++ closing) =
      some (categories.flatMap PrintedCategory.read) := by
  induction categories generalizing before with
  | nil =>
      have hnotes := areasFrom_notes (F := Number) hclosing before []
      rw [List.append_nil] at hnotes
      rw [List.flatMap_nil, List.nil_append, hnotes, areasFrom]
      rfl
  | cons category categories ih =>
      have hname : Str.toAsciiUppercase category.name = category.name := by
        refine Str.toAsciiUppercase_eq_self fun c hc => ?_
        rcases category.name_letters c hc with hupper | rfl
        · rw [Str.isUpper_iff] at hupper
          omega
        · decide
      have hline : ∀ lines, (areasFrom isWord before (category.line :: lines) :
          Option (List (SpcOutlookArea Number))) = areasFrom isWord (some category.name) lines := by
        intro lines
        rw [areasFrom.eq_def]
        dsimp only
        rw [category.categoryName_line]
        dsimp only
        rw [hname]
      rw [List.flatMap_cons, List.append_assoc, PrintedCategory.lines, List.append_assoc,
        areasFrom_notes category.heading_notes, List.cons_append, hline, List.append_assoc,
        areasFrom_notes category.notes_notes, List.append_assoc, List.singleton_append,
        areasFrom_areas hspace _ _ category.stop_eq, ih, Option.map_some, List.flatMap_cons,
        PrintedCategory.read]

/-- **Outlooks.**  Reading an outlook never panics.  One that is printed is read back, each
threshold below its category and with the polygons of its groups; and these are placed where
`LAT...LON` places them exactly if each is printed with all its digits, or is refused there. -/
theorem outlook_round_trip (hspace : ∀ c, Str.isWhitespace c = true → isWord c = false) :
    (∀ text, ∃ areas : List (SpcOutlookArea Number),
      parseOutlookAreas isWord text = some areas) ∧
    ∀ (categories : List (PrintedCategory isWord)) (closing : List Str) (text : Str),
      (∀ note ∈ closing, IsNote isWord note) →
      Str.lines text = categories.flatMap PrintedCategory.lines ++ closing →
      parseOutlookAreas isWord text = some (categories.flatMap PrintedCategory.read) ∧
        ((∀ category ∈ categories,
            List.Forall₂ PrintedArea.Placed category.areas category.read) ↔
          ∀ category ∈ categories, ∀ area ∈ category.areas, ∀ group ∈ area.groups,
            3 ≤ group.length → (∀ p ∈ group, 4000 ≤ p.lon) ∨ CrossesItself group) := by
  constructor
  · intro text
    obtain ⟨areas, hareas, -⟩ := exists_areasFrom (F := Number) isWord none (Str.lines text)
    exact ⟨areas, hareas⟩
  · intro categories closing text hclosing hlines
    constructor
    · rw [parseOutlookAreas, hlines, areasFrom_categories hspace none categories hclosing]
    · refine forall₂_congr fun category _ => ?_
      rw [PrintedCategory.read, List.forall₂_map_right_iff, List.forall₂_same]
      refine forall₂_congr fun area _ => ?_
      refine (forall₂_placedAlike_iff area.groups).trans ?_
      exact forall₂_congr fun group _ => forall_congr' placedAlike_iff

/-- An area with a probability, on two lines. -/
def tornadoArea : PrintedArea where
  threshold := "0.02".toList
  groups := [[⟨3941, 9768, by decide, by decide⟩, ⟨3981, 9865, by decide, by decide⟩,
    ⟨4074, 9901, by decide, by decide⟩]]
  first := "0.02 39419768 39819865".toList
  behind := " 39419768 39819865".toList
  rows := ["     40749901".toList]
  isThreshold := Or.inr ⟨['0'], '0', '2', by decide, by decide, by decide, by decide, by decide⟩
  first_eq := by decide
  spaced := by
    rintro c ⟨⟩
    decide
  words := by decide

/-- The outlook for tornadoes, behind a heading. -/
def tornadoOutlook : PrintedCategory Char.isAlphanum where
  name := "TORNADO".toList
  areas := [tornadoArea]
  heading := ["PROBABILISTIC OUTLOOK POINTS DAY 1".toList, []]
  line := "... TORNADO ...".toList
  notes := [[]]
  stop := "&&".toList
  heading_notes := by decide
  name_ne_nil := by decide
  name_letters := by decide
  line_eq := ⟨" TORNADO ".toList, by decide, by decide⟩
  notes_notes := by decide
  stop_eq := by decide

theorem outlook_round_trip_tornado :
    ∃ areas : List (SpcOutlookArea Number), parseOutlookAreas Char.isAlphanum
        ("PROBABILISTIC OUTLOOK POINTS DAY 1\n\n... TORNADO ...\n\n" ++
          "0.02 39419768 39819865\n     40749901\n&&\n").toList = some areas ∧
      areas.map SpcOutlookArea.threshold = ["0.02".toList] ∧
      List.Forall₂ PrintedArea.Placed [tornadoArea] areas := by
  have hspace : ∀ c, Str.isWhitespace c = true → Char.isAlphanum c = false := by
    intro c hc
    by_contra halphanum
    rw [Str.isWhitespace_of_isAlphanum (Bool.of_not_eq_false halphanum)] at hc
    cases hc
  obtain ⟨hread, hplaced⟩ := (outlook_round_trip hspace).2 [tornadoOutlook] []
    ("PROBABILISTIC OUTLOOK POINTS DAY 1\n\n... TORNADO ...\n\n" ++
      "0.02 39419768 39819865\n     40749901\n&&\n").toList nofun (by decide)
  refine ⟨_, hread, rfl, hplaced.mpr ?_ tornadoOutlook List.mem_cons_self⟩
  rintro category hcategory area harea group hgroup -
  obtain rfl := List.mem_singleton.mp hcategory
  obtain rfl := List.mem_singleton.mp harea
  obtain rfl := List.mem_singleton.mp hgroup
  exact Or.inl (by decide)

end Parser.SpcOutlook
