/-
# Pairs of coordinates

A point is written as a latitude of four digits and a longitude of four or five, in two tokens
or, if both have four digits, in one.  The parsers of polygons and of storm motions join and
split tokens, and whether one is split depends on how many came before it.  Tokens of such
pairs are never joined, and split exactly where two coordinates are in one.
-/
import Emwin.Parser.LatLon
import Emwin.Parser.TimeMotLoc
import Mathlib.Tactic.Ring

namespace Parser

open Floats

/-! ## Written pairs -/

/-- A latitude and a longitude as they are written. -/
structure CoordinatePair where
  lat : Str
  lon : Str
  /-- Both are in one token. -/
  packed : Bool
  deriving DecidableEq, Repr

/-- The digits of a pair. -/
structure CoordinatePair.IsWritten (pair : CoordinatePair) : Prop where
  lat_digits : ∀ c ∈ pair.lat, c.isDigit = true
  lat_length : pair.lat.length = 4
  lon_digits : ∀ c ∈ pair.lon, c.isDigit = true
  lon_length : pair.lon.length = 4 ∨ pair.lon.length = 5
  packed_length : pair.packed = true → pair.lon.length = 4

/-- The tokens of a pair. -/
def CoordinatePair.tokens (pair : CoordinatePair) : List Str :=
  if pair.packed then [pair.lat ++ pair.lon] else [pair.lat, pair.lon]

/-- The tokens of some pairs. -/
def pairTokens (pairs : List CoordinatePair) : List Str := pairs.flatMap CoordinatePair.tokens

/-- The coordinates of some pairs. -/
def pairCoords (pairs : List CoordinatePair) : List Str :=
  pairs.flatMap fun pair => [pair.lat, pair.lon]

/-- A number of hundredths, in degrees. -/
def degrees (digits : Str) : Number := .finite (Str.digitsValue digits / 100)

variable {pair : CoordinatePair} {pairs : List CoordinatePair} {coord token : Str}

theorem length_pairCoords (pairs : List CoordinatePair) :
    (pairCoords pairs).length = 2 * pairs.length := by
  induction pairs with
  | nil => rfl
  | cons pair pairs ih =>
      rw [pairCoords, List.flatMap_cons, List.length_append, ← pairCoords, ih]
      simp only [List.length_cons, List.length_nil]
      omega

/-- Digits have one byte each. -/
theorem byteLen_of_digits (h : ∀ c ∈ coord, c.isDigit = true) : Str.byteLen coord = coord.length :=
  Str.byteLen_of_ascii (Str.isAscii_of_isDigit h)

/-- Digits have no sign in front. -/
theorem head_ne_minus (h : ∀ c ∈ coord, c.isDigit = true) : coord.head? ≠ some '-' := fun hhead =>
  absurd (h '-' (List.mem_of_head? hhead)) (by decide)

/-- Digits have no signs in front. -/
theorem dropWhile_minus (h : ∀ c ∈ coord, c.isDigit = true) :
    coord.dropWhile (· = '-') = coord := by
  cases coord with
  | nil => rfl
  | cons c coord =>
      have hc : c ≠ '-' := fun heq => head_ne_minus h (congrArg some heq)
      rw [List.dropWhile_cons, if_neg (by simpa using hc)]

/-- A token of four to eight digits is complete. -/
theorem consumeCoordinateToken_of_digits (h : ∀ c ∈ token, c.isDigit = true)
    (hlen : 4 ≤ token.length ∧ token.length ≤ 8) (rest : List Str) :
    consumeCoordinateToken [] (token :: rest) = some (token, rest) := by
  rw [consumeCoordinateToken, List.nil_append, Str.trim_of_digits h, byteLen_of_digits h]
  exact if_pos hlen

/-- The front of two texts of ASCII. -/
theorem sliceTo_four {front back : Str} (h : ∀ c ∈ front, c.isDigit = true)
    (hlen : front.length = 4) : Str.sliceTo 4 (front ++ back) = some front := by
  have hfour : 4 = Str.byteLen front := by rw [byteLen_of_digits h, hlen]
  rw [hfour, Str.sliceTo_append]

theorem sliceFrom_four {front back : Str} (h : ∀ c ∈ front, c.isDigit = true)
    (hlen : front.length = 4) : Str.sliceFrom 4 (front ++ back) = some back := by
  have hfour : 4 = Str.byteLen front := by rw [byteLen_of_digits h, hlen]
  rw [hfour, Str.sliceFrom_append]

namespace CoordinatePair.IsWritten

/-- Both coordinates in one token are eight digits. -/
theorem packed_digits (h : pair.IsWritten) : ∀ c ∈ pair.lat ++ pair.lon, c.isDigit = true := by
  intro c hc
  rcases List.mem_append.mp hc with hc | hc
  · exact h.lat_digits c hc
  · exact h.lon_digits c hc

theorem length_packed (h : pair.IsWritten) (hpacked : pair.packed = true) :
    (pair.lat ++ pair.lon).length = 8 := by
  rw [List.length_append, h.lat_length, h.packed_length hpacked]

/-- A longitude has four or five digits. -/
theorem lon_bounds (h : pair.IsWritten) : 4 ≤ pair.lon.length ∧ pair.lon.length ≤ 5 := by
  have := h.lon_length
  omega

end CoordinatePair.IsWritten

/-! ## Normalizing written pairs -/

/-- A normalization of tokens behind those that have been normalized: it leaves a single
coordinate as it is, and splits a token of two coordinates where a latitude is expected. -/
structure SplitsPairs {γ : Type} (normalize : List Str → List Str → γ) (done : List Str → γ) :
    Prop where
  nil : ∀ normalized, normalize normalized [] = done normalized
  single : ∀ token normalized rest, (∀ c ∈ token, c.isDigit = true) →
    4 ≤ token.length ∧ token.length ≤ 5 →
    normalize normalized (token :: rest) = normalize (normalized ++ [token]) rest
  packed : ∀ pair : CoordinatePair, pair.IsWritten → pair.packed = true → ∀ normalized rest,
    normalized.length % 2 = 0 →
    normalize normalized ((pair.lat ++ pair.lon) :: rest) =
      normalize (normalized ++ [pair.lat, pair.lon]) rest

/-- **Normalization.**  The coordinates of written pairs are found. -/
theorem SplitsPairs.normalize_pairs {γ : Type} {normalize : List Str → List Str → γ}
    {done : List Str → γ} (hsplits : SplitsPairs normalize done)
    (h : ∀ pair ∈ pairs, pair.IsWritten) {normalized : List Str}
    (heven : normalized.length % 2 = 0) :
    normalize normalized (pairTokens pairs) = done (normalized ++ pairCoords pairs) := by
  induction pairs generalizing normalized with
  | nil =>
      rw [pairCoords, List.flatMap_nil, List.append_nil]
      exact hsplits.nil normalized
  | cons pair pairs ih =>
      obtain ⟨hpair, hrest⟩ := List.forall_mem_cons.mp h
      have hlater : normalize (normalized ++ [pair.lat, pair.lon]) (pairTokens pairs) =
          done (normalized ++ pairCoords (pair :: pairs)) := by
        have hnext : (normalized ++ [pair.lat, pair.lon]).length % 2 = 0 := by
          rw [List.length_append, List.length_cons, List.length_singleton]
          omega
        rw [ih hrest hnext, List.append_assoc]
        rfl
      rw [pairTokens, List.flatMap_cons, CoordinatePair.tokens, ← pairTokens]
      by_cases hpacked : pair.packed = true
      · rw [if_pos hpacked, List.singleton_append, hsplits.packed pair hpair hpacked _ _ heven,
          hlater]
      · rw [if_neg hpacked, List.cons_append, List.singleton_append,
          hsplits.single _ _ _ hpair.lat_digits (by rw [hpair.lat_length]; decide),
          hsplits.single _ _ _ hpair.lon_digits hpair.lon_bounds, List.append_assoc,
          List.cons_append, List.nil_append, hlater]

/-! ## Polygons -/

namespace LatLon

/-- A coordinate of four or five digits is a number of hundredths. -/
theorem parseCoordinate_of_digits (h : ∀ c ∈ coord, c.isDigit = true)
    (hlen : coord.length = 4 ∨ coord.length = 5) (isLatitude : Bool) :
    parseCoordinate coord isLatitude =
      some (some (if isLatitude then degrees coord else -completeLongitude (degrees coord))) := by
  have hne : coord ≠ [] := by
    rintro rfl
    simp at hlen
  have hvalue : (parse coord : Option Number).map (· / const 100) = some (degrees coord) := by
    rw [Number.parse_of_digits hne h, Option.map_some, Number.finite_div_const _ (by decide)]
    rfl
  unfold parseCoordinate
  rw [Str.trim_of_digits h]
  dsimp only
  rw [if_neg (head_ne_minus h), byteLen_of_digits h]
  rcases hlen with hlen | hlen
  all_goals
    rw [hlen]
    show andThen (some ((parse coord).map (· / const 100))) _ = _
    rw [hvalue]
    rfl

/-- Digits are no end of a block. -/
theorem isLatlonTerminator_of_digits (h : ∀ c ∈ token, c.isDigit = true) :
    isLatlonTerminator token = false := by
  have hne : ∀ s : Str, '0' ∉ s → s.head? = some '$' ∨ s.head? = some '&' → token ≠ s := by
    rintro s - hs rfl
    rcases hs with hs | hs
    · exact absurd (h '$' (List.mem_of_head? hs)) (by decide)
    · exact absurd (h '&' (List.mem_of_head? hs)) (by decide)
  rw [isLatlonTerminator, Str.trim_of_digits h, decide_eq_false (hne _ (by decide) (by decide)),
    decide_eq_false (hne _ (by decide) (by decide))]
  rfl

theorem consumeLatlonToken_of_digits (h : ∀ c ∈ token, c.isDigit = true)
    (hlen : 4 ≤ token.length ∧ token.length ≤ 8) (rest : List Str) :
    consumeLatlonToken (token :: rest) = some (token, rest) := by
  rw [consumeLatlonToken, consumeCoordinateToken_of_digits h hlen]
  simp only [Option.bind_eq_bind, Option.bind_some]
  rw [dropWhile_minus h, if_pos (List.all_eq_true.mpr h)]

/-- What a step of normalization does with a complete token. -/
theorem normalizeCoordinateTokens_of_digits (h : ∀ c ∈ token, c.isDigit = true)
    (hlen : 4 ≤ token.length ∧ token.length ≤ 8) (normalized : List Str)
    (issues : List ProductParseIssue) (rest : List Str) :
    normalizeCoordinateTokens Number normalized issues (token :: rest) = (do
      match ← splitPackedCoordinatePair Number normalized token with
      | some (lat, lon) => normalizeCoordinateTokens Number (normalized ++ [lat, lon]) issues rest
      | none =>
          match ← splitFusedCoordinateToken Number normalized token with
          | some (lon, lat) =>
              normalizeCoordinateTokens Number (normalized ++ [lon, lat])
                (issues ++ [fusedIssue token lon lat]) rest
          | none => normalizeCoordinateTokens Number (normalized ++ [token]) issues rest) := by
  rw [normalizeCoordinateTokens, if_neg (by rw [isLatlonTerminator_of_digits h]; decide)]
  split
  · next hnone =>
      rw [consumeLatlonToken_of_digits h hlen] at hnone
      cases hnone
  · next token' rest' hsome =>
      rw [consumeLatlonToken_of_digits h hlen, Option.some.injEq, Prod.mk.injEq] at hsome
      obtain ⟨rfl, rfl⟩ := hsome
      rfl

/-- A single coordinate stays as it is. -/
theorem normalize_single (h : ∀ c ∈ token, c.isDigit = true)
    (hlen : 4 ≤ token.length ∧ token.length ≤ 5) (normalized : List Str)
    (issues : List ProductParseIssue) (rest : List Str) :
    normalizeCoordinateTokens Number normalized issues (token :: rest) =
      normalizeCoordinateTokens Number (normalized ++ [token]) issues rest := by
  have hne : Str.byteLen token ≠ 8 := by
    rw [byteLen_of_digits h]
    omega
  rw [normalizeCoordinateTokens_of_digits h ⟨hlen.1, by omega⟩, splitPackedCoordinatePair,
    if_pos (Or.inr (Or.inl hne)), splitFusedCoordinateToken, if_pos (Or.inr (Or.inl hne))]
  rfl

/-- Where a latitude is expected, a token of two coordinates is split. -/
theorem normalize_packed (h : pair.IsWritten) (hpacked : pair.packed = true)
    {normalized : List Str} (heven : normalized.length % 2 = 0) (issues : List ProductParseIssue)
    (rest : List Str) :
    normalizeCoordinateTokens Number normalized issues ((pair.lat ++ pair.lon) :: rest) =
      normalizeCoordinateTokens Number (normalized ++ [pair.lat, pair.lon]) issues rest := by
  have hlen := h.length_packed hpacked
  have hsplit : splitPackedCoordinatePair Number normalized (pair.lat ++ pair.lon) =
      some (some (pair.lat, pair.lon)) := by
    have hnot : ¬ ((pair.lat ++ pair.lon).head? = some '-' ∨
        Str.byteLen (pair.lat ++ pair.lon) ≠ 8 ∨ normalized.length % 2 ≠ 0) := by
      rw [byteLen_of_digits h.packed_digits, hlen, heven]
      simpa using head_ne_minus h.packed_digits
    rw [splitPackedCoordinatePair, if_neg hnot, splitHalves,
      sliceTo_four h.lat_digits h.lat_length, sliceFrom_four h.lat_digits h.lat_length]
    simp only [Option.bind_eq_bind, Option.bind_some]
    rw [parseCoordinate_of_digits h.lat_digits (Or.inl h.lat_length),
      parseCoordinate_of_digits h.lon_digits h.lon_length]
    rfl
  rw [normalizeCoordinateTokens_of_digits h.packed_digits (by omega), hsplit]
  rfl

/-- **Normalization.**  The coordinates of written pairs are found. -/
theorem normalize_pairs (h : ∀ pair ∈ pairs, pair.IsWritten) {normalized : List Str}
    (heven : normalized.length % 2 = 0) (issues : List ProductParseIssue) :
    normalizeCoordinateTokens Number normalized issues (pairTokens pairs) =
      some (some (normalized ++ pairCoords pairs, issues)) := by
  have hsplits : SplitsPairs
      (fun normalized => normalizeCoordinateTokens Number normalized issues)
      (fun coords => some (some (coords, issues))) := by
    constructor
    · intro normalized
      rw [normalizeCoordinateTokens]
    · intro token normalized rest hdigits hlen
      exact normalize_single hdigits hlen normalized issues rest
    · intro pair hpair hpacked normalized rest heven
      exact normalize_packed hpair hpacked heven issues rest
  exact hsplits.normalize_pairs h heven

/-- The point of a pair. -/
def pointOf (pair : CoordinatePair) : Number × Number :=
  (degrees pair.lat, -completeLongitude (degrees pair.lon))

/-- A coordinate that was read, whichever is expected. -/
theorem readCoordinate_of_digits (h : ∀ c ∈ coord, c.isDigit = true)
    (hlen : coord.length = 4 ∨ coord.length = 5) (isLatitude : Bool) (raw : Str) :
    (readCoordinate coord isLatitude raw : Option (Except ProductParseIssue Number)) =
      some (.ok (if isLatitude then degrees coord else -completeLongitude (degrees coord))) := by
  rw [readCoordinate, parseCoordinate_of_digits h hlen]
  rfl

/-- **Points.**  The points of coordinates are those of the pairs. -/
theorem pointsFrom_pairs (h : ∀ pair ∈ pairs, pair.IsWritten) (raw : Str)
    (points : List (Number × Number)) :
    pointsFrom raw none points (pairCoords pairs) =
      some (if points.length + pairs.length < 3 then .error (countIssue raw)
        else .ok (points ++ pairs.map pointOf)) := by
  induction pairs generalizing points with
  | nil =>
      rw [pairCoords, List.flatMap_nil, pointsFrom]
      simp
  | cons pair pairs ih =>
      obtain ⟨hpair, hrest⟩ := List.forall_mem_cons.mp h
      have hlat : ¬ (Str.byteLen pair.lat = 8 ∧ pair.lat.head? ≠ some '-') := by
        rw [byteLen_of_digits hpair.lat_digits, hpair.lat_length]
        simp
      have hlon : ¬ (Str.byteLen pair.lon = 8 ∧ pair.lon.head? ≠ some '-') := by
        rw [byteLen_of_digits hpair.lon_digits]
        have := hpair.lon_bounds
        omega
      have hcoords : pairCoords (pair :: pairs) = pair.lat :: pair.lon :: pairCoords pairs := rfl
      rw [hcoords, pointsFrom, if_neg hlat, Option.isNone_none,
        readCoordinate_of_digits hpair.lat_digits (Or.inl hpair.lat_length)]
      dsimp only [Option.bind_eq_bind, Option.bind_some]
      rw [pointsFrom, if_neg hlon, Option.isNone_some,
        readCoordinate_of_digits hpair.lon_digits hpair.lon_length]
      dsimp only [Option.bind_eq_bind, Option.bind_some]
      rw [ih hrest, List.length_append, List.length_singleton, List.length_cons,
        List.append_assoc, Nat.add_assoc, Nat.add_comm 1]
      rfl

end LatLon

/-! ## Storm motions -/

namespace TimeMotLoc

/-- Two fields of digits that are degrees and hundredths. -/
theorem read_degrees {d : ℕ} (h : ∀ c ∈ coord, c.isDigit = true) (hpos : 0 < d)
    (hlen : coord.length = d + 2) :
    (andThen (readPiece 0 d coord) fun degrees =>
      andThen (readPiece d (d + 2) coord) fun hundredths =>
        some (some (degrees + hundredths / const 100))) = some (some (degrees coord)) := by
  have hascii := Str.isAscii_of_isDigit h
  have hfront : ∀ c ∈ coord.take d, c.isDigit = true := fun c hc => h c (List.mem_of_mem_take hc)
  have hback : ∀ c ∈ coord.drop d, c.isDigit = true := fun c hc => h c (List.mem_of_mem_drop hc)
  have hfirst : (readPiece 0 d coord : Option (Option Number)) =
      some (some (.finite (Str.digitsValue (coord.take d)))) := by
    rw [readPiece, Str.slice_of_ascii hascii (by omega) (by omega), List.drop_zero, Option.map_some,
      Number.parse_of_digits (List.ne_nil_of_length_pos (by rw [List.length_take]; omega)) hfront]
  have hsecond : (readPiece d (d + 2) coord : Option (Option Number)) =
      some (some (.finite (Str.digitsValue (coord.drop d)))) := by
    rw [readPiece, Str.slice_of_ascii hascii (by omega) (by omega), ← hlen, List.take_length,
      Option.map_some,
      Number.parse_of_digits (List.ne_nil_of_length_pos (by rw [List.length_drop]; omega)) hback]
  have hvalue : Str.digitsValue coord =
      Str.digitsValue (coord.take d) * 100 + Str.digitsValue (coord.drop d) := by
    have hdrop : (coord.drop d).length = 2 := by
      rw [List.length_drop]
      omega
    have hsplit := Str.digitsValue_digits (coord.take d) (coord.drop d)
    rwa [List.take_append_drop, hdrop] at hsplit
  rw [hfirst, hsecond]
  show some (some (_ + _ / const 100)) = _
  rw [Number.finite_div_const _ (by decide), degrees, hvalue]
  refine congrArg (fun x => some (some (Number.finite x))) ?_
  push_cast
  ring

/-- A latitude of four digits, or a longitude of four or five, is a number of hundredths. -/
theorem parseCoordinate_of_digits (h : ∀ c ∈ coord, c.isDigit = true) {isLat : Bool}
    (hlen : coord.length = 4 ∨ (isLat = false ∧ coord.length = 5)) :
    parseCoordinate coord isLat =
      some (some (if isLat then degrees coord else -degrees coord)) := by
  unfold parseCoordinate
  rw [Str.trim_of_digits h]
  dsimp only
  rw [dropWhile_minus h, byteLen_of_digits h]
  rcases hlen with hlen | ⟨rfl, hlen⟩
  · rw [hlen]
    exact congrArg (andThen · fun value => some (some (if isLat then value else -value)))
      (read_degrees h (d := 2) (by decide) hlen)
  · rw [hlen]
    exact congrArg (andThen · fun value => some (some (-value)))
      (read_degrees h (d := 3) (by decide) hlen)

/-- What a step of normalization does with a complete token. -/
theorem normalizeCoordinateTokens_of_digits (h : ∀ c ∈ token, c.isDigit = true)
    (hlen : 4 ≤ token.length ∧ token.length ≤ 8) (normalized rest : List Str) :
    normalizeCoordinateTokens Number normalized (token :: rest) = (do
      match ← splitPackedCoordinatePair Number normalized token with
      | some (lat, lon) => normalizeCoordinateTokens Number (normalized ++ [lat, lon]) rest
      | none => normalizeCoordinateTokens Number (normalized ++ [token]) rest) := by
  rw [normalizeCoordinateTokens]
  split
  · next hnone =>
      rw [consumeCoordinateToken_of_digits h hlen] at hnone
      cases hnone
  · next token' rest' hsome =>
      rw [consumeCoordinateToken_of_digits h hlen, Option.some.injEq, Prod.mk.injEq] at hsome
      obtain ⟨rfl, rfl⟩ := hsome
      rfl

/-- A single coordinate stays as it is. -/
theorem normalize_single (h : ∀ c ∈ token, c.isDigit = true)
    (hlen : 4 ≤ token.length ∧ token.length ≤ 5) (normalized rest : List Str) :
    normalizeCoordinateTokens Number normalized (token :: rest) =
      normalizeCoordinateTokens Number (normalized ++ [token]) rest := by
  have hne : Str.byteLen token ≠ 8 := by
    rw [byteLen_of_digits h]
    omega
  rw [normalizeCoordinateTokens_of_digits h ⟨hlen.1, by omega⟩, splitPackedCoordinatePair,
    if_pos (Or.inl hne)]
  rfl

/-- Where a latitude is expected, a token of two coordinates is split. -/
theorem normalize_packed (h : pair.IsWritten) (hpacked : pair.packed = true)
    {normalized : List Str} (heven : normalized.length % 2 = 0) (rest : List Str) :
    normalizeCoordinateTokens Number normalized ((pair.lat ++ pair.lon) :: rest) =
      normalizeCoordinateTokens Number (normalized ++ [pair.lat, pair.lon]) rest := by
  have hlen := h.length_packed hpacked
  have hlon : pair.lon.length = 4 := h.packed_length hpacked
  have hsplit : splitPackedCoordinatePair Number normalized (pair.lat ++ pair.lon) =
      some (some (pair.lat, pair.lon)) := by
    have hnot : ¬ (Str.byteLen (pair.lat ++ pair.lon) ≠ 8 ∨ normalized.length % 2 ≠ 0) := by
      rw [byteLen_of_digits h.packed_digits, hlen, heven]
      simp
    rw [splitPackedCoordinatePair, if_neg hnot, sliceTo_four h.lat_digits h.lat_length,
      sliceFrom_four h.lat_digits h.lat_length]
    simp only [Option.bind_eq_bind, Option.bind_some]
    rw [parseCoordinate_of_digits h.lat_digits (Or.inl h.lat_length),
      parseCoordinate_of_digits h.lon_digits (Or.inl hlon)]
    rfl
  rw [normalizeCoordinateTokens_of_digits h.packed_digits (by omega), hsplit]
  rfl

/-- **Normalization.**  The coordinates of written pairs are found. -/
theorem normalize_pairs (h : ∀ pair ∈ pairs, pair.IsWritten) {normalized : List Str}
    (heven : normalized.length % 2 = 0) :
    normalizeCoordinateTokens Number normalized (pairTokens pairs) =
      some (some (normalized ++ pairCoords pairs)) := by
  have hsplits : SplitsPairs (normalizeCoordinateTokens Number)
      (fun coords => some (some coords)) := by
    constructor
    · intro normalized
      rw [normalizeCoordinateTokens]
    · intro token normalized rest hdigits hlen
      exact normalize_single hdigits hlen normalized rest
    · intro pair hpair hpacked normalized rest heven
      exact normalize_packed hpair hpacked heven rest
  exact hsplits.normalize_pairs h heven

/-- The point of a pair. -/
def pointOf (pair : CoordinatePair) : Number × Number := (degrees pair.lat, -degrees pair.lon)

/-- **Points.**  The points of coordinates are those of the pairs. -/
theorem parsePoints_pairs (h : ∀ pair ∈ pairs, pair.IsWritten) (raw : Str) :
    parsePoints raw (pairCoords pairs) = some (.ok (pairs.map pointOf)) := by
  induction pairs with
  | nil => rfl
  | cons pair pairs ih =>
      obtain ⟨hpair, hrest⟩ := List.forall_mem_cons.mp h
      have hlon : pair.lon.length = 4 ∨ (false = false ∧ pair.lon.length = 5) :=
        hpair.lon_length.imp_right fun hlen => ⟨rfl, hlen⟩
      have hcoords : pairCoords (pair :: pairs) = pair.lat :: pair.lon :: pairCoords pairs := rfl
      rw [hcoords, parsePoints,
        parseCoordinate_of_digits hpair.lat_digits (Or.inl hpair.lat_length),
        parseCoordinate_of_digits hpair.lon_digits hlon, ih hrest]
      rfl

end TimeMotLoc

end Parser
