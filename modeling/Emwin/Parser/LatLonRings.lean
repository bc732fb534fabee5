/-
# Rings

A polygon is stored as a ring: its last point is its first, and there are at least four.  The
parser of polygons counts the points before it closes the ring, and three are enough.  If the
third of three points is the first again, nothing is added, and a ring of three points goes to
a table that refuses it.

Points that are read from digits equal themselves; that much is taken as given of the
arithmetic.
-/
import Emwin.Parser.LatLonRoundTrip

namespace Parser.LatLon

open Floats

variable {F : Type} [FloatArith F] {NonNeg : F → Prop}

/-! ## Rings -/

/-- `LatLonPolygon::from_points`. -/
def fromPoints (points : List (F × F)) : Except ProductParseIssue (LatLonPolygon F) :=
  (validatePolygon points "CAP polygon".toList).map fun points => ⟨points, formatPolygonWkt points⟩

/-- Whether the last point is the first. -/
def isClosed (points : List (F × F)) : Bool :=
  match points.head?, points.getLast? with
  | some first, some last => !pointsDiffer first last
  | _, _ => false

/-- Points that make a ring. -/
structure IsRing (points : List (F × F)) : Prop where
  closed : isClosed points = true
  length : 4 ≤ points.length

/-- Three points of which the third is the first again. -/
structure ThereAndBack (points : List (F × F)) : Prop where
  closed : isClosed points = true
  length : points.length = 3

/-- `==` of a point with itself. -/
def SelfEqualPoint (point : F × F) : Prop := pointsDiffer point point = false

/-- Points that are closed already stay as they are; to others the first is added. -/
theorem closed_cases {points : List (F × F)} {first : F × F} (hhead : points.head? = some first) :
    closed points = if isClosed points then points else points ++ [first] := by
  have hne : points ≠ [] := by
    rintro rfl
    cases hhead
  have hlast := List.getLast?_eq_getLast_of_ne_nil hne
  have hclosed : isClosed points = !pointsDiffer first (points.getLast hne) := by
    rw [isClosed, hhead, hlast]
  rw [closed_eq hhead hlast, hclosed]
  cases pointsDiffer first (points.getLast hne) <;> rfl

/-- A point that is added closes the ring if it equals itself. -/
theorem isClosed_append {points : List (F × F)} {first : F × F}
    (hhead : points.head? = some first) :
    isClosed (points ++ [first]) = !pointsDiffer first first := by
  have hne : points ≠ [] := by
    rintro rfl
    cases hhead
  rw [isClosed, List.head?_append_of_ne_nil _ hne, hhead, List.getLast?_concat]

/-- **Closing.**  Three points or more become a ring unless they go there and back, or the
first does not equal itself. -/
theorem isRing_closed_iff {points : List (F × F)} (hcount : 3 ≤ points.length) :
    IsRing (closed points) ↔ ¬ ThereAndBack points ∧
      (isClosed points = true ∨ ∀ first ∈ points.head?, SelfEqualPoint first) := by
  obtain ⟨first, hhead⟩ : ∃ first, points.head? = some first :=
    Option.isSome_iff_exists.mp (List.isSome_head?.mpr (List.ne_nil_of_length_pos (by omega)))
  rw [closed_cases hhead, hhead]
  by_cases hclosed : isClosed points = true
  · rw [if_pos hclosed]
    refine ⟨fun h => ⟨fun hback => ?_, Or.inl hclosed⟩, fun h => ⟨hclosed, ?_⟩⟩
    · have := h.length
      have := hback.length
      omega
    · have hnot : points.length ≠ 3 := fun hlength => h.1 ⟨hclosed, hlength⟩
      omega
  · rw [if_neg hclosed]
    have hself : IsRing (points ++ [first]) ↔ SelfEqualPoint first := by
      refine ⟨fun h => ?_, fun h => ⟨?_, ?_⟩⟩
      · have := h.closed
        rwa [isClosed_append hhead, Bool.not_eq_true'] at this
      · rw [isClosed_append hhead, Bool.not_eq_true']
        exact h
      · rw [List.length_append, List.length_singleton]
        omega
    rw [hself]
    refine ⟨fun h => ⟨fun hback => hclosed hback.closed, Or.inr ?_⟩, fun h => ?_⟩
    · intro first' hfirst
      obtain rfl := Option.some.inj hfirst
      exact h
    · exact h.2.resolve_left hclosed first rfl

/-- Points that are accepted are three or more, and are closed. -/
theorem validatePolygon_eq_ok {points ring : List (F × F)} {raw : Str}
    (h : validatePolygon points raw = .ok ring) : 3 ≤ points.length ∧ closed points = ring := by
  rw [validatePolygon_eq] at h
  split_ifs at h with hcount hcrosses
  exact ⟨Nat.not_lt.mp hcount, Except.ok.inj h⟩

/-- Points that go there and back are accepted. -/
theorem ThereAndBack.validatePolygon {points : List (F × F)} (h : ThereAndBack points) (raw : Str) :
    validatePolygon points raw = .ok points := by
  have hlength := h.length
  obtain ⟨first, hhead⟩ : ∃ first, points.head? = some first :=
    Option.isSome_iff_exists.mp (List.isSome_head?.mpr (List.ne_nil_of_length_pos (by omega)))
  have hclosed : LatLon.closed points = points := by
    rw [closed_cases hhead, if_pos h.closed]
  rw [validatePolygon_eq, hclosed, if_neg (by omega), if_neg]
  rw [Bool.and_eq_true, decide_eq_true_eq]
  omega

/-! ## Points of digits -/

/-- A coordinate of digits, perhaps behind signs. -/
def IsSignedDigits (coord : Str) : Prop := (coord.dropWhile (· = '-')).all Char.isDigit = true

theorem IsSignedDigits.mem {coord : Str} (h : IsSignedDigits coord) {c : Char} (hc : c ∈ coord) :
    c.isDigit = true ∨ c = '-' := by
  rw [← List.takeWhile_append_dropWhile (p := fun c => decide (c = '-')) (l := coord)] at hc
  rcases List.mem_append.mp hc with hc | hc
  · have hminus := List.mem_takeWhile_imp hc
    exact Or.inr (of_decide_eq_true hminus)
  · exact Or.inl (List.all_eq_true.mp h c hc)

/-- Without a sign there are digits only. -/
theorem IsSignedDigits.digits {coord : Str} (h : IsSignedDigits coord)
    (hhead : coord.head? ≠ some '-') : ∀ c ∈ coord, c.isDigit = true := by
  have hdrop : coord.dropWhile (· = '-') = coord := by
    cases coord with
    | nil => rfl
    | cons c coord =>
        have hc : c ≠ '-' := fun heq => hhead (congrArg some heq)
        rw [List.dropWhile_cons, if_neg (by simpa using hc)]
  rw [IsSignedDigits, hdrop, List.all_eq_true] at h
  exact h

theorem isSignedDigits_of_digits {coord : Str} (h : ∀ c ∈ coord, c.isDigit = true) :
    IsSignedDigits coord := by
  rw [IsSignedDigits, dropWhile_minus h]
  exact List.all_eq_true.mpr h

/-- Digits and signs are not trimmed. -/
theorem IsSignedDigits.trim {coord : Str} (h : IsSignedDigits coord) : Str.trim coord = coord := by
  have hspace : ∀ c ∈ coord, Str.isWhitespace c = false := by
    intro c hc
    rcases h.mem hc with hdigit | rfl
    · exact Str.isWhitespace_of_isDigit hdigit
    · decide
  exact Str.trim_eq_self (fun c hc => hspace c (List.mem_of_head? hc))
    fun c hc => hspace c (List.mem_of_getLast? hc)

/-- Digits are read as a number that is not below zero. -/
theorem nonNeg_of_parse (laws : SelfEqual F NonNeg) {digits : Str}
    (h : ∀ c ∈ digits, c.isDigit = true) {x : F} (hx : parse digits = some x) : NonNeg x := by
  by_cases hnil : digits = []
  · rw [hnil, parse, parseF64_nil] at hx
    cases hx
  · rw [parse, parseF64_of_digits hnil h, Option.map_some, Option.some.injEq] at hx
    rw [← hx]
    exact laws.ofLiteral _ _

theorem nonNeg_of_readPiece (laws : SelfEqual F NonNeg) {coord : Str} {i j : ℕ}
    (h : ∀ c ∈ coord, c.isDigit = true) {x : F} (hx : readPiece i j coord = some (some x)) :
    NonNeg x := by
  obtain ⟨piece, hslice, hparse⟩ := Option.map_eq_some_iff.mp hx
  exact nonNeg_of_parse laws (fun c hc => h c (Str.mem_of_slice hslice hc)) hparse

/-- A completed longitude is not below zero. -/
theorem nonNeg_completeLongitude (laws : SelfEqual F NonNeg) {x : F} (hx : NonNeg x) :
    NonNeg (completeLongitude x) := by
  unfold completeLongitude
  split_ifs
  · exact laws.add _ _ hx (laws.ofLiteral _ _)
  · exact hx

/-- **Coordinates.**  A coordinate of digits equals itself. -/
theorem eq_self_of_parseCoordinate (laws : SelfEqual F NonNeg) {coord : Str}
    (h : IsSignedDigits coord) {isLatitude : Bool} {x : F}
    (hx : parseCoordinate coord isLatitude = some (some x)) : FloatArith.eq x x = true := by
  unfold parseCoordinate at hx
  rw [h.trim] at hx
  dsimp only at hx
  by_cases hminus : coord.head? = some '-'
  · rw [if_pos hminus] at hx
    obtain ⟨literal, hliteral, rfl⟩ := Option.map_eq_some_iff.mp (Option.some.inj hx)
    obtain ⟨negative, digits, exponent, rfl⟩ := exists_of_parseF64 (fun c => h.mem) hliteral
    exact laws.eq_literal _ _ _
  · rw [if_neg hminus] at hx
    have hdigits := h.digits hminus
    obtain ⟨value, hvalue, hsigned⟩ := andThen_eq_some_iff.mp hx
    have hnonneg : NonNeg value := by
      split at hvalue
      · obtain ⟨y, hy, rfl⟩ := Option.map_eq_some_iff.mp (Option.some.inj hvalue)
        exact laws.div_const _ _ (nonNeg_of_parse laws hdigits hy) (by decide) (by decide)
      · obtain ⟨y, hy, rfl⟩ := Option.map_eq_some_iff.mp (Option.some.inj hvalue)
        exact laws.div_const _ _ (nonNeg_of_parse laws hdigits hy) (by decide) (by decide)
      · obtain ⟨a, ha, hvalue⟩ := andThen_eq_some_iff.mp hvalue
        obtain ⟨b, hb, hvalue⟩ := andThen_eq_some_iff.mp hvalue
        obtain ⟨c, hc, hvalue⟩ := andThen_eq_some_iff.mp hvalue
        obtain rfl := Option.some.inj (Option.some.inj hvalue)
        have hminutes := laws.div_const _ 60 (nonNeg_of_readPiece laws hdigits hb)
          (by decide) (by decide)
        have hseconds := laws.div_const _ 3600 (nonNeg_of_readPiece laws hdigits hc)
          (by decide) (by decide)
        exact laws.add _ _ (laws.add _ _ (nonNeg_of_readPiece laws hdigits ha) hminutes) hseconds
      · obtain ⟨a, ha, hvalue⟩ := andThen_eq_some_iff.mp hvalue
        obtain ⟨b, hb, hvalue⟩ := andThen_eq_some_iff.mp hvalue
        obtain rfl := Option.some.inj (Option.some.inj hvalue)
        have hdecimal := laws.div_const _ 100000 (nonNeg_of_readPiece laws hdigits hb)
          (by decide) (by decide)
        exact laws.add _ _ (nonNeg_of_readPiece laws hdigits ha) hdecimal
      · obtain ⟨a, ha, hvalue⟩ := andThen_eq_some_iff.mp hvalue
        obtain ⟨b, hb, hvalue⟩ := andThen_eq_some_iff.mp hvalue
        obtain ⟨c, hc, hvalue⟩ := andThen_eq_some_iff.mp hvalue
        obtain ⟨d, hd, hvalue⟩ := andThen_eq_some_iff.mp hvalue
        obtain rfl := Option.some.inj (Option.some.inj hvalue)
        have hminutes := laws.div_const _ 60 (nonNeg_of_readPiece laws hdigits hb)
          (by decide) (by decide)
        have hhundredths := laws.div_const _ 100 (nonNeg_of_readPiece laws hdigits hd)
          (by decide) (by decide)
        have hseconds := laws.div_const _ 3600
          (laws.add _ _ (nonNeg_of_readPiece laws hdigits hc) hhundredths) (by decide) (by decide)
        exact laws.add _ _ (laws.add _ _ (nonNeg_of_readPiece laws hdigits ha) hminutes) hseconds
      · exact nonNeg_of_parse laws hdigits (Option.some.inj hvalue)
    obtain rfl := Option.some.inj (Option.some.inj hsigned)
    cases isLatitude
    · exact laws.eq_neg _ (nonNeg_completeLongitude laws hnonneg)
    · exact laws.eq_self _ hnonneg

/-! ## Tokens of digits -/

/-- Only digits are consumed, behind signs. -/
theorem isSignedDigits_of_consume {token : Str} {tokens rest : List Str}
    (h : consumeLatlonToken tokens = some (token, rest)) : IsSignedDigits token := by
  unfold consumeLatlonToken at h
  simp only [Option.bind_eq_bind] at h
  obtain ⟨⟨joined, rest'⟩, -, hsome⟩ := Option.bind_eq_some_iff.mp h
  dsimp only at hsome
  split_ifs at hsome with hdigits
  obtain ⟨rfl, -⟩ := Prod.mk.inj (Option.some.inj hsome)
  exact hdigits

/-- The parts of a text of digits. -/
theorem isSignedDigits_sliceTo {token front : Str} (h : ∀ c ∈ token, c.isDigit = true) {n : ℕ}
    (hslice : Str.sliceTo n token = some front) : IsSignedDigits front := by
  obtain ⟨⟨u, v⟩, hsplit, rfl⟩ := Option.map_eq_some_iff.mp hslice
  obtain ⟨rfl, -⟩ := Str.append_of_splitAtByte hsplit
  exact isSignedDigits_of_digits fun c hc => h c (List.mem_append_left _ hc)

theorem isSignedDigits_sliceFrom {token back : Str} (h : ∀ c ∈ token, c.isDigit = true) {n : ℕ}
    (hslice : Str.sliceFrom n token = some back) : IsSignedDigits back := by
  obtain ⟨⟨u, v⟩, hsplit, rfl⟩ := Option.map_eq_some_iff.mp hslice
  obtain ⟨rfl, -⟩ := Str.append_of_splitAtByte hsplit
  exact isSignedDigits_of_digits fun c hc => h c (List.mem_append_right _ hc)

/-- A token that is split was one of digits, and so are its halves. -/
theorem isSignedDigits_of_splitPacked {normalized : List Str} {token lat lon : Str}
    (htoken : IsSignedDigits token)
    (h : splitPackedCoordinatePair F normalized token = some (some (lat, lon))) :
    IsSignedDigits lat ∧ IsSignedDigits lon := by
  unfold splitPackedCoordinatePair splitHalves at h
  split at h
  · cases h
  · next hnot =>
      have hdigits := htoken.digits fun hhead => hnot (Or.inl hhead)
      simp only [Option.bind_eq_bind] at h
      obtain ⟨front, hfront, h⟩ := Option.bind_eq_some_iff.mp h
      obtain ⟨back, hback, h⟩ := Option.bind_eq_some_iff.mp h
      obtain ⟨-, -, h⟩ := andThen_eq_some_iff.mp h
      obtain ⟨-, -, h⟩ := andThen_eq_some_iff.mp h
      obtain ⟨rfl, rfl⟩ := Prod.mk.inj (Option.some.inj (Option.some.inj h))
      exact ⟨isSignedDigits_sliceTo hdigits hfront, isSignedDigits_sliceFrom hdigits hback⟩

theorem isSignedDigits_of_splitFused {normalized : List Str} {token lon lat : Str}
    (htoken : IsSignedDigits token)
    (h : splitFusedCoordinateToken F normalized token = some (some (lon, lat))) :
    IsSignedDigits lon ∧ IsSignedDigits lat := by
  unfold splitFusedCoordinateToken at h
  split at h
  · cases h
  · next hnot =>
      have hdigits := htoken.digits fun hhead => hnot (Or.inl hhead)
      split at h
      · cases h
      · simp only [Option.bind_eq_bind] at h
        obtain ⟨front, hfront, h⟩ := Option.bind_eq_some_iff.mp h
        obtain ⟨back, hback, h⟩ := Option.bind_eq_some_iff.mp h
        split at h
        · cases h
        · obtain ⟨-, -, h⟩ := andThen_eq_some_iff.mp h
          obtain ⟨-, -, h⟩ := andThen_eq_some_iff.mp h
          obtain ⟨-, -, h⟩ := andThen_eq_some_iff.mp h
          obtain ⟨rfl, rfl⟩ := Prod.mk.inj (Option.some.inj (Option.some.inj h))
          exact ⟨isSignedDigits_sliceTo hdigits hfront, isSignedDigits_sliceFrom hdigits hback⟩

/-- **Normalization.**  The coordinates that are found are digits behind signs. -/
theorem isSignedDigits_of_normalize {normalized coords tokens : List Str}
    {issues found : List ProductParseIssue} (hall : ∀ coord ∈ normalized, IsSignedDigits coord)
    (h : normalizeCoordinateTokens F normalized issues tokens = some (some (coords, found))) :
    ∀ coord ∈ coords, IsSignedDigits coord := by
  induction hlen : tokens.length using Nat.strong_induction_on
    generalizing normalized issues tokens with
  | _ n ih =>
      have htwo : ∀ {a b : Str}, IsSignedDigits a ∧ IsSignedDigits b →
          ∀ coord ∈ normalized ++ [a, b], IsSignedDigits coord := by
        intro a b hab coord hcoord
        simp only [List.mem_append, List.mem_cons, List.not_mem_nil, or_false] at hcoord
        rcases hcoord with hcoord | rfl | rfl
        · exact hall coord hcoord
        · exact hab.1
        · exact hab.2
      cases tokens with
      | nil =>
          rw [normalizeCoordinateTokens] at h
          obtain ⟨rfl, -⟩ := Prod.mk.inj (Option.some.inj (Option.some.inj h))
          exact hall
      | cons next others =>
          rw [normalizeCoordinateTokens] at h
          split at h
          · obtain ⟨rfl, -⟩ := Prod.mk.inj (Option.some.inj (Option.some.inj h))
            exact hall
          · split at h
            · cases h
            · next token rest hconsume =>
                have hshorter := length_lt_of_consumeLatlonToken hconsume
                have htoken := isSignedDigits_of_consume hconsume
                simp only [Option.bind_eq_bind] at h
                obtain ⟨packed, hpacked, h⟩ := Option.bind_eq_some_iff.mp h
                rcases packed with _ | ⟨lat, lon⟩
                · obtain ⟨fused, hfused, h⟩ := Option.bind_eq_some_iff.mp h
                  rcases fused with _ | ⟨lon, lat⟩
                  · refine ih _ (hlen ▸ hshorter) (fun coord hcoord => ?_) h rfl
                    rcases List.mem_append.mp hcoord with hcoord | hcoord
                    · exact hall coord hcoord
                    · rwa [List.mem_singleton.mp hcoord]
                  · exact ih _ (hlen ▸ hshorter) (htwo (isSignedDigits_of_splitFused htoken hfused))
                      h rfl
                · exact ih _ (hlen ▸ hshorter) (htwo (isSignedDigits_of_splitPacked htoken hpacked))
                    h rfl

/-! ## Points of tokens -/

theorem eq_self_of_readCoordinate (laws : SelfEqual F NonNeg) {coord raw : Str}
    (h : IsSignedDigits coord) {isLatitude : Bool} {x : F}
    (hx : readCoordinate coord isLatitude raw = some (.ok x)) : FloatArith.eq x x = true := by
  obtain ⟨value, hvalue, hread⟩ := Option.map_eq_some_iff.mp hx
  cases value with
  | none => cases hread
  | some value =>
      obtain rfl := Except.ok.inj hread
      exact eq_self_of_parseCoordinate laws h hvalue

theorem selfEqualPoint {lat lon : F} (hlat : FloatArith.eq lat lat = true)
    (hlon : FloatArith.eq lon lon = true) : SelfEqualPoint (lat, lon) := by
  rw [SelfEqualPoint, pointsDiffer, hlat, hlon]
  rfl

/-- **Points.**  Points that are read from digits equal themselves. -/
theorem selfEqual_of_pointsFrom (laws : SelfEqual F NonNeg) {raw : Str} {pending : Option F}
    {points found : List (F × F)} {coords : List Str}
    (hcoords : ∀ coord ∈ coords, IsSignedDigits coord)
    (hpending : ∀ lat, pending = some lat → FloatArith.eq lat lat = true)
    (hpoints : ∀ point ∈ points, SelfEqualPoint point)
    (h : pointsFrom raw pending points coords = some (.ok found)) :
    ∀ point ∈ found, SelfEqualPoint point := by
  induction coords generalizing pending points with
  | nil =>
      rw [pointsFrom] at h
      split at h
      · cases h
      · obtain rfl := Except.ok.inj (Option.some.inj h)
        exact hpoints
  | cons coord coords ih =>
      obtain ⟨hcoord, hrest⟩ := List.forall_mem_cons.mp hcoords
      have hnext : ∀ {lat lon : F}, FloatArith.eq lat lat = true → FloatArith.eq lon lon = true →
          ∀ point ∈ points ++ [(lat, lon)], SelfEqualPoint point := by
        intro lat lon hlat hlon point hpoint
        rcases List.mem_append.mp hpoint with hpoint | hpoint
        · exact hpoints point hpoint
        · rw [List.mem_singleton.mp hpoint]
          exact selfEqualPoint hlat hlon
      rw [pointsFrom] at h
      split at h
      · next hpacked =>
          have hdigits := hcoord.digits hpacked.2
          split at h
          · cases h
          · simp only [Option.bind_eq_bind] at h
            obtain ⟨front, hfront, h⟩ := Option.bind_eq_some_iff.mp h
            obtain ⟨lat, hlat, h⟩ := Option.bind_eq_some_iff.mp h
            rcases lat with issue | lat
            · cases h
            · obtain ⟨back, hback, h⟩ := Option.bind_eq_some_iff.mp h
              obtain ⟨lon, hlon, h⟩ := Option.bind_eq_some_iff.mp h
              rcases lon with issue | lon
              · cases h
              · have hlatSelf := eq_self_of_readCoordinate laws
                  (isSignedDigits_sliceTo hdigits hfront) hlat
                have hlonSelf := eq_self_of_readCoordinate laws
                  (isSignedDigits_sliceFrom hdigits hback) hlon
                exact ih hrest hpending (hnext hlatSelf hlonSelf) h
      · simp only [Option.bind_eq_bind] at h
        obtain ⟨value, hvalue, h⟩ := Option.bind_eq_some_iff.mp h
        rcases value with issue | value
        · cases h
        · have hself := eq_self_of_readCoordinate laws hcoord hvalue
          rcases pending with _ | lat
          · refine ih hrest (fun lat hlat => ?_) hpoints h
            obtain rfl := Option.some.inj hlat
            exact hself
          · exact ih hrest (by rintro _ ⟨⟩) (hnext (hpending lat rfl) hself) h

/-! ## Blocks -/

/-- The points that a block spells, before the ring is closed, with the issues of their repair. -/
def blockPoints (F : Type) [FloatArith F] (candidate : Str) :
    Option (Except ProductParseIssue (List (F × F)) × List ProductParseIssue) :=
  let raw := Str.trim candidate
  let invalidFormat :=
    latlonIssue "invalid_latlon_format" "could not parse LAT...LON block: `" raw
  match Str.splitWhitespace raw with
  | [] => some (.error invalidFormat, [])
  | marker :: tokens =>
      if Str.eqIgnoreAsciiCase marker MARKER = false then some (.error invalidFormat, [])
      else tokenPoints F raw tokens

/-- A block makes a polygon of the points that it spells. -/
theorem parseLatlonCandidate_eq_blockPoints (candidate : Str) :
    parseLatlonCandidate (F := F) candidate =
      (blockPoints F candidate).map (polygonOf (Str.trim candidate)) := by
  cases hwords : Str.splitWhitespace (Str.trim candidate) with
  | nil =>
      unfold parseLatlonCandidate blockPoints
      dsimp only
      rw [hwords]
      rfl
  | cons marker tokens =>
      by_cases hmarker : Str.eqIgnoreAsciiCase marker MARKER = true
      · rw [parseLatlonCandidate_eq hwords hmarker, blockPoints, hwords]
        dsimp only
        rw [if_neg (by rw [hmarker]; decide)]
      · rw [Bool.not_eq_true] at hmarker
        unfold parseLatlonCandidate blockPoints
        dsimp only
        rw [hwords]
        dsimp only
        rw [if_pos hmarker, if_pos hmarker]
        rfl

/-- The points that a block spells equal themselves. -/
theorem selfEqual_of_blockPoints (laws : SelfEqual F NonNeg) {candidate : Str}
    {points : List (F × F)} {issues : List ProductParseIssue}
    (h : blockPoints F candidate = some (.ok points, issues)) :
    ∀ point ∈ points, SelfEqualPoint point := by
  unfold blockPoints at h
  dsimp only at h
  split at h
  · cases h
  · split at h
    · cases h
    · unfold tokenPoints at h
      simp only [Option.bind_eq_bind] at h
      obtain ⟨normalized, hnormalized, h⟩ := Option.bind_eq_some_iff.mp h
      rcases normalized with _ | ⟨coords, found⟩
      · cases h
      · obtain ⟨parsed, hparsed, h⟩ := Option.bind_eq_some_iff.mp h
        obtain ⟨rfl, -⟩ := Prod.mk.inj (Option.some.inj h)
        have hcoords := isSignedDigits_of_normalize (by simp) hnormalized
        exact selfEqual_of_pointsFrom laws hcoords (by simp) (by simp) hparsed

/-- A polygon is made of points exactly if they are accepted. -/
theorem polygonOf_eq_some_iff {raw : Str}
    {found : Except ProductParseIssue (List (F × F)) × List ProductParseIssue}
    {polygon : LatLonPolygon F} : (polygonOf raw found).1 = some polygon ↔
      ∃ points ring, found.1 = .ok points ∧ validatePolygon points raw = .ok ring ∧
        polygon = ⟨ring, formatPolygonWkt ring⟩ := by
  obtain ⟨points | points, issues⟩ := found
  · simp [polygonOf, Except.bind]
  · cases hring : validatePolygon points raw with
    | error issue => simp [polygonOf, Except.bind, hring]
    | ok ring => simp [polygonOf, Except.bind, hring, eq_comm]

/-- The polygons of a text are those of its blocks. -/
theorem mem_polygons_iff {text : Str} {polygons : List (LatLonPolygon F)}
    {issues : List ProductParseIssue}
    (h : parseLatlonPolygonsWithIssues text = some (polygons, issues)) :
    ∃ candidates, findLatlonCandidates text = some candidates ∧ ∀ polygon, polygon ∈ polygons ↔
      ∃ raw ∈ candidates, ∃ found, blockPoints F raw = some found ∧
        (polygonOf (Str.trim raw) found).1 = some polygon := by
  unfold parseLatlonPolygonsWithIssues at h
  simp only [Option.bind_eq_bind] at h
  obtain ⟨candidates, hcandidates, h⟩ := Option.bind_eq_some_iff.mp h
  obtain ⟨results, hresults, h⟩ := Option.bind_eq_some_iff.mp h
  obtain ⟨rfl, -⟩ := Prod.mk.inj (Option.some.inj h)
  refine ⟨candidates, hcandidates, fun polygon => ?_⟩
  rw [List.mem_filterMap]
  refine ⟨fun ⟨result, hmem, hpolygon⟩ => ?_, fun ⟨raw, hraw, found, hfound, hpolygon⟩ => ?_⟩
  · obtain ⟨raw, hraw, hparse⟩ := exists_of_mem_mapM hresults hmem
    rw [parseLatlonCandidate_eq_blockPoints] at hparse
    obtain ⟨found, hfound, rfl⟩ := Option.map_eq_some_iff.mp hparse
    exact ⟨raw, hraw, found, hfound, hpolygon⟩
  · obtain ⟨result, hmem, hparse⟩ := exists_mem_mapM hresults hraw
    rw [parseLatlonCandidate_eq_blockPoints, hfound, Option.map_some, Option.some.injEq] at hparse
    exact ⟨result, hmem, by rw [← hparse, hpolygon]⟩

/-- A block that goes there and back. -/
def TwoPointBlock (F : Type) [FloatArith F] (raw : Str) : Prop :=
  ∃ points issues, blockPoints F raw = some (.ok points, issues) ∧ ThereAndBack points

/-- **Texts.**  All polygons of a text are rings exactly if no block goes there and back. -/
theorem text_rings_iff (laws : SelfEqual F NonNeg) {text : Str} {polygons : List (LatLonPolygon F)}
    {issues : List ProductParseIssue}
    (h : parseLatlonPolygonsWithIssues text = some (polygons, issues)) :
    (∀ polygon ∈ polygons, IsRing polygon.points) ↔
      ∀ raw ∈ (findLatlonCandidates text).getD [], ¬ TwoPointBlock F raw := by
  obtain ⟨candidates, hcandidates, hpolygons⟩ := mem_polygons_iff h
  rw [hcandidates, Option.getD_some]
  refine ⟨fun hrings raw hraw ⟨points, found, hpoints, hback⟩ => ?_, fun hblocks polygon hmem => ?_⟩
  · have hmem : (⟨points, formatPolygonWkt points⟩ : LatLonPolygon F) ∈ polygons :=
      (hpolygons _).mpr ⟨raw, hraw, _, hpoints,
        polygonOf_eq_some_iff.mpr ⟨points, points, rfl, hback.validatePolygon _, rfl⟩⟩
    have hring := (hrings _ hmem).length
    have hlength := hback.length
    dsimp only at hring
    omega
  · obtain ⟨raw, hraw, found, hfound, hpolygon⟩ := (hpolygons polygon).mp hmem
    obtain ⟨points, ring, hok, hvalid, rfl⟩ := polygonOf_eq_some_iff.mp hpolygon
    obtain ⟨points', found⟩ := found
    obtain rfl : points' = .ok points := hok
    obtain ⟨hcount, rfl⟩ := validatePolygon_eq_ok hvalid
    refine (isRing_closed_iff hcount).mpr ⟨fun hback => ?_, Or.inr fun first hfirst => ?_⟩
    · exact hblocks raw hraw ⟨points, found, hfound, hback⟩
    · exact selfEqual_of_blockPoints laws hfound first (List.mem_of_head? hfirst)

/-- **Points.**  A polygon of given points is a ring exactly if they do not go there and back,
and the first equals itself if it has to close the ring. -/
theorem points_ring_iff {points : List (F × F)} {polygon : LatLonPolygon F}
    (h : fromPoints points = .ok polygon) : IsRing polygon.points ↔ ¬ ThereAndBack points ∧
      (isClosed points = true ∨ ∀ first ∈ points.head?, SelfEqualPoint first) := by
  unfold fromPoints at h
  cases hvalid : validatePolygon points "CAP polygon".toList with
  | error issue =>
      rw [hvalid] at h
      cases h
  | ok ring =>
      rw [hvalid] at h
      obtain rfl := Except.ok.inj h
      obtain ⟨hcount, rfl⟩ := validatePolygon_eq_ok hvalid
      exact isRing_closed_iff hcount

/-- **Rings.**  When polygons are rings, of texts and of given points. -/
theorem rings_iff (laws : SelfEqual F NonNeg) :
    (∀ (text : Str) (polygons : List (LatLonPolygon F)) (issues : List ProductParseIssue),
      parseLatlonPolygonsWithIssues text = some (polygons, issues) →
        ((∀ polygon ∈ polygons, IsRing polygon.points) ↔
          ∀ raw ∈ (findLatlonCandidates text).getD [], ¬ TwoPointBlock F raw)) ∧
    ∀ (points : List (F × F)) (polygon : LatLonPolygon F), fromPoints points = .ok polygon →
      (IsRing polygon.points ↔ ¬ ThereAndBack points ∧
        (isClosed points = true ∨ ∀ first ∈ points.head?, SelfEqualPoint first)) :=
  ⟨fun _ _ _ h => text_rings_iff laws h, fun _ _ h => points_ring_iff h⟩

/-- Without rounding. -/
theorem rings_iff_exact :
    (∀ (text : Str) (polygons : List (LatLonPolygon Number)) (issues : List ProductParseIssue),
      parseLatlonPolygonsWithIssues text = some (polygons, issues) →
        ((∀ polygon ∈ polygons, IsRing polygon.points) ↔
          ∀ raw ∈ (findLatlonCandidates text).getD [], ¬ TwoPointBlock Number raw)) ∧
    ∀ (points : List (Number × Number)) (polygon : LatLonPolygon Number),
      fromPoints points = .ok polygon → (IsRing polygon.points ↔ ¬ ThereAndBack points ∧
        (isClosed points = true ∨ ∀ first ∈ points.head?, SelfEqualPoint first)) :=
  rings_iff Number.selfEqual

/-- A line there and back is a polygon of three points. -/
theorem three_points_are_accepted :
    (∃ polygon : LatLonPolygon Number,
      parseLatlonPolygonsWithIssues "LAT...LON 4000 9800 4100 9800 4000 9800".toList =
        some ([polygon], []) ∧ polygon.points.length = 3 ∧ ¬ IsRing polygon.points) ∧
    ∃ polygon : LatLonPolygon Number,
      fromPoints [(.finite 40, .finite (-98)), (.finite 41, .finite (-98)),
        (.finite 40, .finite (-98))] = .ok polygon ∧ ¬ IsRing polygon.points := by
  have hshort : ∀ {points : List (Number × Number)}, points.length = 3 → ¬ IsRing points :=
    fun hlength hring => by
      have := hring.length
      omega
  refine ⟨?_, ?_⟩
  · have hrange : ∀ p ∈ [(⟨4000, 9800, .four⟩ : PrintedPoint), ⟨4100, 9800, .four⟩,
        ⟨4000, 9800, .four⟩], p.InRange := by
      intro p hp
      simp only [List.mem_cons, List.not_mem_nil, or_false] at hp
      rcases hp with rfl | rfl | rfl <;> exact ⟨by decide, by decide, by decide⟩
    have hprinted : IsPrinted [⟨4000, 9800, .four⟩, ⟨4100, 9800, .four⟩, ⟨4000, 9800, .four⟩]
        "LAT...LON 4000 9800 4100 9800 4000 9800".toList := ⟨by decide, by decide, by decide⟩
    obtain ⟨raw, -, hparse⟩ := parseLatlonPolygons_printed (by decide) hrange hprinted
    have hback : ThereAndBack ([(⟨4000, 9800, .four⟩ : PrintedPoint), ⟨4100, 9800, .four⟩,
        ⟨4000, 9800, .four⟩].map PrintedPoint.point) := ⟨by decide +kernel, rfl⟩
    rw [polygonOf] at hparse
    simp only [Except.bind, hback.validatePolygon] at hparse
    exact ⟨_, hparse, rfl, hshort rfl⟩
  · have hback : ThereAndBack [((.finite 40, .finite (-98)) : Number × Number),
        (.finite 41, .finite (-98)), (.finite 40, .finite (-98))] := ⟨by decide +kernel, rfl⟩
    have haccepted := congrArg
      (Except.map fun ring => (⟨ring, formatPolygonWkt ring⟩ : LatLonPolygon Number))
      (hback.validatePolygon "CAP polygon".toList)
    exact ⟨_, haccepted, hshort rfl⟩

end Parser.LatLon
