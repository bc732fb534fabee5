/-
# Polygons on the globe

A latitude is at most 90 degrees from zero and a longitude at most 180.  The parser of polygons
reads the digits of a coordinate in a layout for their number, and those behind a sign as whole
degrees; it does not compare the result with anything.  A polygon is on the globe exactly if
the digits of its block say so.
-/
import Emwin.Parser.LatLonRings
import Emwin.Parser.CoordinateDialects
import Mathlib.Tactic.FieldSimp
import Mathlib.Tactic.Linarith

namespace Parser

open Floats

/-! ## The globe -/

/-- A finite number that is not too far from zero. -/
def Within (limit : ℕ) (x : Number) : Prop := ∃ q : ℚ, x = .finite q ∧ |q| ≤ limit

/-- A latitude and a longitude that exist. -/
def OnGlobe (point : Number × Number) : Prop := Within 90 point.1 ∧ Within 180 point.2

/-- How far from zero a latitude or a longitude may be, in degrees. -/
def limitOf (isLatitude : Bool) : ℕ := if isLatitude then 90 else 180

@[simp] theorem within_finite {limit : ℕ} {q : ℚ} : Within limit (.finite q) ↔ |q| ≤ limit := by
  refine ⟨fun ⟨q', hq, hle⟩ => ?_, fun h => ⟨q, rfl, h⟩⟩
  obtain rfl := Number.finite.inj hq
  exact hle

/-- Without its hundred a longitude is small, and with it it still exists. -/
theorem within_completeLongitude {q : ℚ} (hq : 0 ≤ q) :
    Within 180 (-LatLon.completeLongitude (Number.finite q)) ↔ q ≤ 180 := by
  rw [completeLongitude_finite, Number.finite_neg, within_finite, abs_neg]
  split_ifs with h
  · rw [abs_of_nonneg (by linarith)]
    norm_num
    constructor <;> intro <;> linarith
  · rw [abs_of_nonneg hq]
    norm_num

namespace LatLon

/-! ## Written coordinates -/

/-- The number between two offsets of some digits. -/
def digitsBetween (i j : ℕ) (coord : Str) : ℕ := Str.digitsValue ((coord.take j).drop i)

/-- What the last digit of a coordinate counts: so many make a degree. -/
def unitsPerDegree (coord : Str) : ℕ :=
  match coord.length with
  | 4 | 5 => 100
  | 6 => 3600
  | 7 => 100000
  | 8 => 360000
  | _ => 1

/-- How many of them are written: hundredths, or minutes and seconds, or decimals. -/
def units (coord : Str) : ℕ :=
  match coord.length with
  | 6 => 3600 * digitsBetween 0 2 coord + 60 * digitsBetween 2 4 coord + digitsBetween 4 6 coord
  | 7 => 100000 * digitsBetween 0 2 coord + digitsBetween 2 7 coord
  | 8 => 360000 * digitsBetween 0 2 coord + 6000 * digitsBetween 2 4 coord +
      100 * digitsBetween 4 6 coord + digitsBetween 6 8 coord
  | _ => Str.digitsValue coord

/-- The digits of a coordinate are within its limit; behind a sign they are whole degrees. -/
def WrittenOnGlobe (isLatitude : Bool) (coord : Str) : Prop :=
  if coord.head? = some '-' then Str.digitsValue coord.tail ≤ limitOf isLatitude
  else units coord ≤ limitOf isLatitude * unitsPerDegree coord

instance (isLatitude : Bool) (coord : Str) : Decidable (WrittenOnGlobe isLatitude coord) := by
  unfold WrittenOnGlobe
  infer_instance

variable {coord : Str}

theorem unitsPerDegree_pos (coord : Str) : 0 < unitsPerDegree coord := by
  unfold unitsPerDegree
  split <;> decide

/-- A piece of some digits. -/
theorem readPiece_of_digits (h : ∀ c ∈ coord, c.isDigit = true) {i j : ℕ} (hij : i < j)
    (hj : j ≤ coord.length) : (readPiece i j coord : Option (Option Number)) =
      some (some (.finite (digitsBetween i j coord))) := by
  have hne : (coord.take j).drop i ≠ [] := by
    apply List.ne_nil_of_length_pos
    rw [List.length_drop, List.length_take]
    omega
  rw [readPiece, Str.slice_of_ascii (Str.isAscii_of_isDigit h) hij.le hj, Option.map_some,
    Number.parse_of_digits hne fun c hc => h c (List.mem_of_mem_take (List.mem_of_mem_drop hc))]
  rfl

/-- **Coordinates.**  Digits are read in the layout for their number. -/
theorem parseCoordinate_of_units (hne : coord ≠ []) (h : ∀ c ∈ coord, c.isDigit = true)
    (isLatitude : Bool) : parseCoordinate coord isLatitude = some (some
      (if isLatitude then Number.finite (units coord / unitsPerDegree coord)
        else -completeLongitude (Number.finite (units coord / unitsPerDegree coord)))) := by
  unfold parseCoordinate
  rw [Str.trim_of_digits h]
  dsimp only
  rw [if_neg (head_ne_minus h), byteLen_of_digits h]
  have hpiece := fun {i j : ℕ} => readPiece_of_digits (i := i) (j := j) h
  have hfinish : ∀ {value : Option (Option Number)} {q : ℚ}, value = some (some (.finite q)) →
      q = units coord / unitsPerDegree coord →
        (andThen value fun value =>
          some (some (if isLatitude then value else -completeLongitude value))) = some (some
            (if isLatitude then Number.finite (units coord / unitsPerDegree coord)
              else -completeLongitude (Number.finite (units coord / unitsPerDegree coord)))) := by
    rintro _ q rfl rfl
    rfl
  have hdigits : (parse coord : Option Number) = some (.finite (Str.digitsValue coord)) :=
    Number.parse_of_digits hne h
  split
  · next hlen =>
      refine hfinish (by rw [hdigits, Option.map_some, Number.finite_div_const _ (by decide)]) ?_
      simp only [units, unitsPerDegree, hlen]
  · next hlen =>
      refine hfinish (by rw [hdigits, Option.map_some, Number.finite_div_const _ (by decide)]) ?_
      simp only [units, unitsPerDegree, hlen]
  · next hlen =>
      rw [hpiece (by decide) (by omega), hpiece (by decide) (by omega),
        hpiece (by decide) (by omega)]
      refine hfinish (by
        simp only [andThen, Number.finite_div_const _ (show (60 : ℕ) ≠ 0 by decide),
          Number.finite_div_const _ (show (3600 : ℕ) ≠ 0 by decide), Number.finite_add]
        rfl) ?_
      simp only [units, unitsPerDegree, hlen]
      push_cast
      ring
  · next hlen =>
      rw [hpiece (by decide) (by omega), hpiece (by decide) (by omega)]
      refine hfinish (by
        simp only [andThen, Number.finite_div_const _ (show (100000 : ℕ) ≠ 0 by decide),
          Number.finite_add]
        rfl) ?_
      simp only [units, unitsPerDegree, hlen]
      push_cast
      ring
  · next hlen =>
      rw [hpiece (by decide) (by omega), hpiece (by decide) (by omega),
        hpiece (by decide) (by omega), hpiece (by decide) (by omega)]
      refine hfinish (by
        simp only [andThen, Number.finite_div_const _ (show (60 : ℕ) ≠ 0 by decide),
          Number.finite_div_const _ (show (100 : ℕ) ≠ 0 by decide),
          Number.finite_div_const _ (show (3600 : ℕ) ≠ 0 by decide), Number.finite_add]
        rfl) ?_
      simp only [units, unitsPerDegree, hlen]
      push_cast
      ring
  · refine hfinish (congrArg some hdigits) ?_
    unfold units unitsPerDegree
    split <;> simp_all

/-- Behind a sign there are digits and nothing else, if a number can be read. -/
theorem parse_of_minus (h : IsSignedDigits ('-' :: coord)) {x : Number}
    (hx : parse ('-' :: coord) = some x) :
    (∀ c ∈ coord, c.isDigit = true) ∧ x = .finite (-Str.digitsValue coord) := by
  have hread : parseF64 ('-' :: coord) = readNumber true coord :=
    parseF64_of_digits_or_minus fun c hc => h.mem hc
  rw [parse, hread] at hx
  by_cases hminus : coord.head? = some '-'
  · obtain ⟨coord, rfl⟩ := List.head?_eq_some_iff.mp hminus
    simp [readNumber, readDigits] at hx
  · have hdigits : ∀ c ∈ coord, c.isDigit = true := IsSignedDigits.digits h hminus
    have hne : coord ≠ [] := by
      rintro rfl
      cases hx
    rw [readNumber_of_digits true hne hdigits, Option.map_some, Option.some.injEq] at hx
    refine ⟨hdigits, hx.symm.trans ?_⟩
    show Number.ofLiteral _ = _
    simp [Number.ofLiteral]

/-- **Range.**  A coordinate that is read is within its limit exactly if its digits are. -/
theorem within_iff_writtenOnGlobe (h : IsSignedDigits coord) {isLatitude : Bool} {x : Number}
    (hx : parseCoordinate coord isLatitude = some (some x)) :
    Within (limitOf isLatitude) x ↔ WrittenOnGlobe isLatitude coord := by
  by_cases hminus : coord.head? = some '-'
  · obtain ⟨coord, rfl⟩ := List.head?_eq_some_iff.mp hminus
    rw [parseCoordinate, h.trim, if_pos hminus] at hx
    obtain ⟨-, rfl⟩ := parse_of_minus h (Option.some.inj hx)
    rw [WrittenOnGlobe, if_pos hminus, within_finite, abs_neg, Nat.abs_cast, List.tail_cons]
    exact Nat.cast_le
  · have hdigits := h.digits hminus
    have hne : coord ≠ [] := by
      rintro rfl
      cases hx
    have hpos : (0 : ℚ) < unitsPerDegree coord := by exact_mod_cast unitsPerDegree_pos coord
    have hnonneg : (0 : ℚ) ≤ units coord / unitsPerDegree coord := by positivity
    have hcount : ∀ limit : ℕ, ((units coord : ℚ) / unitsPerDegree coord ≤ limit ↔
        units coord ≤ limit * unitsPerDegree coord) := by
      intro limit
      rw [div_le_iff₀ hpos]
      exact_mod_cast Iff.rfl
    rw [parseCoordinate_of_units hne hdigits] at hx
    obtain rfl := Option.some.inj (Option.some.inj hx)
    rw [WrittenOnGlobe, if_neg hminus]
    cases isLatitude with
    | false => exact (within_completeLongitude hnonneg).trans (hcount 180)
    | true =>
        rw [if_pos rfl, within_finite, abs_of_nonneg hnonneg]
        exact hcount 90

/-! ## Points -/

/-- The coordinates that are read, in order, and whether each is a latitude: eight digits without
a sign are one of each. -/
def readings (isLatitude : Bool) : List Str → List (Bool × Str)
  | [] => []
  | coord :: coords =>
      if Str.byteLen coord = 8 ∧ coord.head? ≠ some '-' then
        (true, coord.take 4) :: (false, coord.drop 4) :: readings isLatitude coords
      else (isLatitude, coord) :: readings (!isLatitude) coords

/-- The digits of all coordinates are within their limits. -/
def AllOnGlobe (isLatitude : Bool) (coords : List Str) : Prop :=
  ∀ reading ∈ readings isLatitude coords, WrittenOnGlobe reading.1 reading.2

theorem within_iff_of_readCoordinate {raw : Str} (h : IsSignedDigits coord) {isLatitude : Bool}
    {x : Number} (hx : readCoordinate coord isLatitude raw = some (.ok x)) :
    Within (limitOf isLatitude) x ↔ WrittenOnGlobe isLatitude coord := by
  obtain ⟨value, hvalue, hread⟩ := Option.map_eq_some_iff.mp hx
  cases value with
  | none => cases hread
  | some value =>
      obtain rfl := Except.ok.inj hread
      exact within_iff_writtenOnGlobe h hvalue

/-- **Points.**  The points are on the globe exactly if the digits of all coordinates are within
their limits. -/
theorem onGlobe_of_pointsFrom {raw : Str} {pending : Option Number}
    {points found : List (Number × Number)} {coords : List Str}
    (hcoords : ∀ coord ∈ coords, IsSignedDigits coord)
    (h : pointsFrom raw pending points coords = some (.ok found)) :
    (∀ point ∈ found, OnGlobe point) ↔ (∀ point ∈ points, OnGlobe point) ∧
      (∀ lat ∈ pending, Within 90 lat) ∧ AllOnGlobe pending.isNone coords := by
  induction coords generalizing pending points with
  | nil =>
      rw [pointsFrom] at h
      split at h
      · cases h
      · next hcount =>
          obtain rfl := Except.ok.inj (Option.some.inj h)
          cases pending with
          | none => simp [AllOnGlobe, readings]
          | some lat => simp at hcount
  | cons coord coords ih =>
      obtain ⟨hcoord, hrest⟩ := List.forall_mem_cons.mp hcoords
      have hnext : ∀ point : Number × Number, (∀ p ∈ points ++ [point], OnGlobe p) ↔
          (∀ p ∈ points, OnGlobe p) ∧ Within 90 point.1 ∧ Within 180 point.2 := by
        intro point
        rw [List.forall_mem_append, List.forall_mem_singleton]
        rfl
      rw [pointsFrom] at h
      rw [AllOnGlobe, readings]
      split at h
      · next hpacked =>
          have hdigits := hcoord.digits hpacked.2
          have hascii := Str.isAscii_of_isDigit hdigits
          have hlen : 4 ≤ coord.length := by
            have := hpacked.1
            rw [byteLen_of_digits hdigits] at this
            omega
          have hhalf : ∀ n : ℕ, IsSignedDigits (coord.take n) ∧ IsSignedDigits (coord.drop n) :=
            fun n => ⟨isSignedDigits_of_digits fun c hc => hdigits c (List.mem_of_mem_take hc),
              isSignedDigits_of_digits fun c hc => hdigits c (List.mem_of_mem_drop hc)⟩
          cases pending with
          | some lat => cases h
          | none =>
              rw [Str.sliceTo_of_ascii hascii hlen, Str.sliceFrom_of_ascii hascii hlen] at h
              simp only [Option.isSome_none, Bool.false_eq_true, if_false, Option.bind_eq_bind,
                Option.bind_some] at h
              obtain ⟨lat, hlat, h⟩ := Option.bind_eq_some_iff.mp h
              rcases lat with issue | lat
              · cases h
              · obtain ⟨lon, hlon, h⟩ := Option.bind_eq_some_iff.mp h
                rcases lon with issue | lon
                · cases h
                · have hlatIff := within_iff_of_readCoordinate (hhalf 4).1 hlat
                  have hlonIff := within_iff_of_readCoordinate (hhalf 4).2 hlon
                  rw [ih hrest h, hnext, if_pos hpacked, List.forall_mem_cons,
                    List.forall_mem_cons, ← hlatIff, ← hlonIff]
                  simp [AllOnGlobe, limitOf, and_assoc]
      · next hsingle =>
          simp only [Option.bind_eq_bind] at h
          obtain ⟨value, hvalue, h⟩ := Option.bind_eq_some_iff.mp h
          rcases value with issue | value
          · cases h
          · have hiff := within_iff_of_readCoordinate hcoord hvalue
            rw [if_neg hsingle, List.forall_mem_cons, ← hiff]
            cases pending with
            | none =>
                rw [ih hrest h]
                simp [AllOnGlobe, limitOf]
            | some lat =>
                rw [ih hrest h, hnext]
                simp [AllOnGlobe, limitOf, and_assoc]

/-! ## The parser returns -/

/-- Digits are cut between characters. -/
theorem exists_parseCoordinate (h : IsSignedDigits coord) (isLatitude : Bool) :
    ∃ value, parseCoordinate (F := Number) coord isLatitude = some value := by
  by_cases hminus : coord.head? = some '-'
  · exact ⟨_, by rw [parseCoordinate, h.trim, if_pos hminus]⟩
  · by_cases hne : coord = []
    · subst hne
      exact ⟨none, rfl⟩
    · exact ⟨_, parseCoordinate_of_units hne (h.digits hminus) isLatitude⟩

variable {token : Str} {normalized tokens : List Str} {issues : List ProductParseIssue}

/-- Eight digits have two halves. -/
theorem exists_halves (h : ∀ c ∈ token, c.isDigit = true) (hlen : Str.byteLen token = 8) :
    ∃ front back, Str.sliceTo 4 token = some front ∧ Str.sliceFrom 4 token = some back ∧
      IsSignedDigits front ∧ IsSignedDigits back := by
  have hascii := Str.isAscii_of_isDigit h
  have hfour : 4 ≤ token.length := by
    rw [byteLen_of_digits h] at hlen
    omega
  exact ⟨_, _, Str.sliceTo_of_ascii hascii hfour, Str.sliceFrom_of_ascii hascii hfour,
    isSignedDigits_of_digits fun c hc => h c (List.mem_of_mem_take hc),
    isSignedDigits_of_digits fun c hc => h c (List.mem_of_mem_drop hc)⟩

theorem exists_splitPackedCoordinatePair (normalized : List Str) (h : IsSignedDigits token) :
    ∃ found, splitPackedCoordinatePair Number normalized token = some found := by
  unfold splitPackedCoordinatePair splitHalves
  split
  · exact ⟨_, rfl⟩
  · next hnot =>
      rw [not_or, not_or, not_not] at hnot
      obtain ⟨front, back, hfront, hback, hlat, hlon⟩ := exists_halves (h.digits hnot.1) hnot.2.1
      obtain ⟨lat, hlat⟩ := exists_parseCoordinate hlat true
      obtain ⟨lon, hlon⟩ := exists_parseCoordinate hlon false
      rw [hfront, hback]
      simp only [Option.bind_eq_bind, Option.bind_some, hlat, hlon]
      cases lat with
      | none => exact ⟨_, rfl⟩
      | some lat => cases lon <;> exact ⟨_, rfl⟩

theorem exists_splitFusedCoordinateToken (hall : ∀ coord ∈ normalized, IsSignedDigits coord)
    (h : IsSignedDigits token) :
    ∃ found, splitFusedCoordinateToken Number normalized token = some found := by
  unfold splitFusedCoordinateToken
  split
  · exact ⟨_, rfl⟩
  · next hnot =>
      rw [not_or, not_or, not_not] at hnot
      obtain ⟨front, back, hfront, hback, hlon, hlat⟩ := exists_halves (h.digits hnot.1) hnot.2.1
      split
      · exact ⟨_, rfl⟩
      · rw [hfront, hback]
        simp only [Option.bind_eq_bind, Option.bind_some]
        split
        · exact ⟨_, rfl⟩
        · next last hlast =>
            obtain ⟨pending, hpending⟩ :=
              exists_parseCoordinate (hall last (List.mem_of_getLast? hlast)) true
            obtain ⟨lon, hlon⟩ := exists_parseCoordinate hlon false
            obtain ⟨lat, hlat⟩ := exists_parseCoordinate hlat true
            rw [hpending, hlon, hlat]
            cases pending with
            | none => exact ⟨_, rfl⟩
            | some pending =>
                cases lon with
                | none => exact ⟨_, rfl⟩
                | some lon => cases lat <;> exact ⟨_, rfl⟩

/-- **Normalization.**  Tokens are digits before they are cut. -/
theorem exists_normalizeCoordinateTokens (hall : ∀ coord ∈ normalized, IsSignedDigits coord) :
    ∃ found, normalizeCoordinateTokens Number normalized issues tokens = some found := by
  induction hlen : tokens.length using Nat.strong_induction_on
    generalizing normalized issues tokens with
  | _ n ih =>
      cases tokens with
      | nil => exact ⟨_, by rw [normalizeCoordinateTokens]⟩
      | cons next others =>
          rw [normalizeCoordinateTokens]
          split
          · exact ⟨_, rfl⟩
          · split
            · exact ⟨_, rfl⟩
            · next token rest hconsume =>
                have hshorter := length_lt_of_consumeLatlonToken hconsume
                have htoken := isSignedDigits_of_consume hconsume
                obtain ⟨packed, hpacked⟩ := exists_splitPackedCoordinatePair normalized htoken
                rw [hpacked]
                simp only [Option.bind_eq_bind, Option.bind_some]
                have htwo : ∀ {a b : Str}, IsSignedDigits a ∧ IsSignedDigits b →
                    ∀ coord ∈ normalized ++ [a, b], IsSignedDigits coord := fun hab =>
                  List.forall_mem_append.mpr ⟨hall, by simpa using hab⟩
                rcases packed with _ | ⟨lat, lon⟩
                · obtain ⟨fused, hfused⟩ := exists_splitFusedCoordinateToken hall htoken
                  rw [hfused]
                  rcases fused with _ | ⟨lon, lat⟩
                  · have hone : ∀ coord ∈ normalized ++ [token], IsSignedDigits coord :=
                      List.forall_mem_append.mpr ⟨hall, by simpa using htoken⟩
                    exact ih _ (hlen ▸ hshorter) hone rfl
                  · exact ih _ (hlen ▸ hshorter)
                      (htwo (isSignedDigits_of_splitFused htoken hfused)) rfl
                · exact ih _ (hlen ▸ hshorter)
                    (htwo (isSignedDigits_of_splitPacked htoken hpacked)) rfl

theorem exists_readCoordinate (h : IsSignedDigits coord) (isLatitude : Bool) (raw : Str) :
    ∃ found : Except ProductParseIssue Number, readCoordinate coord isLatitude raw =
      some found := by
  obtain ⟨value, hvalue⟩ := exists_parseCoordinate h isLatitude
  exact ⟨_, by rw [readCoordinate, hvalue, Option.map_some]⟩

/-- Points are read, or an issue is found. -/
theorem exists_pointsFrom (raw : Str) (pending : Option Number) (points : List (Number × Number))
    {coords : List Str} (hcoords : ∀ coord ∈ coords, IsSignedDigits coord) :
    ∃ found, pointsFrom raw pending points coords = some found := by
  induction coords generalizing pending points with
  | nil => exact ⟨_, rfl⟩
  | cons coord coords ih =>
      obtain ⟨hcoord, hrest⟩ := List.forall_mem_cons.mp hcoords
      rw [pointsFrom]
      split
      · next hpacked =>
          split
          · exact ⟨_, rfl⟩
          · obtain ⟨front, back, hfront, hback, hfrontDigits, hbackDigits⟩ :=
              exists_halves (hcoord.digits hpacked.2) hpacked.1
            obtain ⟨lat, hlat⟩ := exists_readCoordinate hfrontDigits true raw
            obtain ⟨lon, hlon⟩ := exists_readCoordinate hbackDigits false raw
            rw [hfront, hback]
            simp only [Option.bind_eq_bind, Option.bind_some, hlat, hlon]
            rcases lat with issue | lat
            · exact ⟨_, rfl⟩
            · rcases lon with issue | lon
              · exact ⟨_, rfl⟩
              · exact ih _ _ hrest
      · obtain ⟨value, hvalue⟩ := exists_readCoordinate hcoord pending.isNone raw
        rw [hvalue]
        simp only [Option.bind_eq_bind, Option.bind_some]
        rcases value with issue | value
        · exact ⟨_, rfl⟩
        · cases pending with
          | none => exact ih _ _ hrest
          | some lat => exact ih _ _ hrest

/-- A block spells points, or an issue is found. -/
theorem exists_blockPoints (candidate : Str) :
    ∃ found, blockPoints Number candidate = some found := by
  unfold blockPoints
  dsimp only
  split
  · exact ⟨_, rfl⟩
  · next marker tokens hwords =>
      split
      · exact ⟨_, rfl⟩
      · unfold tokenPoints
        obtain ⟨found, hfound⟩ :
            ∃ found, normalizeCoordinateTokens Number [] [] tokens = some found :=
          exists_normalizeCoordinateTokens (by simp)
        rw [hfound]
        simp only [Option.bind_eq_bind, Option.bind_some]
        rcases found with _ | ⟨coords, issues⟩
        · exact ⟨_, rfl⟩
        · have hcoords := isSignedDigits_of_normalize (by simp) hfound
          obtain ⟨points, hpoints⟩ :
              ∃ points, parsePoints (F := Number) coords (Str.trim candidate) =
              some points := exists_pointsFrom (Str.trim candidate) none [] hcoords
          exact ⟨(points, issues), congrArg (·.bind fun points => some (points, issues)) hpoints⟩

/-- Blocks are cut from lines where a marker begins. -/
theorem exists_findLatlonCandidates (text : Str) :
    ∃ candidates, findLatlonCandidates text = some candidates := by
  rw [← Option.isSome_iff_exists, Option.isSome_iff_ne_none, findLatlonCandidates, Ne,
    Lines.scan_eq_none_iff]
  rintro ⟨⟨line, lines⟩, hblock, hnone⟩
  obtain ⟨behind, -, hcollect⟩ := rules.collect_isSome (Lines.starts_of_mem_scanned hblock) lines
  simp [collectLatlonCandidate, hcollect] at hnone

/-- **Panics.**  The parser of polygons returns for every text. -/
theorem exists_parseLatlonPolygons (text : Str) : ∃ polygons issues,
    parseLatlonPolygonsWithIssues (F := Number) text = some (polygons, issues) := by
  obtain ⟨candidates, hcandidates⟩ := exists_findLatlonCandidates text
  rw [parseLatlonPolygonsWithIssues, hcandidates]
  simp only [Option.bind_eq_bind, Option.bind_some]
  cases hresults : candidates.mapM (parseLatlonCandidate (F := Number)) with
  | some results => exact ⟨_, _, rfl⟩
  | none =>
      obtain ⟨candidate, -, hnone⟩ := mapM_eq_none_iff.mp hresults
      obtain ⟨found, hfound⟩ := exists_blockPoints candidate
      rw [parseLatlonCandidate_eq_blockPoints, hfound] at hnone
      cases hnone

/-! ## Blocks -/

/-- The coordinates of a block, one in each text. -/
def blockCoords (candidate : Str) : List Str :=
  match Str.splitWhitespace (Str.trim candidate) with
  | [] => []
  | _ :: tokens =>
      match normalizeCoordinateTokens Number [] [] tokens with
      | some (some (coords, _)) => coords
      | _ => []

/-- A block of three pairs of coordinates or more, all of which can be read, whose ring does not
cross itself. -/
def IsAccepted (candidate : Str) : Prop :=
  ∃ points issues ring, blockPoints Number candidate = some (.ok points, issues) ∧
    validatePolygon points (Str.trim candidate) = .ok ring

/-- The parser returns; all points of its polygons are on the globe; and a block without a
polygon is reported. -/
def PolygonsOnGlobe (text : Str) : Prop :=
  ∃ polygons issues, parseLatlonPolygonsWithIssues (F := Number) text = some (polygons, issues) ∧
    (∀ polygon ∈ polygons, ∀ point ∈ polygon.points, OnGlobe point) ∧
    ∀ candidate ∈ (findLatlonCandidates text).getD [],
      (∃ polygon ∈ polygons, ∃ repairs, parseLatlonCandidate candidate =
        some (some polygon, repairs)) ∨
        ∃ issue ∈ issues, ∃ found, issue ∈ found ∧
          parseLatlonCandidate (F := Number) candidate = some (none, found)

/-- The points of a block are those of its coordinates. -/
theorem pointsFrom_of_blockPoints {candidate : Str} {points : List (Number × Number)}
    {issues : List ProductParseIssue}
    (h : blockPoints Number candidate = some (.ok points, issues)) :
    pointsFrom (Str.trim candidate) none [] (blockCoords candidate) = some (.ok points) ∧
      ∀ coord ∈ blockCoords candidate, IsSignedDigits coord := by
  cases hwords : Str.splitWhitespace (Str.trim candidate) with
  | nil =>
      simp only [blockPoints, hwords] at h
      cases h
  | cons marker tokens =>
      simp only [blockPoints, hwords] at h
      simp only [blockCoords, hwords]
      split_ifs at h
      · cases h
      · unfold tokenPoints at h
        simp only [Option.bind_eq_bind] at h
        obtain ⟨normalized, hnormalized, h⟩ := Option.bind_eq_some_iff.mp h
        rcases normalized with _ | ⟨coords, found⟩
        · cases h
        · obtain ⟨parsed, hparsed, h⟩ := Option.bind_eq_some_iff.mp h
          obtain ⟨rfl, -⟩ := Prod.mk.inj (Option.some.inj h)
          simp only [hnormalized]
          exact ⟨hparsed, isSignedDigits_of_normalize (by simp) hnormalized⟩

/-- Closing a ring adds no other point. -/
theorem forall_closed_iff {points : List (Number × Number)} {P : Number × Number → Prop} :
    (∀ point ∈ closed points, P point) ↔ ∀ point ∈ points, P point := by
  cases hhead : points.head? with
  | none => rw [closed, hhead]
  | some first =>
      rw [closed_cases hhead]
      split
      · rfl
      · rw [List.forall_mem_append, List.forall_mem_singleton]
        exact and_iff_left_of_imp fun h => h first (List.mem_of_head? hhead)

/-- Every block makes a polygon or is reported. -/
theorem reported_of_parse {text : Str} {polygons : List (LatLonPolygon Number)}
    {issues : List ProductParseIssue}
    (h : parseLatlonPolygonsWithIssues text = some (polygons, issues)) :
    ∀ candidate ∈ (findLatlonCandidates text).getD [],
      (∃ polygon ∈ polygons, ∃ repairs, parseLatlonCandidate candidate =
        some (some polygon, repairs)) ∨
        ∃ issue ∈ issues, ∃ found, issue ∈ found ∧
          parseLatlonCandidate (F := Number) candidate = some (none, found) := by
  intro candidate hcandidate
  unfold parseLatlonPolygonsWithIssues at h
  simp only [Option.bind_eq_bind] at h
  obtain ⟨candidates, hcandidates, h⟩ := Option.bind_eq_some_iff.mp h
  obtain ⟨results, hresults, h⟩ := Option.bind_eq_some_iff.mp h
  obtain ⟨rfl, rfl⟩ := Prod.mk.inj (Option.some.inj h)
  rw [hcandidates, Option.getD_some] at hcandidate
  obtain ⟨⟨polygon, found⟩, hmem, hparse⟩ := exists_mem_mapM hresults hcandidate
  cases polygon with
  | some polygon => exact .inl ⟨polygon, List.mem_filterMap.mpr ⟨_, hmem, rfl⟩, found, hparse⟩
  | none =>
      have hlast := hparse
      rw [parseLatlonCandidate_eq_blockPoints] at hlast
      obtain ⟨⟨points, repairs⟩, -, hpolygon⟩ := Option.map_eq_some_iff.mp hlast
      have hfound : ∃ issue, issue ∈ found := by
        unfold polygonOf at hpolygon
        split at hpolygon
        · next issue _ =>
            obtain rfl := (Prod.mk.inj hpolygon).2
            exact ⟨issue, by simp⟩
        · cases hpolygon
      obtain ⟨issue, hissue⟩ := hfound
      exact .inr ⟨issue, List.mem_flatMap.mpr ⟨_, hmem, hissue⟩, found, hissue, hparse⟩

/-- **Polygons.**  All polygons of a text are on the globe exactly if the digits of all blocks that
are accepted are within their limits. -/
theorem polygonsOnGlobe_iff (text : Str) : PolygonsOnGlobe text ↔
    ∀ candidate ∈ (findLatlonCandidates text).getD [], IsAccepted candidate →
      AllOnGlobe true (blockCoords candidate) := by
  obtain ⟨polygons, issues, hparse⟩ := exists_parseLatlonPolygons text
  obtain ⟨candidates, hcandidates, hpolygons⟩ := mem_polygons_iff hparse
  have hring : ∀ {candidate : Str} {points : List (Number × Number)}
      {repairs : List ProductParseIssue},
      blockPoints Number candidate = some (.ok points, repairs) →
        ((∀ point ∈ closed points, OnGlobe point) ↔ AllOnGlobe true (blockCoords candidate)) := by
    intro candidate points repairs hpoints
    obtain ⟨hfrom, hdigits⟩ := pointsFrom_of_blockPoints hpoints
    rw [forall_closed_iff, onGlobe_of_pointsFrom hdigits hfrom]
    simp
  have hglobe : PolygonsOnGlobe text ↔
      ∀ polygon ∈ polygons, ∀ point ∈ polygon.points, OnGlobe point := by
    refine ⟨fun ⟨polygons', issues', hparse', hall, _⟩ => ?_,
      fun hall => ⟨polygons, issues, hparse, hall, reported_of_parse hparse⟩⟩
    rw [hparse] at hparse'
    obtain ⟨rfl, -⟩ := Prod.mk.inj (Option.some.inj hparse')
    exact hall
  rw [hglobe, hcandidates, Option.getD_some]
  constructor
  · rintro hall candidate hcandidate ⟨points, repairs, ring, hpoints, hvalid⟩
    have hmem : (⟨ring, formatPolygonWkt ring⟩ : LatLonPolygon Number) ∈ polygons :=
      (hpolygons _).mpr ⟨candidate, hcandidate, _, hpoints,
        polygonOf_eq_some_iff.mpr ⟨points, ring, rfl, hvalid, rfl⟩⟩
    rw [← hring hpoints, (validatePolygon_eq_ok hvalid).2]
    exact hall _ hmem
  · intro hall polygon hmem
    obtain ⟨candidate, hcandidate, found, hfound, hpolygon⟩ := (hpolygons polygon).mp hmem
    obtain ⟨points, ring, hok, hvalid, rfl⟩ := polygonOf_eq_some_iff.mp hpolygon
    obtain ⟨points', repairs⟩ := found
    obtain rfl : points' = .ok points := hok
    rw [← (validatePolygon_eq_ok hvalid).2]
    exact (hring hfound).mpr (hall candidate hcandidate ⟨points, repairs, ring, hfound, hvalid⟩)

end LatLon

end Parser
