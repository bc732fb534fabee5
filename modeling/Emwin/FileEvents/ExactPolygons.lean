/-
# Polygons without rounding

In exact arithmetic `point_in_polygon` says yes for the points near an edge, and for those from
which an odd number of edges is crossed (`pointInPolygon_iff`).  So such a point lies in the
bounds of the polygon, or as near to them as an edge can be, and to ask for the bounds first
changes the answer only there (`bounds_prefilter`).
-/
import Emwin.FileEvents.Location
import Emwin.Lib.EvenOdd

namespace FileEvents

open Floats Number Plane

/-- A point with finite coordinates. -/
def exact (v : ℚ × ℚ) : Number × Number := (finite v.1, finite v.2)

/-- A `GeoPoint` with finite coordinates. -/
def exactPoint (z : ℚ × ℚ) : GeoPoint Number := ⟨finite z.1, finite z.2⟩

/-- The value of `EPSILON`. -/
def epsilon : ℚ := 1 / 10 ^ 9

theorem EPSILON_eq : (EPSILON : Number) = finite epsilon := by
  show ofLiteral (.finite false 1 (-9)) = _
  simp [ofLiteral, epsilon]

theorem epsilon_pos : 0 < epsilon := by
  norm_num [epsilon]

@[simp] theorem fmin_finite (x y : ℚ) : fmin (finite x) (finite y) = finite (min x y) := by
  simp only [fmin, eq_finite, lt_finite, decide_true, Bool.true_eq_false, if_false,
    decide_eq_true_eq]
  split_ifs with h
  · rw [min_eq_right h.le]
  · rw [min_eq_left (not_lt.mp h)]

@[simp] theorem fmax_finite (x y : ℚ) : fmax (finite x) (finite y) = finite (max x y) := by
  simp only [fmax, eq_finite, lt_finite, decide_true, Bool.true_eq_false, if_false,
    decide_eq_true_eq]
  split_ifs with h
  · rw [max_eq_right h.le]
  · rw [max_eq_left (not_lt.mp h)]

@[simp] theorem abs_finite (x : ℚ) : abs (finite x) = finite |x| := by
  simp only [abs, const_eq, lt_finite, decide_eq_true_eq, finite_neg, Nat.cast_zero]
  split_ifs with h
  · rw [abs_of_neg h]
  · rw [abs_of_nonneg (not_lt.mp h)]

/-! ## Polygons -/

section Loop

variable {F : Type} [FloatArith F]

/-- The ray of `point_in_polygon` crosses an edge. -/
def crossesEdge (point : GeoPoint F) (e : (F × F) × (F × F)) : Bool :=
  (FloatArith.lt point.lat e.2.1 != FloatArith.lt point.lat e.1.1) &&
    ge ((e.1.2 - e.2.2) * (point.lat - e.2.1) / (e.1.1 - e.2.1) + e.2.2) point.lon

/-- The loop looks for an edge with the point, and counts the crossed edges in pairs. -/
theorem crossEdges_eq_true (point : GeoPoint F) (inside : Bool) (previous : F × F)
    (polygon : List (F × F)) : crossEdges point inside previous polygon = true ↔
      (∃ e ∈ walk previous polygon, pointOnSegment point e.1 e.2 = true) ∨
        (Odd ((walk previous polygon).countP (crossesEdge point)) ↔ inside = false) := by
  induction polygon generalizing inside previous with
  | nil => simp [crossEdges, walk]
  | cons current rest ih =>
      rw [crossEdges, walk]
      by_cases hon : pointOnSegment point previous current = true
      · rw [if_pos hon]
        exact iff_of_true rfl (Or.inl ⟨_, List.mem_cons_self, hon⟩)
      · rw [if_neg hon]
        dsimp only
        rw [ih]
        refine or_congr ?_ ?_
        · simp only [List.mem_cons, exists_eq_or_imp, hon, Bool.false_eq_true, false_or]
        · rw [List.countP_cons]
          change (Odd ((walk current rest).countP (crossesEdge point)) ↔
            (if crossesEdge point (previous, current) = true then !inside else inside) = false) ↔ _
          cases hcross : crossesEdge point (previous, current) with
          | false => simp
          | true =>
              rw [if_pos rfl, if_pos rfl, Nat.odd_add_one]
              cases inside <;> simp

/-- **Polygons.**  A polygon of three points or more has the points near its edges, and those
from which an odd number of edges is crossed. -/
theorem pointInPolygon_eq_true (point : GeoPoint F) (polygon : List (F × F)) :
    pointInPolygon point polygon = true ↔ 3 ≤ polygon.length ∧
      ((∃ e ∈ edges polygon, pointOnSegment point e.1 e.2 = true) ∨
        Odd ((edges polygon).countP (crossesEdge point))) := by
  rw [pointInPolygon]
  split_ifs with hlength
  · exact iff_of_false id fun h => absurd h.1 (not_le.mpr hlength)
  · have hne : polygon ≠ [] := by
      rintro rfl
      exact hlength (by simp)
    rw [edges, List.getLast?_eq_some_getLast hne]
    dsimp only
    rw [crossEdges_eq_true]
    simp only [iff_true, and_iff_right (not_lt.mp hlength)]

end Loop

/-- The number that the loop compares with is the point of the edge at the height of the ray. -/
theorem side_of_edge {z a b p : ℚ × ℚ} (hs : Straddles z.1 (a, b)) (hp : p ∈ segment ℚ a b)
    (hheight : p.1 = z.1) : (a.2 - b.2) * (z.1 - b.1) / (a.1 - b.1) + b.2 = p.2 := by
  have hne : a.1 - b.1 ≠ 0 := sub_ne_zero.mpr hs.ne
  have hcross := cross_of_mem_segment hp
  rw [cross, hheight] at hcross
  refine mul_right_cancel₀ hne ?_
  rw [add_mul, div_mul_cancel₀ _ hne]
  linear_combination -hcross

/-- The test of the loop is the rule of the ray. -/
theorem crossesEdge_exact (z : ℚ × ℚ) (e : (ℚ × ℚ) × (ℚ × ℚ)) :
    crossesEdge (exactPoint z) (Prod.map exact exact e) = true ↔ Crosses z e := by
  obtain ⟨a, b⟩ := e
  have hstraddles : (FloatArith.lt (finite z.1) (finite b.1) !=
      FloatArith.lt (finite z.1) (finite a.1)) = true ↔ Straddles z.1 (a, b) := by
    rw [bne_iff_ne, lt_finite, lt_finite, Ne, decide_eq_decide]
    exact not_congr iff_comm
  rw [crossesEdge, Bool.and_eq_true]
  simp only [Prod.map, exact, exactPoint]
  rw [hstraddles]
  constructor
  · rintro ⟨hs, hle⟩
    obtain ⟨p, hp, hheight⟩ := exists_mem_segment_fst hs.mem_uIcc
    refine (crosses_iff_le hs hp hheight).mpr ?_
    rw [← side_of_edge hs hp hheight]
    simpa [finite_div _ (sub_ne_zero.mpr hs.ne)] using hle
  · intro hcrosses
    have hs := hcrosses.1
    refine ⟨hs, ?_⟩
    obtain ⟨p, hp, hheight⟩ := exists_mem_segment_fst hs.mem_uIcc
    have hle := (crosses_iff_le hs hp hheight).mp hcrosses
    rw [← side_of_edge hs hp hheight] at hle
    simpa [finite_div _ (sub_ne_zero.mpr hs.ne)] using hle

/-- A point is as near to an edge as the tolerance allows. -/
def NearEdge (z : ℚ × ℚ) (e : (ℚ × ℚ) × (ℚ × ℚ)) : Prop :=
  |cross e.1 e.2 z| ≤ epsilon ∧
    (min e.1.1 e.2.1 - epsilon ≤ z.1 ∧ z.1 ≤ max e.1.1 e.2.1 + epsilon) ∧
      min e.1.2 e.2.2 - epsilon ≤ z.2 ∧ z.2 ≤ max e.1.2 e.2.2 + epsilon

theorem pointOnSegment_exact (z a b : ℚ × ℚ) :
    pointOnSegment (exactPoint z) (exact a) (exact b) = true ↔ NearEdge z (a, b) := by
  simp only [pointOnSegment, exactPoint, exact, EPSILON_eq, finite_sub, finite_mul, finite_add,
    fmin_finite, fmax_finite, abs_finite, lt_finite, ge_finite_eq, decide_eq_true_eq]
  rw [NearEdge, cross]
  split_ifs with h
  · exact iff_of_false id fun hnear => absurd hnear.1 (not_le.mpr h)
  · simp only [Bool.and_eq_true, decide_eq_true_eq, not_lt.mp h, true_and, and_assoc]

/-- **Polygons.**  In exact arithmetic a polygon of three points or more has the points near its
edges and those inside by the even-odd rule. -/
theorem pointInPolygon_exact (z : ℚ × ℚ) (ring : List (ℚ × ℚ)) :
    pointInPolygon (exactPoint z) (ring.map exact) = true ↔ 3 ≤ ring.length ∧
      ((∃ e ∈ edges ring, NearEdge z e) ∨ Odd (crossings z ring)) := by
  rw [pointInPolygon_eq_true, List.length_map, edges_map]
  refine and_congr_right fun _ => or_congr ?_ ?_
  · simp only [List.mem_map, exists_exists_and_eq_and, Prod.map, pointOnSegment_exact]
  · classical
    rw [List.countP_map, crossings]
    have hcount : (edges ring).countP (crossesEdge (exactPoint z) ∘ Prod.map exact exact) =
        (edges ring).countP fun e => Crosses z e := by
      refine List.countP_congr fun e _ => ?_
      rw [Function.comp_apply, crossesEdge_exact, decide_eq_true_eq]
    rw [hcount]

/-! ## Bounds -/

/-- Bounds with finite numbers. -/
def exactBounds (bounds : GeoBounds ℚ) : GeoBounds Number :=
  ⟨finite bounds.minLat, finite bounds.maxLat, finite bounds.minLon, finite bounds.maxLon⟩

/-- Bounds widened by `EPSILON` on each side. -/
def widen {F : Type} [FloatArith F] (bounds : GeoBounds F) : GeoBounds F :=
  ⟨bounds.minLat - EPSILON, bounds.maxLat + EPSILON, bounds.minLon - EPSILON,
    bounds.maxLon + EPSILON⟩

/-- A point lies between bounds. -/
def Within (bounds : GeoBounds ℚ) (v : ℚ × ℚ) : Prop :=
  (bounds.minLat ≤ v.1 ∧ v.1 ≤ bounds.maxLat) ∧ bounds.minLon ≤ v.2 ∧ v.2 ≤ bounds.maxLon

/-- Bounds that have one point more. -/
def extend (bounds : GeoBounds ℚ) (v : ℚ × ℚ) : GeoBounds ℚ :=
  ⟨min bounds.minLat v.1, max bounds.maxLat v.1, min bounds.minLon v.2, max bounds.maxLon v.2⟩

theorem within_extend_self (bounds : GeoBounds ℚ) (v : ℚ × ℚ) : Within (extend bounds v) v :=
  ⟨⟨min_le_right _ _, le_max_right _ _⟩, min_le_right _ _, le_max_right _ _⟩

theorem Within.extend {bounds : GeoBounds ℚ} {v : ℚ × ℚ} (h : Within bounds v) (w : ℚ × ℚ) :
    Within (extend bounds w) v :=
  ⟨⟨(min_le_left _ _).trans h.1.1, h.1.2.trans (le_max_left _ _)⟩,
    (min_le_left _ _).trans h.2.1, h.2.2.trans (le_max_left _ _)⟩

/-- The bounds of a polygon have its points. -/
theorem exists_polygonBounds {ring : List (ℚ × ℚ)} (h : ring ≠ []) :
    ∃ bounds, polygonBounds (ring.map exact) = some (exactBounds bounds) ∧
      ∀ v ∈ ring, Within bounds v := by
  obtain ⟨first, rest, rfl⟩ := List.exists_cons_of_ne_nil h
  have hfold : ∀ (rest : List (ℚ × ℚ)) (bounds : GeoBounds ℚ),
      (rest.map exact).foldl (fun bounds (lat, lon) =>
        { minLat := fmin bounds.minLat lat
          maxLat := fmax bounds.maxLat lat
          minLon := fmin bounds.minLon lon
          maxLon := fmax bounds.maxLon lon }) (exactBounds bounds) =
        exactBounds (rest.foldl extend bounds) := by
    intro rest
    induction rest with
    | nil => exact fun _ => rfl
    | cons v rest ih =>
        intro bounds
        rw [List.map_cons, List.foldl_cons, List.foldl_cons, ← ih]
        simp only [exactBounds, exact, fmin_finite, fmax_finite, extend]
  have hwithin : ∀ (rest : List (ℚ × ℚ)) (bounds : GeoBounds ℚ) (v : ℚ × ℚ),
      (Within bounds v ∨ v ∈ rest) → Within (rest.foldl extend bounds) v := by
    intro rest
    induction rest with
    | nil => exact fun _ _ hv => hv.resolve_right List.not_mem_nil
    | cons w rest ih =>
        intro bounds v hv
        rw [List.foldl_cons]
        refine ih _ v ?_
        rcases hv with hv | hv
        · exact Or.inl (hv.extend w)
        · rcases List.mem_cons.mp hv with rfl | hv
          · exact Or.inl (within_extend_self bounds v)
          · exact Or.inr hv
  refine ⟨rest.foldl extend ⟨first.1, first.1, first.2, first.2⟩,
    congrArg some (hfold rest ⟨first.1, first.1, first.2, first.2⟩),
      fun v hv => hwithin rest _ v ?_⟩
  rcases List.mem_cons.mp hv with rfl | hv
  · exact Or.inl ⟨⟨le_rfl, le_rfl⟩, le_rfl, le_rfl⟩
  · exact Or.inr hv

theorem boundsContains_exact (bounds : GeoBounds ℚ) (z : ℚ × ℚ) :
    boundsContains (exactBounds bounds) (exactPoint z) = true ↔ Within bounds z := by
  simp only [boundsContains, exactBounds, exactPoint, ge_finite_eq, Bool.and_eq_true,
    decide_eq_true_eq, Within, and_assoc]

theorem widen_exact (bounds : GeoBounds ℚ) : widen (exactBounds bounds) = exactBounds
    ⟨bounds.minLat - epsilon, bounds.maxLat + epsilon, bounds.minLon - epsilon,
      bounds.maxLon + epsilon⟩ := by
  simp only [widen, exactBounds, EPSILON_eq, finite_sub, finite_add]

/-- A point near an edge lies between the widened bounds. -/
theorem NearEdge.within {z : ℚ × ℚ} {e : (ℚ × ℚ) × (ℚ × ℚ)} {bounds : GeoBounds ℚ}
    (h : NearEdge z e) (hfirst : Within bounds e.1) (hsecond : Within bounds e.2) :
    Within ⟨bounds.minLat - epsilon, bounds.maxLat + epsilon, bounds.minLon - epsilon,
      bounds.maxLon + epsilon⟩ z := by
  obtain ⟨-, hheight, hside⟩ := h
  refine ⟨⟨?_, ?_⟩, ?_, ?_⟩
  · exact le_trans (sub_le_sub_right (le_min hfirst.1.1 hsecond.1.1) _) hheight.1
  · exact hheight.2.trans (add_le_add_left (max_le hfirst.1.2 hsecond.1.2) _)
  · exact le_trans (sub_le_sub_right (le_min hfirst.2.1 hsecond.2.1) _) hside.1
  · exact hside.2.trans (add_le_add_left (max_le hfirst.2.2 hsecond.2.2) _)

/-- A point inside by the even-odd rule lies between the bounds. -/
theorem within_of_odd {z : ℚ × ℚ} {ring : List (ℚ × ℚ)} {bounds : GeoBounds ℚ}
    (h : Odd (crossings z ring)) (hring : ∀ v ∈ ring, Within bounds v) : Within bounds z := by
  obtain ⟨⟨v1, h1, hv1⟩, ⟨v2, h2, hv2⟩, ⟨v3, h3, hv3⟩, v4, h4, hv4⟩ := exists_bounds_of_odd h
  exact ⟨⟨(hring v1 h1).1.1.trans hv1, hv2.trans (hring v2 h2).1.2⟩,
    (hring v3 h3).2.1.trans hv3, hv4.trans (hring v4 h4).2.2⟩

/-- The test that the live filter makes of each polygon: the bounds first. -/
def containsPoint {F : Type} [FloatArith F] (points : List (F × F)) (center : GeoPoint F) : Bool :=
  ((polygonBounds points).any fun bounds => boundsContains bounds center) &&
    pointInPolygon center points

/-- **Bounds.**  In exact arithmetic the points of a polygon lie in its bounds widened by
`EPSILON`, and the test of the live filter differs from `point_in_polygon` only on points
outside of the bounds that lie in the widened ones. -/
theorem bounds_prefilter (points : List (ℚ × ℚ)) (z : ℚ × ℚ) :
    (pointInPolygon (exactPoint z) (points.map exact) = true →
        ∃ bounds, polygonBounds (points.map exact) = some bounds ∧
          boundsContains (widen bounds) (exactPoint z) = true) ∧
      (containsPoint (points.map exact) (exactPoint z) ≠
          pointInPolygon (exactPoint z) (points.map exact) →
        ∃ bounds, polygonBounds (points.map exact) = some bounds ∧
          boundsContains bounds (exactPoint z) = false ∧
            boundsContains (widen bounds) (exactPoint z) = true) := by
  have hwiden : pointInPolygon (exactPoint z) (points.map exact) = true →
      ∃ bounds, polygonBounds (points.map exact) = some bounds ∧
        boundsContains (widen bounds) (exactPoint z) = true := by
    intro h
    obtain ⟨hlength, h⟩ := (pointInPolygon_exact z points).mp h
    have hne : points ≠ [] := by
      rintro rfl
      simp at hlength
    obtain ⟨bounds, hbounds, hwithin⟩ := exists_polygonBounds hne
    refine ⟨_, hbounds, ?_⟩
    rw [widen_exact, boundsContains_exact]
    rcases h with ⟨e, he, hnear⟩ | hodd
    · obtain ⟨hfirst, hsecond⟩ := mem_of_mem_edges he
      exact hnear.within (hwithin _ hfirst) (hwithin _ hsecond)
    · have hz := within_of_odd hodd hwithin
      have hpos := epsilon_pos.le
      exact ⟨⟨(sub_le_self _ hpos).trans hz.1.1, hz.1.2.trans (le_add_of_nonneg_right hpos)⟩,
        (sub_le_self _ hpos).trans hz.2.1, hz.2.2.trans (le_add_of_nonneg_right hpos)⟩
  refine ⟨hwiden, fun hdiffer => ?_⟩
  have hinside : pointInPolygon (exactPoint z) (points.map exact) = true := by
    by_contra hnot
    rw [Bool.not_eq_true] at hnot
    exact hdiffer (by rw [containsPoint, hnot, Bool.and_false])
  obtain ⟨bounds, hbounds, hcontains⟩ := hwiden hinside
  refine ⟨bounds, hbounds, ?_, hcontains⟩
  by_contra hnot
  rw [Bool.not_eq_false] at hnot
  exact hdiffer (by rw [containsPoint, hbounds, Option.any_some, hnot, Bool.true_and])

end FileEvents
