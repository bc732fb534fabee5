/-
# Polygons that meet a box

`matches_bbox` looks for a vertex in the box, for a corner of the box in the polygon, and for an
edge that meets the box.  The coordinates of polygons are whole hundredths of a degree, so the
tolerances of its tests decide nothing in exact arithmetic: the three tests are those of
`Plane.exists_inside_iff`, and they find exactly the boxes with a point on the ring or inside
of it (`bbox_search_exact`).
-/
import Emwin.FileEvents.ExactPolygons

namespace FileEvents

open Floats Number Plane

/-! ## The polygon part -/

/-- The test that `matches_bbox` makes of each polygon. -/
def polygonMeetsBbox {F : Type} [FloatArith F] (points : List (F × F))
    (bbox : LocationBoundingBox F) : Bool :=
  (points.any fun (lat, lon) => pointInBbox ⟨lat, lon⟩ bbox) ||
    ((bboxCorners bbox).any fun corner => pointInPolygon corner points) ||
    (windows points).any fun segment => segmentIntersectsBbox segment.1 segment.2 bbox

/-! ## Hundredths -/

/-- A point in degrees, given in hundredths. -/
def degrees (K : Type*) [Field K] (v : ℤ × ℤ) : K × K := (v.1 / 100, v.2 / 100)

/-- A box with finite bounds. -/
def exactBox (lo hi : ℚ × ℚ) : LocationBoundingBox Number :=
  ⟨finite lo.1, finite hi.1, finite lo.2, finite hi.2⟩

theorem pointInBbox_exact (z lo hi : ℚ × ℚ) :
    pointInBbox (exactPoint z) (exactBox lo hi) = true ↔ z ∈ Set.Icc lo hi := by
  rw [mem_box_iff]
  simp only [pointInBbox, exactPoint, exactBox, ge_finite_eq, Bool.and_eq_true, decide_eq_true_eq,
    and_assoc]

/-- The cross product of points in hundredths, in ten-thousandths. -/
theorem exists_cross_eq (a b z : ℤ × ℤ) :
    ∃ n : ℤ, cross (degrees ℚ a) (degrees ℚ b) (degrees ℚ z) = n / 10000 := by
  refine ⟨(z.1 - a.1) * (b.2 - a.2) - (z.2 - a.2) * (b.1 - a.1), ?_⟩
  simp only [cross, degrees]
  push_cast
  ring

/-- A ten-thousandth is more than the tolerance. -/
theorem epsilon_lt_abs {n : ℤ} (h : n ≠ 0) : epsilon < |(n / 10000 : ℚ)| := by
  have hone : (1 : ℚ) ≤ |(n : ℚ)| := by exact_mod_cast Int.one_le_abs h
  rw [abs_div, abs_of_pos (by norm_num : (0 : ℚ) < 10000), lt_div_iff₀ (by norm_num)]
  refine lt_of_lt_of_le ?_ hone
  norm_num [epsilon]

/-- Between hundredths the tolerance makes no difference. -/
theorem sub_epsilon_le_iff (m n : ℤ) :
    (m / 100 - epsilon : ℚ) ≤ n / 100 ↔ (m / 100 : ℚ) ≤ n / 100 := by
  constructor
  · intro h
    by_contra hlt
    have hmn : n + 1 ≤ m := by
      by_contra hle
      refine hlt (div_le_div_of_nonneg_right ?_ (by norm_num))
      exact_mod_cast Int.lt_add_one_iff.mp (not_le.mp hle)
    have hcast : (n : ℚ) + 1 ≤ m := by exact_mod_cast hmn
    have heps : epsilon < 1 / 100 := by norm_num [epsilon]
    linarith
  · intro h
    linarith [epsilon_pos]

/-- In widened intervals lie the hundredths of the intervals. -/
theorem mem_uIcc_iff_epsilon (x y z : ℤ) :
    (min (x / 100 : ℚ) (y / 100) - epsilon ≤ z / 100 ∧
      (z / 100 : ℚ) ≤ max (x / 100 : ℚ) (y / 100) + epsilon) ↔
      (z / 100 : ℚ) ∈ Set.uIcc (x / 100 : ℚ) (y / 100) := by
  rw [← sub_le_iff_le_add]
  rcases le_total (x / 100 : ℚ) (y / 100) with h | h
  · rw [min_eq_left h, max_eq_right h, sub_epsilon_le_iff, sub_epsilon_le_iff, Set.uIcc_of_le h,
      Set.mem_Icc]
  · rw [min_eq_right h, max_eq_left h, sub_epsilon_le_iff, sub_epsilon_le_iff, Set.uIcc_of_ge h,
      Set.mem_Icc]

/-- Near an edge are the hundredths on the edge. -/
theorem nearEdge_iff (z a b : ℤ × ℤ) : NearEdge (degrees ℚ z) (degrees ℚ a, degrees ℚ b) ↔
    degrees ℚ z ∈ segment ℚ (degrees ℚ a) (degrees ℚ b) := by
  rw [mem_segment_iff_cross]
  refine and_congr ?_ (and_congr (mem_uIcc_iff_epsilon _ _ _) (mem_uIcc_iff_epsilon _ _ _))
  obtain ⟨n, hn⟩ := exists_cross_eq a b z
  dsimp only
  rw [hn]
  constructor
  · intro h
    by_contra hne
    refine absurd h (not_le.mpr (epsilon_lt_abs ?_))
    rintro rfl
    simp at hne
  · intro h
    rw [h, abs_zero]
    exact epsilon_pos.le

/-- **Hundredths.**  The points of a polygon are those on it and inside. -/
theorem pointInPolygon_degrees (z : ℤ × ℤ) (ring : List (ℤ × ℤ)) :
    pointInPolygon (exactPoint (degrees ℚ z)) ((ring.map (degrees ℚ)).map exact) = true ↔
      3 ≤ ring.length ∧ Inside (degrees ℚ z) (ring.map (degrees ℚ)) := by
  rw [pointInPolygon_exact, List.length_map]
  refine and_congr_right fun _ => or_congr_left ?_
  simp only [OnRing, edges_map, List.mem_map, exists_exists_and_eq_and, Prod.map, nearEdge_iff]

/-! ## Segments -/

theorem coe_sign_inj {s t : SignType} : (s : ℤ) = t ↔ s = t := by
  revert s t
  decide

/-- Orientations are the signs of cross products. -/
theorem orientation_degrees (a b c : ℤ × ℤ) :
    orientation (exactPoint (degrees ℚ a)) (exactPoint (degrees ℚ b)) (exactPoint (degrees ℚ c)) =
      SignType.sign (cross (degrees ℚ a) (degrees ℚ b) (degrees ℚ c)) := by
  have hvalue : ∀ a b c : ℚ × ℚ, (b.2 - a.2) * (c.1 - b.1) - (b.1 - a.1) * (c.2 - b.2) =
      cross a b c := by
    intro a b c
    rw [cross]
    ring
  simp only [orientation, exactPoint, finite_sub, finite_mul, abs_finite, EPSILON_eq, lt_finite,
    const_eq, Nat.cast_zero, decide_eq_true_eq, hvalue]
  obtain ⟨n, hn⟩ := exists_cross_eq a b c
  rw [hn]
  rcases lt_trichotomy n 0 with h | rfl | h
  · have hneg : (n / 10000 : ℚ) < 0 := div_neg_of_neg_of_pos (by exact_mod_cast h) (by norm_num)
    rw [if_neg (epsilon_lt_abs h.ne).not_gt, if_neg hneg.not_gt, sign_neg hneg]
    rfl
  · simp [epsilon_pos]
  · have hpos : (0 : ℚ) < n / 10000 := div_pos (by exact_mod_cast h) (by norm_num)
    rw [if_neg (epsilon_lt_abs h.ne').not_gt, if_pos hpos, sign_pos hpos]
    rfl

theorem onSegment_exact (a z b : ℚ × ℚ) :
    onSegment (exactPoint a) (exactPoint z) (exactPoint b) = true ↔
      z.1 ∈ Set.uIcc a.1 b.1 ∧ z.2 ∈ Set.uIcc a.2 b.2 := by
  simp only [onSegment, exactPoint, fmin_finite, fmax_finite, ge_finite_eq, Bool.and_eq_true,
    decide_eq_true_eq]
  change ((min a.2 b.2 ≤ z.2 ∧ z.2 ≤ max a.2 b.2) ∧ min a.1 b.1 ≤ z.1) ∧ z.1 ≤ max a.1 b.1 ↔
    (min a.1 b.1 ≤ z.1 ∧ z.1 ≤ max a.1 b.1) ∧ min a.2 b.2 ≤ z.2 ∧ z.2 ≤ max a.2 b.2
  tauto

/-- **Segments.**  The test for two segments is whether they have a common point. -/
theorem segmentsIntersect_degrees (a b c d : ℤ × ℤ) :
    segmentsIntersect (exactPoint (degrees ℚ a)) (exactPoint (degrees ℚ b))
        (exactPoint (degrees ℚ c)) (exactPoint (degrees ℚ d)) = true ↔
      ∃ p, p ∈ segment ℚ (degrees ℚ a) (degrees ℚ b) ∧
        p ∈ segment ℚ (degrees ℚ c) (degrees ℚ d) := by
  have hend : ∀ a z b : ℤ × ℤ, (decide ((SignType.sign
      (cross (degrees ℚ a) (degrees ℚ b) (degrees ℚ z)) : ℤ) = 0) && onSegment
        (exactPoint (degrees ℚ a)) (exactPoint (degrees ℚ z)) (exactPoint (degrees ℚ b))) = true ↔
      degrees ℚ z ∈ segment ℚ (degrees ℚ a) (degrees ℚ b) := by
    intro a z b
    rw [Bool.and_eq_true, decide_eq_true_eq, onSegment_exact, mem_segment_iff_cross]
    exact and_congr_left fun _ => coe_sign_inj.trans sign_eq_zero_iff
  rw [segmentsIntersect, meet_iff]
  simp only [orientation_degrees]
  split_ifs with h
  · refine iff_of_true rfl (Or.inl ?_)
    simpa only [Ne, coe_sign_inj] using h
  · rw [Bool.or_eq_true, Bool.or_eq_true, Bool.or_eq_true, hend, hend, hend, hend]
    simp only [Ne, coe_sign_inj] at h
    rw [or_iff_right h, or_assoc, or_assoc]

/-- **Edges.**  The test for an edge and a box is whether an end of the edge lies in the box or
the edge meets a side. -/
theorem segmentIntersectsBbox_degrees (a b lo hi : ℤ × ℤ) :
    segmentIntersectsBbox (exact (degrees ℚ a)) (exact (degrees ℚ b))
        (exactBox (degrees ℚ lo) (degrees ℚ hi)) = true ↔
      (degrees ℚ a ∈ Set.Icc (degrees ℚ lo) (degrees ℚ hi) ∨
        degrees ℚ b ∈ Set.Icc (degrees ℚ lo) (degrees ℚ hi)) ∨
        ∃ s ∈ sides (degrees ℚ lo) (degrees ℚ hi), ∃ p,
          p ∈ segment ℚ (degrees ℚ a) (degrees ℚ b) ∧ p ∈ segment ℚ s.1 s.2 := by
  have hsides : sides (degrees ℚ lo) (degrees ℚ hi) =
      (sides lo hi).map (Prod.map (degrees ℚ) (degrees ℚ)) := rfl
  have hany : segmentIntersectsBbox (exact (degrees ℚ a)) (exact (degrees ℚ b))
      (exactBox (degrees ℚ lo) (degrees ℚ hi)) =
        if pointInBbox (exactPoint (degrees ℚ a)) (exactBox (degrees ℚ lo) (degrees ℚ hi)) ||
          pointInBbox (exactPoint (degrees ℚ b)) (exactBox (degrees ℚ lo) (degrees ℚ hi)) then true
        else (sides lo hi).any fun s => segmentsIntersect (exactPoint (degrees ℚ a))
          (exactPoint (degrees ℚ b)) (exactPoint (degrees ℚ s.1))
            (exactPoint (degrees ℚ s.2)) := rfl
  rw [hany, hsides]
  split_ifs with h
  · rw [Bool.or_eq_true, pointInBbox_exact, pointInBbox_exact] at h
    exact iff_of_true rfl (Or.inl h)
  · rw [Bool.or_eq_true, pointInBbox_exact, pointInBbox_exact] at h
    rw [or_iff_right h]
    simp only [List.any_eq_true, segmentsIntersect_degrees, List.mem_map,
      exists_exists_and_eq_and, Prod.map]

/-! ## Rings -/

theorem walk_eq_windows {α : Type*} (v : α) (ws : List α) : walk v ws = windows (v :: ws) := by
  induction ws generalizing v with
  | nil => rfl
  | cons w ws ih =>
      rw [walk, ih]
      rfl

theorem windows_map {α β : Type*} (f : α → β) (xs : List α) :
    windows (xs.map f) = (windows xs).map (Prod.map f f) := by
  rw [windows, windows, ← List.map_tail, List.zip_map]

/-- The edges of a ring are those between neighbours, and one from its last point to its
first. -/
theorem exists_edges_eq {α : Type*} {ring : List α} (h : ring ≠ []) :
    ∃ last first, ring.getLast? = some last ∧ ring.head? = some first ∧
      edges ring = (last, first) :: windows ring := by
  obtain ⟨first, rest, rfl⟩ := List.exists_cons_of_ne_nil h
  refine ⟨_, first, List.getLast?_eq_some_getLast h, rfl, ?_⟩
  rw [edges, List.getLast?_eq_some_getLast h, ← walk_eq_windows]
  rfl

/-- The search over the tests of the parts. -/
theorem polygonMeetsBbox_degrees {ring : List (ℤ × ℤ)} (lo hi : ℤ × ℤ) (h : 3 ≤ ring.length) :
    polygonMeetsBbox ((ring.map (degrees ℚ)).map exact)
        (exactBox (degrees ℚ lo) (degrees ℚ hi)) = true ↔
      ((∃ v ∈ ring, degrees ℚ v ∈ Set.Icc (degrees ℚ lo) (degrees ℚ hi)) ∨
        ∃ c ∈ corners (degrees ℚ lo) (degrees ℚ hi), Inside c (ring.map (degrees ℚ))) ∨
        ∃ e ∈ windows ring, (degrees ℚ e.1 ∈ Set.Icc (degrees ℚ lo) (degrees ℚ hi) ∨
          degrees ℚ e.2 ∈ Set.Icc (degrees ℚ lo) (degrees ℚ hi)) ∨
            ∃ s ∈ sides (degrees ℚ lo) (degrees ℚ hi), ∃ p,
              p ∈ segment ℚ (degrees ℚ e.1) (degrees ℚ e.2) ∧ p ∈ segment ℚ s.1 s.2 := by
  have hcorners : bboxCorners (exactBox (degrees ℚ lo) (degrees ℚ hi)) =
      (corners lo hi).map fun c => exactPoint (degrees ℚ c) := rfl
  have hcorners' : corners (degrees ℚ lo) (degrees ℚ hi) = (corners lo hi).map (degrees ℚ) := rfl
  have hpoints : ∀ v : ℤ × ℤ, pointInBbox ⟨(exact (degrees ℚ v)).1, (exact (degrees ℚ v)).2⟩
      (exactBox (degrees ℚ lo) (degrees ℚ hi)) = true ↔
        degrees ℚ v ∈ Set.Icc (degrees ℚ lo) (degrees ℚ hi) := fun v => pointInBbox_exact _ _ _
  rw [polygonMeetsBbox, hcorners, hcorners', Bool.or_eq_true, Bool.or_eq_true, windows_map,
    windows_map]
  refine or_congr (or_congr ?_ ?_) ?_
  · simp only [List.any_map, List.any_eq_true, Function.comp_apply, hpoints]
  · simp only [List.any_map, List.any_eq_true, Function.comp_apply, List.mem_map,
      exists_exists_and_eq_and, pointInPolygon_degrees, h, true_and]
  · simp only [List.any_map, List.any_eq_true, Function.comp_apply, Prod.map,
      segmentIntersectsBbox_degrees]

/-- **Boxes.**  For closed rings and boxes in whole hundredths of a degree, the search finds in
exact arithmetic the boxes that have a point on the ring or inside of it by the even-odd rule. -/
theorem bbox_search_exact (K : Type*) [Field K] [LinearOrder K] [IsStrictOrderedRing K]
    (ring : List (ℤ × ℤ)) (lo hi : ℤ × ℤ) (hlength : 4 ≤ ring.length)
    (hclosed : ring.head? = ring.getLast?) (hbox : lo ≤ hi) :
    polygonMeetsBbox ((ring.map (degrees ℚ)).map exact)
        (exactBox (degrees ℚ lo) (degrees ℚ hi)) = true ↔
      ∃ z ∈ Set.Icc (degrees K lo) (degrees K hi), Inside z (ring.map (degrees K)) := by
  have hmap : ∀ v : ℤ × ℤ, mapPoint (Rat.castHom K) (degrees ℚ v) = degrees K v := by
    intro v
    have hcast : ∀ n : ℤ, Rat.castHom K ((n : ℚ) / 100) = (n : K) / 100 := fun n => by
      change (((n : ℚ) / 100 : ℚ) : K) = n / 100
      push_cast
      rfl
    exact Prod.ext (hcast v.1) (hcast v.2)
  have hmono : StrictMono (Rat.castHom K) := Rat.cast_strictMono
  have hle : degrees ℚ lo ≤ degrees ℚ hi := by
    refine ⟨?_, ?_⟩
    · exact div_le_div_of_nonneg_right (by exact_mod_cast hbox.1) (by norm_num)
    · exact div_le_div_of_nonneg_right (by exact_mod_cast hbox.2) (by norm_num)
  have hring : ring.map (degrees K) = (ring.map (degrees ℚ)).map (mapPoint (Rat.castHom K)) := by
    rw [List.map_map]
    exact List.map_congr_left fun v _ => (hmap v).symm
  rw [← hmap lo, ← hmap hi, hring, exists_inside_map hmono hle, exists_inside_iff hle,
    polygonMeetsBbox_degrees lo hi (by omega), edges_map]
  have hne : ring ≠ [] := by
    rintro rfl
    simp at hlength
  obtain ⟨last, first, hlast, hfirst, hedges⟩ := exists_edges_eq hne
  obtain rfl : first = last := Option.some.inj (by rw [← hfirst, hclosed, hlast])
  constructor
  · rintro ((⟨v, hv, hv'⟩ | hcorner) | ⟨e, he, (hstart | hend) | ⟨s, hs, p, hpe, hps⟩⟩)
    · exact Or.inl ⟨_, List.mem_map_of_mem hv, hv'⟩
    · exact Or.inr (Or.inl hcorner)
    · have hmem := (mem_of_mem_edges (hedges ▸ List.mem_cons_of_mem _ he)).1
      exact Or.inl ⟨_, List.mem_map_of_mem hmem, hstart⟩
    · have hmem := (mem_of_mem_edges (hedges ▸ List.mem_cons_of_mem _ he)).2
      exact Or.inl ⟨_, List.mem_map_of_mem hmem, hend⟩
    · refine Or.inr (Or.inr ⟨_, List.mem_map_of_mem ?_, s, hs, p, hpe, hps⟩)
      rw [hedges]
      exact List.mem_cons_of_mem _ he
  · rintro (⟨_, hmem, hv⟩ | hcorner | ⟨_, hmem, s, hs, p, hpe, hps⟩)
    · obtain ⟨v, hv', rfl⟩ := List.mem_map.mp hmem
      exact Or.inl (Or.inl ⟨v, hv', hv⟩)
    · exact Or.inl (Or.inr hcorner)
    · obtain ⟨e, he, rfl⟩ := List.mem_map.mp hmem
      rw [hedges] at he
      rcases List.mem_cons.mp he with rfl | he
      · -- the closing edge is a vertex
        simp only [Prod.map, segment_same, Set.mem_singleton_iff] at hpe
        refine Or.inl (Or.inl ⟨first, List.mem_of_getLast? hlast, ?_⟩)
        rw [← hpe]
        exact mem_box_of_mem_side hle hs hps
      · exact Or.inr ⟨e, he, Or.inr ⟨s, hs, p, hpe, hps⟩⟩

/-- A band across a square, with no vertex in it and no corner inside. -/
theorem bbox_search_band : polygonMeetsBbox
    (([(0, 0), (0, 300), (300, 300), (300, 0), (0, 0)].map (degrees ℚ)).map exact)
      (exactBox (degrees ℚ (100, -100)) (degrees ℚ (200, 400))) = true := by
  refine (bbox_search_exact ℚ [(0, 0), (0, 300), (300, 300), (300, 0), (0, 0)] (100, -100)
    (200, 400) (by decide) (by decide) (by decide)).mpr ⟨(1, 0), ?_, Or.inl
      ⟨(degrees ℚ (300, 0), degrees ℚ (0, 0)), ?_, ?_⟩⟩
  · rw [mem_box_iff]
    norm_num [degrees]
  · simp [edges, walk]
  · refine mem_segment_of_upright (by norm_num [degrees]) (by norm_num [degrees]) ?_
    rw [Set.mem_uIcc]
    norm_num [degrees]

end FileEvents
