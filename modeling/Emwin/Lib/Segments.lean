/-
# Segments in the plane

A point of the plane is a pair of numbers of an ordered field, its height first.  Membership in
a segment (`mem_segment_iff_cross`) and the question whether two segments meet (`meet_iff`) are
decided by the signs of cross products and by comparisons, without division.
-/
import Mathlib.Analysis.Convex.Segment
import Mathlib.Analysis.Convex.Basic
import Mathlib.Data.Sign.Basic
import Mathlib.Tactic.FieldSimp
import Mathlib.Tactic.LinearCombination
import Mathlib.Tactic.Linarith

namespace Plane

variable {K : Type*} [Field K] [LinearOrder K] [IsStrictOrderedRing K] {a b c d p q z : K × K}

/-- The cross product of `b - a` with `z - a`; it is zero on the line from `a` to `b`. -/
def cross (a b z : K × K) : K := (z.1 - a.1) * (b.2 - a.2) - (z.2 - a.2) * (b.1 - a.1)

/-! ## Membership -/

theorem mem_segment_iff_exists : z ∈ segment K a b ↔
    ∃ t : K, 0 ≤ t ∧ t ≤ 1 ∧ z.1 = a.1 + t * (b.1 - a.1) ∧ z.2 = a.2 + t * (b.2 - a.2) := by
  rw [segment_eq_image']
  constructor
  · rintro ⟨t, ⟨h0, h1⟩, rfl⟩
    exact ⟨t, h0, h1, rfl, rfl⟩
  · rintro ⟨t, h0, h1, hfst, hsnd⟩
    exact ⟨t, ⟨h0, h1⟩, Prod.ext hfst.symm hsnd.symm⟩

theorem uIcc_of_mem_segment (h : z ∈ segment K a b) :
    z.1 ∈ Set.uIcc a.1 b.1 ∧ z.2 ∈ Set.uIcc a.2 b.2 := by
  obtain ⟨hfst, hsnd⟩ := Prod.segment_subset a b h
  rw [segment_eq_uIcc] at hfst hsnd
  exact ⟨hfst, hsnd⟩

theorem cross_of_mem_segment (h : z ∈ segment K a b) : cross a b z = 0 := by
  obtain ⟨t, -, -, hfst, hsnd⟩ := mem_segment_iff_exists.mp h
  rw [cross, hfst, hsnd]
  ring

/-- A segment has points over every number between the ends of its shadow. -/
theorem exists_mem_segment_fst {h : K} (hh : h ∈ Set.uIcc a.1 b.1) :
    ∃ z ∈ segment K a b, z.1 = h := by
  rw [← segment_eq_uIcc, segment_eq_image'] at hh
  obtain ⟨t, ht, rfl⟩ := hh
  rw [segment_eq_image']
  exact ⟨_, ⟨t, ht, rfl⟩, rfl⟩

theorem exists_mem_segment_snd {x : K} (hx : x ∈ Set.uIcc a.2 b.2) :
    ∃ z ∈ segment K a b, z.2 = x := by
  rw [← segment_eq_uIcc, segment_eq_image'] at hx
  obtain ⟨t, ht, rfl⟩ := hx
  rw [segment_eq_image']
  exact ⟨_, ⟨t, ht, rfl⟩, rfl⟩

/-- A point on the line through a segment, with its factor. -/
theorem exists_factor (hab : a ≠ b) (h : cross a b z = 0) :
    ∃ t : K, z.1 = a.1 + t * (b.1 - a.1) ∧ z.2 = a.2 + t * (b.2 - a.2) := by
  have hcross : (z.1 - a.1) * (b.2 - a.2) = (z.2 - a.2) * (b.1 - a.1) := sub_eq_zero.mp h
  by_cases hfst : b.1 - a.1 = 0
  · have hsnd : b.2 - a.2 ≠ 0 := fun hsnd =>
      hab (Prod.ext (sub_eq_zero.mp hfst).symm (sub_eq_zero.mp hsnd).symm)
    refine ⟨(z.2 - a.2) / (b.2 - a.2), ?_, ?_⟩
    · rw [hfst, mul_zero] at hcross ⊢
      linarith [(mul_eq_zero.mp hcross).resolve_right hsnd]
    · rw [div_mul_cancel₀ _ hsnd]
      ring
  · refine ⟨(z.1 - a.1) / (b.1 - a.1), ?_, ?_⟩
    · rw [div_mul_cancel₀ _ hfst]
      ring
    · rw [div_mul_eq_mul_div, hcross, mul_div_cancel_right₀ _ hfst]
      ring

/-- The factor of a number between two others. -/
theorem factor_mem {x y t : K} (hxy : x ≠ y) (h : x + t * (y - x) ∈ Set.uIcc x y) :
    0 ≤ t ∧ t ≤ 1 := by
  rcases hxy.lt_or_gt with hlt | hgt
  · rw [Set.uIcc_of_le hlt.le, Set.mem_Icc] at h
    have hpos : 0 < y - x := sub_pos.mpr hlt
    refine ⟨nonneg_of_mul_nonneg_left (by linarith [h.1]) hpos, ?_⟩
    exact le_of_mul_le_mul_right (by linarith [h.2]) hpos
  · rw [Set.uIcc_of_ge hgt.le, Set.mem_Icc] at h
    have hpos : 0 < x - y := sub_pos.mpr hgt
    refine ⟨nonneg_of_mul_nonneg_left (by linarith [h.2]) hpos, ?_⟩
    exact le_of_mul_le_mul_right (by linarith [h.1]) hpos

/-- **Membership.**  The points of a segment are those of its line that lie in its shadows. -/
theorem mem_segment_iff_cross : z ∈ segment K a b ↔
    cross a b z = 0 ∧ z.1 ∈ Set.uIcc a.1 b.1 ∧ z.2 ∈ Set.uIcc a.2 b.2 := by
  refine ⟨fun h => ⟨cross_of_mem_segment h, uIcc_of_mem_segment h⟩, ?_⟩
  rintro ⟨h, hfst, hsnd⟩
  by_cases hab : a = b
  · subst hab
    rw [Set.uIcc_self, Set.mem_singleton_iff] at hfst hsnd
    rw [segment_same, Set.mem_singleton_iff]
    exact Prod.ext hfst hsnd
  · obtain ⟨t, htfst, htsnd⟩ := exists_factor hab h
    have ht : 0 ≤ t ∧ t ≤ 1 := by
      by_cases hne : a.1 = b.1
      · exact factor_mem (fun heq => hab (Prod.ext hne heq)) (htsnd ▸ hsnd)
      · exact factor_mem hne (htfst ▸ hfst)
    exact mem_segment_iff_exists.mpr ⟨t, ht.1, ht.2, htfst, htsnd⟩

/-- On a segment that is not level a height is taken once. -/
theorem eq_of_mem_segment (hab : a.1 ≠ b.1) (hp : p ∈ segment K a b) (hq : q ∈ segment K a b)
    (h : p.1 = q.1) : p = q := by
  obtain ⟨s, -, -, hs1, hs2⟩ := mem_segment_iff_exists.mp hp
  obtain ⟨t, -, -, ht1, ht2⟩ := mem_segment_iff_exists.mp hq
  have hst : s = t := by
    rw [hs1, ht1] at h
    exact mul_right_cancel₀ (sub_ne_zero.mpr hab.symm) (add_left_cancel h)
  refine Prod.ext h ?_
  rw [hs2, ht2, hst]

/-! ## Meeting -/

/-- Two numbers of different signs have a zero between them. -/
theorem exists_zero_of_sign_ne {x y : K} (h : SignType.sign x ≠ SignType.sign y) :
    x ≠ y ∧ ∃ t : K, 0 ≤ t ∧ t ≤ 1 ∧ x + t * (y - x) = 0 := by
  have hne : x ≠ y := fun heq => h (congrArg _ heq)
  have hzero : (0 : K) ∈ Set.uIcc x y := by
    by_contra hnot
    rw [Set.mem_uIcc, not_or, not_and_or, not_and_or] at hnot
    rcases lt_or_ge 0 x with hx | hx
    · have hy : 0 < y := by
        rcases hnot.2 with hy | hx'
        · exact not_le.mp hy
        · exact absurd hx.le hx'
      exact h (by rw [sign_pos hx, sign_pos hy])
    · have hy : y < 0 := by
        rcases hnot.1 with hx' | hy
        · exact absurd hx hx'
        · exact not_le.mp hy
      have hx' : x < 0 := by
        rcases hnot.2 with hy' | hx'
        · exact absurd hy.le hy'
        · exact not_le.mp hx'
      exact h (by rw [sign_neg hx', sign_neg hy])
  rw [← segment_eq_uIcc, segment_eq_image'] at hzero
  obtain ⟨t, ⟨h0, h1⟩, ht⟩ := hzero
  exact ⟨hne, t, h0, h1, ht⟩

omit [LinearOrder K] [IsStrictOrderedRing K] in
/-- The cross product is affine in the point. -/
theorem cross_of_factor {t : K} (hfst : z.1 = c.1 + t * (d.1 - c.1))
    (hsnd : z.2 = c.2 + t * (d.2 - c.2)) :
    cross a b z = cross a b c + t * (cross a b d - cross a b c) := by
  simp only [cross, hfst, hsnd]
  ring

/-- Numbers of one sign have a zero between them only if they are zero. -/
theorem eq_zero_of_sign_eq {x y t : K} (h0 : 0 ≤ t) (h1 : t ≤ 1)
    (h : SignType.sign x = SignType.sign y) (hzero : x + t * (y - x) = 0) : x = 0 ∧ y = 0 := by
  rcases lt_trichotomy x 0 with hx | rfl | hx
  · have hy : y < 0 := sign_eq_neg_one_iff.mp (h ▸ sign_neg hx)
    nlinarith [mul_nonneg h0 (neg_nonneg.mpr hy.le),
      mul_nonneg (sub_nonneg.mpr h1) (neg_nonneg.mpr hx.le)]
  · rw [sign_zero, eq_comm, sign_eq_zero_iff] at h
    exact ⟨rfl, h⟩
  · have hy : 0 < y := sign_eq_one_iff.mp (h ▸ sign_pos hx)
    nlinarith [mul_nonneg h0 hy.le, mul_nonneg (sub_nonneg.mpr h1) hx.le]

omit [IsStrictOrderedRing K] in
/-- Two intervals with a common number: one has an end of the other. -/
theorem end_mem_of_mem_uIcc {s t u : K} (hu0 : 0 ≤ u) (hu1 : u ≤ 1) (hu : u ∈ Set.uIcc s t) :
    (0 ≤ s ∧ s ≤ 1) ∨ (0 ≤ t ∧ t ≤ 1) ∨ 0 ∈ Set.uIcc s t := by
  rw [Set.mem_uIcc] at hu ⊢
  by_cases hs : 0 ≤ s
  · by_cases hs1 : s ≤ 1
    · exact Or.inl ⟨hs, hs1⟩
    · rcases hu with hu | hu
      · exact absurd (hu.1.trans hu1) hs1
      · rcases le_total 0 t with ht | ht
        · exact Or.inr (Or.inl ⟨ht, hu.1.trans hu1⟩)
        · exact Or.inr (Or.inr (Or.inr ⟨ht, hs⟩))
  · have hs' : s ≤ 0 := (not_le.mp hs).le
    rcases hu with hu | hu
    · exact Or.inr (Or.inr (Or.inl ⟨hs', hu0.trans hu.2⟩))
    · exact absurd (hu0.trans hu.2) hs

/-- Two segments of one line that meet: an end of one lies on the other. -/
theorem end_mem_of_collinear (hc : cross a b c = 0) (hd : cross a b d = 0)
    (hab : z ∈ segment K a b) (hcd : z ∈ segment K c d) :
    c ∈ segment K a b ∨ d ∈ segment K a b ∨ a ∈ segment K c d := by
  by_cases hne : a = b
  · rw [hne, segment_same, Set.mem_singleton_iff] at hab
    rw [hne, ← hab]
    exact Or.inr (Or.inr hcd)
  · obtain ⟨u, hu0, hu1, hu⟩ := mem_segment_iff_exists.mp hab
    obtain ⟨r, hr0, hr1, hr⟩ := mem_segment_iff_exists.mp hcd
    obtain ⟨s, hs⟩ := exists_factor hne hc
    obtain ⟨t, ht⟩ := exists_factor hne hd
    -- the factors on the line from `a` to `b`
    have hfactor : s + r * (t - s) = u := by
      by_cases hfst : b.1 - a.1 = 0
      · have hsnd : b.2 - a.2 ≠ 0 := fun hsnd =>
          hne (Prod.ext (sub_eq_zero.mp hfst).symm (sub_eq_zero.mp hsnd).symm)
        refine mul_right_cancel₀ hsnd ?_
        linear_combination hu.2 - hr.2 + (r - 1) * hs.2 - r * ht.2
      · refine mul_right_cancel₀ hfst ?_
        linear_combination hu.1 - hr.1 + (r - 1) * hs.1 - r * ht.1
    have hmem : u ∈ Set.uIcc s t := by
      rw [← segment_eq_uIcc, segment_eq_image']
      exact ⟨r, ⟨hr0, hr1⟩, hfactor⟩
    rcases end_mem_of_mem_uIcc hu0 hu1 hmem with h | h | h
    · exact Or.inl (mem_segment_iff_exists.mpr ⟨s, h.1, h.2, hs.1, hs.2⟩)
    · exact Or.inr (Or.inl (mem_segment_iff_exists.mpr ⟨t, h.1, h.2, ht.1, ht.2⟩))
    · rw [← segment_eq_uIcc, segment_eq_image'] at h
      obtain ⟨v, ⟨hv0, hv1⟩, hv⟩ := h
      have hv' : s + v * (t - s) = 0 := hv
      refine Or.inr (Or.inr (mem_segment_iff_exists.mpr ⟨v, hv0, hv1, ?_, ?_⟩))
      · linear_combination (v - 1) * hs.1 - v * ht.1 - (b.1 - a.1) * hv'
      · linear_combination (v - 1) * hs.2 - v * ht.2 - (b.2 - a.2) * hv'

/-- Segments whose ends lie on different sides of each other meet. -/
theorem exists_mem_of_sign_ne
    (hab : SignType.sign (cross a b c) ≠ SignType.sign (cross a b d))
    (hcd : SignType.sign (cross c d a) ≠ SignType.sign (cross c d b)) :
    ∃ z, z ∈ segment K a b ∧ z ∈ segment K c d := by
  obtain ⟨hne, t, ht0, ht1, ht⟩ := exists_zero_of_sign_ne hab
  obtain ⟨-, s, hs0, hs1, hs⟩ := exists_zero_of_sign_ne hcd
  -- the points in which the two lines meet each of the segments
  have hline : cross a b (c.1 + t * (d.1 - c.1), c.2 + t * (d.2 - c.2)) = 0 := by
    rw [cross_of_factor rfl rfl, ht]
  have hline' : cross c d (a.1 + s * (b.1 - a.1), a.2 + s * (b.2 - a.2)) = 0 := by
    rw [cross_of_factor rfl rfl, hs]
  have hdet : (d.1 - c.1) * (b.2 - a.2) - (d.2 - c.2) * (b.1 - a.1) ≠ 0 := by
    intro hdet
    refine hne ?_
    simp only [cross]
    linear_combination -hdet
  simp only [cross] at hline hline'
  have hfst : c.1 + t * (d.1 - c.1) = a.1 + s * (b.1 - a.1) := by
    refine mul_right_cancel₀ hdet ?_
    linear_combination (d.1 - c.1) * hline + (b.1 - a.1) * hline'
  have hsnd : c.2 + t * (d.2 - c.2) = a.2 + s * (b.2 - a.2) := by
    refine mul_right_cancel₀ hdet ?_
    linear_combination (d.2 - c.2) * hline + (b.2 - a.2) * hline'
  exact ⟨(a.1 + s * (b.1 - a.1), a.2 + s * (b.2 - a.2)),
    mem_segment_iff_exists.mpr ⟨s, hs0, hs1, rfl, rfl⟩,
      mem_segment_iff_exists.mpr ⟨t, ht0, ht1, hfst.symm, hsnd.symm⟩⟩

/-- **Meeting.**  Two segments meet if the ends of each are on different sides of the other, or
an end of one lies on the other. -/
theorem meet_iff : (∃ z, z ∈ segment K a b ∧ z ∈ segment K c d) ↔
    (SignType.sign (cross a b c) ≠ SignType.sign (cross a b d) ∧
        SignType.sign (cross c d a) ≠ SignType.sign (cross c d b)) ∨
      c ∈ segment K a b ∨ d ∈ segment K a b ∨ a ∈ segment K c d ∨ b ∈ segment K c d := by
  constructor
  · rintro ⟨z, hab, hcd⟩
    obtain ⟨s, hs0, hs1, hs⟩ := mem_segment_iff_exists.mp hab
    obtain ⟨t, ht0, ht1, ht⟩ := mem_segment_iff_exists.mp hcd
    by_cases h : SignType.sign (cross a b c) = SignType.sign (cross a b d)
    · have hzero : cross a b c + t * (cross a b d - cross a b c) = 0 := by
        rw [← cross_of_factor ht.1 ht.2, cross_of_mem_segment hab]
      obtain ⟨hc, hd⟩ := eq_zero_of_sign_eq ht0 ht1 h hzero
      rcases end_mem_of_collinear hc hd hab hcd with h | h | h
      · exact Or.inr (Or.inl h)
      · exact Or.inr (Or.inr (Or.inl h))
      · exact Or.inr (Or.inr (Or.inr (Or.inl h)))
    · by_cases h' : SignType.sign (cross c d a) = SignType.sign (cross c d b)
      · have hzero : cross c d a + s * (cross c d b - cross c d a) = 0 := by
          rw [← cross_of_factor hs.1 hs.2, cross_of_mem_segment hcd]
        obtain ⟨ha, hb⟩ := eq_zero_of_sign_eq hs0 hs1 h' hzero
        rcases end_mem_of_collinear ha hb hcd hab with h | h | h
        · exact Or.inr (Or.inr (Or.inr (Or.inl h)))
        · exact Or.inr (Or.inr (Or.inr (Or.inr h)))
        · exact Or.inr (Or.inl h)
      · exact Or.inl ⟨h, h'⟩
  · rintro (⟨h, h'⟩ | h | h | h | h)
    · exact exists_mem_of_sign_ne h h'
    · exact ⟨c, h, left_mem_segment K c d⟩
    · exact ⟨d, h, right_mem_segment K c d⟩
    · exact ⟨a, left_mem_segment K a b, h⟩
    · exact ⟨b, right_mem_segment K a b, h⟩

end Plane
