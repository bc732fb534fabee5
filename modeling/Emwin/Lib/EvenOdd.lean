/-
# The even-odd rule

A walk through points of the plane has the edges between neighbours, and a ring also the edge
from its last point to its first.  A point is inside by the even-odd rule if the ray from it to
growing second coordinates crosses an odd number of edges, where an edge belongs to its lower
end but not to its upper.

A ring crosses every height an even number of times (`even_countP_changes`).  So a point inside
lies between the points of the ring in both directions (`exists_bounds_of_odd`), and a move that
meets no edge does not change the rule (`odd_crossings_iff`).
-/
import Emwin.Lib.Segments
import Mathlib.Data.List.Count
import Mathlib.Algebra.Group.Nat.Even
import Mathlib.Algebra.Order.Monoid.Prod
import Mathlib.Algebra.Ring.Parity

namespace Plane

/-! ## Walks -/

section Walks

variable {α : Type*}

/-- The edges of a walk from a point through others. -/
def walk (v : α) : List α → List (α × α)
  | [] => []
  | w :: ws => (v, w) :: walk w ws

/-- The edges of a ring. -/
def edges (ring : List α) : List (α × α) :=
  match ring.getLast? with
  | none => []
  | some last => walk last ring

/-- A walk changes a property an even number of times if it ends as it began. -/
theorem even_countP_walk (r : α → Bool) (v : α) (ws : List α) :
    Even ((walk v ws).countP fun e => r e.1 != r e.2) ↔ r v = r ((v :: ws).getLast (by simp)) := by
  induction ws generalizing v with
  | nil => simp [walk]
  | cons w ws ih =>
      rw [walk, List.countP_cons, List.getLast_cons (by simp), Nat.even_add, ih w]
      cases hv : r v <;> cases hw : r w <;> simp

/-- **Rings.**  A ring changes a property an even number of times. -/
theorem even_countP_changes (r : α → Bool) (ring : List α) :
    Even ((edges ring).countP fun e => r e.1 != r e.2) := by
  unfold edges
  split
  · simp
  · next last hlast =>
      rw [even_countP_walk]
      obtain ⟨front, rfl⟩ := List.getLast?_eq_some_iff.mp hlast
      simp

/-- Two counts differ by an even number if an even number of elements tells them apart. -/
theorem odd_countP_iff {p q : α → Bool} {l : List α} (h : Even (l.countP fun a => p a != q a)) :
    Odd (l.countP p) ↔ Odd (l.countP q) := by
  have hsum : ∀ l : List α, (l.countP p + l.countP q) % 2 = (l.countP fun a => p a != q a) % 2 := by
    intro l
    induction l with
    | nil => rfl
    | cons a l ih =>
        simp only [List.countP_cons]
        cases hp : p a <;> cases hq : q a <;> simp <;> omega
  have := hsum l
  rw [Nat.even_iff] at h
  rw [Nat.odd_iff, Nat.odd_iff]
  omega

/-- The ends of the edges are points of the ring. -/
theorem mem_of_mem_walk {v : α} {ws : List α} {e : α × α} (h : e ∈ walk v ws) :
    e.1 ∈ v :: ws ∧ e.2 ∈ ws := by
  induction ws generalizing v with
  | nil => cases h
  | cons w ws ih =>
      rcases List.mem_cons.mp h with rfl | h
      · exact ⟨List.mem_cons_self, List.mem_cons_self⟩
      · obtain ⟨h1, h2⟩ := ih h
        exact ⟨List.mem_cons_of_mem v h1, List.mem_cons_of_mem w h2⟩

theorem mem_of_mem_edges {ring : List α} {e : α × α} (h : e ∈ edges ring) :
    e.1 ∈ ring ∧ e.2 ∈ ring := by
  unfold edges at h
  split at h
  · cases h
  · next last hlast =>
      obtain ⟨h1, h2⟩ := mem_of_mem_walk h
      refine ⟨?_, h2⟩
      rcases List.mem_cons.mp h1 with h1 | h1
      · rw [h1]
        exact List.mem_of_getLast? hlast
      · exact h1

theorem walk_map {β : Type*} (f : α → β) (v : α) (ws : List α) :
    walk (f v) (ws.map f) = (walk v ws).map (Prod.map f f) := by
  induction ws generalizing v with
  | nil => rfl
  | cons w ws ih =>
      rw [List.map_cons, walk, walk, ih, List.map_cons]
      rfl

theorem edges_map {β : Type*} (f : α → β) (ring : List α) :
    edges (ring.map f) = (edges ring).map (Prod.map f f) := by
  rw [edges, edges, List.getLast?_map]
  cases ring.getLast? with
  | none => rfl
  | some last => exact walk_map f last ring

/-- Every point of a ring is the end of an edge. -/
theorem exists_edge_of_mem {ring : List α} {v : α} (h : v ∈ ring) :
    ∃ e ∈ edges ring, e.2 = v := by
  have hwalk : ∀ (ws : List α) (u : α), v ∈ ws → ∃ e ∈ walk u ws, e.2 = v := by
    intro ws
    induction ws with
    | nil => exact fun _ hv => absurd hv List.not_mem_nil
    | cons w ws ih =>
        intro u hv
        rcases List.mem_cons.mp hv with rfl | hv
        · exact ⟨_, List.mem_cons_self, rfl⟩
        · obtain ⟨e, he, heq⟩ := ih w hv
          exact ⟨e, List.mem_cons_of_mem _ he, heq⟩
  rw [edges, List.getLast?_eq_some_getLast (List.ne_nil_of_mem h)]
  exact hwalk ring _ h

end Walks

/-! ## Crossings -/

section Crossings

variable {K : Type*} [Field K] [LinearOrder K] [IsStrictOrderedRing K] {z w p q : K × K}
  {e : (K × K) × (K × K)} {ring : List (K × K)}

/-- An edge has one end above a height and one that is not. -/
def Straddles (h : K) (e : (K × K) × (K × K)) : Prop := ¬ (h < e.1.1 ↔ h < e.2.1)

/-- The ray from a point to growing second coordinates crosses an edge. -/
def Crosses (z : K × K) (e : (K × K) × (K × K)) : Prop :=
  Straddles z.1 e ∧ ∃ p ∈ segment K e.1 e.2, p.1 = z.1 ∧ z.2 ≤ p.2

open Classical in
/-- The number of edges that the ray crosses. -/
noncomputable def crossings (z : K × K) (ring : List (K × K)) : ℕ :=
  (edges ring).countP fun e => Crosses z e

/-- A point lies on an edge of the ring. -/
def OnRing (z : K × K) (ring : List (K × K)) : Prop := ∃ e ∈ edges ring, z ∈ segment K e.1 e.2

/-- **Even-odd rule.**  A point lies on the ring, or is inside of it. -/
def Inside (z : K × K) (ring : List (K × K)) : Prop := OnRing z ring ∨ Odd (crossings z ring)

omit [Field K] [IsStrictOrderedRing K] in
theorem Straddles.mem_uIcc {h : K} (hs : Straddles h e) : h ∈ Set.uIcc e.1.1 e.2.1 := by
  rw [Set.mem_uIcc]
  unfold Straddles at hs
  rcases lt_or_ge h e.1.1 with h1 | h1 <;> rcases lt_or_ge h e.2.1 with h2 | h2
  · exact absurd (iff_of_true h1 h2) hs
  · exact Or.inr ⟨h2, h1.le⟩
  · exact Or.inl ⟨h1, h2.le⟩
  · exact absurd (iff_of_false h1.not_gt h2.not_gt) hs

omit [Field K] [IsStrictOrderedRing K] in
theorem Straddles.ne {h : K} (hs : Straddles h e) : e.1.1 ≠ e.2.1 := by
  intro heq
  exact hs (by rw [heq])

/-- The point of an edge at the height of the ray decides whether it is crossed. -/
theorem crosses_iff_le (hs : Straddles z.1 e) (hp : p ∈ segment K e.1 e.2) (h : p.1 = z.1) :
    Crosses z e ↔ z.2 ≤ p.2 := by
  constructor
  · rintro ⟨-, q, hq, hheight, hle⟩
    rwa [eq_of_mem_segment hs.ne hp hq (h.trans hheight.symm)]
  · intro hle
    exact ⟨hs, p, hp, h, hle⟩

/-- The points of an edge between two heights lie on one side of an upright line that it does
not meet there. -/
theorem side_of_free {low high x : K}
    (hfree : ∀ p ∈ segment K e.1 e.2, p.2 = x → ¬ (low ≤ p.1 ∧ p.1 ≤ high))
    (hp : p ∈ segment K e.1 e.2) (hplow : low ≤ p.1) (hphigh : p.1 ≤ high)
    (hq : q ∈ segment K e.1 e.2) (hqlow : low ≤ q.1) (hqhigh : q.1 ≤ high) (hle : x ≤ p.2) :
    x ≤ q.2 := by
  by_contra hlt
  have hx : x ∈ Set.uIcc q.2 p.2 := Set.mem_uIcc.mpr (Or.inl ⟨(not_le.mp hlt).le, hle⟩)
  obtain ⟨m, hm, hmside⟩ := exists_mem_segment_snd hx
  have hmem : m ∈ segment K e.1 e.2 := (convex_segment e.1 e.2).segment_subset hq hp hm
  have hheight := (uIcc_of_mem_segment hm).1
  rw [Set.mem_uIcc] at hheight
  refine hfree m hmem hmside ?_
  rcases hheight with h | h
  · exact ⟨hqlow.trans h.1, h.2.trans hphigh⟩
  · exact ⟨hplow.trans h.1, h.2.trans hqhigh⟩

/-- Where an edge does not meet the upright line between two points, one of them sees it and the
other does not just if one end of the edge lies between their heights on the far side and the
other end does not. -/
theorem crosses_ne_iff (hzw : z.1 ≤ w.1) (hside : z.2 = w.2)
    (hfree : ∀ p ∈ segment K e.1 e.2, p.2 = z.2 → ¬ (z.1 ≤ p.1 ∧ p.1 ≤ w.1)) :
    ¬ (Crosses z e ↔ Crosses w e) ↔
      ¬ ((z.1 < e.1.1 ∧ e.1.1 ≤ w.1 ∧ z.2 ≤ e.1.2) ↔
        (z.1 < e.2.1 ∧ e.2.1 ≤ w.1 ∧ z.2 ≤ e.2.2)) := by
  -- whether the part of the edge between the heights is on the far side
  let far := ∃ p ∈ segment K e.1 e.2, z.1 ≤ p.1 ∧ p.1 ≤ w.1 ∧ z.2 ≤ p.2
  have hfar : ∀ q ∈ segment K e.1 e.2, z.1 ≤ q.1 → q.1 ≤ w.1 → (z.2 ≤ q.2 ↔ far) := by
    intro q hq hlow hhigh
    refine ⟨fun hle => ⟨q, hq, hlow, hhigh, hle⟩, ?_⟩
    rintro ⟨p, hp, hplow, hphigh, hle⟩
    exact side_of_free hfree hp hplow hphigh hq hlow hhigh hle
  have hend : ∀ v ∈ segment K e.1 e.2, (z.1 < v.1 ∧ v.1 ≤ w.1 ∧ z.2 ≤ v.2) ↔
      (z.1 < v.1 ∧ ¬ w.1 < v.1 ∧ far) := by
    intro v hv
    rw [not_lt]
    exact and_congr_right fun hlow => and_congr_right fun hhigh => hfar v hv hlow.le hhigh
  have hcrosses : ∀ u : K × K, z.1 ≤ u.1 → u.1 ≤ w.1 → u.2 = z.2 →
      (Crosses u e ↔ Straddles u.1 e ∧ far) := by
    intro u hlow hhigh hu
    refine ⟨fun h => ⟨h.1, ?_⟩, fun h => ?_⟩
    · obtain ⟨-, p, hp, hheight, hle⟩ := h
      exact ⟨p, hp, hheight ▸ hlow, hheight ▸ hhigh, hu ▸ hle⟩
    · obtain ⟨p, hp, hheight⟩ := exists_mem_segment_fst h.1.mem_uIcc
      refine ⟨h.1, p, hp, hheight, ?_⟩
      rw [hu]
      exact (hfar p hp (hheight ▸ hlow) (hheight ▸ hhigh)).mpr h.2
  rw [hcrosses z le_rfl hzw rfl, hcrosses w hzw le_rfl hside.symm,
    hend _ (left_mem_segment K _ _), hend _ (right_mem_segment K _ _)]
  have hfirst : w.1 < e.1.1 → z.1 < e.1.1 := hzw.trans_lt
  have hsecond : w.1 < e.2.1 → z.1 < e.2.1 := hzw.trans_lt
  unfold Straddles
  by_cases h : far
  · simp only [h, and_true]
    -- an end above the second point is above the first
    by_cases h₁ : w.1 < e.1.1
    · by_cases h₂ : w.1 < e.2.1
      · simp only [h₁, h₂, hfirst h₁, hsecond h₂, not_true, and_false]
      · simp only [h₁, h₂, hfirst h₁, not_true, not_false_iff, and_false, and_true, true_iff,
          false_iff, iff_true, not_not]
    · by_cases h₂ : w.1 < e.2.1
      · simp only [h₁, h₂, hsecond h₂, not_true, not_false_iff, and_false, and_true, iff_true,
          iff_false, not_not]
      · simp only [h₁, h₂, not_false_iff, and_true, not_true, iff_false, not_not]
  · simp only [h, and_false]

omit [IsStrictOrderedRing K] in
/-- Along a level line that an edge does not meet, all points see it alike. -/
theorem crosses_iff_of_level (hlevel : z.1 = w.1) (hle : z.2 ≤ w.2)
    (hfree : ∀ p ∈ segment K e.1 e.2, p.1 = z.1 → ¬ (z.2 ≤ p.2 ∧ p.2 ≤ w.2)) :
    Crosses z e ↔ Crosses w e := by
  unfold Crosses
  rw [← hlevel]
  refine and_congr_right fun _ => ⟨?_, ?_⟩
  · rintro ⟨p, hp, hheight, h⟩
    refine ⟨p, hp, hheight, ?_⟩
    by_contra hlt
    exact hfree p hp hheight ⟨h, (not_le.mp hlt).le⟩
  · rintro ⟨p, hp, hheight, h⟩
    exact ⟨p, hp, hheight, hle.trans h⟩

/-! ## Parity -/

omit [IsStrictOrderedRing K] in
/-- A level move that meets no edge keeps the crossings. -/
theorem crossings_of_level (hlevel : z.1 = w.1) (hle : z.2 ≤ w.2)
    (hfree : ∀ p, p.1 = z.1 → z.2 ≤ p.2 → p.2 ≤ w.2 → ¬ OnRing p ring) :
    crossings z ring = crossings w ring := by
  unfold crossings
  refine List.countP_congr fun e he => ?_
  simp only [decide_eq_true_eq]
  exact crosses_iff_of_level hlevel hle fun p hp hheight h =>
    hfree p hheight h.1 h.2 ⟨e, he, hp⟩

/-- An upright move that meets no edge keeps their parity. -/
theorem odd_crossings_of_upright (hzw : z.1 ≤ w.1) (hside : z.2 = w.2)
    (hfree : ∀ p, p.2 = z.2 → z.1 ≤ p.1 → p.1 ≤ w.1 → ¬ OnRing p ring) :
    Odd (crossings z ring) ↔ Odd (crossings w ring) := by
  classical
  unfold crossings
  refine odd_countP_iff ?_
  have hchanges := even_countP_changes
    (fun v : K × K => decide (z.1 < v.1 ∧ v.1 ≤ w.1 ∧ z.2 ≤ v.2)) ring
  rw [List.countP_congr] at hchanges
  · exact hchanges
  · intro e he
    have hne := crosses_ne_iff hzw hside (e := e) fun p hp hpside h =>
      hfree p hpside h.1 h.2 ⟨e, he, hp⟩
    simp only [bne_iff_ne, ne_eq, decide_eq_decide]
    exact hne.symm

/-- A point from which an odd number of edges is crossed lies between the points of the ring. -/
theorem exists_bounds_of_odd (h : Odd (crossings z ring)) :
    (∃ v ∈ ring, v.1 ≤ z.1) ∧ (∃ v ∈ ring, z.1 ≤ v.1) ∧ (∃ v ∈ ring, v.2 ≤ z.2) ∧
      ∃ v ∈ ring, z.2 ≤ v.2 := by
  classical
  obtain ⟨e, he, hcrosses⟩ : ∃ e ∈ edges ring, Crosses z e := by
    by_contra hnone
    push Not at hnone
    have hzero : crossings z ring = 0 :=
      List.countP_eq_zero.mpr fun e he => by simpa using hnone e he
    rw [hzero] at h
    exact absurd h (by decide)
  obtain ⟨hfirst, hsecond⟩ := mem_of_mem_edges he
  have hheight := hcrosses.1.mem_uIcc
  obtain ⟨-, p, hp, -, hle⟩ := hcrosses
  have hside := (uIcc_of_mem_segment hp).2
  rw [Set.mem_uIcc] at hheight hside
  refine ⟨?_, ?_, ?_, ?_⟩
  · rcases hheight with h | h
    · exact ⟨_, hfirst, h.1⟩
    · exact ⟨_, hsecond, h.1⟩
  · rcases hheight with h | h
    · exact ⟨_, hsecond, h.2⟩
    · exact ⟨_, hfirst, h.2⟩
  · -- otherwise the ray crosses every edge that straddles its height
    by_contra hnone
    push Not at hnone
    have hall : ∀ e ∈ edges ring, Crosses z e ↔ Straddles z.1 e := by
      intro e he
      refine ⟨And.left, fun hs => ?_⟩
      obtain ⟨hfirst, hsecond⟩ := mem_of_mem_edges he
      obtain ⟨p, hp, hheight⟩ := exists_mem_segment_fst hs.mem_uIcc
      have hside := (uIcc_of_mem_segment hp).2
      rw [Set.mem_uIcc] at hside
      refine (crosses_iff_le hs hp hheight).mpr ?_
      rcases hside with h | h
      · exact (hnone _ hfirst).le.trans h.1
      · exact (hnone _ hsecond).le.trans h.1
    have heven := even_countP_changes (fun v : K × K => decide (z.1 < v.1)) ring
    refine Nat.not_even_iff_odd.mpr h ?_
    rw [crossings, List.countP_congr]
    · exact heven
    · intro e he
      simp only [decide_eq_true_eq, bne_iff_ne, ne_eq, decide_eq_decide]
      exact hall e he
  · rcases hside with h | h
    · exact ⟨_, hsecond, hle.trans h.2⟩
    · exact ⟨_, hfirst, hle.trans h.2⟩

/-! ## Boxes -/

variable {lo hi : K × K}

/-- The corners of a box. -/
def corners (lo hi : K × K) : List (K × K) := [lo, (lo.1, hi.2), hi, (hi.1, lo.2)]

/-- The sides of a box. -/
def sides (lo hi : K × K) : List ((K × K) × (K × K)) :=
  [(lo, (lo.1, hi.2)), ((lo.1, hi.2), hi), (hi, (hi.1, lo.2)), ((hi.1, lo.2), lo)]

omit [Field K] [IsStrictOrderedRing K] in
theorem mem_box_iff : z ∈ Set.Icc lo hi ↔ (lo.1 ≤ z.1 ∧ z.1 ≤ hi.1) ∧ lo.2 ≤ z.2 ∧ z.2 ≤ hi.2 := by
  rw [Set.mem_Icc, Prod.le_def, Prod.le_def]
  tauto

theorem mem_segment_of_level (hfst : p.1 = z.1) (hq : q.1 = z.1) (hsnd : z.2 ∈ Set.uIcc p.2 q.2) :
    z ∈ segment K p q := by
  refine mem_segment_iff_cross.mpr ⟨?_, ?_, hsnd⟩
  · rw [cross, hfst, hq]
    ring
  · rw [hfst, hq, Set.uIcc_self, Set.mem_singleton_iff]

theorem mem_segment_of_upright (hsnd : p.2 = z.2) (hq : q.2 = z.2)
    (hfst : z.1 ∈ Set.uIcc p.1 q.1) : z ∈ segment K p q := by
  refine mem_segment_iff_cross.mpr ⟨?_, hfst, ?_⟩
  · rw [cross, hsnd, hq]
    ring
  · rw [hsnd, hq, Set.uIcc_self, Set.mem_singleton_iff]

/-- The sides lie in the box. -/
theorem mem_box_of_mem_side (hle : lo ≤ hi) {s : (K × K) × (K × K)} (hs : s ∈ sides lo hi)
    (hz : z ∈ segment K s.1 s.2) : z ∈ Set.Icc lo hi := by
  have hbox : Convex K (Set.Icc lo hi) := convex_Icc lo hi
  have hlo : lo ∈ Set.Icc lo hi := ⟨le_rfl, hle⟩
  have hhi : hi ∈ Set.Icc lo hi := ⟨hle, le_rfl⟩
  have hse : (lo.1, hi.2) ∈ Set.Icc lo hi := mem_box_iff.mpr ⟨⟨le_rfl, hle.1⟩, hle.2, le_rfl⟩
  have hnw : (hi.1, lo.2) ∈ Set.Icc lo hi := mem_box_iff.mpr ⟨⟨hle.1, le_rfl⟩, le_rfl, hle.2⟩
  simp only [sides, List.mem_cons, List.not_mem_nil, or_false] at hs
  rcases hs with rfl | rfl | rfl | rfl
  · exact hbox.segment_subset hlo hse hz
  · exact hbox.segment_subset hse hhi hz
  · exact hbox.segment_subset hhi hnw hz
  · exact hbox.segment_subset hnw hlo hz

omit [Field K] [IsStrictOrderedRing K] in
/-- From a number in an interval to one outside, a bound is met. -/
theorem exists_bound_mem {x y l h : K} (hx : l ≤ x ∧ x ≤ h) (hy : ¬ (l ≤ y ∧ y ≤ h)) :
    ∃ m ∈ Set.uIcc x y, m = l ∨ m = h := by
  simp only [Set.mem_uIcc]
  rcases lt_or_ge y l with hlow | hlow
  · exact ⟨l, Or.inr ⟨hlow.le, hx.1⟩, Or.inl rfl⟩
  · have hhigh : h < y := not_le.mp fun hle => hy ⟨hlow, hle⟩
    exact ⟨h, Or.inl ⟨hx.2, hhigh.le⟩, Or.inr rfl⟩

/-- Who leaves a box between its heights crosses an upright side. -/
theorem exists_mem_upright_side (hz : z ∈ Set.Icc lo hi) (hheight : lo.1 ≤ w.1 ∧ w.1 ≤ hi.1)
    (hside : ¬ (lo.2 ≤ w.2 ∧ w.2 ≤ hi.2)) :
    ∃ s ∈ sides lo hi, ∃ p ∈ segment K z w, p ∈ segment K s.1 s.2 := by
  obtain ⟨hz1, hz2⟩ := mem_box_iff.mp hz
  obtain ⟨m, hm, hbound⟩ := exists_bound_mem hz2 hside
  obtain ⟨p, hp, rfl⟩ := exists_mem_segment_snd hm
  have hp1 : lo.1 ≤ p.1 ∧ p.1 ≤ hi.1 := by
    have h := (uIcc_of_mem_segment hp).1
    rw [Set.mem_uIcc] at h
    rcases h with h | h
    · exact ⟨hz1.1.trans h.1, h.2.trans hheight.2⟩
    · exact ⟨hheight.1.trans h.1, h.2.trans hz1.2⟩
  rcases hbound with hlow | hhigh
  · refine ⟨((hi.1, lo.2), lo), by simp [sides], p, hp, ?_⟩
    exact mem_segment_of_upright hlow.symm hlow.symm (Set.mem_uIcc.mpr (Or.inr hp1))
  · refine ⟨((lo.1, hi.2), hi), by simp [sides], p, hp, ?_⟩
    exact mem_segment_of_upright hhigh.symm hhigh.symm (Set.mem_uIcc.mpr (Or.inl hp1))

/-- **Exit.**  Who leaves a box crosses a side. -/
theorem exists_mem_side (hz : z ∈ Set.Icc lo hi) (hw : w ∉ Set.Icc lo hi) :
    ∃ s ∈ sides lo hi, ∃ p ∈ segment K z w, p ∈ segment K s.1 s.2 := by
  by_cases hheight : lo.1 ≤ w.1 ∧ w.1 ≤ hi.1
  · exact exists_mem_upright_side hz hheight fun hside => hw (mem_box_iff.mpr ⟨hheight, hside⟩)
  · -- up to the height of a level side, which is met or passed by
    obtain ⟨m, hm, hbound⟩ := exists_bound_mem (mem_box_iff.mp hz).1 hheight
    obtain ⟨q, hq, rfl⟩ := exists_mem_segment_fst hm
    by_cases hside : lo.2 ≤ q.2 ∧ q.2 ≤ hi.2
    · rcases hbound with hlow | hhigh
      · refine ⟨(lo, (lo.1, hi.2)), by simp [sides], q, hq, ?_⟩
        exact mem_segment_of_level hlow.symm hlow.symm (Set.mem_uIcc.mpr (Or.inl hside))
      · refine ⟨(hi, (hi.1, lo.2)), by simp [sides], q, hq, ?_⟩
        exact mem_segment_of_level hhigh.symm hhigh.symm (Set.mem_uIcc.mpr (Or.inr hside))
    · have hle : lo.1 ≤ hi.1 := (mem_box_iff.mp hz).1.1.trans (mem_box_iff.mp hz).1.2
      have hqheight : lo.1 ≤ q.1 ∧ q.1 ≤ hi.1 := by
        rcases hbound with h | h
        · exact ⟨h.ge, h.le.trans hle⟩
        · exact ⟨hle.trans h.ge, h.le⟩
      obtain ⟨s, hs, p, hp, hps⟩ := exists_mem_upright_side hz hqheight hside
      refine ⟨s, hs, p, ?_, hps⟩
      exact (convex_segment z w).segment_subset (left_mem_segment K z w) hq hp

/-- In a box that no edge meets, the crossings have one parity. -/
theorem odd_crossings_of_box (hz : z ∈ Set.Icc lo hi) (hw : w ∈ Set.Icc lo hi)
    (hfree : ∀ p ∈ Set.Icc lo hi, ¬ OnRing p ring) :
    Odd (crossings z ring) ↔ Odd (crossings w ring) := by
  obtain ⟨hz1, hz2⟩ := mem_box_iff.mp hz
  obtain ⟨hw1, hw2⟩ := mem_box_iff.mp hw
  -- first level, then upright
  have hlevel : crossings z ring = crossings (z.1, w.2) ring := by
    rcases le_total z.2 w.2 with hle | hle
    · exact crossings_of_level rfl hle fun p hheight hlow hhigh => hfree p (mem_box_iff.mpr
        ⟨hheight ▸ hz1, hz2.1.trans hlow, hhigh.trans hw2.2⟩)
    · have hback : crossings (z.1, w.2) ring = crossings z ring :=
        crossings_of_level rfl hle fun p hheight hlow hhigh => hfree p (mem_box_iff.mpr
          ⟨hheight ▸ hz1, hw2.1.trans hlow, hhigh.trans hz2.2⟩)
      exact hback.symm
  rw [hlevel]
  rcases le_total z.1 w.1 with hle | hle
  · exact odd_crossings_of_upright hle rfl fun p hside hlow hhigh => hfree p (mem_box_iff.mpr
      ⟨⟨hz1.1.trans hlow, hhigh.trans hw1.2⟩, hside ▸ hw2⟩)
  · have hback : Odd (crossings w ring) ↔ Odd (crossings (z.1, w.2) ring) :=
      odd_crossings_of_upright hle rfl fun p hside hlow hhigh => hfree p (mem_box_iff.mpr
        ⟨⟨hw1.1.trans hlow, hhigh.trans hz1.2⟩, hside ▸ hw2⟩)
    exact hback.symm

/-- **Boxes.**  A box has a point on a ring or inside of it exactly if it has a point of the
ring, or one of its corners is on the ring or inside, or an edge meets one of its sides. -/
theorem exists_inside_iff (hle : lo ≤ hi) : (∃ z ∈ Set.Icc lo hi, Inside z ring) ↔
    (∃ v ∈ ring, v ∈ Set.Icc lo hi) ∨ (∃ c ∈ corners lo hi, Inside c ring) ∨
      ∃ e ∈ edges ring, ∃ s ∈ sides lo hi, ∃ p, p ∈ segment K e.1 e.2 ∧ p ∈ segment K s.1 s.2 := by
  constructor
  · rintro ⟨z, hz, hinside⟩
    by_cases hfree : ∀ p ∈ Set.Icc lo hi, ¬ OnRing p ring
    · have hodd := hinside.resolve_left (hfree z hz)
      rw [odd_crossings_of_box hz ⟨le_rfl, hle⟩ hfree] at hodd
      exact Or.inr (Or.inl ⟨lo, by simp [corners], Or.inr hodd⟩)
    · push Not at hfree
      obtain ⟨p, hp, e, he, hpe⟩ := hfree
      by_cases hv : e.1 ∈ Set.Icc lo hi
      · exact Or.inl ⟨e.1, (mem_of_mem_edges he).1, hv⟩
      · obtain ⟨s, hs, q, hq, hqs⟩ := exists_mem_side hp hv
        refine Or.inr (Or.inr ⟨e, he, s, hs, q, ?_, hqs⟩)
        exact (convex_segment e.1 e.2).segment_subset hpe (left_mem_segment K _ _) hq
  · rintro (⟨v, hv, hbox⟩ | ⟨c, hc, hinside⟩ | ⟨e, he, s, hs, p, hpe, hps⟩)
    · obtain ⟨e, he, rfl⟩ := exists_edge_of_mem hv
      exact ⟨e.2, hbox, Or.inl ⟨e, he, right_mem_segment K _ _⟩⟩
    · refine ⟨c, ?_, hinside⟩
      simp only [corners, List.mem_cons, List.not_mem_nil, or_false] at hc
      rcases hc with rfl | rfl | rfl | rfl
      · exact ⟨le_rfl, hle⟩
      · exact mem_box_iff.mpr ⟨⟨le_rfl, hle.1⟩, hle.2, le_rfl⟩
      · exact ⟨hle, le_rfl⟩
      · exact mem_box_iff.mpr ⟨⟨hle.1, le_rfl⟩, le_rfl, hle.2⟩
    · exact ⟨p, mem_box_of_mem_side hle hs hps, Or.inl ⟨e, he, hpe⟩⟩

end Crossings

/-! ## Larger fields -/

section Maps

variable {K L : Type*} [Field K] [LinearOrder K] [IsStrictOrderedRing K] [Field L] [LinearOrder L]
  [IsStrictOrderedRing L] {f : K →+* L} {a b c d z lo hi : K × K}

/-- A point over a larger field. -/
def mapPoint (f : K →+* L) (v : K × K) : L × L := (f v.1, f v.2)

omit [LinearOrder K] [IsStrictOrderedRing K] [LinearOrder L] [IsStrictOrderedRing L] in
theorem cross_map (f : K →+* L) (a b z : K × K) :
    cross (mapPoint f a) (mapPoint f b) (mapPoint f z) = f (cross a b z) := by
  simp only [cross, mapPoint, map_sub, map_mul]

omit [IsStrictOrderedRing K] [IsStrictOrderedRing L] in
theorem mem_uIcc_map (hf : StrictMono f) {x y t : K} :
    f t ∈ Set.uIcc (f x) (f y) ↔ t ∈ Set.uIcc x y := by
  simp only [Set.mem_uIcc, hf.le_iff_le]

theorem mem_segment_map (hf : StrictMono f) :
    mapPoint f z ∈ segment L (mapPoint f a) (mapPoint f b) ↔ z ∈ segment K a b := by
  rw [mem_segment_iff_cross, mem_segment_iff_cross, cross_map, map_eq_zero]
  exact and_congr_right fun _ => and_congr (mem_uIcc_map hf) (mem_uIcc_map hf)

theorem meet_map (hf : StrictMono f) :
    (∃ p, p ∈ segment L (mapPoint f a) (mapPoint f b) ∧
        p ∈ segment L (mapPoint f c) (mapPoint f d)) ↔
      ∃ p, p ∈ segment K a b ∧ p ∈ segment K c d := by
  have hsign : ∀ x : K, SignType.sign (f x) = SignType.sign x := fun x => hf.sign_comp x
  rw [meet_iff, meet_iff]
  simp only [cross_map, hsign, mem_segment_map hf]

omit [IsStrictOrderedRing K] [IsStrictOrderedRing L] in
theorem mem_box_map (hf : StrictMono f) :
    mapPoint f z ∈ Set.Icc (mapPoint f lo) (mapPoint f hi) ↔ z ∈ Set.Icc lo hi := by
  rw [mem_box_iff, mem_box_iff]
  simp only [mapPoint, hf.le_iff_le]

theorem crosses_map (hf : StrictMono f) (e : (K × K) × (K × K)) :
    Crosses (mapPoint f z) (Prod.map (mapPoint f) (mapPoint f) e) ↔ Crosses z e := by
  have hstraddles : Straddles (f z.1) (Prod.map (mapPoint f) (mapPoint f) e) ↔ Straddles z.1 e := by
    simp only [Straddles, Prod.map, mapPoint, hf.lt_iff_lt]
  by_cases hs : Straddles z.1 e
  · obtain ⟨p, hp, hheight⟩ := exists_mem_segment_fst hs.mem_uIcc
    rw [crosses_iff_le hs hp hheight, crosses_iff_le (hstraddles.mpr hs)
      ((mem_segment_map hf).mpr hp) (congrArg f hheight)]
    exact hf.le_iff_le
  · exact iff_of_false (fun h => hs (hstraddles.mp h.1)) fun h => hs h.1

/-- The rule of a point does not depend on the field. -/
theorem inside_map (hf : StrictMono f) (ring : List (K × K)) :
    Inside (mapPoint f z) (ring.map (mapPoint f)) ↔ Inside z ring := by
  classical
  refine or_congr ?_ ?_
  · simp only [OnRing, edges_map, List.mem_map, exists_exists_and_eq_and, Prod.map,
      mem_segment_map hf]
  · rw [crossings, crossings, edges_map, List.countP_map]
    have hcount : ((edges ring).countP
        ((fun e => decide (Crosses (mapPoint f z) e)) ∘ Prod.map (mapPoint f) (mapPoint f))) =
          (edges ring).countP fun e => Crosses z e := by
      refine List.countP_congr fun e _ => ?_
      simp only [Function.comp_apply, decide_eq_true_eq, crosses_map hf]
    rw [hcount]

/-- A box with a point inside has one over every smaller field. -/
theorem exists_inside_map (hf : StrictMono f) (hle : lo ≤ hi) (ring : List (K × K)) :
    (∃ z ∈ Set.Icc (mapPoint f lo) (mapPoint f hi), Inside z (ring.map (mapPoint f))) ↔
      ∃ z ∈ Set.Icc lo hi, Inside z ring := by
  have hmapped : mapPoint f lo ≤ mapPoint f hi := ⟨hf.monotone hle.1, hf.monotone hle.2⟩
  have hcorners : corners (mapPoint f lo) (mapPoint f hi) = (corners lo hi).map (mapPoint f) := rfl
  have hsides : sides (mapPoint f lo) (mapPoint f hi) =
      (sides lo hi).map (Prod.map (mapPoint f) (mapPoint f)) := rfl
  rw [exists_inside_iff hle, exists_inside_iff hmapped, hcorners, hsides, edges_map]
  simp only [List.mem_map, exists_exists_and_eq_and, mem_box_map hf, inside_map hf, Prod.map,
    meet_map hf]

end Maps

end Plane
