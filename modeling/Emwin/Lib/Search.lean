/-
# Searching a list for a sublist

`findSub needle l` is the index of the first occurrence of `needle` in `l`, as
a contiguous block.  The facts a streaming search rests on are that an
occurrence stays where it is when more input is appended
(`findSub_append_of_some`), and that a search without success may forget all but
the last `needle.length - 1` elements (`findSub_append_of_none`).
-/
import Mathlib.Data.List.DropRight
import Mathlib.Data.List.Infix

namespace ListSearch

/-! ## The last elements -/

section Rtake

variable {α : Type*}

theorem length_rtake (l : List α) (n : ℕ) : (l.rtake n).length = min n l.length := by
  rw [List.rtake, List.length_drop]; omega

theorem rtake_of_length_le {l : List α} {n : ℕ} (h : l.length ≤ n) : l.rtake n = l := by
  rw [List.rtake, Nat.sub_eq_zero_of_le h, List.drop_zero]

theorem mem_of_mem_rtake {l : List α} {n : ℕ} {a : α} (h : a ∈ l.rtake n) : a ∈ l :=
  List.mem_of_mem_drop h

/-- The last elements of what follows a kept suffix. -/
theorem rtake_rtake_append (l r : List α) (n : ℕ) :
    (l.rtake n ++ r).rtake n = (l ++ r).rtake n := by
  unfold List.rtake
  rw [List.drop_append, List.drop_append, List.drop_drop, List.length_append, List.length_append,
    List.length_drop]
  by_cases h : l.length ≤ n
  · rw [Nat.sub_eq_zero_of_le h]; simp
  · have h1 : l.length - n + (l.length - (l.length - n) + r.length - n)
        = l.length + r.length - n := by omega
    have h2 : l.length - (l.length - n) + r.length - n - (l.length - (l.length - n))
        = l.length + r.length - n - l.length := by omega
    rw [h1, h2]

end Rtake

variable {α : Type*} [DecidableEq α]

/-- The index at which `needle` first occurs in a list. -/
def findSub (needle : List α) : List α → Option ℕ
  | [] => if needle = [] then some 0 else none
  | a :: l => if needle <+: a :: l then some 0 else (findSub needle l).map (· + 1)

/-! ## What the search finds -/

theorem findSub_eq_zero {needle l : List α} (h : needle <+: l) : findSub needle l = some 0 := by
  cases l with
  | nil => rw [findSub, if_pos (List.prefix_nil.mp h)]
  | cons a l => rw [findSub, if_pos h]

theorem findSub_cons_skip {needle : List α} {a : α} {l : List α}
    (h : ¬ needle <+: a :: l) : findSub needle (a :: l) = (findSub needle l).map (· + 1) := by
  rw [findSub, if_neg h]

/-- An index that is found carries the needle. -/
theorem prefix_drop_of_findSub {needle l : List α} {i : ℕ} (h : findSub needle l = some i) :
    needle <+: l.drop i := by
  induction l generalizing i with
  | nil =>
      rw [findSub] at h
      split at h
      · next hn => subst hn; exact List.nil_prefix
      · simp at h
  | cons a l ih =>
      by_cases hp : needle <+: a :: l
      · rw [findSub_eq_zero hp] at h
        obtain rfl := Option.some.inj h
        exact hp
      · rw [findSub_cons_skip hp] at h
        obtain ⟨j, hj, rfl⟩ := Option.map_eq_some_iff.mp h
        simpa using ih hj

/-- The needle does not occur before the index that is found. -/
theorem not_prefix_drop_of_lt {needle l : List α} {i j : ℕ} (h : findSub needle l = some i)
    (hj : j < i) : ¬ needle <+: l.drop j := by
  induction l generalizing i j with
  | nil =>
      rw [findSub] at h
      split at h
      · simp at h; omega
      · simp at h
  | cons a l ih =>
      by_cases hp : needle <+: a :: l
      · rw [findSub_eq_zero hp] at h
        simp at h; omega
      · rw [findSub_cons_skip hp] at h
        obtain ⟨k, hk, rfl⟩ := Option.map_eq_some_iff.mp h
        cases j with
        | zero => simpa using hp
        | succ j => simpa using ih hk (by omega)

/-- A search that fails has looked at every position. -/
theorem not_prefix_drop_of_none {needle l : List α} (h : findSub needle l = none) (j : ℕ)
    (hj : j ≤ l.length) : ¬ needle <+: l.drop j := by
  induction l generalizing j with
  | nil =>
      rw [findSub] at h
      split at h
      · simp at h
      · next hn => simpa using hn
  | cons a l ih =>
      by_cases hp : needle <+: a :: l
      · rw [findSub_eq_zero hp] at h
        simp at h
      · rw [findSub_cons_skip hp] at h
        cases j with
        | zero => simpa using hp
        | succ j =>
            have hl : findSub needle l = none := by simpa using h
            simpa using ih hl j (by simpa using hj)

/-- Positions without the needle can be skipped. -/
theorem findSub_eq_map_drop {needle l : List α} {m : ℕ} (hm : m ≤ l.length)
    (h : ∀ j < m, ¬ needle <+: l.drop j) :
    findSub needle l = (findSub needle (l.drop m)).map (· + m) := by
  induction m generalizing l with
  | zero => simp
  | succ m ih =>
      cases l with
      | nil => simp at hm
      | cons a l =>
          have h0 : ¬ needle <+: a :: l := by simpa using h 0 (by omega)
          have hrest : findSub needle l = (findSub needle (l.drop m)).map (· + m) := by
            apply ih (by simpa using hm)
            intro j hj
            simpa using h (j + 1) (by omega)
          rw [findSub_cons_skip h0, hrest, List.drop_succ_cons, Option.map_map]
          rfl

/-- The first position that carries the needle is the one found. -/
theorem findSub_eq_some {needle l : List α} {i : ℕ} (hi : i ≤ l.length)
    (hp : needle <+: l.drop i) (h : ∀ j < i, ¬ needle <+: l.drop j) :
    findSub needle l = some i := by
  rw [findSub_eq_map_drop hi h, findSub_eq_zero hp]
  simp

/-- A position that is found lies inside the list, with the whole needle. -/
theorem add_length_le_of_findSub {needle l : List α} {i : ℕ} (h : findSub needle l = some i) :
    i + needle.length ≤ l.length := by
  have hp := (prefix_drop_of_findSub h).length_le
  rw [List.length_drop] at hp
  by_cases hi : i ≤ l.length
  · omega
  · exfalso
    apply not_prefix_drop_of_lt h (show l.length < i by omega)
    rw [List.drop_length]
    have : needle.length = 0 := by omega
    rw [List.length_eq_zero_iff.mp this]

/-- A list shorter than the needle does not contain it. -/
theorem findSub_eq_none_of_length_lt {needle l : List α} (h : l.length < needle.length) :
    findSub needle l = none := by
  cases hf : findSub needle l with
  | none => rfl
  | some i =>
      have := add_length_le_of_findSub hf
      omega

/-- A search for a single element that does not occur. -/
theorem findIdx?_eq_none_of_notMem {a : α} {l : List α} (h : a ∉ l) :
    l.findIdx? (· = a) = none := by
  rw [List.findIdx?_eq_none_iff]
  intro b hb
  simp only [decide_eq_false_iff_not]
  rintro rfl
  exact h hb

/-! ## Appending input -/

/-- An occurrence stays where it is when more input arrives. -/
theorem findSub_append_of_some {needle l : List α} {i : ℕ} (h : findSub needle l = some i)
    (r : List α) : findSub needle (l ++ r) = some i := by
  have hlen := add_length_le_of_findSub h
  apply findSub_eq_some
  · rw [List.length_append]; omega
  · rw [List.drop_append_of_le_length (by omega)]
    exact (prefix_drop_of_findSub h).trans (List.prefix_append _ _)
  · intro j hj hp
    apply not_prefix_drop_of_lt h hj
    rw [List.drop_append_of_le_length (by omega)] at hp
    -- the needle ends before `l` does, so it does not reach into `r`
    refine List.prefix_of_prefix_length_le hp (List.prefix_append _ _) ?_
    rw [List.length_drop]; omega

/-- After a search without success, only an occurrence that starts in the last
`needle.length - 1` elements can still appear. -/
theorem findSub_append_of_none {needle l : List α} (h : findSub needle l = none) (r : List α) :
    findSub needle (l ++ r) =
      (findSub needle (l.rtake (needle.length - 1) ++ r)).map
        (· + (l.length - (needle.length - 1))) := by
  have hskip : ∀ j < l.length - (needle.length - 1), ¬ needle <+: (l ++ r).drop j := by
    intro j hj hp
    apply not_prefix_drop_of_none h j (by omega)
    rw [List.drop_append_of_le_length (by omega)] at hp
    refine List.prefix_of_prefix_length_le hp (List.prefix_append _ _) ?_
    rw [List.length_drop]; omega
  rw [findSub_eq_map_drop (by rw [List.length_append]; omega) hskip,
    List.drop_append_of_le_length (by omega)]
  rfl

/-! ## Needles that do not overlap themselves -/

/-- No proper end of a needle is a beginning of it. -/
def Unbordered (needle : List α) : Prop :=
  ∀ k < needle.length, 0 < k → ¬ needle.drop k <+: needle

instance (needle : List α) : Decidable (Unbordered needle) :=
  inferInstanceAs (Decidable (∀ k < needle.length, 0 < k → ¬ needle.drop k <+: needle))

omit [DecidableEq α] in
/-- An occurrence that begins in front of another one ends there as well. -/
theorem Unbordered.add_length_le {needle : List α} (h : Unbordered needle) {l r : List α} {j : ℕ}
    (hj : j < l.length) (hp : needle <+: (l ++ (needle ++ r)).drop j) :
    j + needle.length ≤ l.length := by
  by_contra hover
  rw [List.drop_append_of_le_length hj.le] at hp
  have hlen : (l.drop j).length = l.length - j := List.length_drop
  have hend : needle.drop (l.length - j) <+: needle ++ r := by
    have hdrop := hp.drop (l.length - j)
    rw [← hlen, List.drop_left] at hdrop
    rwa [hlen] at hdrop
  refine h (l.length - j) (by omega) (by omega) ?_
  refine List.prefix_of_prefix_length_le hend (List.prefix_append _ _) ?_
  rw [List.length_drop]
  omega

/-- The needle is first found where it was appended. -/
theorem Unbordered.findSub_append {needle : List α} (h : Unbordered needle) {l : List α}
    (hl : ¬ needle <:+: l) (r : List α) :
    findSub needle (l ++ (needle ++ r)) = some l.length := by
  apply findSub_eq_some
  · rw [List.length_append]; omega
  · rw [List.drop_left]
    exact List.prefix_append _ _
  · intro j hj hp
    have hend := h.add_length_le hj hp
    -- the occurrence would lie in `l` as a whole
    rw [List.drop_append_of_le_length hj.le] at hp
    have hin : needle <+: l.drop j := by
      refine List.prefix_of_prefix_length_le hp (List.prefix_append _ _) ?_
      rw [List.length_drop]; omega
    exact hl (hin.isInfix.trans (List.drop_suffix j l).isInfix)

/-- Before the needle is complete it is not found. -/
theorem Unbordered.findSub_eq_none {needle : List α} (h : Unbordered needle) {l u : List α}
    (hl : ¬ needle <:+: l) (hu : u <+: l ++ needle)
    (hlt : u.length < l.length + needle.length) : findSub needle u = none := by
  cases hfind : findSub needle u with
  | none => rfl
  | some i =>
      exfalso
      obtain ⟨r, hr⟩ := hu
      have hlater := findSub_append_of_some hfind r
      have hself := h.findSub_append hl []
      rw [List.append_nil] at hself
      rw [hr, hself] at hlater
      obtain rfl : l.length = i := Option.some.inj hlater
      have := add_length_le_of_findSub hfind
      omega

end ListSearch
