/-
# Slices at byte offsets

Texts sliced at offsets counted in UTF-8 bytes.  A slice is `none` where the offset is past
the end or inside a character: there the slicing expression panics.  In ASCII text bytes and
characters are the same.
-/
import Emwin.Lib.Text
import Emwin.Lib.Utf8

namespace Str

/-! ## Slices -/

/-- Whether a byte offset lies between two characters, or at an end. -/
def isCharBoundary (n : ℕ) (s : Str) : Bool := (splitAtByte n s).isSome

/-- The text before an offset. -/
def sliceTo (n : ℕ) (s : Str) : Option Str := (splitAtByte n s).map Prod.fst

/-- The text from an offset on. -/
def sliceFrom (n : ℕ) (s : Str) : Option Str := (splitAtByte n s).map Prod.snd

/-- The text between two offsets. -/
def slice (i j : ℕ) (s : Str) : Option Str := do
  let before ← sliceTo j s
  sliceFrom i before

/-- The offset of the last occurrence of a pattern. -/
def rfind (p : Str) : Str → Option ℕ
  | [] => if p = [] then some 0 else none
  | c :: s =>
      match rfind p s with
      | some n => some (c.utf8Size + n)
      | none => if p <+: c :: s then some 0 else none

/-- The byte at an offset; `none` is past the end. -/
def byteAt (n : ℕ) (s : Str) : Option UInt8 := (Utf8.encode s)[n]?

/-! ## Where slices exist -/

/-- A text can be cut behind each of its prefixes. -/
@[simp] theorem splitAtByte_append (u v : Str) :
    splitAtByte (byteLen u) (u ++ v) = some (u, v) := by
  induction u with
  | nil => cases v <;> rfl
  | cons c u ih =>
      have hpos := Char.utf8Size_pos c
      obtain ⟨n, hn⟩ : ∃ n, byteLen (c :: u) = n + 1 := ⟨byteLen (c :: u) - 1, by simp; omega⟩
      have hsize : c.utf8Size ≤ n + 1 := by rw [← hn, byteLen_cons]; omega
      have hrest : n + 1 - c.utf8Size = byteLen u := by rw [← hn, byteLen_cons]; omega
      rw [hn, List.cons_append, splitAtByte, if_pos hsize, hrest, ih]
      rfl

/-- Cuts at the same offset are the same. -/
theorem append_inj_of_byteLen {a b c d : Str} (h : a ++ b = c ++ d)
    (hlen : byteLen a = byteLen c) : a = c ∧ b = d := by
  have hcut : splitAtByte (byteLen a) (a ++ b) = splitAtByte (byteLen c) (c ++ d) := by
    rw [h, hlen]
  simpa using hcut

/-- The offsets at which a text can be cut are the lengths of its prefixes. -/
theorem isCharBoundary_iff {n : ℕ} {s : Str} :
    isCharBoundary n s = true ↔ ∃ u v, s = u ++ v ∧ byteLen u = n := by
  unfold isCharBoundary
  constructor
  · intro h
    obtain ⟨⟨u, v⟩, huv⟩ := Option.isSome_iff_exists.mp h
    obtain ⟨hs, hn⟩ := append_of_splitAtByte huv
    exact ⟨u, v, hs.symm, hn⟩
  · rintro ⟨u, v, rfl, rfl⟩
    simp

theorem sliceTo_append (u v : Str) : sliceTo (byteLen u) (u ++ v) = some u := by
  simp [sliceTo]

theorem sliceFrom_append (u v : Str) : sliceFrom (byteLen u) (u ++ v) = some v := by
  simp [sliceFrom]

theorem slice_append (u v w : Str) :
    slice (byteLen u) (byteLen u + byteLen v) (u ++ v ++ w) = some v := by
  rw [slice, ← byteLen_append, sliceTo_append]
  exact sliceFrom_append u v

/-- A slice is what stands between the offsets. -/
theorem slice_eq_some_iff {i j : ℕ} {s t : Str} :
    slice i j s = some t ↔
      ∃ u w, s = u ++ t ++ w ∧ byteLen u = i ∧ byteLen u + byteLen t = j := by
  constructor
  · intro h
    obtain ⟨before, hbefore, hslice⟩ := Option.bind_eq_some_iff.mp h
    obtain ⟨⟨front, w⟩, hsplit, rfl⟩ := Option.map_eq_some_iff.mp hbefore
    obtain ⟨⟨u, rest⟩, hsplit', rfl⟩ := Option.map_eq_some_iff.mp hslice
    obtain ⟨rfl, hj⟩ := append_of_splitAtByte hsplit
    obtain ⟨hfront, hi⟩ := append_of_splitAtByte hsplit'
    obtain rfl : u ++ rest = front := hfront
    exact ⟨u, w, rfl, hi, by rw [← byteLen_append]; exact hj⟩
  · rintro ⟨u, w, rfl, rfl, rfl⟩
    exact slice_append u t w

/-- The characters of a slice are those of the text. -/
theorem mem_of_slice {i j : ℕ} {s t : Str} (h : slice i j s = some t) {c : Char} (hc : c ∈ t) :
    c ∈ s := by
  obtain ⟨u, w, rfl, -, -⟩ := slice_eq_some_iff.mp h
  simp [hc]

/-- A slice up to the end of a prefix is one of the prefix. -/
theorem slice_byteLen (n : ℕ) (u v : Str) : slice n (byteLen u) (u ++ v) = sliceFrom n u := by
  rw [slice, sliceTo_append]
  rfl

/-- A slice behind a prefix is one of what follows it. -/
theorem slice_behind (u v : Str) (n : ℕ) :
    slice (byteLen u) (byteLen u + n) (u ++ v) = sliceTo n v := by
  cases hsplit : splitAtByte n v with
  | some parts =>
      obtain ⟨front, back⟩ := parts
      obtain ⟨rfl, rfl⟩ := append_of_splitAtByte hsplit
      rw [← List.append_assoc, slice_append, sliceTo_append]
  | none =>
      have hnone : splitAtByte (byteLen u + n) (u ++ v) = none := by
        by_contra h
        obtain ⟨⟨front, back⟩, h⟩ := Option.ne_none_iff_exists'.mp h
        obtain ⟨happend, hlen⟩ := append_of_splitAtByte h
        have hcut : ∃ w, byteLen w = n ∧ w <+: v := by
          rcases List.append_eq_append_iff.mp happend with ⟨w, rfl, rfl⟩ | ⟨w, rfl, rfl⟩
          · refine ⟨[], ?_, List.nil_prefix⟩
            rw [byteLen_append] at hlen
            show 0 = n
            omega
          · refine ⟨w, ?_, List.prefix_append w back⟩
            rw [byteLen_append] at hlen
            omega
        obtain ⟨w, rfl, rest, rfl⟩ := hcut
        rw [splitAtByte_append] at hsplit
        cases hsplit
      simp [slice, sliceTo, hnone, hsplit]

/-- What cannot be sliced up to an offset cannot be cut there. -/
theorem sliceTo_eq_none_iff {n : ℕ} {s : Str} :
    sliceTo n s = none ↔ isCharBoundary n s = false := by
  simp [sliceTo, isCharBoundary]

theorem sliceFrom_eq_none_iff {n : ℕ} {s : Str} :
    sliceFrom n s = none ↔ isCharBoundary n s = false := by
  simp [sliceFrom, isCharBoundary]

@[simp] theorem isCharBoundary_zero (s : Str) : isCharBoundary 0 s = true := by
  cases s <;> rfl

@[simp] theorem isCharBoundary_byteLen (s : Str) : isCharBoundary (byteLen s) s = true :=
  isCharBoundary_iff.mpr ⟨s, [], by simp, rfl⟩

/-- An offset within a prefix lies between characters of the prefix. -/
theorem isCharBoundary_append {n : ℕ} {u v : Str} (hn : n ≤ byteLen u) :
    isCharBoundary n (u ++ v) = isCharBoundary n u := by
  rw [Bool.eq_iff_iff, isCharBoundary_iff, isCharBoundary_iff]
  constructor
  · rintro ⟨a, b, hab, rfl⟩
    rcases List.append_eq_append_iff.mp hab with ⟨w, rfl, rfl⟩ | ⟨w, rfl, rfl⟩
    · -- the cut is behind the prefix, so it is at its end
      have hw : byteLen w = 0 := by
        rw [byteLen_append] at hn
        omega
      exact ⟨u, [], by simp, by rw [byteLen_append, hw, Nat.add_zero]⟩
    · exact ⟨a, w, rfl, rfl⟩
  · rintro ⟨a, b, rfl, rfl⟩
    exact ⟨a, b ++ v, by simp, rfl⟩

/-- A slice exists exactly if it is cut between characters on both sides. -/
theorem slice_eq_none_iff {i j : ℕ} {s : Str} (h : i ≤ j) :
    slice i j s = none ↔ isCharBoundary i s = false ∨ isCharBoundary j s = false := by
  unfold slice
  rcases hto : sliceTo j s with _ | front
  · simp [sliceTo_eq_none_iff.mp hto]
  · obtain ⟨⟨u, v⟩, hsplit, rfl⟩ := Option.map_eq_some_iff.mp hto
    obtain ⟨rfl, rfl⟩ := append_of_splitAtByte hsplit
    have hj : isCharBoundary (byteLen u) (u ++ v) = true :=
      isCharBoundary_iff.mpr ⟨u, v, rfl, rfl⟩
    rw [Option.bind_eq_bind, Option.bind_some, sliceFrom_eq_none_iff, isCharBoundary_append h, hj]
    simp

/-- A slice that ends in front of its beginning does not exist. -/
theorem slice_eq_none_of_lt {i j : ℕ} {s : Str} (h : j < i) : slice i j s = none := by
  rw [Option.eq_none_iff_forall_ne_some]
  intro t ht
  obtain ⟨u, w, -, hi, hj⟩ := slice_eq_some_iff.mp ht
  omega

/-- A pattern stands where it is found. -/
theorem exists_append_of_rfind {p s : Str} {n : ℕ} (h : rfind p s = some n) :
    ∃ u v, s = u ++ p ++ v ∧ byteLen u = n := by
  induction s generalizing n with
  | nil =>
      rw [rfind] at h
      split_ifs at h with hp
      obtain rfl : 0 = n := Option.some.inj h
      exact ⟨[], [], by simp [hp], rfl⟩
  | cons c s ih =>
      rw [rfind] at h
      cases hrest : rfind p s with
      | some m =>
          rw [hrest] at h
          obtain rfl : c.utf8Size + m = n := Option.some.inj h
          obtain ⟨u, v, rfl, rfl⟩ := ih hrest
          exact ⟨c :: u, v, rfl, byteLen_cons c u⟩
      | none =>
          rw [hrest] at h
          dsimp only at h
          split_ifs at h with hp
          obtain rfl : 0 = n := Option.some.inj h
          obtain ⟨v, hv⟩ := hp
          exact ⟨[], v, hv.symm, rfl⟩

/-- A slice from behind the beginning is shorter. -/
theorem length_lt_of_sliceFrom {n : ℕ} {s t : Str} (hn : 0 < n) (h : sliceFrom n s = some t) :
    t.length < s.length := by
  obtain ⟨⟨u, v⟩, huv, rfl⟩ := Option.map_eq_some_iff.mp h
  obtain ⟨rfl, rfl⟩ := append_of_splitAtByte huv
  cases u with
  | nil => cases hn
  | cons c u =>
      show v.length < (c :: u ++ v).length
      rw [List.length_append, List.length_cons]
      omega

/-! ## ASCII -/

/-- All characters are ASCII. -/
def IsAscii (s : Str) : Prop := ∀ c ∈ s, c.toNat < 128

instance (s : Str) : Decidable (IsAscii s) :=
  inferInstanceAs (Decidable (∀ c ∈ s, c.toNat < 128))

theorem IsAscii.append {s t : Str} (hs : IsAscii s) (ht : IsAscii t) : IsAscii (s ++ t) :=
  List.forall_mem_append.mpr ⟨hs, ht⟩

theorem utf8Size_of_ascii {c : Char} (h : c.toNat < 128) : c.utf8Size = 1 := by
  rw [Char.utf8Size_eq_one_iff, UInt32.le_iff_toNat_le]
  exact Nat.le_of_lt_succ h

/-- In ASCII, lengths are counted in characters. -/
theorem byteLen_of_ascii {s : Str} (h : IsAscii s) : byteLen s = s.length := by
  induction s with
  | nil => rfl
  | cons c s ih =>
      have hs : IsAscii s := fun d hd => h d (List.mem_cons_of_mem _ hd)
      rw [byteLen_cons, utf8Size_of_ascii (h c List.mem_cons_self), ih hs, List.length_cons]
      omega

/-- In ASCII, cuts are made between characters. -/
theorem splitAtByte_of_ascii {s : Str} (h : IsAscii s) {n : ℕ} (hn : n ≤ s.length) :
    splitAtByte n s = some (s.take n, s.drop n) := by
  have htake : byteLen (s.take n) = n := by
    rw [byteLen_of_ascii fun c hc => h c (List.mem_of_mem_take hc), List.length_take]
    omega
  have := splitAtByte_append (s.take n) (s.drop n)
  rwa [List.take_append_drop, htake] at this

theorem sliceTo_of_ascii {s : Str} (h : IsAscii s) {n : ℕ} (hn : n ≤ s.length) :
    sliceTo n s = some (s.take n) := by
  simp [sliceTo, splitAtByte_of_ascii h hn]

theorem sliceFrom_of_ascii {s : Str} (h : IsAscii s) {n : ℕ} (hn : n ≤ s.length) :
    sliceFrom n s = some (s.drop n) := by
  simp [sliceFrom, splitAtByte_of_ascii h hn]

theorem slice_of_ascii {s : Str} (h : IsAscii s) {i j : ℕ} (hi : i ≤ j) (hj : j ≤ s.length) :
    slice i j s = some ((s.take j).drop i) := by
  rw [slice, sliceTo_of_ascii h hj]
  refine sliceFrom_of_ascii (fun c hc => h c (List.mem_of_mem_take hc)) ?_
  rw [List.length_take]
  omega

/-- In ASCII, every offset up to the end is one between characters. -/
theorem isCharBoundary_of_ascii {s : Str} (h : IsAscii s) {n : ℕ} (hn : n ≤ s.length) :
    isCharBoundary n s = true := by
  simp [isCharBoundary, splitAtByte_of_ascii h hn]

/-- Digits are ASCII. -/
theorem isAscii_of_isDigit {s : Str} (h : ∀ c ∈ s, c.isDigit = true) : IsAscii s := by
  intro c hc
  have hd := h c hc
  simp only [Char.isDigit, Bool.and_eq_true, decide_eq_true_eq] at hd
  exact lt_of_le_of_lt (UInt32.le_iff_toNat_le.mp hd.2) (by decide)

/-! ## Bytes -/

@[simp] theorem length_encode (s : Str) : (Utf8.encode s).length = byteLen s := by
  induction s with
  | nil => rfl
  | cons c s ih => simp [ih]

/-- In ASCII, a character is one byte. -/
theorem encode_of_ascii {s : Str} (h : IsAscii s) :
    Utf8.encode s = s.map fun c => UInt8.ofNat c.toNat := by
  induction s with
  | nil => rfl
  | cons c s ih =>
      rw [Utf8.encode_cons, ih fun d hd => h d (List.mem_cons_of_mem _ hd), List.map_cons]
      have hc := h c List.mem_cons_self
      rcases Utf8.utf8EncodeChar_cases c with ⟨-, he⟩ | ⟨h', -, -⟩ | ⟨h', -, -⟩ | ⟨h', -⟩
      · rw [he]
        rfl
      all_goals omega

/-- Other characters have bytes outside of ASCII. -/
theorem exists_byte_of_not_ascii {s : Str} (h : ¬ IsAscii s) :
    ∃ b ∈ Utf8.encode s, 128 ≤ b.toNat := by
  simp only [IsAscii, not_forall, not_lt] at h
  obtain ⟨c, hc, hhigh⟩ := h
  suffices hlead : ∃ b ∈ String.utf8EncodeChar c, 128 ≤ b.toNat by
    obtain ⟨b, hb, hlead⟩ := hlead
    exact ⟨b, List.mem_flatMap.mpr ⟨c, hc, hb⟩, hlead⟩
  rcases Utf8.utf8EncodeChar_cases c with ⟨h1, -⟩ | ⟨h1, h2, he⟩ | ⟨h1, h2, he⟩ | ⟨h1, h2, he⟩
  · omega
  all_goals
    rw [he]
    refine ⟨_, List.mem_cons_self, ?_⟩
    rw [Utf8.toNat_ofNat_of_lt (by omega)]
    omega

/-- In ASCII, no byte continues a character. -/
theorem isContinuation_of_ascii {s : Str} (h : IsAscii s) {b : UInt8} (hb : b ∈ Utf8.encode s) :
    Utf8.isContinuation b = false := by
  induction s with
  | nil => cases hb
  | cons c s ih =>
      rw [Utf8.encode_cons, List.mem_append] at hb
      rcases hb with hb | hb
      · have hc := h c List.mem_cons_self
        rcases Utf8.utf8EncodeChar_cases c with ⟨-, he⟩ | ⟨h', -, -⟩ | ⟨h', -, -⟩ | ⟨h', -⟩
        · rw [he, List.mem_singleton] at hb
          rw [Bool.eq_false_iff, Ne, Utf8.isContinuation_iff, hb,
            Utf8.toNat_ofNat_of_lt (by omega)]
          omega
        all_goals omega
      · exact ih (fun d hd => h d (List.mem_cons_of_mem _ hd)) hb

/-- Counting goes on behind a prefix. -/
theorem byteAt_append (u v : Str) (n : ℕ) : byteAt (byteLen u + n) (u ++ v) = byteAt n v := by
  rw [byteAt, Utf8.encode_append, List.getElem?_append_right (by simp), length_encode,
    Nat.add_sub_cancel_left]
  rfl

/-- The byte of an ASCII character in front. -/
theorem byteAt_zero_of_ascii {c : Char} (h : c.toNat < 128) (s : Str) :
    byteAt 0 (c :: s) = some (UInt8.ofNat c.toNat) := by
  rcases Utf8.utf8EncodeChar_cases c with ⟨-, he⟩ | ⟨h', -, -⟩ | ⟨h', -, -⟩ | ⟨h', -⟩
  · simp [byteAt, he]
  all_goals omega

/-- An ASCII byte in front is that of an ASCII character. -/
theorem toNat_of_head {c : Char} {b : UInt8} (hb : b.toNat < 128)
    (h : (String.utf8EncodeChar c).head? = some b) : c.toNat = b.toNat := by
  rcases Utf8.utf8EncodeChar_cases c with ⟨hc, he⟩ | ⟨hc, hc', he⟩ | ⟨hc, hc', he⟩ | ⟨hc, hc', he⟩
  all_goals
    rw [he, List.head?_cons, Option.some.injEq] at h
    rw [← h, Utf8.toNat_ofNat_of_lt (by omega)] at hb ⊢
  all_goals omega

/-- An offset in front of an ASCII byte lies between characters, and its character stands
there. -/
theorem exists_append_of_byteAt {s : Str} {n : ℕ} {b : UInt8} (h : byteAt n s = some b)
    (hb : b.toNat < 128) :
    ∃ u c v, s = u ++ c :: v ∧ byteLen u = n ∧ c.toNat = b.toNat := by
  obtain ⟨hn, hget⟩ := List.getElem?_eq_some_iff.mp h
  have hsplit : Utf8.encode s = (Utf8.encode s).take n ++ (Utf8.encode s).drop n :=
    (List.take_append_drop n _).symm
  have hhead : ((Utf8.encode s).drop n).head? = some b := by
    rw [List.head?_drop]
    exact h
  obtain ⟨u, v, rfl, hu, hv⟩ := Utf8.exists_encode_append hsplit (by
    intro b' hb'
    obtain rfl : b = b' := by simpa [hhead] using hb'
    rw [Bool.eq_false_iff, Ne, Utf8.isContinuation_iff]
    omega)
  have hlen : byteLen u = n := by
    rw [← length_encode, ← hu, List.length_take]
    omega
  cases v with
  | nil =>
      rw [hv] at hhead
      cases hhead
  | cons c v =>
      refine ⟨u, c, v, rfl, hlen, toNat_of_head hb ?_⟩
      obtain ⟨a, l, hc, -, -⟩ := Utf8.utf8EncodeChar_eq_lead_cons c
      rw [hv, Utf8.encode_cons, hc] at hhead
      simpa [hc] using hhead

end Str
