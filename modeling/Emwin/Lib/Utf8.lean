/-
# UTF-8 over byte lists

A byte-at-a-time reader of UTF-8, and the two decoders built on it: `decode`,
which stops at the first malformed sequence and reports where it starts and how
long it is, and `decodeLossy`, which puts one replacement character for every
maximal ill-formed part.  The encoder is Lean's own (`String.utf8EncodeChar`).

* `decode_eq_ok_iff` : a byte list decodes to `t` exactly when it encodes `t`;
* `decodeLossy_encode` : well-formed input is decoded without replacement;
* `countLeads_add_one_le_length_decodeLossy` : bytes that begin in the middle of
  a character decode to more characters than they have leading bytes;
* `exists_encode_append` : cuts in front of a leading byte are cuts between
  characters.
-/
import Mathlib.Data.List.Basic
import Mathlib.Data.Char

namespace Utf8

/-! ## Reading one character -/

/-- A continuation byte `10xxxxxx`. -/
def isContinuation (b : UInt8) : Bool :=
  0x80 ≤ b.toNat && b.toNat ≤ 0xBF

/-- A sequence of which `seen` bytes have been read and `owed` are still to
come; the next one must lie in `lo..=hi`. -/
structure Partial where
  seen : ℕ
  owed : ℕ
  lo : ℕ
  hi : ℕ
  acc : ℕ
  deriving DecidableEq, Repr

/-- What a byte does to the sequence being read. -/
inductive Verdict where
  | char (c : Char)
  | more (p : Partial)
  | bad
  deriving DecidableEq, Repr

/-- The first byte of a sequence. -/
def first (b : UInt8) : Verdict :=
  if b.toNat < 0x80 then .char (Char.ofNat b.toNat)
  else if b.toNat < 0xC2 then .bad
  else if b.toNat < 0xE0 then .more ⟨1, 1, 0x80, 0xBF, b.toNat - 0xC0⟩
  else if b.toNat < 0xF0 then
    .more ⟨1, 2, if b.toNat = 0xE0 then 0xA0 else 0x80, if b.toNat = 0xED then 0x9F else 0xBF,
      b.toNat - 0xE0⟩
  else if b.toNat < 0xF5 then
    .more ⟨1, 3, if b.toNat = 0xF0 then 0x90 else 0x80, if b.toNat = 0xF4 then 0x8F else 0xBF,
      b.toNat - 0xF0⟩
  else .bad

/-- A byte inside a sequence. -/
def Partial.next (p : Partial) (b : UInt8) : Verdict :=
  if p.lo ≤ b.toNat ∧ b.toNat ≤ p.hi then
    if p.owed ≤ 1 then .char (Char.ofNat (p.acc * 64 + (b.toNat - 0x80)))
    else .more ⟨p.seen + 1, p.owed - 1, 0x80, 0xBF, p.acc * 64 + (b.toNat - 0x80)⟩
  else .bad

/-- `Reads v l c`: after verdict `v`, the bytes `l` complete the character `c`. -/
inductive Reads : Verdict → List UInt8 → Char → Prop
  | done (c : Char) : Reads (.char c) [] c
  | step {p : Partial} {b : UInt8} {l : List UInt8} {c : Char} :
      Reads (p.next b) l c → Reads (.more p) (b :: l) c

/-- The UTF-8 encoding of a text. -/
def encode (t : List Char) : List UInt8 :=
  t.flatMap String.utf8EncodeChar

@[simp] theorem encode_nil : encode [] = [] := rfl

@[simp] theorem encode_cons (c : Char) (t : List Char) :
    encode (c :: t) = String.utf8EncodeChar c ++ encode t := rfl

@[simp] theorem encode_append (t u : List Char) : encode (t ++ u) = encode t ++ encode u :=
  List.flatMap_append

/-- A code point is below the surrogates or between them and the last plane. -/
theorem toNat_range (c : Char) :
    c.toNat < 0xD800 ∨ (0xDFFF < c.toNat ∧ c.toNat < 0x110000) :=
  c.valid

/-- The encoding of a character, byte by byte. -/
theorem utf8EncodeChar_cases (c : Char) :
    (c.toNat < 0x80 ∧ String.utf8EncodeChar c = [UInt8.ofNat c.toNat]) ∨
    (0x80 ≤ c.toNat ∧ c.toNat < 0x800 ∧ String.utf8EncodeChar c =
      [UInt8.ofNat (c.toNat / 64 + 0xC0), UInt8.ofNat (c.toNat % 64 + 0x80)]) ∨
    (0x800 ≤ c.toNat ∧ c.toNat < 0x10000 ∧ String.utf8EncodeChar c =
      [UInt8.ofNat (c.toNat / 4096 + 0xE0), UInt8.ofNat (c.toNat / 64 % 64 + 0x80),
        UInt8.ofNat (c.toNat % 64 + 0x80)]) ∨
    (0x10000 ≤ c.toNat ∧ c.toNat < 0x110000 ∧ String.utf8EncodeChar c =
      [UInt8.ofNat (c.toNat / 262144 + 0xF0), UInt8.ofNat (c.toNat / 4096 % 64 + 0x80),
        UInt8.ofNat (c.toNat / 64 % 64 + 0x80), UInt8.ofNat (c.toNat % 64 + 0x80)]) := by
  have hr := toNat_range c
  have hv : c.val.toNat = c.toNat := rfl
  unfold String.utf8EncodeChar
  simp only [hv]
  split_ifs with h1 h2 h3
  · exact Or.inl ⟨by omega, rfl⟩
  · have ha : c.toNat / 64 % 0x20 = c.toNat / 64 := Nat.mod_eq_of_lt (by omega)
    rw [ha]
    exact Or.inr (Or.inl ⟨by omega, by omega, rfl⟩)
  · have ha : c.toNat / 4096 % 0x10 = c.toNat / 4096 := Nat.mod_eq_of_lt (by omega)
    rw [ha]
    exact Or.inr (Or.inr (Or.inl ⟨by omega, by omega, rfl⟩))
  · have ha : c.toNat / 262144 % 0x08 = c.toNat / 262144 := Nat.mod_eq_of_lt (by omega)
    rw [ha]
    exact Or.inr (Or.inr (Or.inr ⟨by omega, by omega, rfl⟩))

/-- Only the NUL character has a zero byte in its encoding. -/
theorem eq_nul_of_zero_mem {c : Char} (h : 0 ∈ String.utf8EncodeChar c) : c = '\x00' := by
  have hbyte : ∀ n : ℕ, 0 < n → n < 256 → (0 : UInt8) ≠ UInt8.ofNat n := by
    intro n h0 h1 he
    have := congrArg UInt8.toNat he
    rw [UInt8.toNat_ofNat', Nat.mod_eq_of_lt h1] at this
    exact absurd this (by simp; omega)
  rcases utf8EncodeChar_cases c with ⟨h1, he⟩ | ⟨h1, h2, he⟩ | ⟨h1, h2, he⟩ | ⟨h1, h2, he⟩
  · rw [he, List.mem_singleton] at h
    by_contra hne
    refine hbyte c.toNat ?_ (by omega) h
    rcases Nat.eq_zero_or_pos c.toNat with h0 | h0
    · exact absurd (Char.toNat_inj.mp (h0.trans (show 0 = '\x00'.toNat from rfl))) hne
    · exact h0
  · rw [he] at h
    simp only [List.mem_cons, List.not_mem_nil, or_false] at h
    rcases h with h | h <;> exact absurd h (hbyte _ (by omega) (by omega))
  · rw [he] at h
    simp only [List.mem_cons, List.not_mem_nil, or_false] at h
    rcases h with h | h | h <;> exact absurd h (hbyte _ (by omega) (by omega))
  · rw [he] at h
    simp only [List.mem_cons, List.not_mem_nil, or_false] at h
    rcases h with h | h | h | h <;> exact absurd h (hbyte _ (by omega) (by omega))

/-- A text without NUL is encoded without a zero byte. -/
theorem zero_notMem_encode {t : List Char} (h : '\x00' ∉ t) : (0 : UInt8) ∉ encode t := by
  intro hz
  obtain ⟨c, hc, hzero⟩ := List.mem_flatMap.mp hz
  exact h (eq_nul_of_zero_mem hzero ▸ hc)

theorem toNat_ofNat_of_lt {n : ℕ} (h : n < 256) : (UInt8.ofNat n).toNat = n := by
  rw [UInt8.toNat_ofNat']; omega

/-- A byte in range continues a sequence that owes more than one. -/
theorem Partial.next_more {p : Partial} {b : UInt8} (hb : p.lo ≤ b.toNat ∧ b.toNat ≤ p.hi)
    (ho : 1 < p.owed) :
    p.next b = .more ⟨p.seen + 1, p.owed - 1, 0x80, 0xBF, p.acc * 64 + (b.toNat - 0x80)⟩ := by
  rw [Partial.next, if_pos hb, if_neg (by omega)]

/-- A byte in range completes a sequence that owes one. -/
theorem Partial.next_char {p : Partial} {b : UInt8} (hb : p.lo ≤ b.toNat ∧ b.toNat ≤ p.hi)
    (ho : p.owed ≤ 1) : p.next b = .char (Char.ofNat (p.acc * 64 + (b.toNat - 0x80))) := by
  rw [Partial.next, if_pos hb, if_pos ho]

/-- The encoding of a character is read back as that character. -/
theorem reads_utf8EncodeChar (c : Char) :
    ∃ a l, String.utf8EncodeChar c = a :: l ∧ Reads (first a) l c := by
  have hr := toNat_range c
  have hc : Char.ofNat c.toNat = c := Char.ofNat_toNat c
  have hlow : (UInt8.ofNat (c.toNat % 64 + 0x80)).toNat = c.toNat % 64 + 0x80 :=
    toNat_ofNat_of_lt (by omega)
  have hmid : (UInt8.ofNat (c.toNat / 64 % 64 + 0x80)).toNat = c.toNat / 64 % 64 + 0x80 :=
    toNat_ofNat_of_lt (by omega)
  have htop : (UInt8.ofNat (c.toNat / 4096 % 64 + 0x80)).toNat = c.toNat / 4096 % 64 + 0x80 :=
    toNat_ofNat_of_lt (by omega)
  rcases utf8EncodeChar_cases c with ⟨h, he⟩ | ⟨h, h', he⟩ | ⟨h, h', he⟩ | ⟨h, h', he⟩
  · refine ⟨_, _, he, ?_⟩
    rw [first, toNat_ofNat_of_lt (by omega), if_pos h, hc]
    exact Reads.done c
  · refine ⟨_, _, he, ?_⟩
    rw [first, toNat_ofNat_of_lt (by omega), if_neg (by omega), if_neg (by omega),
      if_pos (by omega)]
    apply Reads.step
    rw [Partial.next_char (by rw [hlow]; dsimp only; omega) (by simp), hlow]
    have hacc : (c.toNat / 64 + 0xC0 - 0xC0) * 64 + (c.toNat % 64 + 0x80 - 0x80) = c.toNat := by
      omega
    rw [hacc, hc]
    exact Reads.done c
  · refine ⟨_, _, he, ?_⟩
    rw [first, toNat_ofNat_of_lt (by omega), if_neg (by omega), if_neg (by omega),
      if_neg (by omega), if_pos (by omega)]
    apply Reads.step
    rw [Partial.next_more (by rw [hmid]; dsimp only; split_ifs <;> omega) (by simp), hmid]
    apply Reads.step
    rw [Partial.next_char (by rw [hlow]; dsimp only; omega) (by simp), hlow]
    have hacc : ((c.toNat / 4096 + 0xE0 - 0xE0) * 64 + (c.toNat / 64 % 64 + 0x80 - 0x80)) * 64
        + (c.toNat % 64 + 0x80 - 0x80) = c.toNat := by omega
    rw [hacc, hc]
    exact Reads.done c
  · refine ⟨_, _, he, ?_⟩
    rw [first, toNat_ofNat_of_lt (by omega), if_neg (by omega), if_neg (by omega),
      if_neg (by omega), if_neg (by omega), if_pos (by omega)]
    apply Reads.step
    rw [Partial.next_more (by rw [htop]; dsimp only; split_ifs <;> omega) (by simp), htop]
    apply Reads.step
    rw [Partial.next_more (by rw [hmid]; dsimp only; omega) (by simp), hmid]
    apply Reads.step
    rw [Partial.next_char (by rw [hlow]; dsimp only; omega) (by simp), hlow]
    have hacc : (((c.toNat / 262144 + 0xF0 - 0xF0) * 64 + (c.toNat / 4096 % 64 + 0x80 - 0x80)) * 64
        + (c.toNat / 64 % 64 + 0x80 - 0x80)) * 64 + (c.toNat % 64 + 0x80 - 0x80) = c.toNat := by
      omega
    rw [hacc, hc]
    exact Reads.done c

/-- The sequence that a byte list completes ends with the last byte owed. -/
theorem Reads.of_owed_le_one {p : Partial} {l : List UInt8} {c : Char}
    (h : Reads (.more p) l c) (ho : p.owed ≤ 1) :
    ∃ b, l = [b] ∧ p.lo ≤ b.toNat ∧ b.toNat ≤ p.hi ∧
      c = Char.ofNat (p.acc * 64 + (b.toNat - 0x80)) := by
  obtain _ | @⟨_, b, l, _, h⟩ := h
  by_cases hb : p.lo ≤ b.toNat ∧ b.toNat ≤ p.hi
  · rw [Partial.next_char hb ho] at h
    generalize hc : Char.ofNat _ = c' at h
    cases h
    exact ⟨b, rfl, hb.1, hb.2, hc.symm⟩
  · rw [Partial.next, if_neg hb] at h
    cases h

/-- A sequence that owes more than one byte goes on with a byte in range. -/
theorem Reads.of_one_lt_owed {p : Partial} {l : List UInt8} {c : Char}
    (h : Reads (.more p) l c) (ho : 1 < p.owed) :
    ∃ b l', l = b :: l' ∧ p.lo ≤ b.toNat ∧ b.toNat ≤ p.hi ∧
      Reads (.more ⟨p.seen + 1, p.owed - 1, 0x80, 0xBF, p.acc * 64 + (b.toNat - 0x80)⟩) l' c := by
  obtain _ | @⟨_, b, l, _, h⟩ := h
  by_cases hb : p.lo ≤ b.toNat ∧ b.toNat ≤ p.hi
  · rw [Partial.next_more hb ho] at h
    exact ⟨b, l, rfl, hb.1, hb.2, h⟩
  · rw [Partial.next, if_neg hb] at h
    cases h

theorem eq_ofNat_of_toNat_eq {b : UInt8} {n : ℕ} (h : b.toNat = n) : UInt8.ofNat n = b := by
  rw [← h, UInt8.ofNat_toNat]

theorem toNat_ofNat_char {n : ℕ} (h : n < 0xD800 ∨ (0xDFFF < n ∧ n < 0x110000)) :
    (Char.ofNat n).toNat = n := by
  rw [Char.ofNat, dif_pos h]
  rfl

/-- A completed sequence is the encoding of the character it was read as. -/
theorem Reads.utf8EncodeChar_eq {a : UInt8} {l : List UInt8} {c : Char}
    (h : Reads (first a) l c) : String.utf8EncodeChar c = a :: l := by
  unfold first at h
  split at h
  · next h1 =>
      -- one byte
      generalize hc : Char.ofNat a.toNat = c' at h
      cases h
      have hn : c.toNat = a.toNat := hc ▸ toNat_ofNat_char (by omega)
      rcases utf8EncodeChar_cases c with ⟨-, he⟩ | ⟨hlo, -⟩ | ⟨hlo, -⟩ | ⟨hlo, -⟩
      · rw [he, eq_ofNat_of_toNat_eq hn.symm]
      all_goals omega
  split at h
  · cases h
  split at h
  · -- two bytes
    obtain ⟨b, rfl, hlo, hhi, hc⟩ := h.of_owed_le_one (by simp)
    dsimp only at hlo hhi hc
    have hn : c.toNat = (a.toNat - 0xC0) * 64 + (b.toNat - 0x80) :=
      hc ▸ toNat_ofNat_char (by omega)
    rcases utf8EncodeChar_cases c with ⟨hc, -⟩ | ⟨-, -, he⟩ | ⟨hc, -⟩ | ⟨hc, -⟩
    · omega
    · rw [he, eq_ofNat_of_toNat_eq (b := a) (by omega), eq_ofNat_of_toNat_eq (b := b) (by omega)]
    all_goals omega
  split at h
  · -- three bytes
    obtain ⟨b, l, rfl, hlo, hhi, h⟩ := h.of_one_lt_owed (by simp)
    obtain ⟨d, rfl, hlo', hhi', hc⟩ := h.of_owed_le_one (by simp)
    dsimp only at hlo hhi hlo' hhi' hc
    have hn : c.toNat = ((a.toNat - 0xE0) * 64 + (b.toNat - 0x80)) * 64 + (d.toNat - 0x80) :=
      hc ▸ toNat_ofNat_char (by split_ifs at hlo hhi <;> omega)
    rcases utf8EncodeChar_cases c with ⟨hc, -⟩ | ⟨hc, hc', -⟩ | ⟨-, -, he⟩ | ⟨hc, -⟩
    · split_ifs at hlo <;> omega
    · split_ifs at hlo <;> omega
    · rw [he, eq_ofNat_of_toNat_eq (b := a) (by split_ifs at hhi <;> omega),
        eq_ofNat_of_toNat_eq (b := b) (by split_ifs at hlo hhi <;> omega),
        eq_ofNat_of_toNat_eq (b := d) (by omega)]
    · split_ifs at hhi <;> omega
  split at h
  · -- four bytes
    obtain ⟨b, l, rfl, hlo, hhi, h⟩ := h.of_one_lt_owed (by simp)
    obtain ⟨d, l, rfl, hlo', hhi', h⟩ := h.of_one_lt_owed (by simp)
    obtain ⟨e, rfl, hlo'', hhi'', hc⟩ := h.of_owed_le_one (by simp)
    dsimp only at hlo hhi hlo' hhi' hlo'' hhi'' hc
    have hn : c.toNat = (((a.toNat - 0xF0) * 64 + (b.toNat - 0x80)) * 64 + (d.toNat - 0x80)) * 64
        + (e.toNat - 0x80) := hc ▸ toNat_ofNat_char (by split_ifs at hlo hhi <;> omega)
    rcases utf8EncodeChar_cases c with ⟨hc, -⟩ | ⟨-, hc, -⟩ | ⟨-, hc, -⟩ | ⟨-, -, he⟩
    · split_ifs at hlo <;> omega
    · split_ifs at hlo <;> omega
    · split_ifs at hlo <;> omega
    · rw [he, eq_ofNat_of_toNat_eq (b := a) (by split_ifs at hhi <;> omega),
        eq_ofNat_of_toNat_eq (b := b) (by split_ifs at hlo hhi <;> omega),
        eq_ofNat_of_toNat_eq (b := d) (by omega), eq_ofNat_of_toNat_eq (b := e) (by omega)]
  · cases h

/-! ## The two decoders -/

/-- Where decoding failed: the length of the well-formed part in front, and the
length of the ill-formed sequence, absent when the input ended inside it. -/
structure Utf8Error where
  validUpTo : ℕ
  errorLen : Option ℕ
  deriving DecidableEq, Repr

/-- Decode from inside a sequence that started at byte `n`. -/
def decodeFrom : ℕ → Option Partial → List UInt8 → Except Utf8Error (List Char)
  | _, none, [] => .ok []
  | n, some _, [] => .error ⟨n, none⟩
  | n, none, b :: l =>
      match first b with
      | .char c => (decodeFrom (n + 1) none l).map (c :: ·)
      | .more p => decodeFrom n (some p) l
      | .bad => .error ⟨n, some 1⟩
  | n, some p, b :: l =>
      match p.next b with
      | .char c => (decodeFrom (n + p.seen + 1) none l).map (c :: ·)
      | .more q => decodeFrom n (some q) l
      | .bad => .error ⟨n, some p.seen⟩

/-- Decode a byte list, or say where it is malformed. -/
def decode (l : List UInt8) : Except Utf8Error (List Char) :=
  decodeFrom 0 none l

/-- The replacement character. -/
def replacement : Char := '\uFFFD'

/-- Decode from inside a sequence, replacing what is malformed. -/
def lossyFrom : Option Partial → List UInt8 → List Char
  | none, [] => []
  | some _, [] => [replacement]
  | none, b :: l =>
      match first b with
      | .char c => c :: lossyFrom none l
      | .more p => lossyFrom (some p) l
      | .bad => replacement :: lossyFrom none l
  | some p, b :: l =>
      match p.next b with
      | .char c => c :: lossyFrom none l
      | .more q => lossyFrom (some q) l
      | .bad =>
          -- the sequence so far is one ill-formed part, and `b` starts the next one
          replacement :: match first b with
            | .char c => c :: lossyFrom none l
            | .more q => lossyFrom (some q) l
            | .bad => replacement :: lossyFrom none l

/-- Decode a byte list with one replacement character per ill-formed part. -/
def decodeLossy (l : List UInt8) : List Char :=
  lossyFrom none l

/-! ## Decoding what was encoded -/

/-- The rest of a sequence is read to its character. -/
theorem decodeFrom_of_reads {p : Partial} {l : List UInt8} {c : Char} (h : Reads (.more p) l c)
    (n : ℕ) (r : List UInt8) :
    ∃ m, decodeFrom n (some p) (l ++ r) = (decodeFrom m none r).map (c :: ·) := by
  induction l generalizing p with
  | nil => cases h
  | cons b l ih =>
      obtain _ | @⟨_, _, _, _, h⟩ := h
      rw [List.cons_append, decodeFrom]
      cases hv : p.next b with
      | char c' =>
          rw [hv] at h
          cases h
          exact ⟨_, rfl⟩
      | more q => exact ih (hv ▸ h)
      | bad => rw [hv] at h; cases h

/-- One character at the front. -/
theorem decodeFrom_utf8EncodeChar (c : Char) (n : ℕ) (r : List UInt8) :
    ∃ m, decodeFrom n none (String.utf8EncodeChar c ++ r) =
      (decodeFrom m none r).map (c :: ·) := by
  obtain ⟨a, l, he, h⟩ := reads_utf8EncodeChar c
  rw [he, List.cons_append, decodeFrom]
  cases hv : first a with
  | char c' =>
      rw [hv] at h
      cases h
      exact ⟨_, rfl⟩
  | more p => exact decodeFrom_of_reads (hv ▸ h) n r
  | bad => rw [hv] at h; cases h

theorem decodeFrom_encode (t : List Char) (n : ℕ) : decodeFrom n none (encode t) = .ok t := by
  induction t generalizing n with
  | nil => rfl
  | cons c t ih =>
      obtain ⟨m, hm⟩ := decodeFrom_utf8EncodeChar c n (encode t)
      rw [encode_cons, hm, ih]
      rfl

theorem exists_eq_cons_of_map_eq_ok {ε : Type*} {x : Except ε (List Char)} {c : Char}
    {t : List Char} (h : x.map (c :: ·) = .ok t) : ∃ u, x = .ok u ∧ t = c :: u := by
  cases x with
  | error e => cases h
  | ok u => exact ⟨u, rfl, (Except.ok.inj h).symm⟩

/-- What decodes without an error inside a sequence completes the sequence first. -/
theorem reads_of_decodeFrom_eq_ok {p : Partial} {l : List UInt8} {n : ℕ} {t : List Char}
    (h : decodeFrom n (some p) l = .ok t) :
    ∃ l₁ l₂ c u m, l = l₁ ++ l₂ ∧ Reads (.more p) l₁ c ∧ t = c :: u ∧
      decodeFrom m none l₂ = .ok u := by
  induction l generalizing p with
  | nil => cases h
  | cons b l ih =>
      rw [decodeFrom] at h
      cases hv : p.next b with
      | char c =>
          rw [hv] at h
          obtain ⟨u, hu, rfl⟩ := exists_eq_cons_of_map_eq_ok h
          exact ⟨[b], l, c, u, _, rfl, Reads.step (hv ▸ Reads.done c), rfl, hu⟩
      | more q =>
          rw [hv] at h
          obtain ⟨l₁, l₂, c, u, m, rfl, hr, rfl, hu⟩ := ih h
          exact ⟨b :: l₁, l₂, c, u, m, rfl, Reads.step (hv ▸ hr), rfl, hu⟩
      | bad => rw [hv] at h; cases h

/-- What decodes without an error is the encoding of the result. -/
theorem eq_encode_of_decodeFrom_eq_ok (t : List Char) :
    ∀ (l : List UInt8) (n : ℕ), decodeFrom n none l = .ok t → l = encode t := by
  induction t with
  | nil =>
      intro l n h
      cases l with
      | nil => rfl
      | cons b l =>
          exfalso
          rw [decodeFrom] at h
          cases hv : first b with
          | char c =>
              rw [hv] at h
              obtain ⟨u, -, hu⟩ := exists_eq_cons_of_map_eq_ok h
              cases hu
          | more p =>
              rw [hv] at h
              obtain ⟨_, _, _, _, _, -, -, hu, -⟩ := reads_of_decodeFrom_eq_ok h
              cases hu
          | bad => rw [hv] at h; cases h
  | cons c t ih =>
      intro l n h
      cases l with
      | nil => cases h
      | cons b l =>
          rw [decodeFrom] at h
          cases hv : first b with
          | char c' =>
              rw [hv] at h
              obtain ⟨u, hu, huc⟩ := exists_eq_cons_of_map_eq_ok h
              cases huc
              have hc : Reads (first b) [] c := hv ▸ Reads.done c
              rw [encode_cons, hc.utf8EncodeChar_eq, ih l _ hu]
              rfl
          | more p =>
              rw [hv] at h
              obtain ⟨l₁, l₂, c', u, m, rfl, hr, huc, hu⟩ := reads_of_decodeFrom_eq_ok h
              cases huc
              have hc : Reads (first b) l₁ c := hv ▸ hr
              rw [encode_cons, hc.utf8EncodeChar_eq, ih l₂ m hu]
              rfl
          | bad => rw [hv] at h; cases h

/-- **Round trip.**  A byte list decodes to `t` exactly when it is the encoding of `t`. -/
theorem decode_eq_ok_iff (l : List UInt8) (t : List Char) : decode l = .ok t ↔ l = encode t :=
  ⟨eq_encode_of_decodeFrom_eq_ok t l 0, fun h => h ▸ decodeFrom_encode t 0⟩

theorem lossyFrom_of_reads {p : Partial} {l : List UInt8} {c : Char} (h : Reads (.more p) l c)
    (r : List UInt8) : lossyFrom (some p) (l ++ r) = c :: lossyFrom none r := by
  induction l generalizing p with
  | nil => cases h
  | cons b l ih =>
      obtain _ | @⟨_, _, _, _, h⟩ := h
      rw [List.cons_append, lossyFrom]
      cases hv : p.next b with
      | char c' =>
          rw [hv] at h
          cases h
          rfl
      | more q => exact ih (hv ▸ h)
      | bad => rw [hv] at h; cases h

theorem lossyFrom_utf8EncodeChar (c : Char) (r : List UInt8) :
    lossyFrom none (String.utf8EncodeChar c ++ r) = c :: lossyFrom none r := by
  obtain ⟨a, l, he, h⟩ := reads_utf8EncodeChar c
  rw [he, List.cons_append, lossyFrom]
  cases hv : first a with
  | char c' =>
      rw [hv] at h
      cases h
      rfl
  | more p => exact lossyFrom_of_reads (hv ▸ h) r
  | bad => rw [hv] at h; cases h

/-- Well-formed input is decoded without replacement. -/
@[simp] theorem decodeLossy_encode (t : List Char) : decodeLossy (encode t) = t := by
  induction t with
  | nil => rfl
  | cons c t ih =>
      rw [decodeLossy] at ih
      rw [encode_cons, decodeLossy, lossyFrom_utf8EncodeChar, ih]

/-! ## Leading bytes -/

/-- The number of bytes that are not continuation bytes. -/
def countLeads (l : List UInt8) : ℕ :=
  l.countP fun b => !isContinuation b

@[simp] theorem countLeads_nil : countLeads [] = 0 := rfl

theorem countLeads_cons_of_continuation {b : UInt8} (h : isContinuation b = true)
    (l : List UInt8) : countLeads (b :: l) = countLeads l := by
  simp [countLeads, h]

theorem countLeads_cons_le (b : UInt8) (l : List UInt8) :
    countLeads (b :: l) ≤ countLeads l + 1 := by
  unfold countLeads
  rw [List.countP_cons]
  split <;> omega

@[simp] theorem countLeads_append (l r : List UInt8) :
    countLeads (l ++ r) = countLeads l + countLeads r :=
  List.countP_append

theorem isContinuation_iff (b : UInt8) :
    isContinuation b = true ↔ 0x80 ≤ b.toNat ∧ b.toNat ≤ 0xBF := by
  simp [isContinuation]

theorem first_of_continuation {b : UInt8} (h : isContinuation b = true) : first b = .bad := by
  rw [isContinuation_iff] at h
  rw [first, if_neg (by omega), if_pos (by omega)]

/-- The ranges of a partial sequence lie inside the continuation bytes. -/
def Partial.Ok (p : Partial) : Prop := 0x80 ≤ p.lo ∧ p.hi ≤ 0xBF

theorem ok_of_first {b : UInt8} {p : Partial} (h : first b = .more p) : p.Ok := by
  unfold first at h
  split at h
  · cases h
  split at h
  · cases h
  split at h
  · cases h; exact ⟨le_rfl, le_rfl⟩
  split at h
  · cases h
    constructor <;> dsimp only <;> split_ifs <;> omega
  split at h
  · cases h
    constructor <;> dsimp only <;> split_ifs <;> omega
  · cases h

theorem ok_of_next {p q : Partial} {b : UInt8} (h : p.next b = .more q) : q.Ok := by
  unfold Partial.next at h
  split at h
  · split at h
    · cases h
    · cases h; exact ⟨le_rfl, le_rfl⟩
  · cases h

theorem isContinuation_of_next {p : Partial} (hp : p.Ok) {b : UInt8} (h : p.next b ≠ .bad) :
    isContinuation b = true := by
  rw [isContinuation_iff]
  by_contra hb
  apply h
  rw [Partial.next, if_neg]
  obtain ⟨h1, h2⟩ := hp
  omega

/-- Every leading byte, and the sequence being read, gives a character. -/
theorem countLeads_le_length_lossyFrom (l : List UInt8) :
    countLeads l ≤ (lossyFrom none l).length ∧
      ∀ p : Partial, p.Ok → countLeads l + 1 ≤ (lossyFrom (some p) l).length := by
  induction l with
  | nil => exact ⟨le_rfl, fun _ _ => le_rfl⟩
  | cons b l ih =>
      have hb := countLeads_cons_le b l
      -- what `b` gives when it starts a sequence
      have hfirst : countLeads (b :: l) ≤
          (match first b with
            | .char c => c :: lossyFrom none l
            | .more q => lossyFrom (some q) l
            | .bad => replacement :: lossyFrom none l).length := by
        cases hv : first b with
        | char c => simp only [List.length_cons]; omega
        | more q =>
            have := ih.2 q (ok_of_first hv)
            dsimp only; omega
        | bad => simp only [List.length_cons]; omega
      refine ⟨?_, fun p hp => ?_⟩
      · rw [lossyFrom]
        cases hv : first b <;> rw [hv] at hfirst <;> exact hfirst
      · rw [lossyFrom]
        cases hv : p.next b with
        | char c =>
            have hcont := isContinuation_of_next hp (b := b) (by rw [hv]; simp)
            rw [countLeads_cons_of_continuation hcont]
            simp only [List.length_cons]; omega
        | more q =>
            have hcont := isContinuation_of_next hp (b := b) (by rw [hv]; simp)
            rw [countLeads_cons_of_continuation hcont]
            exact ih.2 q (ok_of_next hv)
        | bad => simp only [List.length_cons]; omega

theorem countLeads_le_length_decodeLossy (l : List UInt8) :
    countLeads l ≤ (decodeLossy l).length :=
  (countLeads_le_length_lossyFrom l).1

/-- Input that begins inside a character decodes to more characters than it has
leading bytes. -/
theorem countLeads_add_one_le_length_decodeLossy {b : UInt8} (h : isContinuation b = true)
    (l : List UInt8) : countLeads (b :: l) + 1 ≤ (decodeLossy (b :: l)).length := by
  have hl := countLeads_le_length_decodeLossy l
  rw [decodeLossy] at hl
  rw [countLeads_cons_of_continuation h, decodeLossy, lossyFrom, first_of_continuation h]
  simp only [List.length_cons]; omega

/-! ## Cuts between characters -/

/-- The bytes of a character: a leading byte and continuation bytes. -/
theorem utf8EncodeChar_eq_lead_cons (c : Char) :
    ∃ a l, String.utf8EncodeChar c = a :: l ∧ isContinuation a = false ∧
      ∀ b ∈ l, isContinuation b = true := by
  have hr := toNat_range c
  have hcont : ∀ n : ℕ, isContinuation (UInt8.ofNat (n % 64 + 0x80)) = true := by
    intro n
    rw [isContinuation_iff, toNat_ofNat_of_lt (by omega)]
    omega
  have hlead : ∀ n : ℕ, n < 256 → (n < 0x80 ∨ 0xBF < n) →
      isContinuation (UInt8.ofNat n) = false := by
    intro n h h'
    rw [Bool.eq_false_iff, Ne, isContinuation_iff, toNat_ofNat_of_lt h]
    omega
  rcases utf8EncodeChar_cases c with ⟨h, he⟩ | ⟨h, h', he⟩ | ⟨h, h', he⟩ | ⟨h, h', he⟩
  · exact ⟨_, _, he, hlead _ (by omega) (by omega), by simp⟩
  · exact ⟨_, _, he, hlead _ (by omega) (by omega), by
      simp only [List.forall_mem_cons, hcont, true_and, List.not_mem_nil, false_implies,
        implies_true]⟩
  · exact ⟨_, _, he, hlead _ (by omega) (by omega), by
      simp only [List.forall_mem_cons, hcont, true_and, List.not_mem_nil, false_implies,
        implies_true]⟩
  · exact ⟨_, _, he, hlead _ (by omega) (by omega), by
      simp only [List.forall_mem_cons, hcont, true_and, List.not_mem_nil, false_implies,
        implies_true]⟩

/-- Every character has one leading byte. -/
@[simp] theorem countLeads_encode (t : List Char) : countLeads (encode t) = t.length := by
  induction t with
  | nil => rfl
  | cons c t ih =>
      obtain ⟨a, l, he, ha, hl⟩ := utf8EncodeChar_eq_lead_cons c
      have hzero : countLeads l = 0 := by
        rw [countLeads, List.countP_eq_zero]
        intro b hb
        simp [hl b hb]
      have hone : countLeads (a :: l) = countLeads l + 1 := by
        rw [countLeads, List.countP_cons_of_pos (by simp [ha])]
        rfl
      rw [encode_cons, countLeads_append, he, hone, hzero, ih, List.length_cons]
      omega

/-- A cut in front of a leading byte, or at the end, is a cut between characters. -/
theorem exists_encode_append {t : List Char} {u v : List UInt8} (h : encode t = u ++ v)
    (hv : ∀ b ∈ v.head?, isContinuation b = false) :
    ∃ t₁ t₂, t = t₁ ++ t₂ ∧ u = encode t₁ ∧ v = encode t₂ := by
  induction t generalizing u with
  | nil =>
      obtain ⟨rfl, rfl⟩ := List.append_eq_nil_iff.mp h.symm
      exact ⟨[], [], rfl, rfl, rfl⟩
  | cons c t ih =>
      cases hu : u with
      | nil => exact ⟨[], c :: t, rfl, rfl, by rw [h, hu]; rfl⟩
      | cons x u' =>
          obtain ⟨a, l, he, -, hl⟩ := utf8EncodeChar_eq_lead_cons c
          rw [encode_cons] at h
          rcases List.append_eq_append_iff.mp h with ⟨w, hw, hw'⟩ | ⟨w, hw, hw'⟩
          · obtain ⟨t₁, t₂, rfl, rfl, rfl⟩ := ih hw'
            exact ⟨c :: t₁, t₂, rfl, by rw [← hu, hw]; rfl, rfl⟩
          · -- the cut would fall inside the bytes of `c`
            cases w with
            | nil =>
                obtain ⟨t₁, t₂, rfl, h1, h2⟩ := ih (u := []) (by simpa using hw'.symm)
                refine ⟨c :: t₁, t₂, rfl, ?_, h2⟩
                rw [← hu, encode_cons, ← h1, List.append_nil, hw, List.append_nil]
            | cons b w =>
                exfalso
                have hb : isContinuation b = false := hv b (by rw [hw']; rfl)
                rw [he, hu, List.cons_append, List.cons.injEq] at hw
                have hmem : b ∈ l := by
                  rw [hw.2]
                  exact List.mem_append_right _ List.mem_cons_self
                rw [hl b hmem] at hb
                cases hb

end Utf8
