/-
# Text as lists of characters

The string operations of a systems language's standard library, on lists of
characters: Unicode white space and trimming, prefixes and suffixes, searching
for a pattern, splitting at the last separator, reading and printing unsigned
decimals, ASCII case folding, and lengths and cuts measured in UTF-8 bytes.
-/
import Emwin.Lib.Search
import Mathlib.Data.List.DropRight
import Mathlib.Data.Nat.Digits.Defs

/-- A text. -/
abbrev Str := List Char

namespace Str

/-- Conditions on the elements of a list are decided element by element, also where the elements are
of a finite type. -/
instance (priority := high) decidableForallMem {α : Type*} {p : α → Prop} [DecidablePred p]
    (l : List α) : Decidable (∀ a ∈ l, p a) :=
  List.decidableBAll p l

instance (priority := high) decidableExistsMem {α : Type*} {p : α → Prop} [DecidablePred p]
    (l : List α) : Decidable (∃ a ∈ l, p a) :=
  List.decidableBEx p l

/-- Texts are equal exactly if they are compared as equal. -/
instance (priority := high) lawfulBEq : LawfulBEq Str := inferInstance

/-! ## White space -/

/-- The Unicode property `White_Space`. -/
def isWhitespace (c : Char) : Bool :=
  (0x09 ≤ c.toNat && c.toNat ≤ 0x0D) || c.toNat == 0x20 || c.toNat == 0x85 || c.toNat == 0xA0 ||
  c.toNat == 0x1680 || (0x2000 ≤ c.toNat && c.toNat ≤ 0x200A) || c.toNat == 0x2028 ||
  c.toNat == 0x2029 || c.toNat == 0x202F || c.toNat == 0x205F || c.toNat == 0x3000

/-- Remove white space in front. -/
def trimStart (s : Str) : Str := s.dropWhile isWhitespace

/-- Remove white space at the end. -/
def trimEnd (s : Str) : Str := s.rdropWhile isWhitespace

/-- Remove white space on both sides. -/
def trim (s : Str) : Str := trimEnd (trimStart s)

/-- A text that neither begins nor ends with white space is not trimmed. -/
theorem trim_eq_self {s : Str} (hhead : ∀ c ∈ s.head?, isWhitespace c = false)
    (hlast : ∀ c ∈ s.getLast?, isWhitespace c = false) : trim s = s := by
  have hstart : trimStart s = s := by
    unfold trimStart
    cases s with
    | nil => rfl
    | cons c s => rw [List.dropWhile_cons, if_neg (by simp [hhead c rfl])]
  unfold trim trimEnd
  rw [hstart, List.rdropWhile_eq_self_iff]
  intro hne
  simp [hlast _ (List.getLast?_eq_getLast_of_ne_nil hne)]

/-- A trimmed text does not begin with white space. -/
theorem head_of_trim_eq_self {s : Str} (h : trim s = s) :
    ∀ c ∈ s.head?, isWhitespace c = false := by
  intro c hc
  cases s with
  | nil => cases hc
  | cons a s =>
      obtain rfl : a = c := by simpa using hc
      by_contra hws
      have hlen := congrArg List.length h
      have h1 : (trim (a :: s)).length ≤ (trimStart (a :: s)).length :=
        (List.rdropWhile_prefix _ _).length_le
      have h2 : trimStart (a :: s) = trimStart s := by
        unfold trimStart
        rw [List.dropWhile_cons, if_pos (by simpa using hws)]
      have h3 : (trimStart s).length ≤ s.length := (List.dropWhile_suffix _).length_le
      rw [h2] at h1
      simp only [List.length_cons] at hlen
      omega

/-- White space at the end is not seen behind `trim`. -/
theorem trim_append_whitespace (s : Str) {c : Char} (hc : isWhitespace c = true) :
    trim (s ++ [c]) = trim s := by
  unfold trim trimStart
  rw [List.dropWhile_append]
  by_cases hnil : s.dropWhile isWhitespace = []
  · simp [hnil, hc]
  · rw [if_neg (by simpa using hnil), trimEnd, trimEnd, List.rdropWhile_concat_pos _ _ _ hc]

/-- A text and what is removed at its end. -/
theorem exists_append_trimEnd (s : Str) :
    ∃ w, s = trimEnd s ++ w ∧ ∀ c ∈ w, isWhitespace c = true :=
  ⟨s.rtakeWhile isWhitespace, List.rdropWhile_append_rtakeWhile.symm,
    fun _ hc => List.mem_rtakeWhile_imp hc⟩

/-- A text and what is removed at its ends. -/
theorem exists_append_trim (s : Str) : ∃ v w, s = v ++ (trim s ++ w) ∧
    (∀ c ∈ v, isWhitespace c = true) ∧ ∀ c ∈ w, isWhitespace c = true := by
  obtain ⟨w, hw, hspaces⟩ := exists_append_trimEnd (trimStart s)
  refine ⟨s.takeWhile isWhitespace, w, ?_, fun _ hc => List.mem_takeWhile_imp hc, hspaces⟩
  rw [trim, ← hw]
  exact List.takeWhile_append_dropWhile.symm

/-- What is not removed at the ends stays. -/
theorem mem_rdropWhile_dropWhile {p : Char → Bool} {s : Str} {c : Char} (h : c ∈ s)
    (hc : p c = false) : c ∈ (s.dropWhile p).rdropWhile p := by
  have hstart : c ∈ s.dropWhile p := by
    rw [← List.takeWhile_append_dropWhile (p := p) (l := s)] at h
    rcases List.mem_append.mp h with h | h
    · rw [List.mem_takeWhile_imp h] at hc
      cases hc
    · exact h
  rw [← List.rdropWhile_append_rtakeWhile (p := p) (l := s.dropWhile p)] at hstart
  rcases List.mem_append.mp hstart with h | h
  · exact h
  · rw [List.mem_rtakeWhile_imp h] at hc
    cases hc

theorem mem_trim {s : Str} {c : Char} (h : c ∈ s) (hc : isWhitespace c = false) : c ∈ trim s :=
  mem_rdropWhile_dropWhile h hc

/-- Remove the characters of a set at the end. -/
def trimEndMatches (cs : List Char) (s : Str) : Str := s.rdropWhile (· ∈ cs)

/-! ## Prefixes, suffixes, patterns -/

/-- What follows the prefix `p`, if `s` has it. -/
def stripPrefix (p s : Str) : Option Str :=
  if p <+: s then some (s.drop p.length) else none

/-- What stands before the suffix `p`, if `s` has it. -/
def stripSuffix (p s : Str) : Option Str :=
  if p <:+ s then some (s.take (s.length - p.length)) else none

theorem stripPrefix_append (p s : Str) : stripPrefix p (p ++ s) = some s := by
  rw [stripPrefix, if_pos (List.prefix_append _ _), List.drop_left]

/-- A prefix is removed in front of the rest. -/
theorem append_of_stripPrefix {p s t : Str} (h : stripPrefix p s = some t) : s = p ++ t := by
  unfold stripPrefix at h
  split at h
  · next hprefix =>
      obtain ⟨rest, rfl⟩ := hprefix
      obtain rfl := Option.some.inj h
      rw [List.drop_left]
  · cases h

/-- A suffix is removed behind the rest. -/
theorem append_of_stripSuffix {p s t : Str} (h : stripSuffix p s = some t) : s = t ++ p := by
  unfold stripSuffix at h
  split at h
  · next hsuffix =>
      obtain ⟨rest, rfl⟩ := hsuffix
      obtain rfl := Option.some.inj h
      rw [List.length_append, Nat.add_sub_cancel, List.take_left]
  · cases h

@[simp] theorem stripSuffix_append (p t : Str) : stripSuffix p (t ++ p) = some t := by
  rw [stripSuffix, if_pos (List.suffix_append t p), List.length_append, Nat.add_sub_cancel,
    List.take_left]

/-- Removing a suffix makes a text shorter. -/
theorem length_lt_of_stripSuffix {p s t : Str} (hp : p ≠ []) (h : stripSuffix p s = some t) :
    t.length < s.length := by
  unfold stripSuffix at h
  split at h
  · next hsuffix =>
      have hlen := hsuffix.length_le
      have hpos := List.length_pos_iff.mpr hp
      obtain rfl := Option.some.inj h
      rw [List.length_take]
      omega
  · cases h

/-- The position of the first occurrence of a pattern. -/
def find (p s : Str) : Option ℕ := ListSearch.findSub p s

/-- Split at the first occurrence of a character. -/
def splitOnce (c : Char) (s : Str) : Option (Str × Str) :=
  if c ∈ s then some (s.takeWhile (· ≠ c), (s.dropWhile (· ≠ c)).drop 1) else none

/-- The separator belongs to neither side. -/
theorem append_of_splitOnce {c : Char} {s t u : Str} (h : splitOnce c s = some (t, u)) :
    s = t ++ c :: u := by
  unfold splitOnce at h
  split at h
  · next hmem =>
      obtain ⟨rfl, rfl⟩ : s.takeWhile (· ≠ c) = t ∧ (s.dropWhile (· ≠ c)).drop 1 = u := by
        simpa using h
      obtain ⟨front, back, rfl, hfront⟩ := List.eq_append_cons_of_mem hmem
      have hne : ∀ x ∈ front, decide (x ≠ c) = true := fun x hx =>
        decide_eq_true (ne_of_mem_of_not_mem hx hfront)
      rw [List.takeWhile_append_of_pos hne, List.dropWhile_append_of_pos hne]
      simp
  · cases h

/-- The cut is at the first separator. -/
theorem splitOnce_append {c : Char} {s : Str} (h : c ∉ s) (t : Str) :
    splitOnce c (s ++ c :: t) = some (s, t) := by
  have hne : ∀ x ∈ s, decide (x ≠ c) = true := fun x hx =>
    decide_eq_true (ne_of_mem_of_not_mem hx h)
  rw [splitOnce, if_pos (by simp), List.takeWhile_append_of_pos hne,
    List.dropWhile_append_of_pos hne]
  simp

/-- Cut at the last occurrence of `c`, which belongs to neither side. -/
def rsplitOnce (c : Char) (s : Str) : Option (Str × Str) :=
  if c ∈ s then
    some ((s.rdropWhile (· ≠ c)).dropLast, s.rtakeWhile (· ≠ c))
  else none

/-- The cut is at the last separator. -/
theorem rsplitOnce_append {c : Char} {s t : Str} (h : c ∉ t) :
    rsplitOnce c (s ++ c :: t) = some (s, t) := by
  have hne : ∀ x ∈ t.reverse, decide (x ≠ c) = true := by
    intro x hx
    simp only [ne_eq, decide_eq_true_eq]
    rintro rfl
    exact h (List.mem_reverse.mp hx)
  have hreverse : (s ++ c :: t).reverse = t.reverse ++ c :: s.reverse := by simp
  have hdrop : (s ++ c :: t).rdropWhile (· ≠ c) = s ++ [c] := by
    unfold List.rdropWhile
    rw [hreverse, List.dropWhile_append_of_pos hne]
    simp
  have htake : (s ++ c :: t).rtakeWhile (· ≠ c) = t := by
    unfold List.rtakeWhile
    rw [hreverse, List.takeWhile_append_of_pos hne]
    simp
  unfold rsplitOnce
  rw [if_pos (by simp), hdrop, htake, List.dropLast_concat]

/-! ## Unsigned decimals -/

/-- The value of a decimal digit. -/
def digitValue (c : Char) : ℕ := c.toNat - '0'.toNat

/-- The value of a list of decimal digits. -/
def digitsValue (s : Str) : ℕ := s.foldl (fun n c => n * 10 + digitValue c) 0

/-- Parse an unsigned integer of at most `bound`: an optional `+`, then digits only. -/
def parseUnsigned (bound : ℕ) (s : Str) : Option ℕ :=
  let digits := match s with
    | '+' :: rest => rest
    | _ => s
  if digits ≠ [] ∧ digits.all Char.isDigit ∧ digitsValue digits ≤ bound then
    some (digitsValue digits)
  else none

/-- The decimal digits of a number. -/
def ofNat (n : ℕ) : Str := Nat.toDigits 10 n

/-- An integer in decimal digits, with a sign if it is negative. -/
def ofInt (z : ℤ) : Str := if z < 0 then '-' :: ofNat z.natAbs else ofNat z.natAbs

/-- Digits are read as their number. -/
theorem parseUnsigned_of_digits {bound : ℕ} {s : Str} (hne : s ≠ [])
    (hdigit : ∀ c ∈ s, c.isDigit = true) (hbound : digitsValue s ≤ bound) :
    parseUnsigned bound s = some (digitsValue s) := by
  have hdigits : ∀ t : Str, t = s → (match t with
      | '+' :: rest => rest
      | _ => t) = s := by
    intro t ht
    split
    · next ht => exact absurd (hdigit '+' (ht ▸ List.mem_cons_self)) (by decide)
    · exact ht
  unfold parseUnsigned
  simp only [hdigits s rfl]
  rw [if_pos ⟨hne, List.all_eq_true.mpr hdigit, hbound⟩]

/-- The digits of a number have its value. -/
theorem digitsValue_ofNat (n : ℕ) : digitsValue (ofNat n) = n := by
  refine Eq.trans ?_ (Nat.ofDigitChars_ten_toDigits (n := n))
  rw [Nat.ofDigitChars_eq_foldl]
  unfold digitsValue digitValue
  simp only [Nat.mul_comm]
  rfl

/-- A printed number is read back. -/
theorem parseUnsigned_ofNat {bound n : ℕ} (h : n ≤ bound) :
    parseUnsigned bound (ofNat n) = some n := by
  have hdigit : ∀ c ∈ ofNat n, c.isDigit = true := fun c hc =>
    Nat.isDigit_of_mem_toDigits (by decide) (by decide) hc
  have hvalue := digitsValue_ofNat n
  have hne : ofNat n ≠ [] := Nat.toDigits_ne_nil
  rw [parseUnsigned_of_digits hne hdigit (by omega), hvalue]

theorem digitsValue_append (s : Str) (c : Char) :
    digitsValue (s ++ [c]) = digitsValue s * 10 + digitValue c := by
  simp [digitsValue]

/-- A digit is less than ten. -/
theorem digitValue_lt {c : Char} (h : c.isDigit = true) : digitValue c < 10 := by
  simp only [Char.isDigit, Bool.and_eq_true, decide_eq_true_eq, UInt32.le_iff_toNat_le] at h
  have h57 : c.toNat ≤ 57 := h.2
  have h48 : '0'.toNat = 48 := rfl
  rw [digitValue, h48]
  omega

/-- Digits are not white space. -/
theorem isWhitespace_of_isDigit {c : Char} (h : c.isDigit = true) : isWhitespace c = false := by
  have hdigit : '0'.toNat ≤ c.toNat ∧ c.toNat ≤ '9'.toNat := by
    simpa [Char.isDigit, UInt32.le_iff_toNat_le] using h
  have h0 : '0'.toNat = 48 := rfl
  have h9 : '9'.toNat = 57 := rfl
  unfold isWhitespace
  simp only [Bool.or_eq_false_iff, Bool.and_eq_false_iff, decide_eq_false_iff_not, not_le,
    beq_eq_false_iff_ne]
  omega

/-- Digits are not trimmed. -/
theorem trim_of_digits {s : Str} (h : ∀ c ∈ s, c.isDigit = true) : trim s = s :=
  trim_eq_self (fun c hc => isWhitespace_of_isDigit (h c (List.mem_of_head? hc)))
    fun c hc => isWhitespace_of_isDigit (h c (List.mem_of_getLast? hc))

/-- Digits in front count for more. -/
theorem digitsValue_digits (s t : Str) :
    digitsValue (s ++ t) = digitsValue s * 10 ^ t.length + digitsValue t := by
  induction t using List.reverseRecOn with
  | nil => simp [digitsValue]
  | append_singleton t c ih =>
      rw [← List.append_assoc, digitsValue_append, ih, digitsValue_append, List.length_append,
        List.length_singleton, Nat.pow_succ, Nat.add_mul, Nat.mul_assoc, Nat.add_assoc]

/-- A number of `n` digits is less than `10 ^ n`. -/
theorem digitsValue_lt {s : Str} (h : ∀ c ∈ s, c.isDigit = true) :
    digitsValue s < 10 ^ s.length := by
  induction s using List.reverseRecOn with
  | nil => simp [digitsValue]
  | append_singleton s c ih =>
      have hs := ih fun d hd => h d (List.mem_append_left _ hd)
      have hc := digitValue_lt (h c (by simp))
      rw [digitsValue_append, List.length_append, List.length_singleton, Nat.pow_succ]
      omega

/-! ## Signed decimals -/

/-- Read digits after the number read so far; `sign` is 1 or -1.  An error says what is wrong
with the first digit that cannot be read. -/
def readI64 (sign : ℤ) (number : ℤ) : Str → Except Str ℤ
  | [] => .ok number
  | c :: s =>
      let shifted := number * 10
      let next := shifted + sign * digitValue c
      if c.isDigit = false then .error "invalid digit found in string".toList
      else if shifted < -2 ^ 63 ∨ 2 ^ 63 ≤ shifted ∨ next < -2 ^ 63 ∨ 2 ^ 63 ≤ next then
        .error (if sign < 0 then "number too small to fit in target type".toList
          else "number too large to fit in target type".toList)
      else readI64 sign next s

/-- Parse an integer of 64 bits: an optional sign, then digits only. -/
def parseI64 (s : Str) : Except Str ℤ :=
  match s with
  | [] => .error "cannot parse integer from empty string".toList
  | ['+'] => .error "invalid digit found in string".toList
  | ['-'] => .error "invalid digit found in string".toList
  | '+' :: digits => readI64 1 0 digits
  | '-' :: digits => readI64 (-1) 0 digits
  | digits => readI64 1 0 digits

/-! ## ASCII case -/

/-- ASCII letters in upper case, everything else unchanged. -/
def toAsciiUppercase (s : Str) : Str := s.map Char.toUpper

/-- ASCII letters in lower case, everything else unchanged. -/
def toAsciiLowercase (s : Str) : Str := s.map Char.toLower

/-- Equality up to the case of ASCII letters. -/
def eqIgnoreAsciiCase (s t : Str) : Bool := s.map Char.toLower == t.map Char.toLower

/-! ## Lengths and cuts in bytes -/

/-- The length of a text in UTF-8 bytes. -/
def byteLen (s : Str) : ℕ := (s.map Char.utf8Size).sum

@[simp] theorem byteLen_nil : byteLen [] = 0 := rfl

@[simp] theorem byteLen_cons (c : Char) (s : Str) : byteLen (c :: s) = c.utf8Size + byteLen s := by
  simp [byteLen]

@[simp] theorem byteLen_append (s t : Str) : byteLen (s ++ t) = byteLen s + byteLen t := by
  simp [byteLen]

/-- Cut a text at a byte offset; `none` when the offset is past the end or not
on a character boundary. -/
def splitAtByte : ℕ → Str → Option (Str × Str)
  | 0, s => some ([], s)
  | _ + 1, [] => none
  | n + 1, c :: s =>
      if c.utf8Size ≤ n + 1 then
        (splitAtByte (n + 1 - c.utf8Size) s).map fun p => (c :: p.1, p.2)
      else none

/-- The two sides of a cut make up the text. -/
theorem append_of_splitAtByte {n : ℕ} {s u v : Str} (h : splitAtByte n s = some (u, v)) :
    u ++ v = s ∧ byteLen u = n := by
  induction s generalizing n u v with
  | nil =>
      cases n with
      | zero => cases h; exact ⟨rfl, rfl⟩
      | succ n => cases h
  | cons c s ih =>
      cases n with
      | zero => cases h; exact ⟨rfl, rfl⟩
      | succ n =>
          rw [splitAtByte] at h
          split at h
          · next hc =>
              obtain ⟨⟨u', v'⟩, h', he⟩ := Option.map_eq_some_iff.mp h
              obtain ⟨h1, h2⟩ := ih h'
              cases he
              exact ⟨by rw [List.cons_append, h1], by rw [byteLen_cons, h2]; omega⟩
          · cases h

end Str
