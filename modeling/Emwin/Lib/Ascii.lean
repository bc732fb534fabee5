/-
# ASCII text

The operations on texts that look at ASCII classes, and the signed decimals.
-/
import Emwin.Lib.Slices

namespace Str

/-! ## Classes -/

/-- `is_ascii_whitespace`: not the vertical tab. -/
def isAsciiWhitespace (c : Char) : Bool :=
  c = ' ' || c = '\t' || c = '\n' || c = '\x0C' || c = '\r'

/-- `is_ascii_control`. -/
def isAsciiControl (c : Char) : Bool := decide (c.toNat < 0x20) || c.toNat == 0x7F

/-- Remove a character on both sides. -/
def trimMatches (c : Char) (s : Str) : Str := (s.dropWhile (· = c)).rdropWhile (· = c)

/-- A text begins with another. -/
def startsWith (p s : Str) : Bool := p.isPrefixOf s

/-- The code points of capitals. -/
theorem isUpper_iff {c : Char} : c.isUpper = true ↔ 65 ≤ c.toNat ∧ c.toNat ≤ 90 :=
  ⟨fun h => of_decide_eq_true h, fun h => decide_eq_true h⟩

/-- The code points of small letters. -/
theorem isLower_iff {c : Char} : c.isLower = true ↔ 97 ≤ c.toNat ∧ c.toNat ≤ 122 :=
  Bool.and_eq_true_iff.trans (and_congr decide_eq_true_iff decide_eq_true_iff)

/-- The code points of digits. -/
theorem isDigit_iff {c : Char} : c.isDigit = true ↔ 48 ≤ c.toNat ∧ c.toNat ≤ 57 :=
  Bool.and_eq_true_iff.trans (and_congr decide_eq_true_iff decide_eq_true_iff)

/-- The code points of letters. -/
theorem isAlpha_iff {c : Char} : c.isAlpha = true ↔
    (65 ≤ c.toNat ∧ c.toNat ≤ 90) ∨ (97 ≤ c.toNat ∧ c.toNat ≤ 122) :=
  Bool.or_eq_true_iff.trans (or_congr isUpper_iff isLower_iff)

/-- A digit is no letter. -/
theorem isUpper_of_isDigit {c : Char} (h : c.isDigit = true) : c.isUpper = false := by
  rw [isDigit_iff] at h
  rw [← Bool.not_eq_true, isUpper_iff]
  omega

theorem isAlpha_of_isDigit {c : Char} (h : c.isDigit = true) : c.isAlpha = false := by
  rw [isDigit_iff] at h
  rw [← Bool.not_eq_true, isAlpha_iff]
  omega

theorem isAlphanum_of_isUpper {c : Char} (h : c.isUpper = true) : c.isAlphanum = true :=
  Bool.or_eq_true_iff.mpr (Or.inl (Bool.or_eq_true_iff.mpr (Or.inl h)))

theorem isAlphanum_of_isDigit {c : Char} (h : c.isDigit = true) : c.isAlphanum = true :=
  Bool.or_eq_true_iff.mpr (Or.inr h)

/-- The code points of letters and digits. -/
theorem toNat_of_isAlphanum {c : Char} (h : c.isAlphanum = true) :
    48 ≤ c.toNat ∧ c.toNat ≤ 122 := by
  rcases Bool.or_eq_true_iff.mp h with h | h
  · rw [isAlpha_iff] at h
    omega
  · rw [isDigit_iff] at h
    omega

theorem isAscii_of_isAlphanum {s : Str} (h : s.all Char.isAlphanum = true) : IsAscii s := by
  intro c hc
  have := toNat_of_isAlphanum (List.all_eq_true.mp h c hc)
  omega

/-- Letters and digits are not white space. -/
theorem isWhitespace_of_isAlphanum {c : Char} (h : c.isAlphanum = true) :
    isWhitespace c = false := by
  have hrange := toNat_of_isAlphanum h
  unfold isWhitespace
  simp only [Bool.or_eq_false_iff, Bool.and_eq_false_iff, decide_eq_false_iff_not, not_le,
    beq_eq_false_iff_ne]
  omega

theorem isWhitespace_of_isAlpha {c : Char} (h : c.isAlpha = true) : isWhitespace c = false := by
  refine isWhitespace_of_isAlphanum ?_
  rw [Char.isAlphanum, h, Bool.true_or]

/-- Below the small letters nothing changes in upper case. -/
theorem toAsciiUppercase_eq_self {s : Str} (h : ∀ c ∈ s, c.toNat < 97) :
    toAsciiUppercase s = s := by
  refine (List.map_congr_left fun c hc => ?_).trans (List.map_id s)
  unfold Char.toUpper
  rw [dif_neg]
  · rfl
  · rintro ⟨hlow, -⟩
    have h97 : 97 ≤ c.toNat := hlow
    exact absurd (h c hc) (by omega)

/-- Only capitals change in lower case, and they move up by 32. -/
theorem toLower_cases (c : Char) : c.toLower = c ∨
    (65 ≤ c.toNat ∧ c.toNat ≤ 90 ∧ c.toLower.toNat = c.toNat + 32) := by
  unfold Char.toLower
  split_ifs with h
  · have hlow : 65 ≤ c.toNat := h.1
    have hhigh : c.toNat ≤ 90 := h.2
    refine Or.inr ⟨hlow, hhigh, ?_⟩
    change (c.val + 32).toNat = c.toNat + 32
    rw [UInt32.toNat_add]
    change (c.toNat + 32) % 2 ^ 32 = c.toNat + 32
    omega
  · exact Or.inl rfl

/-- Only letters become letters in lower case. -/
theorem toLower_eq_iff {c d : Char} (hd : d.isAlpha = false) : c.toLower = d ↔ c = d := by
  rcases toLower_cases c with h | ⟨hlow, hhigh, h⟩
  · rw [h]
  · rw [← Bool.not_eq_true, isAlpha_iff] at hd
    refine iff_of_false ?_ ?_
    · rintro rfl
      omega
    · rintro rfl
      omega

/-- Lower case stays within ASCII and without. -/
theorem toLower_lt_iff (c : Char) : c.toLower.toNat < 128 ↔ c.toNat < 128 := by
  rcases toLower_cases c with h | ⟨hlow, hhigh, h⟩
  · rw [h]
  · omega

/-! ## White space -/

/-- The state of the loop that compacts white space: what is kept, and whether white space has
been read since. -/
structure Compaction where
  kept : Str
  pendingSpace : Bool

/-- Read one character. -/
def Compaction.push (s : Compaction) (c : Char) : Compaction :=
  if isAsciiWhitespace c then { s with pendingSpace := true }
  else
    { kept := (if s.pendingSpace && s.kept ≠ [] then s.kept ++ [' '] else s.kept) ++ [c]
      pendingSpace := false }

/-- Write one space for every run of ASCII white space, and none at the ends. -/
def compactWhitespace (s : Str) : Str := (s.foldl Compaction.push ⟨[], false⟩).kept

/-! ## Signed decimals -/

/-- Parse an integer of some range: an optional sign, then digits only. -/
def parseSigned (low high : ℤ) (s : Str) : Option ℤ :=
  let (negative, digits) := match s with
    | '-' :: rest => (true, rest)
    | '+' :: rest => (false, rest)
    | _ => (false, s)
  let value : ℤ := if negative then -(digitsValue digits : ℤ) else digitsValue digits
  if digits ≠ [] ∧ digits.all Char.isDigit ∧ low ≤ value ∧ value ≤ high then some value else none

/-- Digits are read as their number. -/
theorem parseSigned_of_digits {low high : ℤ} {s : Str} (hne : s ≠ [])
    (hdigit : ∀ c ∈ s, c.isDigit = true) (hlow : low ≤ digitsValue s)
    (hhigh : (digitsValue s : ℤ) ≤ high) :
    parseSigned low high s = some (digitsValue s : ℤ) := by
  obtain ⟨c, rest, rfl⟩ := List.exists_cons_of_ne_nil hne
  have hc : c.isDigit = true := hdigit c List.mem_cons_self
  have hall : (c :: rest).all Char.isDigit = true := List.all_eq_true.mpr hdigit
  unfold parseSigned
  split
  next negative digits heq =>
    split at heq
    · next hminus =>
        obtain rfl := (List.cons.inj hminus).1
        exact absurd hc (by decide)
    · next hplus =>
        obtain rfl := (List.cons.inj hplus).1
        exact absurd hc (by decide)
    · obtain ⟨rfl, rfl⟩ := Prod.mk.inj heq
      simp only [Bool.false_eq_true, if_false]
      rw [if_pos ⟨hne, hall, hlow, hhigh⟩]

example : compactWhitespace "  a \n b\r\n".toList = "a b".toList := by decide
example : parseSigned (-32768) 32767 "-08".toList = some (-8) := by decide

/-! ## Cuts -/

/-- A cut in front of the last character never falls inside it. -/
theorem sliceTo_of_getLast {s : Str} {n : ℕ} {c : Char} (hc : c.utf8Size = 1)
    (hlast : s.getLast? = some c) (hlen : byteLen s = n + 1) : sliceTo n s = some s.dropLast := by
  obtain ⟨ys, rfl⟩ : ∃ ys, s = ys ++ [c] := List.getLast?_eq_some_iff.mp hlast
  have hn : byteLen ys = n := by
    rw [byteLen_append, byteLen_cons, byteLen_nil, hc] at hlen
    omega
  rw [List.dropLast_concat, ← hn]
  exact sliceTo_append ys [c]

end Str
