/-
# UGC blocks

The blocks that products are written with: full items such as `IAC001>005` and shorthand items
such as `007`, joined by hyphens or commas, and the time of expiration, broken into lines
behind any of the hyphens.  A block knows what it is to be read as: the codes of its items,
with the prefix of the last full one, and its time.
-/
import Emwin.Parser.Ugc

namespace Parser

/-! ## Numbers -/

/-- A text of `lo` to `hi` decimal digits. -/
structure Digits (lo hi : ℕ) where
  text : Str
  isDigit : ∀ c ∈ text, c.isDigit = true
  length_ge : lo ≤ text.length
  length_le : text.length ≤ hi

/-- The number that is written. -/
def Digits.value {lo hi : ℕ} (d : Digits lo hi) : ℕ := Str.digitsValue d.text

/-- The end of a range: fewer than three digits replace the last digits of the start. -/
def completeEnd (start : ℕ) (last : Str) : ℕ :=
  start / 10 ^ last.length * 10 ^ last.length + Str.digitsValue last

/-- A range with an end that is not below its start. -/
structure UgcRange where
  start : Digits 3 3
  last : Digits 1 3
  start_le : start.value ≤ completeEnd start.value last.text

/-- The last number of a range. -/
def UgcRange.stop (r : UgcRange) : ℕ := completeEnd r.start.value r.last.text

/-- The numbers of an item: one, or ranges one after another. -/
inductive UgcNumbers where
  | single (number : Digits 3 3)
  | ranges (first : UgcRange) (others : List UgcRange)

/-- The numbers between which an item extends. -/
def UgcNumbers.bounds : UgcNumbers → List (ℕ × ℕ)
  | .single number => [(number.value, number.value)]
  | .ranges first others => (first :: others).map fun r => (r.start.value, r.stop)

/-- All numbers of an item. -/
def UgcNumbers.expanded (numbers : UgcNumbers) : List ℕ :=
  numbers.bounds.flatMap fun (first, last) => List.range' first (last + 1 - first)

/-- The numbers as they are written, between the signs for ranges. -/
def UgcNumbers.tokens : UgcNumbers → List Str
  | .single number => [number.text]
  | .ranges first others => (first :: others).flatMap fun r => [r.start.text, r.last.text]

/-- The text of the numbers. -/
def UgcNumbers.text (numbers : UgcNumbers) : Str := List.intercalate ['>'] numbers.tokens

/-! ## Items and blocks -/

/-- A state and a class. -/
structure UgcHead where
  first : Char
  second : Char
  geoclass : UgcClass
  first_upper : first.isUpper = true
  second_upper : second.isUpper = true
  known : geoclass ≠ .unknown

/-- The state. -/
def UgcHead.state (head : UgcHead) : Str := [head.first, head.second]

/-- The text of a state and a class. -/
def UgcHead.text (head : UgcHead) : Str := [head.first, head.second, head.geoclass.asChar]

/-- An item, which is full or shorthand. -/
structure UgcItem where
  head : Option UgcHead
  numbers : UgcNumbers

/-- The text of an item. -/
def UgcItem.text (item : UgcItem) : Str :=
  (item.head.map UgcHead.text).getD [] ++ item.numbers.text

/-- What stands between two items. -/
inductive UgcSeparator where
  | comma
  | hyphen (lineBreak : Str.LineBreak)

/-- The character of a separator. -/
def UgcSeparator.char : UgcSeparator → Char
  | .comma => ','
  | .hyphen _ => '-'

/-- The line break behind a separator. -/
def UgcSeparator.lineBreak : UgcSeparator → Str.LineBreak
  | .comma => .none
  | .hyphen lineBreak => lineBreak

/-- A block: a full item, further items with what stands before each, and the expiration. -/
structure UgcBlock where
  head : UgcHead
  numbers : UgcNumbers
  others : List (UgcSeparator × UgcItem)
  /-- The line break in front of the expiration. -/
  breakBefore : Str.LineBreak
  day : Digits 2 2
  hour : Digits 2 2
  minute : Digits 2 2
  /-- The line break behind the last hyphen. -/
  breakBehind : Str.LineBreak
  day_valid : 1 ≤ day.value ∧ day.value ≤ 31
  hour_valid : hour.value ≤ 23
  minute_valid : minute.value ≤ 59

/-- The pieces of items: each with the separator and the line break behind it. -/
def itemPieces (breakBefore : Str.LineBreak) :
    UgcItem → List (UgcSeparator × UgcItem) → List (Str × Str.LineBreak)
  | item, [] => [(item.text ++ ['-'], breakBefore)]
  | item, (separator, next) :: others =>
      (item.text ++ [separator.char], separator.lineBreak) :: itemPieces breakBefore next others

/-- The text of the expiration. -/
def UgcBlock.expireCode (block : UgcBlock) : Str :=
  block.day.text ++ block.hour.text ++ block.minute.text

/-- The pieces of a block. -/
def UgcBlock.pieces (block : UgcBlock) : List (Str × Str.LineBreak) :=
  itemPieces block.breakBefore ⟨some block.head, block.numbers⟩ block.others ++
    [(block.expireCode ++ ['-'], block.breakBehind)]

/-- The text of a block. -/
def UgcBlock.text (block : UgcBlock) : Str := Str.render block.pieces

/-! ## What a block means -/

/-- The codes of numbers behind a state and a class. -/
def UgcHead.codes (head : UgcHead) (numbers : UgcNumbers) : List UgcCode :=
  numbers.expanded.map fun number => ⟨head.state, head.geoclass, number⟩

/-- The codes of further items; a shorthand item has the prefix of the last full one. -/
def codesFrom (head : UgcHead) : List (UgcSeparator × UgcItem) → List UgcCode
  | [] => []
  | (_, item) :: others =>
      (item.head.getD head).codes item.numbers ++ codesFrom (item.head.getD head) others

/-- The codes of a block. -/
def UgcBlock.codes (block : UgcBlock) : List UgcCode :=
  block.head.codes block.numbers ++ codesFrom block.head block.others

/-! ## Digits -/

namespace Digits

variable {lo hi : ℕ} (d : Digits lo hi)

theorem isAscii : Str.IsAscii d.text := Str.isAscii_of_isDigit d.isDigit

theorem byteLen_text : Str.byteLen d.text = d.text.length := Str.byteLen_of_ascii d.isAscii

theorem value_lt : d.value < 10 ^ d.text.length := Str.digitsValue_lt d.isDigit

/-- Up to three digits are a number below 1000. -/
theorem value_lt_of_le (h : hi ≤ 3) : d.value < 1000 := by
  refine d.value_lt.trans_le ?_
  calc 10 ^ d.text.length ≤ 10 ^ 3 := Nat.pow_le_pow_right (by omega) (d.length_le.trans h)
    _ = 1000 := by norm_num

/-- Up to three digits are read as their number. -/
theorem parseUnsigned {bound : ℕ} (hlo : 1 ≤ lo) (hhi : hi ≤ 3) (hbound : 999 ≤ bound) :
    Str.parseUnsigned bound d.text = some d.value := by
  have hlen := d.length_ge
  have hvalue := d.value_lt_of_le hhi
  refine Str.parseUnsigned_of_digits ?_ d.isDigit (by unfold value at hvalue; omega)
  rintro hnil
  rw [hnil] at hlen
  simp at hlen
  omega

end Digits

/-- Completing an end stays below 1000. -/
theorem UgcRange.stop_lt (r : UgcRange) : r.stop < 1000 := by
  have hstart := r.start.value_lt_of_le le_rfl
  have hlast := r.last.value_lt
  have hlo := r.last.length_ge
  have hhi := r.last.length_le
  unfold stop completeEnd
  unfold Digits.value at hlast
  obtain h | h | h : r.last.text.length = 1 ∨ r.last.text.length = 2 ∨ r.last.text.length = 3 := by
    omega
  all_goals
    rw [h] at hlast ⊢
    omega

/-- No number of an item is above 999. -/
theorem UgcNumbers.le_of_mem_expanded {numbers : UgcNumbers} {n : ℕ} (h : n ∈ numbers.expanded) :
    n ≤ 999 := by
  obtain ⟨⟨first, last⟩, hbounds, hn⟩ := List.mem_flatMap.mp h
  rw [List.mem_range'_1] at hn
  have hlast : last < 1000 := by
    cases numbers with
    | single number =>
        obtain ⟨rfl, rfl⟩ : first = number.value ∧ last = number.value := by
          simpa [bounds] using hbounds
        exact number.value_lt_of_le le_rfl
    | ranges r others =>
        obtain ⟨r, -, heq⟩ := List.mem_map.mp hbounds
        obtain rfl : r.stop = last := congrArg Prod.snd heq
        exact r.stop_lt
  omega

/-- No code of a block is above 999. -/
theorem UgcBlock.number_le {block : UgcBlock} {code : UgcCode} (h : code ∈ block.codes) :
    code.number ≤ 999 := by
  have hcodes : ∀ (head : UgcHead) (numbers : UgcNumbers), code ∈ head.codes numbers →
      code.number ≤ 999 := by
    intro head numbers hmem
    obtain ⟨n, hn, rfl⟩ := List.mem_map.mp hmem
    exact UgcNumbers.le_of_mem_expanded hn
  have hothers : ∀ others head, code ∈ codesFrom head others → code.number ≤ 999 := by
    intro others
    induction others with
    | nil => intro head hmem; cases hmem
    | cons other others ih =>
        intro head hmem
        rcases List.mem_append.mp hmem with hmem | hmem
        · exact hcodes _ _ hmem
        · exact ih _ hmem
  rcases List.mem_append.mp h with h | h
  · exact hcodes _ _ h
  · exact hothers _ _ h

end Parser
