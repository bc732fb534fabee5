/-
# Blocks are read as they were written

A block of items is read back from its text: joining its lines neither stops early nor late
(`collectLines_of_lines`), its items are the segments of the joined text
(`splitOnP_joinItems`), and every segment is expanded to the codes of its item
(`parseUgcSegment_text`).
-/
import Emwin.Lib.Ascii
import Emwin.Lib.Words
import Emwin.Parser.UgcBlock
import Emwin.Parser.UgcSlices

namespace Parser

open Chrono

/-! ## The characters of a block -/

/-- The characters that blocks consist of. -/
def IsUgcChar (c : Char) : Prop :=
  c.isUpper = true ∨ c.isDigit = true ∨ c = '>' ∨ c = ',' ∨ c = '-'

/-- The code points of these characters. -/
theorem IsUgcChar.toNat {c : Char} (h : IsUgcChar c) :
    c.toNat = 44 ∨ c.toNat = 45 ∨ (48 ≤ c.toNat ∧ c.toNat ≤ 57) ∨ c.toNat = 62 ∨
      (65 ≤ c.toNat ∧ c.toNat ≤ 90) := by
  rcases h with h | h | rfl | rfl | rfl
  · have hrange := Str.isUpper_iff.mp h
    omega
  · simp only [Char.isDigit, Bool.and_eq_true, decide_eq_true_eq, UInt32.le_iff_toNat_le] at h
    have h48 : 48 ≤ c.toNat := h.1
    have h57 : c.toNat ≤ 57 := h.2
    omega
  all_goals decide

theorem IsUgcChar.isWhitespace {c : Char} (h : IsUgcChar c) : Str.isWhitespace c = false := by
  have hrange := h.toNat
  simp only [Str.isWhitespace, Bool.or_eq_false_iff, Bool.and_eq_false_iff, decide_eq_false_iff_not,
    beq_eq_false_iff_ne, ne_eq]
  omega

/-- No other character of ASCII is among them. -/
theorem IsUgcChar.ne {c d : Char} (h : IsUgcChar c) (hd : ¬ IsUgcChar d) : c ≠ d := by
  rintro rfl
  exact hd h

/-- A text of these characters is left as it is when white space is removed. -/
theorem compactUgcText_eq_self {s : Str} (h : ∀ c ∈ s, IsUgcChar c) : compactUgcText s = s := by
  rw [compactUgcText, List.filter_eq_self]
  intro c hc
  rw [(h c hc).isWhitespace]
  rfl

theorem trim_eq_self_of_ugcChars {s : Str} (h : ∀ c ∈ s, IsUgcChar c) : Str.trim s = s :=
  Str.trim_eq_self (fun c hc => (h c (List.mem_of_mem_head? hc)).isWhitespace)
    (fun c hc => (h c (List.mem_of_mem_getLast? hc)).isWhitespace)

/-! ## The text of numbers -/

/-- Joined texts end with the last one, and before it stands the separator. -/
theorem intercalate_eq_append_last (sep : Char) {ts : List Str} (hne : ts ≠ []) :
    ∃ front, ∃ t ∈ ts, List.intercalate [sep] ts = front ++ t ∧
      (front = [] ∨ front.getLast? = some sep) := by
  induction ts with
  | nil => exact absurd rfl hne
  | cons t ts ih =>
      cases ts with
      | nil => exact ⟨[], t, by simp, by simp, .inl rfl⟩
      | cons t' ts =>
          obtain ⟨front, u, hu, heq, hfront⟩ := ih (by simp)
          refine ⟨t ++ [sep] ++ front, u, List.mem_cons_of_mem _ hu, ?_, .inr ?_⟩
          · rw [List.intercalate_cons_cons, heq]
            simp
          · rcases hfront with rfl | hfront
            · simp
            · obtain ⟨front, rfl⟩ := List.getLast?_eq_some_iff.mp hfront
              rw [← List.append_assoc, List.getLast?_concat]

namespace UgcNumbers

variable (numbers : UgcNumbers)

theorem tokens_ne_nil : numbers.tokens ≠ [] := by
  cases numbers <;> simp [tokens]

/-- Tokens are one to three digits. -/
theorem of_mem_tokens {token : Str} (h : token ∈ numbers.tokens) :
    (∀ c ∈ token, c.isDigit = true) ∧ 1 ≤ token.length ∧ token.length ≤ 3 := by
  cases numbers with
  | single number =>
      obtain rfl : token = number.text := by simpa [tokens] using h
      exact ⟨number.isDigit, (by decide : 1 ≤ 3).trans number.length_ge, number.length_le⟩
  | ranges first others =>
      obtain ⟨r, -, hr⟩ := List.mem_flatMap.mp h
      simp only [List.mem_cons, List.not_mem_nil, or_false] at hr
      rcases hr with rfl | rfl
      · exact ⟨r.start.isDigit, (by decide : 1 ≤ 3).trans r.start.length_ge, r.start.length_le⟩
      · exact ⟨r.last.isDigit, r.last.length_ge, r.last.length_le⟩

/-- Numbers are written in digits and range signs. -/
theorem of_mem_text {c : Char} (h : c ∈ numbers.text) : c.isDigit = true ∨ c = '>' := by
  rcases Str.mem_intercalate h with rfl | ⟨token, htoken, hc⟩
  · exact .inr rfl
  · exact .inl ((numbers.of_mem_tokens htoken).1 c hc)

/-- Splitting at range signs gives the tokens. -/
theorem splitOn_text : numbers.text.splitOn '>' = numbers.tokens := by
  refine List.splitOn_intercalate '>' (fun token htoken hmem => ?_) numbers.tokens_ne_nil
  exact absurd ((numbers.of_mem_tokens htoken).1 _ hmem) (by decide)

/-- Numbers begin with three digits, and at most a range sign follows. -/
theorem text_eq_cons : ∃ d1 d2 d3 rest, numbers.text = d1 :: d2 :: d3 :: rest ∧
    d1.isDigit = true ∧ d2.isDigit = true ∧ d3.isDigit = true ∧ ∀ c ∈ rest.head?, c = '>' := by
  obtain ⟨number, tokens', htokens⟩ : ∃ (number : Digits 3 3) (ts : List Str),
      numbers.tokens = number.text :: ts := by
    cases numbers with
    | single number => exact ⟨number, [], rfl⟩
    | ranges first others => exact ⟨first.start, _, rfl⟩
  obtain ⟨d1, d2, d3, hd⟩ : ∃ d1 d2 d3, number.text = [d1, d2, d3] :=
    List.length_eq_three.mp (le_antisymm number.length_le number.length_ge)
  have hdigit := number.isDigit
  rw [hd] at hdigit
  have htext : ∃ rest, numbers.text = number.text ++ rest ∧ ∀ c ∈ rest.head?, c = '>' := by
    rw [text, htokens]
    cases tokens' with
    | nil => exact ⟨[], by simp, by simp⟩
    | cons t ts => exact ⟨'>' :: List.intercalate ['>'] (t :: ts), by simp, by simp⟩
  obtain ⟨rest, htext, hrest⟩ := htext
  refine ⟨d1, d2, d3, rest, by rw [htext, hd]; rfl, ?_, ?_, ?_, hrest⟩
  all_goals exact hdigit _ (by simp)

end UgcNumbers

/-! ## The lines of a block -/

/-- The letter of a known class. -/
theorem UgcHead.asChar_mem (head : UgcHead) : head.geoclass.asChar ∈ ['C', 'Z', 'F', 'M'] := by
  cases h : head.geoclass with
  | unknown => exact absurd h head.known
  | county | zone | fireZone | marine => simp [UgcClass.asChar]

namespace UgcItem

variable (item : UgcItem)

/-- Items are written in upper case letters, digits and range signs. -/
theorem of_mem_text {c : Char} (h : c ∈ item.text) :
    c.isUpper = true ∨ c.isDigit = true ∨ c = '>' := by
  rcases List.mem_append.mp h with h | h
  · cases hhead : item.head with
    | none => simp [hhead] at h
    | some head =>
        obtain rfl | rfl | rfl : c = head.first ∨ c = head.second ∨ c = head.geoclass.asChar := by
          simpa [hhead, UgcHead.text] using h
        · exact .inl head.first_upper
        · exact .inl head.second_upper
        · have hmem := head.asChar_mem
          simp only [List.mem_cons, List.not_mem_nil, or_false] at hmem
          rcases hmem with hc | hc | hc | hc <;> rw [hc] <;> exact .inl (by decide)
  · exact .inr (item.numbers.of_mem_text h)

theorem isUgcChar_of_mem_text {c : Char} (h : c ∈ item.text) : IsUgcChar c := by
  rcases item.of_mem_text h with h | h | h
  · exact .inl h
  · exact .inr (.inl h)
  · exact .inr (.inr (.inl h))

/-- Separators do not occur in items. -/
theorem separator_notMem_text {c : Char} (hc : c = ',' ∨ c = '-') : c ∉ item.text := by
  intro h
  rcases hc with rfl | rfl <;> rcases item.of_mem_text h with h | h | h <;> revert h <;> decide

theorem text_ne_nil : item.text ≠ [] := by
  obtain ⟨d1, d2, d3, rest, htext, -⟩ := item.numbers.text_eq_cons
  simp [text, htext]

/-- An item ends in at most three digits, and before them stands no digit. -/
theorem text_eq_append_digits : ∃ front digits, item.text = front ++ digits ∧
    (∀ c ∈ digits, c.isDigit = true) ∧ digits.length ≤ 3 ∧
      ∀ c ∈ front.getLast?, c.isDigit = false := by
  obtain ⟨front, token, htoken, heq, hfront⟩ :=
    intercalate_eq_append_last '>' item.numbers.tokens_ne_nil
  obtain ⟨hdigit, -, hlen⟩ := item.numbers.of_mem_tokens htoken
  refine ⟨(item.head.map UgcHead.text).getD [] ++ front, token, ?_, hdigit, hlen, ?_⟩
  · rw [text, UgcNumbers.text, heq, List.append_assoc]
  · rcases hfront with rfl | hfront
    · cases item.head with
      | none => simp
      | some head =>
          have hmem := head.asChar_mem
          simp only [List.mem_cons, List.not_mem_nil, or_false] at hmem
          rcases hmem with hc | hc | hc | hc <;> simp [UgcHead.text, hc]
    · obtain ⟨front, rfl⟩ := List.getLast?_eq_some_iff.mp hfront
      intro c hc
      rw [← List.append_assoc, List.getLast?_concat, Option.mem_some_iff] at hc
      rw [← hc]
      decide

end UgcItem

/-- A line that begins with a full item starts a block. -/
theorem isUgcStart_of_full {head : UgcHead} {numbers : UgcNumbers} {sep : Char} {line : Str}
    (hsep : sep = ',' ∨ sep = '-')
    (hbegin : (UgcItem.mk (some head) numbers).text ++ [sep] <+: line) :
    isUgcStart line = true := by
  obtain ⟨behind, rfl⟩ := hbegin
  obtain ⟨d1, d2, d3, rest, htext, h1, h2, h3, hrest⟩ := numbers.text_eq_cons
  have hline : (UgcItem.mk (some head) numbers).text ++ [sep] ++ behind =
      head.first :: head.second :: head.geoclass.asChar :: d1 :: d2 :: d3 ::
        (rest ++ sep :: behind) := by
    simp [UgcItem.text, UgcHead.text, htext]
  have hstart : Str.isWhitespace head.first = false :=
    IsUgcChar.isWhitespace (.inl head.first_upper)
  have hnext : (rest ++ sep :: behind).head?.all (· ∈ ['-', '>', ',', ' ', '\t']) = true := by
    cases rest with
    | nil => rcases hsep with rfl | rfl <;> simp
    | cons c rest =>
        obtain rfl : c = '>' := hrest c rfl
        simp
  rw [hline, isUgcStart, Str.trimStart, List.dropWhile_cons, if_neg (by simp [hstart])]
  simp [head.first_upper, head.second_upper, h1, h2, h3]
  exact ⟨by simpa using head.asChar_mem, by simpa using hnext⟩

/-- The lines of a block are no headers: they begin with a full item or with a digit. -/
theorem startsNewSectionHeader_eq_false {line : Str} (hchars : ∀ c ∈ line, IsUgcChar c)
    (hline : isUgcStart line = true ∨ ∃ c ∈ line.head?, c.isDigit = true) :
    startsNewSectionHeader line = false := by
  unfold startsNewSectionHeader
  rw [trim_eq_self_of_ugcChars hchars]
  by_cases hnil : line = []
  · simp [hnil]
  · have hcolon : ¬ line.getLast? = some ':' := fun h =>
      (hchars ':' (List.mem_of_mem_getLast? h)).ne (by unfold IsUgcChar; decide) rfl
    have hdots : ¬ (Str.find "...".toList line).isSome = true := by
      intro h
      obtain ⟨k, hk⟩ := Option.isSome_iff_exists.mp h
      have hmem : '.' ∈ line :=
        List.mem_of_mem_drop ((ListSearch.prefix_drop_of_findSub hk).subset (by decide))
      exact (hchars '.' hmem).ne (by unfold IsUgcChar; decide) rfl
    have hword : Str.splitWhitespace line = [line] :=
      Str.splitWhitespace_eq_singleton hnil fun c hc => (hchars c hc).isWhitespace
    rw [if_neg hnil, if_neg (not_or.mpr ⟨hcolon, hdots⟩), hword]
    rcases hline with hstart | ⟨c, hc, hdigit⟩
    · simp [hstart]
    · have hupper : c.isUpper = false := Str.isUpper_of_isDigit hdigit
      cases line with
      | nil => exact absurd rfl hnil
      | cons a line =>
          obtain rfl : a = c := by simpa using hc
          simp [hupper]

/-! ## Joining the lines -/

theorem UgcSeparator.char_cases (separator : UgcSeparator) :
    separator.char = ',' ∨ separator.char = '-' := by
  cases separator
  · exact .inl rfl
  · exact .inr rfl

/-- The first pieces of items end with an item and a separator. -/
theorem exists_of_prefix_itemPieces {lineBreak : Str.LineBreak} {item : UgcItem}
    {others : List (UgcSeparator × UgcItem)} {front : List (Str × Str.LineBreak)}
    (h : front <+: itemPieces lineBreak item others) :
    front = [] ∨ ∃ (before : Str) (last : UgcItem) (sep : Char),
      front.flatMap Prod.fst = before ++ last.text ++ [sep] ∧
        ∀ c ∈ before.getLast?, c.isDigit = false := by
  induction others generalizing item front with
  | nil =>
      rcases List.prefix_cons_iff.mp h with rfl | ⟨front, rfl, hfront⟩
      · exact .inl rfl
      · obtain rfl := List.prefix_nil.mp hfront
        exact .inr ⟨[], item, '-', by simp, by simp⟩
  | cons other others ih =>
      obtain ⟨separator, next⟩ := other
      rcases List.prefix_cons_iff.mp h with rfl | ⟨front, rfl, hfront⟩
      · exact .inl rfl
      · right
        rcases ih hfront with rfl | ⟨before, last, sep, hflat, hbefore⟩
        · exact ⟨[], item, separator.char, by simp, by simp⟩
        · refine ⟨item.text ++ [separator.char] ++ before, last, sep, by simp [hflat], ?_⟩
          intro c hc
          rcases List.eq_nil_or_concat before with rfl | ⟨before', a, rfl⟩
          · rw [List.append_nil, List.getLast?_concat, Option.mem_some_iff] at hc
            rw [← hc]
            rcases separator.char_cases with h | h <;> rw [h] <;> decide
          · refine hbefore c ?_
            rw [List.concat_eq_append] at hc ⊢
            rw [← List.append_assoc, List.getLast?_concat] at hc
            rwa [List.getLast?_concat]

/-- The pieces of a block consist of its characters. -/
theorem isUgcChar_of_mem_itemPieces {lineBreak : Str.LineBreak} {item : UgcItem}
    {others : List (UgcSeparator × UgcItem)} {piece : Str × Str.LineBreak}
    (h : piece ∈ itemPieces lineBreak item others) :
    ∃ (item : UgcItem) (sep : Char), piece.1 = item.text ++ [sep] ∧ (sep = ',' ∨ sep = '-') := by
  induction others generalizing item with
  | nil =>
      obtain rfl : piece = (item.text ++ ['-'], lineBreak) := by simpa [itemPieces] using h
      exact ⟨item, '-', rfl, .inr rfl⟩
  | cons other others ih =>
      obtain ⟨separator, next⟩ := other
      rcases List.mem_cons.mp h with rfl | h
      · exact ⟨item, separator.char, rfl, separator.char_cases⟩
      · exact ih h

/-- Items do not make a text complete: no six digits stand between its last two hyphens. -/
theorem hasUgcExpirationSuffix_items {before : Str} {last : UgcItem} {sep : Char}
    (hbefore : ∀ c ∈ before.getLast?, c.isDigit = false)
    (hascii : Str.IsAscii (before ++ last.text ++ [sep])) :
    hasUgcExpirationSuffix (before ++ last.text ++ [sep]) = some false := by
  have hreturns : hasUgcExpirationSuffix (before ++ last.text ++ [sep]) ≠ none := by
    rw [Ne, hasUgcExpirationSuffix_eq_none_iff, not_not]
    intro hlen _
    refine Str.isCharBoundary_of_ascii hascii ?_
    rw [← Str.byteLen_of_ascii hascii]
    omega
  have hincomplete : hasUgcExpirationSuffix (before ++ last.text ++ [sep]) ≠ some true := by
    intro hcomplete
    obtain ⟨block, digits, heq, hsix, hdigits⟩ := exists_of_hasUgcExpirationSuffix hcomplete
    obtain ⟨front, tail, htext, htail, hlen, hfront⟩ := last.text_eq_append_digits
    have hinner : before ++ front ++ tail = block ++ '-' :: digits := by
      have := (List.append_inj' heq rfl).1
      rwa [htext, ← List.append_assoc] at this
    -- the digits are more than `tail` has, so a digit would stand in front of it
    have hsuffix : tail <:+ digits := by
      have hbehind : digits <:+ block ++ '-' :: digits := ⟨block ++ ['-'], by simp⟩
      exact List.suffix_of_suffix_length_le (hinner ▸ List.suffix_append _ _) hbehind (by omega)
    obtain ⟨more, rfl⟩ := hsuffix
    have hmore : more ≠ [] := by
      rintro rfl
      rw [List.nil_append] at hsix
      omega
    have hlast : (before ++ front).getLast? = some (more.getLast hmore) := by
      have hcut : before ++ front = block ++ '-' :: more :=
        List.append_cancel_right
          (show before ++ front ++ tail = block ++ '-' :: more ++ tail by simpa using hinner)
      rw [hcut, List.getLast?_append, List.getLast?_cons, List.getLast?_eq_some_getLast hmore]
      rfl
    have hdigit : (more.getLast hmore).isDigit = true :=
      hdigits _ (List.mem_append_left _ (List.getLast_mem hmore))
    have hnodigit : (more.getLast hmore).isDigit = false := by
      rcases List.eq_nil_or_concat front with rfl | ⟨front, a, rfl⟩
      · exact hbefore _ (by simpa using hlast)
      · refine hfront _ ?_
        rw [List.concat_eq_append, ← List.append_assoc, List.getLast?_concat] at hlast
        rw [List.concat_eq_append, List.getLast?_concat]
        exact hlast
    rw [hdigit] at hnodigit
    cases hnodigit
  cases hsuffix : hasUgcExpirationSuffix (before ++ last.text ++ [sep]) with
  | none => exact absurd hsuffix hreturns
  | some complete =>
      cases complete with
      | true => exact absurd hsuffix hincomplete
      | false => rfl

/-- Lines are joined until the text is complete. -/
theorem collectLines_of_lines {combined : Str} {lines : List Str}
    (hlines : ∀ line ∈ lines, line ≠ [] ∧ (∀ c ∈ line, IsUgcChar c) ∧
      startsNewSectionHeader line = false)
    (hproper : ∀ k < lines.length,
      hasUgcExpirationSuffix (combined ++ (lines.take k).flatten) = some false)
    (hfull : hasUgcExpirationSuffix (combined ++ lines.flatten) = some true) :
    collectLines combined lines = some (combined ++ lines.flatten, lines.length) := by
  induction lines generalizing combined with
  | nil =>
      rw [List.flatten_nil, List.append_nil] at hfull ⊢
      rw [collectLines, hfull]
      rfl
  | cons line lines ih =>
      obtain ⟨hne, hchars, hheader⟩ := hlines line List.mem_cons_self
      have hnow : hasUgcExpirationSuffix combined = some false := by
        simpa using hproper 0 (by simp)
      have hrest : collectLines (combined ++ line) lines =
          some (combined ++ line ++ lines.flatten, lines.length) := ih
        (fun l hl => hlines l (List.mem_cons_of_mem _ hl))
        (fun k hk => by simpa using hproper (k + 1) (by simpa using hk))
        (by simpa using hfull)
      rw [collectLines, hnow, trim_eq_self_of_ugcChars hchars]
      simp [hne, hheader, compactUgcText_eq_self hchars, hrest]

/-! ## Reading the segments -/

theorem isThreeDigitUgcToken_text (d : Digits 3 3) : isThreeDigitUgcToken d.text = true := by
  have hlen := le_antisymm d.length_le d.length_ge
  simp [isThreeDigitUgcToken, d.byteLen_text, hlen]
  exact d.isDigit

theorem isOneToThreeDigitUgcToken_of_mem {numbers : UgcNumbers} {token : Str}
    (h : token ∈ numbers.tokens) : isOneToThreeDigitUgcToken token = true := by
  obtain ⟨hdigit, hlo, hhi⟩ := numbers.of_mem_tokens h
  rw [isOneToThreeDigitUgcToken, Str.byteLen_of_ascii (Str.isAscii_of_isDigit hdigit)]
  simp [hlo, hhi]
  exact hdigit

theorem parseUgcNumber_text (d : Digits 3 3) : parseUgcNumber d.text = some d.value := by
  rw [parseUgcNumber, if_pos (isThreeDigitUgcToken_text d)]
  exact d.parseUnsigned (by decide) le_rfl (by decide)

/-- The end of a range is completed from its start. -/
theorem parseUgcRangeEnd_text (r : UgcRange) :
    parseUgcRangeEnd r.start.value r.last.text = some r.stop := by
  have hlo := r.last.length_ge
  have hhi := r.last.length_le
  have htoken : isOneToThreeDigitUgcToken r.last.text = true := by
    rw [isOneToThreeDigitUgcToken, r.last.byteLen_text]
    simp [hlo, hhi]
    exact r.last.isDigit
  have hread : Str.parseUnsigned (2 ^ 16 - 1) r.last.text = some r.last.value :=
    r.last.parseUnsigned le_rfl le_rfl (by decide)
  have hle : r.start.value ≤ r.stop := r.start_le
  unfold parseUgcRangeEnd
  rw [if_neg (by simp [htoken]), r.last.byteLen_text]
  by_cases hthree : r.last.text.length = 3
  · have hstop : r.stop = r.last.value := by
      have hstart := r.start.value_lt_of_le le_rfl
      unfold UgcRange.stop completeEnd
      rw [hthree, Nat.div_eq_of_lt (by omega), Nat.zero_mul, Nat.zero_add]
      rfl
    have hnumber : parseUgcNumber r.last.text = some r.last.value := by
      rw [parseUgcNumber, if_pos, hread]
      simp [isThreeDigitUgcToken, r.last.byteLen_text, hthree]
      exact r.last.isDigit
    rw [if_pos hthree, hnumber, ← hstop]
    simp [hle]
  · rw [if_neg hthree, hread]
    have hend : r.start.value / 10 ^ r.last.text.length * 10 ^ r.last.text.length + r.last.value =
        r.stop := rfl
    simp [hend, hle]

/-- Ranges are read in order. -/
theorem parseUgcRanges_tokens (ranges : List UgcRange) :
    parseUgcRanges (ranges.flatMap fun r => [r.start.text, r.last.text]) =
      some (ranges.map fun r => (r.start.value, r.stop)) := by
  induction ranges with
  | nil => rfl
  | cons r ranges ih =>
      rw [List.flatMap_cons, List.cons_append, List.cons_append, List.nil_append, parseUgcRanges,
        parseUgcNumber_text]
      simp [parseUgcRangeEnd_text, ih]

namespace UgcNumbers

variable (numbers : UgcNumbers)

theorem length_tokens_ranges (ranges : List UgcRange) :
    (ranges.flatMap fun r => [r.start.text, r.last.text]).length = 2 * ranges.length := by
  induction ranges with
  | nil => rfl
  | cons r ranges ih =>
      rw [List.flatMap_cons, List.length_append, ih, List.length_cons, List.length_cons,
        List.length_cons, List.length_nil]
      omega

/-- The text of numbers is recognized. -/
theorem isUgcNumericSequence_text : isUgcNumericSequence numbers.text = true := by
  have hall : ∀ token, token ∈ numbers.tokens → isOneToThreeDigitUgcToken token = true :=
    fun _ => isOneToThreeDigitUgcToken_of_mem
  rw [isUgcNumericSequence, splitOn_text]
  cases numbers with
  | single number => simp [tokens, isThreeDigitUgcToken_text]
  | ranges first others =>
      have htokens : (UgcNumbers.ranges first others).tokens = first.start.text ::
          first.last.text :: others.flatMap fun r => [r.start.text, r.last.text] := rfl
      rw [htokens] at hall ⊢
      have hlen := length_tokens_ranges others
      generalize (others.flatMap fun r => [r.start.text, r.last.text]) = behind at hall hlen ⊢
      simp only [isThreeDigitUgcToken_text, Bool.true_and]
      cases behind with
      | nil => exact hall _ (by simp)
      | cons token behind =>
          rw [Bool.and_eq_true, beq_iff_eq, List.all_eq_true]
          refine ⟨?_, fun t ht => hall t (List.mem_cons_of_mem _ ht)⟩
          rw [List.length_cons]
          omega

/-- Numbers are read as their bounds. -/
theorem parseUgcNumericRanges_text : parseUgcNumericRanges numbers.text = some numbers.bounds := by
  rw [parseUgcNumericRanges, splitOn_text]
  cases numbers with
  | single number => simp [tokens, bounds, parseUgcNumber_text]
  | ranges first others =>
      have hlen := length_tokens_ranges (first :: others)
      have hread := parseUgcRanges_tokens (first :: others)
      have htokens : (UgcNumbers.ranges first others).tokens = first.start.text ::
          first.last.text :: others.flatMap fun r => [r.start.text, r.last.text] := rfl
      have hranges : ((first :: others).flatMap fun r => [r.start.text, r.last.text]) =
          first.start.text :: first.last.text ::
            others.flatMap fun r => [r.start.text, r.last.text] :=
        rfl
      rw [hranges] at hlen hread
      rw [htokens]
      simp only [List.headD_cons, parseUgcNumber_text, Option.bind_eq_bind, Option.bind_some]
      rw [if_pos (by omega), hread]
      rfl

/-- Numbers are expanded to their codes. -/
theorem expandRanges_text (head : UgcHead) :
    expandRanges head.state head.geoclass numbers.text = some (head.codes numbers) := by
  rw [expandRanges, parseUgcNumericRanges_text, Option.map_some, UgcHead.codes, expanded,
    List.map_flatMap]
  rfl

/-- An item has a number. -/
theorem exists_mem_expanded : ∃ n, n ∈ numbers.expanded := by
  cases numbers with
  | single number => exact ⟨number.value, by simp [expanded, bounds]⟩
  | ranges first others =>
      have hle : first.start.value ≤ first.stop := first.start_le
      refine ⟨first.start.value, List.mem_flatMap.mpr
        ⟨(first.start.value, first.stop), List.mem_cons_self, ?_⟩⟩
      rw [List.mem_range'_1]
      omega

/-- Shorthand is no full segment: it begins with digits. -/
theorem parseFullUgcSegment_text : parseFullUgcSegment numbers.text = some none := by
  obtain ⟨d1, d2, d3, rest, htext, h1, -, -, -⟩ := numbers.text_eq_cons
  have hascii : Str.IsAscii numbers.text := fun c hc => by
    rcases numbers.of_mem_text hc with h | rfl
    · exact Str.isAscii_of_isDigit (s := [c]) (by simpa using h) c (by simp)
    · decide
  unfold parseFullUgcSegment
  by_cases hlen : Str.byteLen numbers.text < 6
  · rw [if_pos hlen]
  · have hupper : d1.isUpper = false := Str.isUpper_of_isDigit h1
    have hstate : (List.take 2 (d1 :: d2 :: d3 :: rest)).all Char.isUpper = false := by
      rw [List.take_succ_cons, List.all_cons, hupper, Bool.false_and]
    rw [if_neg hlen, Str.sliceTo_of_ascii hascii (by rw [htext]; simp), htext]
    exact if_pos hstate

end UgcNumbers

/-- A full item is a full segment. -/
theorem parseFullUgcSegment_full (head : UgcHead) (numbers : UgcNumbers) :
    parseFullUgcSegment (UgcItem.mk (some head) numbers).text =
      some (some (head.state, head.geoclass, numbers.text)) := by
  have htext : (UgcItem.mk (some head) numbers).text =
      head.state ++ head.geoclass.asChar :: numbers.text := rfl
  have hchars := fun c hc => ((UgcItem.mk (some head) numbers).isUgcChar_of_mem_text
      (c := c) hc).toNat
  have hascii : Str.IsAscii (UgcItem.mk (some head) numbers).text := fun c hc => by
    have := hchars c hc
    omega
  have hlen : 6 ≤ (UgcItem.mk (some head) numbers).text.length := by
    obtain ⟨d1, d2, d3, rest, heq, -⟩ := numbers.text_eq_cons
    simp [htext, heq, UgcHead.state]
  have hstate : Str.byteLen head.state = 2 := by
    rw [Str.byteLen_of_ascii fun c hc => hascii c (htext ▸ List.mem_append_left _ hc)]
    rfl
  have hclass : head.geoclass.asChar.toNat < 128 := hascii _ (by simp [htext])
  have hbyte : Str.byteAt 2 (UgcItem.mk (some head) numbers).text =
      some (UInt8.ofNat head.geoclass.asChar.toNat) := by
    have := Str.byteAt_append head.state (head.geoclass.asChar :: numbers.text) 0
    rwa [hstate, ← htext, Str.byteAt_zero_of_ascii hclass] at this
  have hchar : Char.ofNat (UInt8.ofNat head.geoclass.asChar.toNat).toNat =
      head.geoclass.asChar := by
    rw [Utf8.toNat_ofNat_of_lt (by omega), Char.ofNat_toNat]
  have hfrom : UgcClass.fromChar head.geoclass.asChar = head.geoclass := by
    cases h : head.geoclass with
    | unknown => exact absurd h head.known
    | county | zone | fireZone | marine => rfl
  have hupper : head.state.all Char.isUpper = true := by
    simp [UgcHead.state, head.first_upper, head.second_upper]
  have htake : (UgcItem.mk (some head) numbers).text.take 2 = head.state := rfl
  have hdrop : (UgcItem.mk (some head) numbers).text.drop 3 = numbers.text := rfl
  unfold parseFullUgcSegment
  rw [if_neg (by rw [Str.byteLen_of_ascii hascii]; omega),
    Str.sliceTo_of_ascii hascii (by omega), Str.sliceFrom_of_ascii hascii (by omega), hbyte, htake,
    hdrop]
  simp only [Option.map_some, Option.getD_some, hchar, hfrom, Option.bind_eq_bind, Option.bind_some]
  rw [if_neg (by simp [hupper]), if_neg (not_not.mpr head.asChar_mem),
    if_pos numbers.isUgcNumericSequence_text]

/-- A segment is expanded to the codes of its item, and hands on the prefix. -/
theorem parseUgcSegment_text (item : UgcItem) (head : UgcHead) :
    parseUgcSegment item.text (some (head.state, head.geoclass)) =
      some (some ((item.head.getD head).codes item.numbers,
        some ((item.head.getD head).state, (item.head.getD head).geoclass))) := by
  obtain ⟨itemHead, numbers⟩ := item
  unfold parseUgcSegment
  cases itemHead with
  | none =>
      have htext : (UgcItem.mk none numbers).text = numbers.text := rfl
      rw [htext, numbers.parseFullUgcSegment_text]
      simp [numbers.isUgcNumericSequence_text, numbers.expandRanges_text]
  | some itemHead =>
      rw [parseFullUgcSegment_full]
      simp [numbers.expandRanges_text]

/-- The text of items with the separators between them. -/
def joinItems : UgcItem → List (UgcSeparator × UgcItem) → Str
  | item, [] => item.text
  | item, (separator, next) :: others => item.text ++ separator.char :: joinItems next others

/-- The pieces of items are their text and a hyphen. -/
theorem flatMap_itemPieces (lineBreak : Str.LineBreak) (item : UgcItem)
    (others : List (UgcSeparator × UgcItem)) :
    (itemPieces lineBreak item others).flatMap Prod.fst = joinItems item others ++ ['-'] := by
  induction others generalizing item with
  | nil => simp [itemPieces, joinItems]
  | cons other others ih =>
      obtain ⟨separator, next⟩ := other
      simp [itemPieces, joinItems, ih]

/-- The segments of items are their texts. -/
theorem splitOnP_joinItems (item : UgcItem) (others : List (UgcSeparator × UgcItem)) :
    (joinItems item others).splitOnP (fun c => c = ',' || c = '-') =
      item.text :: others.map fun other => other.2.text := by
  have hitem : ∀ item : UgcItem, item.text.splitOnP (fun c => c = ',' || c = '-') =
      [item.text] := by
    intro item
    refine List.splitOnP_eq_singleton fun c hc => ?_
    have hsep := fun h => item.separator_notMem_text (c := c) h hc
    simpa using hsep
  induction others generalizing item with
  | nil => exact hitem item
  | cons other others ih =>
      obtain ⟨separator, next⟩ := other
      have hsep : (decide (separator.char = ',') || decide (separator.char = '-')) = true := by
        simpa using separator.char_cases
      rw [joinItems, List.splitOnP_append_cons (p := fun c => c = ',' || c = '-') _ _ hsep,
        hitem, ih]
      rfl

/-- The segments of further items are expanded to their codes. -/
theorem expandSegments_items (head : UgcHead) (others : List (UgcSeparator × UgcItem)) :
    expandSegments (some (head.state, head.geoclass)) (others.map fun other => other.2.text) =
      some (some (codesFrom head others)) := by
  induction others generalizing head with
  | nil => rfl
  | cons other others ih =>
      obtain ⟨separator, item⟩ := other
      rw [List.map_cons, expandSegments, if_neg item.text_ne_nil,
        trim_eq_self_of_ugcChars fun c hc => item.isUgcChar_of_mem_text hc, parseUgcSegment_text]
      simp [ih, codesFrom]

/-- The codes of a block are read from its text. -/
theorem expandUgcBlock_joinItems (block : UgcBlock) :
    expandUgcBlock (joinItems ⟨some block.head, block.numbers⟩ block.others) =
      some (some block.codes) := by
  have hfirst : UgcItem.text ⟨some block.head, block.numbers⟩ ≠ [] := UgcItem.text_ne_nil _
  have hcodes : block.codes ≠ [] := by
    obtain ⟨n, hn⟩ := block.numbers.exists_mem_expanded
    intro hnil
    have hmem : (⟨block.head.state, block.head.geoclass, n⟩ : UgcCode) ∈ block.codes :=
      List.mem_append_left _ (List.mem_map.mpr ⟨n, hn, rfl⟩)
    rw [hnil] at hmem
    cases hmem
  have hsegment : parseUgcSegment (UgcItem.text ⟨some block.head, block.numbers⟩) none =
      some (some (block.head.codes block.numbers,
        some (block.head.state, block.head.geoclass))) := by
    unfold parseUgcSegment
    rw [parseFullUgcSegment_full]
    simp [block.numbers.expandRanges_text]
  rw [expandUgcBlock, splitOnP_joinItems, expandSegments, if_neg hfirst,
    trim_eq_self_of_ugcChars fun c hc => UgcItem.isUgcChar_of_mem_text _ hc, hsegment]
  simp only [Option.bind_eq_bind, Option.bind_some, expandSegments_items, Option.map_some]
  rw [← UgcBlock.codes, Option.filter_some, if_pos (decide_eq_true hcodes)]

/-! ## The expiration -/

namespace UgcBlock

variable (block : UgcBlock)

theorem length_expireCode : block.expireCode.length = 6 := by
  have hday := le_antisymm block.day.length_le block.day.length_ge
  have hhour := le_antisymm block.hour.length_le block.hour.length_ge
  have hminute := le_antisymm block.minute.length_le block.minute.length_ge
  simp [expireCode, hday, hhour, hminute]

theorem isDigit_of_mem_expireCode {c : Char} (h : c ∈ block.expireCode) : c.isDigit = true := by
  rw [expireCode, List.mem_append, List.mem_append] at h
  rcases h with (h | h) | h
  · exact block.day.isDigit c h
  · exact block.hour.isDigit c h
  · exact block.minute.isDigit c h

/-- The three numbers of the expiration are read from its code. -/
theorem parseExpireTime_expireCode (validTime : DateTime) :
    parseExpireTime block.expireCode validTime =
      some (resolveDayTimeNotBefore validTime block.day.value block.hour.value
        block.minute.value) := by
  have hascii : Str.IsAscii block.expireCode :=
    Str.isAscii_of_isDigit fun c hc => block.isDigit_of_mem_expireCode hc
  have hlen := block.length_expireCode
  have htwo : ∀ d : Digits 2 2, ∃ a b, d.text = [a, b] := fun d =>
    List.length_eq_two.mp (le_antisymm d.length_le d.length_ge)
  obtain ⟨a, b, hab⟩ := htwo block.day
  obtain ⟨c, d, hcd⟩ := htwo block.hour
  obtain ⟨e, f, hef⟩ := htwo block.minute
  have hread : ∀ d : Digits 2 2, Str.parseUnsigned (2 ^ 32 - 1) d.text = some d.value := fun d =>
    d.parseUnsigned (by decide) (by decide) (by decide)
  have hfield : ∀ (i : ℕ) (d : Digits 2 2), i + 2 ≤ 6 →
      (block.expireCode.take (i + 2)).drop i = d.text →
        expireField i block.expireCode = some (some d.value) := by
    intro i d hi htext
    rw [expireField, Str.slice_of_ascii hascii (by omega) (by omega), htext, Option.bind_eq_bind,
      Option.bind_some, hread]
  have hfirst : expireField 0 block.expireCode = some (some block.day.value) := by
    refine hfield 0 block.day (by decide) ?_
    simp [expireCode, hab]
  have hsecond : expireField 2 block.expireCode = some (some block.hour.value) := by
    refine hfield 2 block.hour (by decide) ?_
    simp [expireCode, hab, hcd]
  have hthird : expireField 4 block.expireCode = some (some block.minute.value) := by
    refine hfield 4 block.minute (by decide) ?_
    simp [expireCode, hab, hcd, hef]
  rw [parseExpireTime, if_neg (by rw [Str.byteLen_of_ascii hascii]; omega), hfirst, hsecond, hthird]
  rfl

/-! ## The round trip -/

/-- The text of a block with its lines joined. -/
theorem flatMap_pieces : block.pieces.flatMap Prod.fst =
    joinItems ⟨some block.head, block.numbers⟩ block.others ++ '-' :: block.expireCode ++
      ['-'] := by
  simp [pieces, flatMap_itemPieces]

/-- The pieces of a block consist of its characters. -/
theorem isUgcChar_of_mem_pieces {piece : Str × Str.LineBreak} (h : piece ∈ block.pieces) :
    ∀ c ∈ piece.1, IsUgcChar c := by
  intro c hc
  rcases List.mem_append.mp h with h | h
  · obtain ⟨item, sep, heq, hsep⟩ := isUgcChar_of_mem_itemPieces h
    rw [heq] at hc
    rcases List.mem_append.mp hc with hc | hc
    · exact item.isUgcChar_of_mem_text hc
    · obtain rfl := List.mem_singleton.mp hc
      exact .inr (.inr (.inr hsep))
  · obtain rfl := List.mem_singleton.mp h
    rcases List.mem_append.mp hc with hc | hc
    · exact .inr (.inl (block.isDigit_of_mem_expireCode hc))
    · obtain rfl := List.mem_singleton.mp hc
      exact .inr (.inr (.inr (.inr rfl)))

/-- No piece is empty. -/
theorem piece_ne_nil {piece : Str × Str.LineBreak} (h : piece ∈ block.pieces) : piece.1 ≠ [] := by
  rcases List.mem_append.mp h with h | h
  · obtain ⟨item, sep, heq, -⟩ := isUgcChar_of_mem_itemPieces h
    simp [heq]
  · obtain rfl := List.mem_singleton.mp h
    simp

/-- A line that begins with a piece begins with a full item or with a digit. -/
theorem line_start {piece : Str × Str.LineBreak} {line : Str} (h : piece ∈ block.pieces)
    (hbegin : piece.1 <+: line) :
    isUgcStart line = true ∨ ∃ c ∈ line.head?, c.isDigit = true := by
  have hdigit : ∀ (c : Char) (text : Str), c.isDigit = true → c :: text <+: line →
      ∃ c ∈ line.head?, c.isDigit = true := by
    rintro c text hc ⟨behind, rfl⟩
    exact ⟨c, rfl, hc⟩
  rcases List.mem_append.mp h with h | h
  · obtain ⟨⟨head, numbers⟩, sep, heq, hsep⟩ := isUgcChar_of_mem_itemPieces h
    rw [heq] at hbegin
    cases head with
    | some head => exact .inl (isUgcStart_of_full hsep hbegin)
    | none =>
        obtain ⟨d1, d2, d3, rest, htext, h1, -⟩ := numbers.text_eq_cons
        have hitem : (UgcItem.mk none numbers).text = numbers.text := rfl
        rw [hitem, htext] at hbegin
        exact .inr (hdigit d1 _ h1 hbegin)
  · obtain rfl := List.mem_singleton.mp h
    obtain ⟨a, b, hab⟩ := List.length_eq_two.mp
        (le_antisymm block.day.length_le block.day.length_ge)
    have ha : a.isDigit = true := block.day.isDigit a (by simp [hab])
    refine .inr (hdigit a (b :: block.hour.text ++ block.minute.text ++ ['-']) ha ?_)
    simpa [expireCode, hab] using hbegin

/-- The lines of a block; the first begins with its first item. -/
theorem broken_pieces : ∃ first rest, Str.broken [] block.pieces = first :: rest ∧
    ∃ sep, (sep = ',' ∨ sep = '-') ∧
      (UgcItem.mk (some block.head) block.numbers).text ++ [sep] <+: first := by
  rw [pieces]
  cases block.others with
  | nil =>
      obtain ⟨first, rest, heq, hbegin⟩ := Str.broken_cons_eq_cons
        (show ((UgcItem.mk (some block.head) block.numbers).text ++ ['-'], block.breakBefore).1 ≠ []
          by simp) [(block.expireCode ++ ['-'], block.breakBehind)]
      exact ⟨first, rest, heq, '-', .inr rfl, hbegin⟩
  | cons other others =>
      obtain ⟨separator, next⟩ := other
      obtain ⟨first, rest, heq, hbegin⟩ := Str.broken_cons_eq_cons
        (show ((UgcItem.mk (some block.head) block.numbers).text ++ [separator.char],
          separator.lineBreak).1 ≠ [] by simp)
        (itemPieces block.breakBefore next others ++
          [(block.expireCode ++ ['-'], block.breakBehind)])
      exact ⟨first, rest, heq, separator.char, separator.char_cases, hbegin⟩

/-- The text of a block is complete at its end only. -/
theorem suffix_of_proper_prefix {front back : List (Str × Str.LineBreak)}
    (h : block.pieces = front ++ back) (hback : back ≠ []) :
    hasUgcExpirationSuffix (front.flatMap Prod.fst) = some false := by
  have hbegin : front <+: itemPieces block.breakBefore ⟨some block.head, block.numbers⟩
      block.others := by
    obtain ⟨back, last, rfl⟩ := List.eq_nil_or_concat back |>.resolve_left hback
    rw [List.concat_eq_append, ← List.append_assoc] at h
    exact ⟨back, (List.append_inj' h rfl).1.symm⟩
  have hascii : Str.IsAscii (front.flatMap Prod.fst) := by
    intro c hc
    obtain ⟨piece, hpiece, hc⟩ := List.mem_flatMap.mp hc
    have := (block.isUgcChar_of_mem_pieces (h ▸ List.mem_append_left _ hpiece) c hc).toNat
    omega
  rcases exists_of_prefix_itemPieces hbegin with rfl | ⟨before, last, sep, hflat, hbefore⟩
  · rfl
  · rw [hflat] at hascii ⊢
    exact hasUgcExpirationSuffix_items hbefore hascii

/-- The text of a block is one candidate. -/
theorem extractUgcCandidates_text : extractUgcCandidates block.text =
    some [joinItems ⟨some block.head, block.numbers⟩ block.others ++ '-' :: block.expireCode ++
      ['-']] := by
  have hother : ∀ piece ∈ block.pieces, '\n' ∉ piece.1 ∧ '\r' ∉ piece.1 := fun piece hpiece =>
    ⟨fun h => (block.isUgcChar_of_mem_pieces hpiece _ h).ne (by unfold IsUgcChar; decide) rfl,
      fun h => (block.isUgcChar_of_mem_pieces hpiece _ h).ne (by unfold IsUgcChar; decide) rfl⟩
  have hlines : Str.lines block.text = Str.broken [] block.pieces :=
    Str.linesFrom_render List.not_mem_nil hother
  have hflat : (Str.broken [] block.pieces).flatten = block.pieces.flatMap Prod.fst := by
    simpa using Str.flatten_broken [] block.pieces
  have hchars : ∀ line ∈ Str.broken [] block.pieces, ∀ c ∈ line, IsUgcChar c := by
    intro line hline c hc
    have hmem : c ∈ block.pieces.flatMap Prod.fst := by
      rw [← hflat]
      exact List.mem_flatten.mpr ⟨line, hline, hc⟩
    obtain ⟨piece, hpiece, hc⟩ := List.mem_flatMap.mp hmem
    exact block.isUgcChar_of_mem_pieces hpiece c hc
  have hheader : ∀ line ∈ Str.broken [] block.pieces, startsNewSectionHeader line = false := by
    intro line hline
    refine startsNewSectionHeader_eq_false (hchars line hline) ?_
    rcases Str.piece_prefix_of_mem_broken hline with ⟨hnil, -⟩ | ⟨piece, hpiece, hbegin⟩
    · exact absurd rfl hnil
    · exact block.line_start hpiece hbegin
  have htrim : iterCandidateLines block.text = Str.broken [] block.pieces := by
    rw [iterCandidateLines, hlines]
    refine (List.map_congr_left fun line hline => ?_).trans (List.map_id _)
    rw [Str.trimEndMatches, id_eq, List.rdropWhile_eq_self_iff]
    intro hne
    have hlast := hchars line hline _ (List.getLast_mem hne)
    simpa using hlast.ne (d := '\r') (by unfold IsUgcChar; decide)
  obtain ⟨first, rest, hbroken, hfirst⟩ := block.broken_pieces
  have hfull : first ++ rest.flatten =
      joinItems ⟨some block.head, block.numbers⟩ block.others ++ '-' :: block.expireCode ++
        ['-'] := by
    rw [← block.flatMap_pieces, ← hflat, hbroken, List.flatten_cons]
  have hcollect : collectLines first rest = some (first ++ rest.flatten, rest.length) := by
    refine collectLines_of_lines (fun line hline => ?_) (fun k hk => ?_) ?_
    · have hmem : line ∈ Str.broken [] block.pieces := hbroken ▸ List.mem_cons_of_mem _ hline
      exact ⟨Str.ne_nil_of_mem_broken hmem block.piece_ne_nil, hchars line hmem, hheader line hmem⟩
    · obtain ⟨front, back, hpieces, hback, htake⟩ :=
        Str.flatten_take_broken (Nat.succ_pos k)
          (show k + 1 < (Str.broken [] block.pieces).length by
            rw [hbroken, List.length_cons]
            omega)
      rw [hbroken, List.take_succ_cons, List.flatten_cons, List.nil_append] at htake
      rw [htake]
      exact block.suffix_of_proper_prefix hpieces hback
    · rw [hfull]
      exact hasUgcExpirationSuffix_of_digits _ block.length_expireCode
        fun c hc => block.isDigit_of_mem_expireCode hc
  have hsuffix : hasUgcExpirationSuffix (first ++ rest.flatten) = some true := by
    rw [hfull]
    exact hasUgcExpirationSuffix_of_digits _ block.length_expireCode
      fun c hc => block.isDigit_of_mem_expireCode hc
  have hstart : isUgcStart first = true := by
    obtain ⟨sep, hsep, hbegin⟩ := hfirst
    exact isUgcStart_of_full hsep hbegin
  have hfirstChars : ∀ c ∈ first, IsUgcChar c := hchars first (hbroken ▸ List.mem_cons_self)
  have hcandidate : collectUgcCandidate first rest =
      some (some (first ++ rest.flatten), rest.length) := by
    rw [collectUgcCandidate, compactUgcText_eq_self hfirstChars, hcollect]
    simp [hsuffix]
  rw [extractUgcCandidates, htrim, hbroken, Lines.scan, if_pos hstart, hcandidate, ← hfull]
  simp [Lines.scan]

end UgcBlock

/-- A block is read as one section, without an issue: the section of its codes, none above 999,
that expires at its day and time, not before the valid time. -/
theorem parse_ugc_round_trip (catalog : UgcCatalog) (block : UgcBlock) (validTime : DateTime)
    (hvalid : InRange validTime) :
    ∃ expires, resolveDayTimeNotBefore validTime block.day.value block.hour.value
        block.minute.value = some expires ∧
      parseUgcSectionsWithIssues catalog block.text validTime =
        some ([UgcSection.fromCodes catalog block.codes expires], []) ∧
      ∀ code ∈ block.codes, code.number ≤ 999 := by
  obtain ⟨expires, hexpires⟩ := Option.isSome_iff_exists.mp
    (resolveDayTimeNotBefore_isSome hvalid block.day_valid block.hour_valid block.minute_valid)
  refine ⟨expires, hexpires, ?_, fun code hcode => UgcBlock.number_le hcode⟩
  have hcapture : parseUgcCapture catalog
      (joinItems ⟨some block.head, block.numbers⟩ block.others ++
      '-' :: block.expireCode ++ ['-']) validTime =
        some (.ok (UgcSection.fromCodes catalog block.codes expires)) := by
    rw [parseUgcCapture, extractExpiration_of_digits _ block.length_expireCode
      fun c hc => block.isDigit_of_mem_expireCode hc]
    simp only [Option.bind_eq_bind, Option.bind_some, expandUgcBlock_joinItems,
      block.parseExpireTime_expireCode, hexpires]
  rw [parseUgcSectionsWithIssues, block.extractUgcCandidates_text]
  simp only [Option.bind_eq_bind, Option.bind_some, List.mapM_cons, List.mapM_nil, hcapture]
  rfl

/-- A block of a number, a range with a short end, and a full item on a second line. -/
def sampleBlock : UgcBlock where
  head := ⟨'I', 'A', .county, rfl, rfl, by decide⟩
  numbers := .single ⟨"001".toList, by decide, by decide, by decide⟩
  others := [
    (.comma, ⟨none, .ranges ⟨⟨"013".toList, by decide, by decide, by decide⟩,
      ⟨"5".toList, by decide, by decide, by decide⟩, by decide⟩ []⟩),
    (.hyphen .returnFeed, ⟨some ⟨'A', 'M', .zone, rfl, rfl, by decide⟩,
      .single ⟨"450".toList, by decide, by decide, by decide⟩⟩)]
  breakBefore := .none
  day := ⟨"05".toList, by decide, by decide, by decide⟩
  hour := ⟨"12".toList, by decide, by decide, by decide⟩
  minute := ⟨"00".toList, by decide, by decide, by decide⟩
  breakBehind := .feed
  day_valid := by decide
  hour_valid := by decide
  minute_valid := by decide

example : sampleBlock.text = "IAC001,013>5-\r\nAMZ450-051200-\n".toList := by decide +kernel

/-- The sample is read in 1970. -/
theorem parse_ugc_round_trip_sample :
    ∃ expires, resolveDayTimeNotBefore 0 5 12 0 = some expires ∧
      parseUgcSectionsWithIssues ⟨fun _ => none, fun _ => none⟩ sampleBlock.text 0 =
        some ([UgcSection.fromCodes ⟨fun _ => none, fun _ => none⟩ sampleBlock.codes expires], []) ∧
      ∀ code ∈ sampleBlock.codes, code.number ≤ 999 :=
  parse_ugc_round_trip _ sampleBlock 0 (by decide +kernel)

end Parser
