/-
# Transport wrapping

Around a bulletin stand the lines, the control characters and the white space of its transport.  All
of them are removed, so that a bulletin is read the same whatever it is wrapped in
(`wrapping_is_removed`).

The characters that are removed first may stand anywhere, so a wrapped bulletin is any text that has
none but these more.
-/
import Emwin.Lib.Layout
import Emwin.Lib.PaddedDigits
import Emwin.Lib.Wrapping
import Emwin.Parser.Header

namespace Parser.Header

open Calendar

/-! ## Bulletins -/

/-- The heading of a bulletin. -/
structure Heading where
  ttaaii : Str
  cccc : Str
  day : ℕ
  hour : ℕ
  minute : ℕ
  bbb : Option Str
  isTtaaii : (4 ≤ ttaaii.length ∧ ttaaii.length ≤ 6) ∧ ttaaii.all isCapitalOrDigit = true
  isCccc : cccc.length = 4 ∧ cccc.all Char.isUpper = true
  isDay : 1 ≤ day ∧ day ≤ 31
  isHour : hour ≤ 23
  isMinute : minute ≤ 59
  isBbb : bbb.all isValidBbb = true

/-- The time of a heading. -/
def Heading.ddhhmm (h : Heading) : Str := padded 2 h.day ++ padded 2 h.hour ++ padded 2 h.minute

/-- The words of a heading. -/
def Heading.words (h : Heading) : List Str := [h.ttaaii, h.cccc, h.ddhhmm] ++ h.bbb.toList

/-- What is read of a heading. -/
def Heading.header (h : Heading) : WmoHeader := ⟨h.ttaaii, h.cccc, h.ddhhmm, h.bbb⟩

/-- A bulletin: its heading, its product identifier, and a body that does not end with what is
removed. -/
structure Bulletin where
  heading : Heading
  afos : Str
  body : Str
  isAfos : (4 ≤ afos.length ∧ afos.length ≤ 6) ∧ afos.all isCapitalOrDigit = true
  isBody : ∃ last, body.getLast? = some last ∧ Str.isWhitespace last = false ∧ last ≠ '\x03'

/-! ## Wrappings -/

/-- What stands in front of a bulletin: line feeds, or a line that begins with the start of a
heading. -/
inductive Opening where
  | feeds (count : ℕ)
  | soh (line : Str) (isLine : '\n' ∉ line)

/-- The characters of an opening. -/
def Opening.text : Opening → Str
  | .feeds count => List.replicate count '\n'
  | .soh line _ => '\x01' :: line ++ ['\n']

/-- A line with a sequence number. -/
structure LdmLine where
  digits : Str
  space : Bool
  isNumber : digits.length = 3 ∧ ∀ c ∈ digits, c.isDigit = true

/-- The characters of a sequence number. -/
def LdmLine.text (line : LdmLine) : Str := line.digits ++ if line.space then [' '] else []

/-- The line that is inserted where there is none. -/
def LdmLine.inserted : LdmLine := ⟨"000".toList, true, by decide⟩

/-- What stands behind a bulletin: line feeds, or an end of text. -/
inductive Closing where
  | feeds (count : ℕ)
  | etx
  | feedEtx

/-- The characters of a closing. -/
def Closing.text : Closing → Str
  | .feeds count => List.replicate count '\n'
  | .etx => ['\x03']
  | .feedEtx => ['\n', '\x03']

/-- What a bulletin is wrapped in. -/
structure Wrapping where
  opening : Opening
  ldm : Option LdmLine
  headingSpaces : ℕ
  afosBlanks : Str
  closing : Closing
  isBlank : ∀ c ∈ afosBlanks, c ∈ [' ', '\t']

/-- The line of the heading. -/
def Wrapping.headingLine (w : Wrapping) (b : Bulletin) : Str :=
  Str.unwords b.heading.words ++ List.replicate w.headingSpaces ' '

/-- The lines behind the sequence number, up to the end of the body. -/
def Wrapping.lines (w : Wrapping) (b : Bulletin) : Str :=
  w.headingLine b ++ '\n' :: (b.afos ++ w.afosBlanks ++ '\n' :: b.body)

/-- A bulletin in its wrapping. -/
def Wrapping.wrap (w : Wrapping) (b : Bulletin) : Str :=
  w.opening.text ++ ((w.ldm.elim [] fun line => line.text ++ ['\n']) ++ w.lines b ++ w.closing.text)

/-- A bulletin as it is conditioned. -/
def Wrapping.conditioned (w : Wrapping) (b : Bulletin) : Str :=
  (w.ldm.getD .inserted).text ++ '\n' :: w.lines b ++ ['\n']

variable {b : Bulletin} {w : Wrapping} {s : Str} {c : Char}

/-! ## Characters -/

theorem isAlphanum_of_isCapitalOrDigit (h : isCapitalOrDigit c = true) : c.isAlphanum = true := by
  rcases Bool.or_eq_true_iff.mp h with h | h
  · exact Str.isAlphanum_of_isUpper h
  · exact Str.isAlphanum_of_isDigit h

/-- Capital letters and digits make a word. -/
theorem isWord_of_capitals (hlength : 4 ≤ s.length) (h : s.all isCapitalOrDigit = true) :
    Str.IsWord s := by
  refine ⟨List.ne_nil_of_length_pos (by omega), fun c hc => ?_⟩
  exact Str.isWhitespace_of_isAlphanum (isAlphanum_of_isCapitalOrDigit (List.all_eq_true.mp h c hc))

theorem byteLen_of_capitals (h : s.all isCapitalOrDigit = true) : Str.byteLen s = s.length :=
  Str.byteLen_of_ascii (Str.isAscii_of_isAlphanum (List.all_eq_true.mpr fun c hc =>
    isAlphanum_of_isCapitalOrDigit (List.all_eq_true.mp h c hc)))

theorem all_isCapitalOrDigit_of_isUpper (h : s.all Char.isUpper = true) :
    s.all isCapitalOrDigit = true :=
  List.all_eq_true.mpr fun c hc => by rw [isCapitalOrDigit, List.all_eq_true.mp h c hc,
    Bool.true_or]

/-- A marker of a correction is three capital letters. -/
theorem capitals_of_isValidBbb (h : isValidBbb s = true) :
    s ≠ [] ∧ s.all isCapitalOrDigit = true := by
  unfold isValidBbb at h
  split at h
  · next a b c =>
      simp only [Bool.and_eq_true, decide_eq_true_eq] at h
      obtain ⟨⟨ha, hb⟩, hc⟩ := h
      have hfirst : ∀ x ∈ ['A', 'C', 'R'], isCapitalOrDigit x = true := by decide
      have hsecond : ∀ x ∈ ['A', 'C', 'M', 'O', 'R', 'T'], isCapitalOrDigit x = true := by decide
      have hthird : isCapitalOrDigit c = true := by rw [isCapitalOrDigit, hc, Bool.true_or]
      simp [hfirst a ha, hsecond b hb, hthird]
  · cases h

/-! ## Headings -/

theorem Heading.isDigit_ddhhmm (h : Heading) : ∀ c ∈ h.ddhhmm, c.isDigit = true := by
  intro c hc
  rcases List.mem_append.mp hc with hc | hc
  · rcases List.mem_append.mp hc with hc | hc <;> exact Str.isDigit_of_mem_padded hc
  · exact Str.isDigit_of_mem_padded hc

/-- The fields of a time are read. -/
theorem Heading.isValidDdhhmm (h : Heading) : isValidDdhhmm h.ddhhmm = true := by
  obtain ⟨hfirst, hlast⟩ := h.isDay
  have hhour := h.isHour
  have hminute := h.isMinute
  have hparse : ∀ n < 100, Str.parseUnsigned 4294967295 (padded 2 n) = some n := fun n hn =>
    Str.parseUnsigned_padded (by omega)
  have hdays : Str.byteLen (padded 2 h.day) = 2 := Str.byteLen_two (by omega)
  have htwo : Str.byteLen (padded 2 h.day ++ padded 2 h.hour) = 4 := by
    rw [Str.byteLen_append, hdays, Str.byteLen_two (by omega)]
  have hsix : Str.byteLen h.ddhhmm = 6 := by
    rw [Heading.ddhhmm, Str.byteLen_append, htwo, Str.byteLen_two (by omega)]
  have hday : Str.slice 0 2 h.ddhhmm = some (padded 2 h.day) := by
    have hslice := Str.slice_two [] (i := 0) (n := h.day) rfl (by omega)
      (padded 2 h.hour ++ padded 2 h.minute)
    rwa [List.nil_append, ← List.append_assoc] at hslice
  have hhours : Str.slice 2 4 h.ddhhmm = some (padded 2 h.hour) :=
    Str.slice_two (padded 2 h.day) hdays (by omega) (padded 2 h.minute)
  have hminutes : Str.slice 4 6 h.ddhhmm = some (padded 2 h.minute) := by
    have hslice := Str.slice_two (padded 2 h.day ++ padded 2 h.hour) (n := h.minute) htwo
      (by omega) []
    rwa [List.append_nil] at hslice
  rw [Header.isValidDdhhmm, if_neg (by rw [hsix, List.all_eq_true.mpr h.isDigit_ddhhmm]; simp)]
  simp [hday, hhours, hminutes, hparse h.day (by omega), hparse h.hour (by omega),
    hparse h.minute (by omega), hfirst, hlast, hhour, hminute]

theorem Heading.isWord_words (h : Heading) : ∀ word ∈ h.words, Str.IsWord word := by
  have hcccc := isWord_of_capitals (by rw [h.isCccc.1]) (all_isCapitalOrDigit_of_isUpper h.isCccc.2)
  have htime : Str.IsWord h.ddhhmm := by
    refine ⟨List.append_ne_nil_of_right_ne_nil _ Str.padded_ne_nil, fun c hc => ?_⟩
    exact Str.isWhitespace_of_isDigit (h.isDigit_ddhhmm c hc)
  have hmarker : ∀ marker ∈ h.bbb.toList, Str.IsWord marker := by
    intro marker hmarker
    obtain ⟨hne, hall⟩ := capitals_of_isValidBbb
      ((Option.all_eq_true _ _).mp h.isBbb marker (Option.mem_toList.mp hmarker))
    exact ⟨hne, fun c hc => Str.isWhitespace_of_isAlphanum
      (isAlphanum_of_isCapitalOrDigit (List.all_eq_true.mp hall c hc))⟩
  intro word hword
  rcases List.mem_append.mp hword with hword | hword
  · simp only [List.mem_cons, List.not_mem_nil, or_false] at hword
    rcases hword with rfl | rfl | rfl
    · exact isWord_of_capitals h.isTtaaii.1.1 h.isTtaaii.2
    · exact hcccc
    · exact htime
  · exact hmarker word hword

/-- **Headings.**  A heading is read, with any spaces behind it. -/
theorem Wrapping.parseWmoLine_headingLine (w : Wrapping) (b : Bulletin) :
    parseWmoLine (w.headingLine b) = some b.heading.header := by
  have hsplit : Str.splitWhitespace (Str.trim (w.headingLine b)) = b.heading.words := by
    rw [Str.splitWhitespace_trim, Wrapping.headingLine, Str.splitWhitespace_append_spaces,
      Str.splitWhitespace_unwords b.heading.isWord_words]
    intro c hc
    rw [(List.mem_replicate.mp hc).2]
    rfl
  have httaaii := b.heading.isTtaaii
  have hcccc := b.heading.isCccc
  have hbytes := byteLen_of_capitals httaaii.2
  have hfour := byteLen_of_capitals (all_isCapitalOrDigit_of_isUpper hcccc.2)
  have hbbb := b.heading.isBbb
  unfold parseWmoLine
  rw [hsplit, Heading.words, Heading.header]
  cases hmarker : b.heading.bbb with
  | none =>
      exact if_pos ⟨by rw [hbytes]; exact httaaii.1, httaaii.2, by rw [hfour, hcccc.1], hcccc.2,
        b.heading.isValidDdhhmm, rfl⟩
  | some marker =>
      rw [hmarker] at hbbb
      exact if_pos ⟨by rw [hbytes]; exact httaaii.1, httaaii.2, by rw [hfour, hcccc.1], hcccc.2,
        b.heading.isValidDdhhmm, hbbb⟩

/-- **Product identifiers.**  An identifier is read, with any blanks behind it. -/
theorem Wrapping.parseAfosLine_blanks (w : Wrapping) (b : Bulletin) :
    parseAfosLine (b.afos ++ w.afosBlanks) = some b.afos := by
  have hall := b.isAfos.2
  have htrimmed : Str.trimEndMatches [' ', '\t'] (b.afos ++ w.afosBlanks) = b.afos := by
    refine Str.trimEndMatches_append w.isBlank fun c hc hblank => ?_
    have hcapital := List.all_eq_true.mp hall c (List.mem_of_getLast? hc)
    simp only [List.mem_cons, List.not_mem_nil, or_false] at hblank
    rcases hblank with rfl | rfl <;> exact absurd hcapital (by decide)
  rw [parseAfosLine, htrimmed]
  exact if_pos ⟨by rw [byteLen_of_capitals hall]; exact b.isAfos.1, hall⟩

/-! ## Layout -/

/-- The body stands behind its lines. -/
theorem bodyAfterLines_append (n : ℕ) {line : Str} (h : '\n' ∉ line) (t : Str) :
    bodyAfterLines (n + 1) (line ++ '\n' :: t) = bodyAfterLines n t := by
  induction line with
  | nil => rw [List.nil_append, bodyAfterLines, if_pos rfl]
  | cons c line ih =>
      have hc : c ≠ '\n' := fun he => h (he ▸ List.mem_cons_self)
      rw [List.cons_append, bodyAfterLines, if_neg hc]
      exact ih fun hmem => h (List.mem_cons_of_mem _ hmem)

/-- What has neither line feeds nor what is removed. -/
def IsLine (line : Str) : Prop := '\n' ∉ line ∧ '\r' ∉ line

theorem isLine_append {s t : Str} (hs : IsLine s) (ht : IsLine t) : IsLine (s ++ t) := by
  simp [IsLine, hs.1, hs.2, ht.1, ht.2]

theorem isLine_of_visible (h : ∀ c ∈ s, Str.isWhitespace c = false) : IsLine s :=
  ⟨fun hc => absurd (h _ hc) (by decide), fun hc => absurd (h _ hc) (by decide)⟩

theorem isLine_of_blanks (h : ∀ c ∈ s, c ∈ [' ', '\t']) : IsLine s :=
  ⟨fun hc => absurd (h _ hc) (by decide), fun hc => absurd (h _ hc) (by decide)⟩

theorem LdmLine.isLine (line : LdmLine) : IsLine line.text := by
  refine isLine_append
    (isLine_of_visible fun c hc => Str.isWhitespace_of_isDigit (line.isNumber.2 c hc)) ?_
  split
  · exact isLine_of_blanks (by decide)
  · exact isLine_of_blanks nofun

theorem Wrapping.isLine_headingLine (w : Wrapping) (b : Bulletin) : IsLine (w.headingLine b) := by
  refine isLine_append ?_ (isLine_of_blanks fun c hc => by simp [(List.mem_replicate.mp hc).2])
  have hwords := b.heading.isWord_words
  generalize b.heading.words = words at hwords
  induction words with
  | nil => exact isLine_of_blanks nofun
  | cons word words ih =>
      obtain ⟨hword, hrest⟩ := List.forall_mem_cons.mp hwords
      by_cases hnil : words = []
      · rw [hnil, Str.unwords_singleton]
        exact isLine_of_visible hword.2
      · rw [Str.unwords_cons word hnil]
        exact isLine_append (isLine_of_visible hword.2)
          (isLine_append (s := [' ']) (isLine_of_blanks (by decide)) (ih hrest))

theorem Wrapping.isLine_afosLine (w : Wrapping) (b : Bulletin) :
    IsLine (b.afos ++ w.afosBlanks) := by
  refine isLine_append (isLine_of_visible fun c hc => ?_) (isLine_of_blanks w.isBlank)
  exact Str.isWhitespace_of_isAlphanum
    (isAlphanum_of_isCapitalOrDigit (List.all_eq_true.mp b.isAfos.2 c hc))

/-- **Layout.**  Behind a sequence number the heading is in the second line and the identifier in
the third, and the body is behind them. -/
theorem Wrapping.lines_layout (w : Wrapping) (b : Bulletin) (line : LdmLine) (behind : Str) :
    nthLine (line.text ++ '\n' :: w.lines b ++ behind) 1 = some (w.headingLine b) ∧
      nthLine (line.text ++ '\n' :: w.lines b ++ behind) 2 = some (b.afos ++ w.afosBlanks) ∧
      bodyAfterLines 3 (line.text ++ '\n' :: w.lines b ++ behind) = b.body ++ behind := by
  obtain ⟨hldm, hldm'⟩ := line.isLine
  obtain ⟨hheading, hheading'⟩ := w.isLine_headingLine b
  obtain ⟨hafos, hafos'⟩ := w.isLine_afosLine b
  have htext : line.text ++ '\n' :: w.lines b ++ behind = line.text ++ '\n' :: (w.headingLine b ++
      '\n' :: (b.afos ++ w.afosBlanks ++ '\n' :: (b.body ++ behind))) := by
    simp [Wrapping.lines]
  rw [htext, nthLine, nthLine, Str.lines_cons hldm hldm', Str.lines_cons hheading hheading',
    Str.lines_cons hafos hafos']
  refine ⟨rfl, rfl, ?_⟩
  rw [bodyAfterLines_append _ hldm, bodyAfterLines_append _ hheading, bodyAfterLines_append _ hafos,
    bodyAfterLines]

/-! ## Conditioning -/

/-- A bulletin begins with four capital letters or digits. -/
theorem Wrapping.exists_lines (w : Wrapping) (b : Bulletin) : ∃ x y z c rest,
    w.lines b = x :: y :: z :: c :: rest ∧ isCapitalOrDigit x = true ∧
      isCapitalOrDigit c = true := by
  obtain ⟨⟨hfour, -⟩, hall⟩ := b.heading.isTtaaii
  have hunwords : Str.unwords b.heading.words =
      b.heading.ttaaii ++ ' ' :: Str.unwords (b.heading.words.tail) :=
    Str.unwords_cons _ (by simp)
  rw [Wrapping.lines, Wrapping.headingLine, hunwords]
  rcases hword : b.heading.ttaaii with _ | ⟨x, _ | ⟨y, _ | ⟨z, _ | ⟨c, rest⟩⟩⟩⟩
  · simp [hword] at hfour
  · simp [hword] at hfour
  · simp [hword] at hfour
  · simp [hword] at hfour
  · rw [hword] at hall
    exact ⟨x, y, z, c, _, rfl, List.all_eq_true.mp hall x (by simp),
      List.all_eq_true.mp hall c (by simp)⟩

/-- A sequence number is seen in front of the bulletin. -/
theorem LdmLine.hasLdmSequence_text (line : LdmLine) (t : Str) :
    hasLdmSequence (line.text ++ '\n' :: t) = true := by
  obtain ⟨digits, space, hlength, hdigits⟩ := line
  obtain ⟨x, y, z, rfl⟩ := List.length_eq_three.mp hlength
  have hx := hdigits x (by simp)
  have hy := hdigits y (by simp)
  have hz := hdigits z (by simp)
  cases space <;> simp [LdmLine.text, hasLdmSequence, hx, hy, hz]

/-- A heading is not taken for a sequence number. -/
theorem Wrapping.hasLdmSequence_lines (w : Wrapping) (b : Bulletin) (t : Str) :
    hasLdmSequence (w.lines b ++ t) = false := by
  obtain ⟨x, y, z, c, rest, hlines, -, hc⟩ := w.exists_lines b
  have hblank : c ∉ [' ', '\n'] := by
    simp only [List.mem_cons, List.not_mem_nil, or_false]
    rintro (rfl | rfl) <;> exact absurd hc (by decide)
  simp [hlines, hasLdmSequence, hblank]

/-- The sequence number, where there is one, and the bulletin. -/
def Wrapping.core (w : Wrapping) (b : Bulletin) : Str :=
  (w.ldm.elim [] fun line => line.text ++ ['\n']) ++ w.lines b

/-- Neither white space nor the start of a heading stands in front. -/
theorem Wrapping.exists_core (w : Wrapping) (b : Bulletin) : ∃ x rest, w.core b = x :: rest ∧
    Str.isWhitespace x = false ∧ x ≠ '\x01' := by
  unfold Wrapping.core
  cases w.ldm with
  | none =>
      obtain ⟨x, y, z, c, rest, hlines, hx, -⟩ := w.exists_lines b
      refine ⟨x, _, hlines,
        Str.isWhitespace_of_isAlphanum (isAlphanum_of_isCapitalOrDigit hx), ?_⟩
      rintro rfl
      exact absurd hx (by decide)
  | some line =>
      obtain ⟨x, rest, hdigits⟩ := List.exists_cons_of_length_pos
        (show 0 < line.digits.length by rw [line.isNumber.1]; decide)
      have hx : x.isDigit = true := line.isNumber.2 x (hdigits ▸ List.mem_cons_self)
      refine ⟨x, _, by rw [Option.elim_some, LdmLine.text, hdigits]; rfl,
        Str.isWhitespace_of_isDigit hx, ?_⟩
      rintro rfl
      exact absurd hx (by decide)

/-- Neither white space nor an end of text stands at the end. -/
theorem Wrapping.getLast_core (w : Wrapping) (b : Bulletin) :
    ∃ last, (w.core b).getLast? = some last ∧
    Str.isWhitespace last = false ∧ last ≠ '\x03' := by
  obtain ⟨last, hlast, hbody⟩ := b.isBody
  refine ⟨last, ?_, hbody⟩
  obtain ⟨front, hfront⟩ := List.getLast?_eq_some_iff.mp hlast
  have hcore : w.core b = (w.ldm.elim [] fun line => line.text ++ ['\n']) ++ (w.headingLine b ++
      '\n' :: (b.afos ++ w.afosBlanks ++ '\n' :: front)) ++ [last] := by
    simp [Wrapping.core, Wrapping.lines, hfront]
  rw [hcore, List.getLast?_concat]

/-- With a sequence number in front, a bulletin is conditioned by a line feed at its end. -/
theorem Wrapping.insert_ldm (w : Wrapping) (b : Bulletin) (t : Str) :
    (if hasLdmSequence (w.core b ++ t) then w.core b ++ t else "000 \n".toList ++ (w.core b ++ t)) =
      (w.ldm.getD .inserted).text ++ '\n' :: w.lines b ++ t := by
  unfold Wrapping.core
  cases w.ldm with
  | none =>
      rw [Option.elim_none, List.nil_append, w.hasLdmSequence_lines, Option.getD_none]
      simp [LdmLine.inserted, LdmLine.text]
  | some line =>
      have htext : line.text ++ ['\n'] ++ w.lines b ++ t =
          line.text ++ '\n' :: (w.lines b ++ t) := by
        simp
      rw [Option.elim_some, htext, line.hasLdmSequence_text, if_pos rfl, Option.getD_some]
      simp

/-- What is left of an opening behind `trim`. -/
def Opening.line : Opening → Str
  | .feeds _ => []
  | .soh line _ => '\x01' :: line ++ ['\n']

/-- What is left of a closing behind `trim`. -/
def Closing.line : Closing → Str
  | .feeds _ => []
  | .etx => ['\x03']
  | .feedEtx => ['\n', '\x03']

/-- **Trimming.**  The line feeds around a bulletin are removed. -/
theorem Wrapping.trim_wrap (w : Wrapping) (b : Bulletin) :
    Str.trim (w.wrap b) = w.opening.line ++ (w.core b ++ w.closing.line) := by
  obtain ⟨x, rest, hcore, hx, -⟩ := w.exists_core b
  obtain ⟨last, hlast, hvisible, -⟩ := w.getLast_core b
  have hfeeds : ∀ n, ∀ c ∈ List.replicate n '\n', Str.isWhitespace c = true := by
    intro n c hc
    rw [(List.mem_replicate.mp hc).2]
    rfl
  have hwrap : w.wrap b = w.opening.text ++ (w.core b ++ w.closing.text) := by
    simp [Wrapping.wrap, Wrapping.core]
  -- what is kept begins and ends with what is not white space
  have hself : Str.trim (w.opening.line ++ (w.core b ++ w.closing.line)) =
      w.opening.line ++ (w.core b ++ w.closing.line) := by
    refine Str.trim_eq_self (fun c hc => ?_) (fun c hc => ?_)
    · cases hopening : w.opening with
      | feeds count =>
          rw [hopening, Opening.line, List.nil_append, hcore, List.cons_append, List.head?_cons,
            Option.mem_some_iff] at hc
          rwa [← hc]
      | soh line isLine =>
          obtain rfl : '\x01' = c := by simpa [hopening, Opening.line] using hc
          rfl
    · cases hclosing : w.closing with
      | feeds count =>
          obtain ⟨front, hfront⟩ := List.getLast?_eq_some_iff.mp hlast
          rw [hclosing, Closing.line, List.append_nil, hfront, ← List.append_assoc,
            List.getLast?_concat, Option.mem_some_iff] at hc
          rwa [← hc]
      | etx =>
          rw [hclosing, Closing.line, ← List.append_assoc, List.getLast?_concat,
            Option.mem_some_iff] at hc
          rw [← hc]
          rfl
      | feedEtx =>
          rw [hclosing] at hc
          have hclosing : w.opening.line ++ (w.core b ++ Closing.feedEtx.line) =
              w.opening.line ++ (w.core b ++ ['\n']) ++ ['\x03'] := by simp [Closing.line]
          rw [hclosing, List.getLast?_concat, Option.mem_some_iff] at hc
          rw [← hc]
          rfl
  have hopening : ∃ v, w.opening.text = v ++ w.opening.line ∧
      ∀ c ∈ v, Str.isWhitespace c = true := by
    cases w.opening with
    | feeds count => exact ⟨_, (List.append_nil _).symm, hfeeds count⟩
    | soh line isLine => exact ⟨[], rfl, nofun⟩
  have hclosing : ∃ v, w.closing.text = w.closing.line ++ v ∧
      ∀ c ∈ v, Str.isWhitespace c = true := by
    cases w.closing with
    | feeds count => exact ⟨_, rfl, hfeeds count⟩
    | etx | feedEtx => exact ⟨[], rfl, nofun⟩
  obtain ⟨front, hfront, hfrontSpaces⟩ := hopening
  obtain ⟨behind, hbehind, hbehindSpaces⟩ := hclosing
  have hsplit : w.wrap b =
      front ++ (w.opening.line ++ (w.core b ++ w.closing.line) ++ behind) := by
    rw [hwrap, hfront, hbehind]
    simp
  rw [hsplit, Str.trim_spaces_append hfrontSpaces, Str.trim_append_spaces _ hbehindSpaces, hself]

/-- **Opening.**  The line that begins with the start of a heading is removed. -/
theorem Wrapping.removeSoh_line (w : Wrapping) (b : Bulletin) (t : Str) :
    removeSoh (w.opening.line ++ (w.core b ++ t)) = w.core b ++ t := by
  obtain ⟨x, rest, hcore, -, hx⟩ := w.exists_core b
  cases w.opening with
  | feeds count =>
      rw [Opening.line, List.nil_append, hcore, List.cons_append, removeSoh, List.head?_cons,
        if_neg fun h => hx (Option.some.inj h)]
  | soh line isLine =>
      have hline : Opening.line (.soh line isLine) ++ (w.core b ++ t) =
          ('\x01' :: line) ++ '\n' :: (w.core b ++ t) := by simp [Opening.line]
      have hnotMem : '\n' ∉ '\x01' :: line := by simp [isLine]
      have hhead : ('\x01' :: line ++ '\n' :: (w.core b ++ t)).head? = some '\x01' := rfl
      rw [hline, removeSoh, if_pos hhead, Str.splitOnce_append hnotMem]
      rfl

/-- **Closing.**  The end of text is removed, and a line feed may be left. -/
theorem Wrapping.exists_removeEtx (w : Wrapping) (b : Bulletin) : ∃ t,
    removeEtx (w.core b ++ w.closing.line) = w.core b ++ t ∧ (t = [] ∨ t = ['\n']) := by
  obtain ⟨last, hlast, -, hetx⟩ := w.getLast_core b
  cases w.closing with
  | feeds count =>
      refine ⟨[], ?_, Or.inl rfl⟩
      rw [Closing.line, List.append_nil, removeEtx, hlast, if_neg fun h => hetx (Option.some.inj h)]
  | etx =>
      refine ⟨[], ?_, Or.inl rfl⟩
      rw [Closing.line, removeEtx, List.getLast?_concat, if_pos rfl, List.dropLast_concat,
        List.append_nil]
  | feedEtx =>
      refine ⟨['\n'], ?_, Or.inr rfl⟩
      have hline : w.core b ++ Closing.feedEtx.line = w.core b ++ ['\n'] ++ ['\x03'] := by
        simp [Closing.line]
      rw [hline, removeEtx, List.getLast?_concat, if_pos rfl, List.dropLast_concat]

/-- **Conditioning.**  Whatever a bulletin is wrapped in, its lines are left. -/
theorem Wrapping.conditionText_wrap (w : Wrapping) (b : Bulletin) {raw : Str}
    (hraw : raw.filter isKept = w.wrap b) : conditionText raw = .ok (w.conditioned b) := by
  obtain ⟨x, rest, hcore, -, -⟩ := w.exists_core b
  obtain ⟨t, ht, hfeed⟩ := w.exists_removeEtx b
  obtain ⟨last, hlast, hvisible, -⟩ := w.getLast_core b
  have hnonempty : w.opening.line ++ (w.core b ++ w.closing.line) ≠ [] := by
    simp [hcore]
  obtain ⟨hheading, -, -⟩ := w.lines_layout b (w.ldm.getD .inserted) t
  rw [conditionText, hraw, w.trim_wrap, if_neg hnonempty, w.removeSoh_line, ht]
  simp only [w.insert_ldm, hheading, w.parseWmoLine_headingLine, Option.isNone_some,
    Bool.false_eq_true, if_false]
  refine congrArg Except.ok ?_
  -- a line feed is added if the end of text left none
  rcases hfeed with rfl | rfl
  · obtain ⟨last, hlast, hvisible, -⟩ := b.isBody
    obtain ⟨front, hfront⟩ := List.getLast?_eq_some_iff.mp hlast
    have hend : ((w.ldm.getD .inserted).text ++ '\n' :: w.lines b ++ []).getLast? = some last := by
      have hconcat : (w.ldm.getD .inserted).text ++ '\n' :: w.lines b ++ [] =
          (w.ldm.getD .inserted).text ++ '\n' :: (w.headingLine b ++
            '\n' :: (b.afos ++ w.afosBlanks ++ '\n' :: front)) ++ [last] := by
        simp [Wrapping.lines, hfront]
      rw [hconcat, List.getLast?_concat]
    have hne : some last ≠ some '\n' := by
      rintro ⟨⟩
      exact absurd hvisible (by decide)
    rw [hend, if_neg hne, List.append_nil]
    rfl
  · rw [List.getLast?_concat, if_pos rfl]
    rfl

/-- The wrapping that a conditioned bulletin has. -/
def Wrapping.inner (w : Wrapping) : Wrapping :=
  { w with opening := .feeds 0, ldm := some (w.ldm.getD .inserted), closing := .feeds 1 }

theorem Wrapping.wrap_inner (w : Wrapping) (b : Bulletin) : w.inner.wrap b = w.conditioned b := by
  simp [Wrapping.wrap, Wrapping.inner, Wrapping.conditioned, Opening.text, Closing.text,
    Wrapping.lines, Wrapping.headingLine]

/-- Nothing is removed from a bulletin that has been conditioned. -/
theorem Wrapping.isKept_conditioned (w : Wrapping) (b : Bulletin) {raw : Str}
    (hraw : raw.filter isKept = w.wrap b) : (w.conditioned b).filter isKept = w.conditioned b := by
  have hkept : ∀ c ∈ w.wrap b, isKept c = true := fun c hc => by
    rw [← hraw] at hc
    exact (List.mem_filter.mp hc).2
  have hldm : ∀ c ∈ (w.ldm.getD .inserted).text, isKept c = true := by
    intro c hc
    rcases List.mem_append.mp hc with hc | hc
    · have hdigit := (w.ldm.getD .inserted).isNumber.2 c hc
      rw [isKept, decide_eq_true (Str.ne_of_isDigit hdigit (by decide)),
        decide_eq_true (Str.ne_of_isDigit hdigit (by decide))]
      rfl
    · split at hc
      · rw [List.mem_singleton.mp hc]
        rfl
      · cases hc
  rw [List.filter_eq_self]
  intro c hc
  rcases List.mem_append.mp hc with hc | hc
  · rcases List.mem_append.mp hc with hc | hc
    · exact hldm c hc
    · rcases List.mem_cons.mp hc with rfl | hc
      · rfl
      · refine hkept c ?_
        simp [Wrapping.wrap, hc]
  · rw [List.mem_singleton.mp hc]
    rfl

/-- A product as it is read. -/
def Bulletin.product (b : Bulletin) (text : Str) : ParsedTextProduct where
  header := ⟨b.heading.ttaaii, b.heading.cccc, b.heading.ddhhmm, b.heading.bbb, b.afos⟩
  conditionedText := text
  bodyText := b.body ++ ['\n']

/-- A bulletin that has been conditioned is read. -/
theorem Wrapping.parse_conditioned (w : Wrapping) (b : Bulletin) :
    parseTextProductConditionedRef (w.conditioned b) = .ok (b.product (w.conditioned b)) := by
  obtain ⟨hheading, hafos, hbody⟩ := w.lines_layout b (w.ldm.getD .inserted) ['\n']
  have hwmo : parseWmo (w.conditioned b) = .ok b.heading.header := by
    rw [parseWmo, Wrapping.conditioned, hheading]
    simp only [w.parseWmoLine_headingLine]
  have hcode : parseAfos (w.conditioned b) = .ok b.afos := by
    rw [parseAfos, Wrapping.conditioned, hafos]
    simp only [w.parseAfosLine_blanks]
  have htext : bodyAfterLines 3 (w.conditioned b) = b.body ++ ['\n'] := hbody
  rw [parseTextProductConditionedRef, parseWmoBulletinConditionedRef, hwmo, hcode, htext]
  rfl

/-- **Transport wrapping.**  A bulletin is conditioned and read the same, whatever it is wrapped in,
and what has been conditioned is not changed again. -/
theorem wrapping_is_removed (w : Wrapping) (b : Bulletin) (raw : Str)
    (hraw : raw.filter isKept = w.wrap b) : ∃ text parsed,
      conditionTextBytes (Utf8.encode raw) = .ok text ∧
      parseTextProductConditionedRef text = .ok parsed ∧
      parsed.header =
        ⟨b.heading.ttaaii, b.heading.cccc, b.heading.ddhhmm, b.heading.bbb, b.afos⟩ ∧
      parsed.header.toOwned =
        ⟨if b.heading.ttaaii.length = 4 then b.heading.ttaaii ++ "00".toList else b.heading.ttaaii,
          b.heading.cccc, b.heading.ddhhmm, b.heading.bbb, b.afos⟩ ∧
      parsed.bodyText = b.body ++ ['\n'] ∧
      conditionTextBytes (Utf8.encode text) = .ok text := by
  refine ⟨w.conditioned b, b.product (w.conditioned b), ?_, w.parse_conditioned b, rfl, ?_, rfl, ?_⟩
  · rw [conditionTextBytes, Utf8.decodeLossy_encode, w.conditionText_wrap b hraw]
  · rw [TextProductHeader.toOwned, Bulletin.product, normalizeTtaaii,
      byteLen_of_capitals b.heading.isTtaaii.2]
  -- a conditioned bulletin is itself a wrapped one
  · have hwrapped : (w.conditioned b).filter isKept = w.inner.wrap b := by
      rw [w.isKept_conditioned b hraw, w.wrap_inner]
    have hinner := w.inner.conditionText_wrap b hwrapped
    rw [conditionTextBytes, Utf8.decodeLossy_encode, hinner]
    rfl

/-- A bulletin of an office, with a heading of four characters. -/
def sampleBulletin : Bulletin where
  heading := ⟨"ABCD".toList, "KBOX".toList, 2, 21, 1, some "COR".toList, by decide, by decide,
    by decide, by decide, by decide, by decide⟩
  afos := "AFDBOX".toList
  body := "BODY\n\nMORE".toList
  isAfos := by decide
  isBody := ⟨'E', by decide, by decide, by decide⟩

/-- A bulletin behind the start of a heading, with line ends of two characters and an end of text.
-/
theorem wrapping_is_removed_soh : ∃ text parsed,
    conditionTextBytes (Utf8.encode
      "\x01123\r\nABCD KBOX 022101 COR \r\nAFD\x00BOX\t\r\nBODY\r\n\r\nMORE\r\n\x03".toList) =
        .ok text ∧
    parseTextProductConditionedRef text = .ok parsed ∧
    parsed.header.toOwned.ttaaii = "ABCD00".toList ∧ parsed.bodyText = "BODY\n\nMORE\n".toList := by
  obtain ⟨text, parsed, htext, hparsed, -, howned, hbody, -⟩ := wrapping_is_removed
    ⟨.soh "123".toList (by decide), none, 1, ['\t'], .feedEtx, by decide⟩ sampleBulletin
    "\x01123\r\nABCD KBOX 022101 COR \r\nAFD\x00BOX\t\r\nBODY\r\n\r\nMORE\r\n\x03".toList
    (by decide)
  exact ⟨text, parsed, htext, hparsed, by rw [howned]; decide, hbody⟩

end Parser.Header
