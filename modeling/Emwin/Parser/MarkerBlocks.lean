/-
# Blocks behind a marker

A marker is ASCII, so the bytes in front of it and behind it end at characters, and carriage
returns are no part of it.  A block ends in front of a blank line.
-/
import Emwin.Lib.Words
import Emwin.Parser.Support

namespace Parser

/-! ## Where a marker stands -/

/-- Case does not change whether a byte is ASCII. -/
theorem lt_of_byteToLower_eq {b c : UInt8} (h : byteToLower b = byteToLower c)
    (hc : c.toNat < 128) : b.toNat < 128 := by
  unfold byteToLower at h
  split_ifs at h with hb hc' <;> simp_all [UInt8.le_iff_toNat_le, UInt8.ext_iff] <;> omega

/-- A carriage return is the lower case of nothing else. -/
theorem byteToLower_return {b : UInt8} (h : byteToLower b = 13) : b = 13 := by
  unfold byteToLower at h
  split_ifs at h with hb
  · simp [UInt8.le_iff_toNat_le, UInt8.ext_iff] at hb h
    omega
  · exact h

/-- The window that was found. -/
theorem window_of_windowPosition {needle bs : List UInt8} {n : ℕ}
    (h : windowPosition needle bs = some n) :
    ((bs.drop n).take needle.length).map byteToLower = needle.map byteToLower := by
  induction bs generalizing n with
  | nil => cases h
  | cons b bs ih =>
      rw [windowPosition] at h
      split_ifs at h with hwindow
      · obtain rfl : 0 = n := Option.some.inj h
        exact hwindow
      · obtain ⟨m, hm, rfl⟩ := Option.map_eq_some_iff.mp h
        exact ih hm

/-- A carriage return at the end is not part of any window. -/
theorem windowPosition_append_return {needle : List UInt8} (hne : needle ≠ [])
    (hneedle : ∀ b ∈ needle, b ≠ 13) (bs : List UInt8) :
    windowPosition needle (bs ++ [13]) = windowPosition needle bs := by
  have hnot : (13 : UInt8) ∉ needle.map byteToLower := by
    intro h
    obtain ⟨b, hb, hlower⟩ := List.mem_map.mp h
    exact hneedle b hb (byteToLower_return hlower)
  have hpos : 0 < needle.length := List.length_pos_iff.mpr hne
  -- a window that reaches the end has the carriage return, or is too short without it
  have hwindow : ∀ cs : List UInt8,
      ((cs ++ [13]).take needle.length).map byteToLower = needle.map byteToLower ↔
        (cs.take needle.length).map byteToLower = needle.map byteToLower := by
    intro cs
    rcases Nat.lt_or_ge cs.length needle.length with hlt | hge
    · refine iff_of_false (fun h => hnot ?_) fun h => ?_
      · rw [← h, List.take_of_length_le (by simpa using Nat.succ_le_of_lt hlt)]
        simp [byteToLower]
      · have := congrArg List.length h
        simp at this
        omega
    · rw [List.take_append_of_le_length hge]
  induction bs with
  | nil =>
      have h := hwindow []
      have hshort : ([] : List UInt8) ≠ needle.map byteToLower := by simpa using hne
      rw [List.nil_append, windowPosition, windowPosition, if_neg]
      · rfl
      · intro heq
        exact hshort (by simpa using h.mp heq)
  | cons b bs ih =>
      rw [List.cons_append, windowPosition, windowPosition, ih]
      have := hwindow (b :: bs)
      rw [List.cons_append] at this
      simp only [this]

/-- The bytes that were found are those of the needle, in some case. -/
theorem byteAt_of_find {needle line : Str} {n : ℕ}
    (h : asciiFindCaseInsensitive line needle = some n) {i : ℕ} {b : UInt8}
    (hb : Str.byteAt i needle = some b) :
    ∃ a, Str.byteAt (n + i) line = some a ∧ byteToLower a = byteToLower b := by
  have hne : needle ≠ [] := by
    rintro rfl
    cases hb
  have hi : i < (Utf8.encode needle).length := (List.getElem?_eq_some_iff.mp hb).1
  rw [asciiFindCaseInsensitive, if_neg hne] at h
  have hwindow := congrArg (·[i]?) (window_of_windowPosition h)
  rw [Str.byteAt] at hb
  rw [List.getElem?_map, List.getElem?_take_of_lt hi, List.getElem?_drop, List.getElem?_map, hb,
    Option.map_some] at hwindow
  exact Option.map_eq_some_iff.mp hwindow

/-- What begins with an ASCII character is found between characters. -/
theorem exists_append_of_find {needle line : Str} {n : ℕ}
    (h : asciiFindCaseInsensitive line needle = some n) {b : UInt8}
    (hb : Str.byteAt 0 needle = some b) (hascii : b.toNat < 128) :
    ∃ front behind, line = front ++ behind ∧ Str.byteLen front = n := by
  obtain ⟨a, ha, hlower⟩ := byteAt_of_find h hb
  obtain ⟨front, c, behind, rfl, hfront, -⟩ :=
    Str.exists_append_of_byteAt ha (lt_of_byteToLower_eq hlower hascii)
  exact ⟨front, c :: behind, rfl, hfront⟩

variable (rules : MarkerRules)

theorem MarkerRules.marker_bytes_ne_nil : Utf8.encode rules.marker ≠ [] := by
  obtain ⟨c, s, hs⟩ := List.exists_cons_of_ne_nil rules.marker_ne_nil
  obtain ⟨a, l, hc, -, -⟩ := Utf8.utf8EncodeChar_eq_lead_cons c
  simp [hs, hc]

/-- A carriage return at the end hides no marker and shows none. -/
theorem MarkerRules.find_append_return (line : Str) :
    asciiFindCaseInsensitive (line ++ ['\r']) rules.marker =
      asciiFindCaseInsensitive line rules.marker := by
  have hreturn : Utf8.encode ['\r'] = [13] := by decide
  rw [asciiFindCaseInsensitive, asciiFindCaseInsensitive, if_neg rules.marker_ne_nil,
    if_neg rules.marker_ne_nil, Utf8.encode_append, hreturn]
  refine windowPosition_append_return rules.marker_bytes_ne_nil ?_ _
  rintro b hb rfl
  exact absurd (rules.marker_visible _ hb).1 (by decide)

/-- A marker has bytes, all of them ASCII. -/
theorem MarkerRules.exists_byteAt {i : ℕ} (hi : i < Str.byteLen rules.marker) :
    ∃ b, Str.byteAt i rules.marker = some b ∧ b.toNat < 128 := by
  rw [← Str.length_encode] at hi
  exact ⟨_, List.getElem?_eq_getElem hi, (rules.marker_visible _ (List.getElem_mem hi)).2⟩

theorem MarkerRules.byteLen_marker_pos : 0 < Str.byteLen rules.marker := by
  rw [← Str.length_encode]
  exact List.length_pos_iff.mpr rules.marker_bytes_ne_nil

/-- A marker stands between characters. -/
theorem MarkerRules.exists_append_of_find {line : Str} {n : ℕ}
    (h : asciiFindCaseInsensitive line rules.marker = some n) :
    ∃ front behind, line = front ++ behind ∧ Str.byteLen front = n := by
  obtain ⟨b, hb, hascii⟩ := rules.exists_byteAt rules.byteLen_marker_pos
  exact Parser.exists_append_of_find h hb hascii

/-- The text behind a marker begins with a character. -/
theorem MarkerRules.isCharBoundary_behind {line : Str} {n : ℕ}
    (h : asciiFindCaseInsensitive line rules.marker = some n) :
    Str.isCharBoundary (n + Str.byteLen rules.marker) line = true := by
  have hpos := rules.byteLen_marker_pos
  obtain ⟨b, hb, hascii⟩ := rules.exists_byteAt (i := Str.byteLen rules.marker - 1) (by omega)
  obtain ⟨a, ha, hlower⟩ := byteAt_of_find h hb
  have ha128 := lt_of_byteToLower_eq hlower hascii
  obtain ⟨front, c, behind, rfl, hfront, hc⟩ := Str.exists_append_of_byteAt ha ha128
  have hlen : Str.byteLen (front ++ [c]) = n + Str.byteLen rules.marker := by
    rw [Str.byteLen_append, Str.byteLen_cons, Str.utf8Size_of_ascii (by omega), hfront]
    show n + (Str.byteLen rules.marker - 1) + 1 = _
    omega
  exact Str.isCharBoundary_iff.mpr ⟨front ++ [c], behind, by simp, hlen⟩

/-- A marker in front is found. -/
theorem MarkerRules.find_marker (behind : Str) :
    asciiFindCaseInsensitive (rules.marker ++ behind) rules.marker = some 0 := by
  obtain ⟨b, bs, hbytes⟩ := List.exists_cons_of_ne_nil rules.marker_bytes_ne_nil
  have hwindow : ((Utf8.encode (rules.marker ++ behind)).take (Utf8.encode rules.marker).length).map
      byteToLower = (Utf8.encode rules.marker).map byteToLower := by
    rw [Utf8.encode_append, List.take_left]
  rw [asciiFindCaseInsensitive, if_neg rules.marker_ne_nil]
  rw [Utf8.encode_append, hbytes, List.cons_append] at hwindow ⊢
  rw [windowPosition, if_pos hwindow]

/-- A text with a marker has a character that begins one, in some case. -/
theorem MarkerRules.exists_mem_of_find {line : Str} {n : ℕ}
    (h : asciiFindCaseInsensitive line rules.marker = some n) :
    ∃ c ∈ line, ∃ b b' : UInt8, c.toNat = b.toNat ∧ (Utf8.encode rules.marker).head? = some b' ∧
      byteToLower b = byteToLower b' := by
  obtain ⟨b', hb', hascii⟩ := rules.exists_byteAt rules.byteLen_marker_pos
  obtain ⟨b, hb, hlower⟩ := byteAt_of_find h hb'
  obtain ⟨front, c, behind, rfl, -, hc⟩ :=
    Str.exists_append_of_byteAt hb (lt_of_byteToLower_eq hlower hascii)
  exact ⟨c, by simp, b, b', hc, by rw [List.head?_eq_getElem?]; exact hb', hlower⟩

/-! ## Where a block ends -/

/-- A blank line stops a block. -/
@[simp] theorem MarkerRules.stops_trim_nil : rules.stops (Str.trim []) = true := by
  simp [MarkerRules.stops, Str.trim, Str.trimStart, Str.trimEnd]

/-- A blank line has no marker. -/
@[simp] theorem MarkerRules.starts_nil : rules.starts [] = false := by
  simp [MarkerRules.starts, asciiFindCaseInsensitive, rules.marker_ne_nil, windowPosition]

/-- A block ends in front of a blank line as at the end of the text. -/
theorem MarkerRules.collectLines_append (raw : Str) (lines rest : List Str) :
    rules.collectLines raw (lines ++ [] :: rest) = rules.collectLines raw lines := by
  induction lines generalizing raw with
  | nil => simp [MarkerRules.collectLines]
  | cons line lines ih =>
      have hhead : ((lines ++ [] :: rest).head?.all fun peek => rules.stops (Str.trim peek)) =
          lines.head?.all fun peek => rules.stops (Str.trim peek) := by
        cases lines <;> simp
      simp only [List.cons_append, MarkerRules.collectLines, hhead, ih]

/-- A coordinate line does not stop a block. -/
theorem MarkerRules.stops_eq_false {line : Str} (hne : line ≠ [])
    (hmarker : asciiFindCaseInsensitive line rules.marker = none)
    (hlooks : rules.looksLikeCoordinateLine line = true) : rules.stops line = false := by
  simp [MarkerRules.stops, hne, hmarker, hlooks]

/-- A block that no line stops takes all of them, with their words. -/
theorem MarkerRules.collectLines_of_not_stops (raw : Str) {lines : List Str}
    (h : ∀ line ∈ lines, rules.stops (Str.trim line) = false) :
    (rules.collectLines raw lines).2 = lines.length ∧
      Str.splitWhitespace (rules.collectLines raw lines).1 =
        Str.splitWhitespace raw ++ lines.flatMap Str.splitWhitespace := by
  induction lines generalizing raw with
  | nil => simp [MarkerRules.collectLines]
  | cons line lines ih =>
      obtain ⟨hline, hrest⟩ := List.forall_mem_cons.mp h
      have hjoined : Str.splitWhitespace
          ((if raw = [] then raw else raw ++ [' ']) ++ Str.trim line) =
          Str.splitWhitespace raw ++ Str.splitWhitespace line := by
        by_cases hraw : raw = []
        · rw [if_pos hraw, hraw, List.nil_append, Str.splitWhitespace_trim, Str.splitWhitespace_nil,
            List.nil_append]
        · rw [if_neg hraw, List.append_assoc, List.singleton_append,
            Str.splitWhitespace_append_cons (by decide), Str.splitWhitespace_trim]
      rw [MarkerRules.collectLines]
      dsimp only
      rw [if_neg (by rw [hline]; decide)]
      generalize (if raw = [] then raw else raw ++ [' ']) ++ Str.trim line = joined at hjoined ⊢
      split_ifs with hend
      · -- the block may end here only because there is no further line
        cases lines with
        | nil => simp [hjoined]
        | cons peek lines =>
            rw [List.head?_cons, Option.all_some, hrest peek List.mem_cons_self,
              Bool.and_false] at hend
            cases hend
      · obtain ⟨hlength, hwords⟩ := ih joined hrest
        refine ⟨congrArg Nat.succ hlength, hwords.trans ?_⟩
        rw [hjoined, List.append_assoc, List.flatMap_cons]

/-- A block has no more lines than there are. -/
theorem MarkerRules.collectLines_le (raw : Str) (lines : List Str) :
    (rules.collectLines raw lines).2 ≤ lines.length := by
  induction lines generalizing raw with
  | nil => simp [MarkerRules.collectLines]
  | cons line lines ih =>
      simp only [MarkerRules.collectLines, List.length_cons]
      generalize (if raw = [] then raw else raw ++ [' ']) ++ Str.trim line = joined
      split_ifs
      · exact Nat.zero_le _
      · exact Nat.succ_le_succ (Nat.zero_le _)
      · exact Nat.succ_le_succ (ih joined)

/-- The lines of a block are trimmed. -/
theorem MarkerRules.collectLines_map_trim (raw : Str) (lines : List Str) :
    rules.collectLines raw (lines.map (Str.trimEndMatches ['\r'])) =
      rules.collectLines raw lines := by
  have htrim : ∀ line, Str.trim (Str.trimEndMatches ['\r'] line) = Str.trim line :=
    Str.trimEndMatches_return_induction fun front => Str.trim_append_whitespace front (by decide)
  induction lines generalizing raw with
  | nil => rfl
  | cons line lines ih =>
      have hhead : ((lines.map (Str.trimEndMatches ['\r'])).head?.all fun peek =>
          rules.stops (Str.trim peek)) =
            lines.head?.all fun peek => rules.stops (Str.trim peek) := by
        cases lines <;> simp [htrim]
      simp only [List.map_cons, MarkerRules.collectLines, htrim, hhead, ih]

/-- A block is collected without a panic. -/
theorem MarkerRules.collect_isSome {line : Str} (h : rules.starts line = true) (lines : List Str) :
    ∃ behind, Str.sliceFrom ((asciiFindCaseInsensitive line rules.marker).getD 0) line =
      some behind ∧
      rules.collect line lines = some (rules.collectLines (Str.trim behind) lines) := by
  obtain ⟨n, hn⟩ := Option.isSome_iff_exists.mp h
  obtain ⟨front, behind, rfl, rfl⟩ := rules.exists_append_of_find hn
  refine ⟨behind, by rw [hn]; exact Str.sliceFrom_append front behind, ?_⟩
  rw [MarkerRules.collect, hn, Option.getD_some, Str.sliceFrom_append]
  rfl

/-- Carriage returns at the ends of lines are not seen. -/
theorem MarkerRules.collect_trim {line : Str} (h : rules.starts line = true) (lines : List Str) :
    rules.collect (Str.trimEndMatches ['\r'] line) (lines.map (Str.trimEndMatches ['\r'])) =
      rules.collect line lines := by
  revert h
  induction line using List.reverseRecOn with
  | nil => simp
  | append_singleton front c ih =>
      intro h
      rcases Str.trimEndMatches_return_cases (front ++ [c]) with heq | ⟨front', hfront, heq⟩
      · unfold MarkerRules.collect
        simp only [heq, MarkerRules.collectLines_map_trim]
      · obtain ⟨rfl, hc⟩ := List.append_inj' hfront rfl
        obtain rfl : c = '\r' := by simpa using hc
        have hfind := rules.find_append_return front
        have hstarts : rules.starts front = true := by
          unfold MarkerRules.starts at h ⊢
          rwa [hfind] at h
        obtain ⟨behind, hbehind, hcollect⟩ := rules.collect_isSome hstarts lines
        obtain ⟨⟨u, v⟩, huv, rfl⟩ := Option.map_eq_some_iff.mp hbehind
        obtain ⟨rfl, hu⟩ := Str.append_of_splitAtByte huv
        have hslice : Str.sliceFrom (Str.byteLen u) (u ++ v ++ ['\r']) = some (v ++ ['\r']) := by
          rw [List.append_assoc, Str.sliceFrom_append]
        rw [heq, ih hstarts, hcollect, MarkerRules.collect, hfind, ← hu, hslice]
        simp [Str.trim_append_whitespace v (c := '\r') (by decide)]

/-- What is made of the blocks behind a marker. -/
def MarkerRules.collector {C : Type*} (read : Str → Option C) (line : Str) (lines : List Str) :
    Option (Option C × ℕ) :=
  (rules.collect line lines).map fun (raw, further) => (read raw, further)

/-- A collector of blocks stops in front of a blank line. -/
theorem MarkerRules.stopsAt_collector {C : Type*} (read : Str → Option C) :
    Lines.StopsAt rules.starts (rules.collector read) [] where
  not_starts := rules.starts_nil
  collect_append := by
    intro line lines rest
    unfold MarkerRules.collector MarkerRules.collect
    simp only [MarkerRules.collectLines_append]
  further_le := by
    intro line lines block further h
    unfold MarkerRules.collector MarkerRules.collect at h
    cases hslice : Str.sliceFrom ((asciiFindCaseInsensitive line rules.marker).getD 0) line with
    | none => simp [hslice] at h
    | some behind =>
        simp only [hslice, Option.bind_eq_bind, Option.bind_some, Option.map_some,
          Option.some.injEq, Prod.mk.injEq] at h
        rw [← h.2]
        exact rules.collectLines_le _ _

/-- A collector of blocks reads the bare lines of a text. -/
theorem MarkerRules.scan_lines {C : Type*} (read : Str → Option C) (text : Str) :
    Lines.scan rules.starts (rules.collector read) (Str.lines text) =
      Lines.scan rules.starts (rules.collector read) (Str.bareLines text) := by
  refine (Lines.scan_map_lines ?_ ?_ _).symm
  · exact Str.trimEndMatches_return_induction fun front => by
      rw [MarkerRules.starts, MarkerRules.starts, rules.find_append_return]
  · intro line lines h
    unfold MarkerRules.collector
    rw [rules.collect_trim h]

/-- The blocks of two texts with a blank line between them. -/
theorem MarkerRules.scan_append {C : Type*} (read : Str → Option C) (s t : Str) :
    Lines.scan rules.starts (rules.collector read) (Str.lines (s ++ "\n\n".toList ++ t)) =
      Lines.both (Lines.scan rules.starts (rules.collector read) (Str.lines s))
        (Lines.scan rules.starts (rules.collector read) (Str.lines t)) := by
  simp only [rules.scan_lines, Lines.scan_bareLines_append (rules.stopsAt_collector read)]

end Parser
