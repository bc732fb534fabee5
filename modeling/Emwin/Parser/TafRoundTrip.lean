/-
# Printed TAF reports

A report is printed as words, wrapped at any ASCII white space, with signs at its end.  What is read
of it is what was printed, if its station does not look like a preamble, if its initial
conditions are told from its first group, and if its probabilities are (`report_read_iff`).
-/
import Emwin.Parser.TafProbabilities

namespace Parser.Taf

open Aviation

/-- A text is a report, wrapped at ASCII white space, with signs at its end. -/
structure Report.Prints (report : Report) (text : Str) : Prop where
  spaces : ∀ c ∈ text, Str.isWhitespace c = true → Str.isAsciiWhitespace c = true
  words : ∃ signs, Str.splitWhitespace text =
    Str.splitWhitespace (Str.unwords report.words ++ List.replicate signs '=')
  unsigned : (Str.unwords report.words).getLast? ≠ some '='

/-- A report is read as it was printed. -/
def Report.RoundTrips (report : Report) (text : Str) : Prop :=
  ∃ bulletin, parseTafBulletin text = some (some bulletin) ∧ bulletin.station = report.station ∧
    bulletin.validFrom = some report.validity.validFrom.text ∧
    bulletin.validTo = some report.validity.validTo.text ∧
    List.Forall₂ ChangeGroup.ReadAs report.groups bulletin.groups

/-! ## Words -/

theorem isWord_of_isStationToken {station : Str} (h : isStationToken station = true) :
    Str.IsWord station := by
  obtain ⟨hlength, hall⟩ := Bool.and_eq_true_iff.mp h
  refine ⟨?_, fun c hc => Str.isWhitespace_of_isAlphanum (List.all_eq_true.mp hall c hc)⟩
  rintro rfl
  exact absurd (of_decide_eq_true hlength).1 (by decide)

theorem isWord_of_timeToken {time : Str} (h : timeToken time = true) : Str.IsWord time := by
  obtain ⟨hform, hall⟩ := Bool.and_eq_true_iff.mp h
  obtain ⟨-, hlast⟩ := of_decide_eq_true hform
  obtain ⟨front, rfl⟩ := List.getLast?_eq_some_iff.mp hlast
  rw [List.dropLast_concat] at hall
  refine ⟨by simp, List.forall_mem_append.mpr ⟨fun c hc => ?_, by decide⟩⟩
  exact Str.isWhitespace_of_isDigit (List.all_eq_true.mp hall c hc)

theorem isWord_token (validity : Validity) : Str.IsWord validity.token := by
  obtain ⟨⟨front, -, hfront⟩, ⟨back, -, hback⟩⟩ := validity
  refine ⟨by simp [Validity.token], List.forall_mem_append.mpr ⟨fun c hc => ?_, ?_⟩⟩
  · exact Str.isWhitespace_of_isDigit (hfront c hc)
  · exact List.forall_mem_cons.mpr
      ⟨by decide, fun c hc => Str.isWhitespace_of_isDigit (hback c hc)⟩

theorem isWord_words (group : ChangeGroup) : ∀ word ∈ group.words, Str.IsWord word := by
  obtain ⟨marker, tokens, -, htokens⟩ := group
  refine List.forall_mem_append.mpr ⟨?_, fun token h => (htokens token h).1⟩
  have hprobability : ∀ probability : Probability, Str.IsWord probability.text := by
    intro probability
    cases probability <;> decide
  cases marker with
  | fm start =>
      refine List.forall_mem_singleton.mpr ⟨by simp, List.forall_mem_append.mpr ⟨by decide, ?_⟩⟩
      exact fun c hc => Str.isWhitespace_of_isDigit (start.isDigit c hc)
  | change word validity =>
      have hword : Str.IsWord word.text := by cases word <;> decide
      exact List.forall_mem_cons.mpr ⟨hword, List.forall_mem_singleton.mpr (isWord_token validity)⟩
  | prob probability validity =>
      exact List.forall_mem_cons.mpr
        ⟨hprobability probability, List.forall_mem_singleton.mpr (isWord_token validity)⟩
  | probTempo probability validity =>
      exact List.forall_mem_cons.mpr ⟨hprobability probability, List.forall_mem_cons.mpr
        ⟨by decide, List.forall_mem_singleton.mpr (isWord_token validity)⟩⟩

theorem isWord_body (report : Report) : ∀ word ∈ report.body, Str.IsWord word := by
  refine List.forall_mem_append.mpr ⟨fun token h => (report.isConditionToken token h).1, ?_⟩
  intro word hword
  obtain ⟨group, -, hmem⟩ := List.mem_flatMap.mp hword
  exact isWord_words group word hmem

theorem isWord_reportWords (report : Report) : ∀ word ∈ report.words, Str.IsWord word :=
  List.forall_mem_cons.mpr ⟨by decide, List.forall_mem_cons.mpr
    ⟨isWord_of_isStationToken report.isStation, List.forall_mem_cons.mpr
      ⟨isWord_of_timeToken report.isTime, List.forall_mem_cons.mpr
        ⟨isWord_token report.validity, isWord_body report⟩⟩⟩⟩

/-! ## Preambles -/

/-- What is left of a text that prints a report. -/
theorem compact_of_prints {report : Report} {text : Str} (h : report.Prints text) :
    Str.trimEndMatches ['='] (Str.trim (Str.compactWhitespace text)) =
      Str.unwords report.words := by
  obtain ⟨hspaces, ⟨signs, hwords⟩, hunsigned⟩ := h
  have hsigns : ∀ c ∈ List.replicate signs '=', Str.isWhitespace c = false := by
    intro c hc
    rw [List.eq_of_mem_replicate hc]
    decide
  have hne : report.words ≠ [] := List.cons_ne_nil _ _
  rw [Str.compactWhitespace_eq_unwords hspaces, hwords,
    Str.unwords_splitWhitespace_append hne (isWord_reportWords report) hsigns]
  have htrim : Str.trim (Str.unwords report.words ++ List.replicate signs '=') =
      Str.unwords report.words ++ List.replicate signs '=' := by
    refine Str.trim_eq_self ?_ ?_
    · rw [Report.words, Str.unwords_cons _ (List.cons_ne_nil _ _)]
      rintro c ⟨⟩
      decide
    · intro c hc
      cases signs with
      | zero =>
          rw [List.replicate_zero, List.append_nil] at hc
          exact Str.isWhitespace_getLast_unwords (isWord_reportWords report) c hc
      | succ n =>
          rw [List.getLast?_append_of_ne_nil _ (by simp)] at hc
          exact hsigns c (List.mem_of_getLast? hc)
  rw [htrim]
  clear hwords hsigns htrim
  unfold Str.trimEndMatches
  induction signs with
  | zero =>
      rw [List.replicate_zero, List.append_nil, List.rdropWhile_eq_self_iff]
      intro hne
      rw [List.getLast?_eq_getLast_of_ne_nil hne] at hunsigned
      simpa using hunsigned
  | succ n ih =>
      rw [List.replicate_succ', ← List.append_assoc,
        List.rdropWhile_concat_pos _ _ _ (by decide), ih]

/-- A token in front of others. -/
theorem nextToken_unwords {word : Str} (hword : Str.IsWord word) (words : List Str) :
    nextToken (Str.unwords (word :: words)) = some (word, Str.unwords words) := by
  have hspace : ' ' ∉ word := fun h => absurd (hword.2 _ h) (by decide)
  by_cases hnil : words = []
  · rw [hnil, Str.unwords_singleton, nextToken, if_neg hword.1, Str.splitOnce, if_neg hspace]
    rfl
  · rw [Str.unwords_cons word hnil, nextToken, if_neg (by simp), Str.splitOnce_append hspace]
    rfl

/-- A report does not begin with a marker line. -/
theorem stripLeadingMarkerLine_words (report : Report) :
    stripLeadingMarkerLine (Str.unwords report.words) = Str.unwords report.words := by
  rw [Report.words, Str.unwords_cons _ (List.cons_ne_nil _ _), stripLeadingMarkerLine,
    Str.splitOnce_append (by decide)]
  exact if_neg fun h => absurd h.1 (by decide)

/-- What is read in front of the conditions, behind a preamble. -/
theorem parseTafHeader_of_preamble {report : Report} {text : Str} (h : report.Prints text)
    (preamble : Preamble) (hpreamble : parseTafPrefix (Str.unwords report.words) =
      some (preamble, Str.unwords report.words.tail)) :
    parseTafHeader text = some (some
      { preamble := preamble, reportBody := Str.unwords report.words.tail
        station := report.station, issueTime := report.issueTime
        validity := some (report.validity.validFrom.text, report.validity.validTo.text)
        remainder := Str.trim (Str.unwords report.body) }) := by
  unfold parseTafHeader
  dsimp only
  rw [compact_of_prints h, stripLeadingMarkerLine_words, parsePreamble, hpreamble]
  dsimp only
  rw [Option.bind_eq_bind, Option.bind_some]
  dsimp only
  rw [Report.words, List.tail_cons, nextToken_unwords (isWord_of_isStationToken report.isStation)]
  dsimp only
  rw [nextToken_unwords (isWord_of_timeToken report.isTime)]
  dsimp only
  rw [report.isStation, if_neg (by decide), isTimeToken_eq, Option.map_some, report.isTime,
    if_neg (by decide), nextToken_unwords (isWord_token report.validity)]
  dsimp only
  rw [parseValidityRange_token]

/-- The words that make up preambles. -/
def preambleWords : List Str := ["TAF", "AMD", "COR"].map String.toList

/-- Whether a station begins like a word of a preamble. -/
def looksLikePreamble (station : Str) : Bool :=
  preambleWords.any fun word => Str.startsWith word station

theorem length_of_isStationToken {station : Str} (h : isStationToken station = true) :
    3 ≤ station.length ∧ station.length ≤ 4 := by
  obtain ⟨hlength, hall⟩ := Bool.and_eq_true_iff.mp h
  rw [← Str.byteLen_of_ascii (Str.isAscii_of_isAlphanum hall)]
  exact of_decide_eq_true hlength

/-- The first preamble that a text begins with is taken. -/
theorem parseTafPrefix_eq (input : Str) : parseTafPrefix input =
    (preambles.find? fun entry => Str.startsWith entry.1 input).map fun entry =>
      (entry.2, if (input.drop entry.1.length).head? = some ' ' then
        (input.drop entry.1.length).drop 1 else input.drop entry.1.length) := by
  unfold parseTafPrefix
  cases preambles.find? fun entry => Str.startsWith entry.1 input <;> rfl

/-- A station that does not begin like a preamble is left behind the preamble. -/
theorem parseTafPrefix_of_not {report : Report} (h : looksLikePreamble report.station = false) :
    parseTafPrefix (Str.unwords report.words) =
      some (⟨false, false⟩, Str.unwords report.words.tail) := by
  have hsplit : preambles = preambles.dropLast ++ [("TAF".toList, ⟨false, false⟩)] := rfl
  have hwords : ∀ entry ∈ preambles.dropLast, ∃ word ∈ preambleWords,
      word.length = 3 ∧ "TAF ".toList ++ word <+: entry.1 := by decide
  have htext : Str.unwords report.words = "TAF ".toList ++ Str.unwords report.words.tail :=
    Str.unwords_cons _ (List.cons_ne_nil _ _)
  have htail : Str.unwords report.words.tail =
      report.station ++ ' ' :: Str.unwords report.words.tail.tail :=
    Str.unwords_cons _ (List.cons_ne_nil _ _)
  have hnone : ∀ entry ∈ preambles.dropLast,
      Str.startsWith entry.1 (Str.unwords report.words) = false := by
    intro entry hentry
    obtain ⟨word, hword, hlength, hprefix⟩ := hwords entry hentry
    rw [← Bool.not_eq_true, Str.startsWith, List.isPrefixOf_iff_prefix]
    intro hentry
    have hrest : word <+: report.station ++ ' ' :: Str.unwords report.words.tail.tail := by
      rw [← htail]
      exact (List.prefix_append_right_inj _).mp (htext ▸ hprefix.trans hentry)
    have hstation : word <+: report.station := by
      refine List.prefix_of_prefix_length_le hrest (List.prefix_append _ _) ?_
      rw [hlength]
      exact (length_of_isStationToken report.isStation).1
    exact absurd (List.any_eq_false.mp h word hword) (by simpa [Str.startsWith] using hstation)
  have hfind : preambles.find? (fun entry => Str.startsWith entry.1 (Str.unwords report.words)) =
      some ("TAF".toList, ⟨false, false⟩) := by
    rw [hsplit, List.find?_append, List.find?_eq_none.mpr (by simpa using hnone), Option.none_or,
      htext]
    rfl
  rw [parseTafPrefix_eq, hfind, htext]
  rfl

/-- Else it is taken for one. -/
theorem parseTafPrefix_of_looksLike {word : Str} (hword : word ∈ preambleWords) {c : Char}
    (rest : Str) (h : c = ' ' → rest.head?.any Char.isDigit = true) :
    ∃ preamble, parseTafPrefix ("TAF ".toList ++ word ++ c :: rest) =
      some (preamble, if c = ' ' then rest else c :: rest) := by
  have hwords : ∀ word ∈ preambleWords, word.length = 3 ∧
      ∃ entry ∈ preambles.dropLast, entry.1 = "TAF ".toList ++ word := by decide
  -- a longer preamble would go on with a letter behind a space
  have hentries : ∀ entry ∈ preambles.dropLast, entry.1.length = 7 ∨
      ∃ word ∈ preambleWords, ∃ d ∈ ['T', 'A', 'C'],
        ("TAF ".toList ++ word) ++ [' ', d] <+: entry.1 := by decide
  obtain ⟨hlength, known, hknown, hknownText⟩ := hwords word hword
  have hsplit : preambles = preambles.dropLast ++ [("TAF".toList, ⟨false, false⟩)] := rfl
  have hsome : (preambles.dropLast.find? fun entry =>
      Str.startsWith entry.1 ("TAF ".toList ++ word ++ c :: rest)).isSome := by
    rw [List.find?_isSome]
    refine ⟨known, hknown, ?_⟩
    rw [Str.startsWith, List.isPrefixOf_iff_prefix, hknownText]
    exact List.prefix_append _ _
  obtain ⟨entry, hfind⟩ := Option.isSome_iff_exists.mp hsome
  have hmem := List.mem_of_find?_eq_some hfind
  have hstarts : Str.startsWith entry.1 ("TAF ".toList ++ word ++ c :: rest) = true := by
    simpa using List.find?_some hfind
  have hbegins : entry.1 <+: "TAF ".toList ++ word ++ c :: rest :=
    List.isPrefixOf_iff_prefix.mp hstarts
  have hseven : entry.1.length = 7 := by
    refine (hentries entry hmem).resolve_right ?_
    rintro ⟨other, hother, d, hd, hprefix⟩
    have heq := hprefix.trans hbegins
    have hsame : "TAF ".toList ++ other = "TAF ".toList ++ word := by
      refine List.IsPrefix.eq_of_length (List.prefix_of_prefix_length_le
        ((List.prefix_append _ _).trans heq) (List.prefix_append _ _) ?_) ?_
      · rw [List.length_append, List.length_append, hlength, (hwords other hother).1]
      · rw [List.length_append, List.length_append, hlength, (hwords other hother).1]
    rw [hsame, List.prefix_append_right_inj, List.cons_prefix_cons] at heq
    obtain ⟨hspace, hletter⟩ := heq
    have hdigit := h hspace.symm
    cases rest with
    | nil => cases hdigit
    | cons digit rest =>
        obtain rfl := (List.cons_prefix_cons.mp hletter).1
        have hletters : ∀ d ∈ ['T', 'A', 'C'], d.isDigit = false := by decide
        have hfalse : d.isDigit = true := hdigit
        rw [hletters d hd] at hfalse
        cases hfalse
  have hdrop : ("TAF ".toList ++ word ++ c :: rest).drop 7 = c :: rest := by
    have hfront : ("TAF ".toList ++ word).length = 7 := by rw [List.length_append, hlength]; rfl
    rw [← hfront, List.drop_left]
  refine ⟨entry.2, ?_⟩
  rw [parseTafPrefix_eq, hsplit, List.find?_append, hfind, Option.some_or, Option.map_some, hseven,
    hdrop]
  simp

/-- Nothing is read behind a preamble that no station follows. -/
theorem parseTafHeader_of_token {report : Report} {text : Str} (h : report.Prints text)
    {preamble : Preamble} {first second : Str} {rest : List Str}
    (hpreamble : parseTafPrefix (Str.unwords report.words) =
      some (preamble, Str.unwords (first :: second :: rest)))
    (hfirst : Str.IsWord first) (hsecond : Str.IsWord second)
    (hstation : isStationToken first = false) :
    parseTafHeader text = some none := by
  unfold parseTafHeader
  dsimp only
  rw [compact_of_prints h, stripLeadingMarkerLine_words, parsePreamble, hpreamble]
  dsimp only
  rw [Option.bind_eq_bind, Option.bind_some]
  dsimp only
  rw [nextToken_unwords hfirst]
  dsimp only
  rw [nextToken_unwords hsecond]
  dsimp only
  rw [hstation, if_pos rfl]

/-- A time begins with a digit, and is too long for a station. -/
theorem head_of_timeToken {time : Str} (h : timeToken time = true) :
    time.head?.any Char.isDigit = true ∧ isStationToken time = false := by
  obtain ⟨hform, hall⟩ := Bool.and_eq_true_iff.mp h
  obtain ⟨hlength, hlast⟩ := of_decide_eq_true hform
  obtain ⟨front, rfl⟩ := List.getLast?_eq_some_iff.mp hlast
  rw [List.dropLast_concat] at hall
  constructor
  · cases front with
    | nil => exact absurd hlength (by decide)
    | cons c front => exact List.all_eq_true.mp hall c List.mem_cons_self
  · rw [isStationToken, hlength]
    rfl

/-- A report of which the station is taken for a preamble is not read. -/
theorem parseTafHeader_of_looksLike {report : Report} {text : Str} (h : report.Prints text)
    (hlooks : looksLikePreamble report.station = true) : parseTafHeader text = some none := by
  have hlength := (length_of_isStationToken report.isStation).2
  have htime := isWord_of_timeToken report.isTime
  have hvalidity := isWord_token report.validity
  obtain ⟨hdigit, htimeStation⟩ := head_of_timeToken report.isTime
  obtain ⟨word, hword, hstarts⟩ := List.any_eq_true.mp hlooks
  obtain ⟨back, hback⟩ := List.isPrefixOf_iff_prefix.mp hstarts
  have hthree : ∀ word ∈ preambleWords, word.length = 3 := by decide
  have htext : Str.unwords report.words = "TAF ".toList ++ word ++ (back ++ ' ' ::
      Str.unwords (report.issueTime :: report.validity.token :: report.body)) := by
    rw [Report.words, Str.unwords_cons _ (List.cons_ne_nil _ _),
      Str.unwords_cons _ (List.cons_ne_nil _ _), ← hback]
    simp
  rw [← hback, List.length_append, hthree word hword] at hlength
  rcases back with _ | ⟨c, _ | ⟨d, back⟩⟩
  · have hhead : (Str.unwords (report.issueTime :: report.validity.token :: report.body)).head?.any
        Char.isDigit = true := by
      rw [Str.unwords_cons _ (List.cons_ne_nil _ _), List.head?_append_of_ne_nil _ htime.1, hdigit]
    obtain ⟨preamble, hpreamble⟩ := parseTafPrefix_of_looksLike hword _ fun _ => hhead
    rw [if_pos rfl, ← List.nil_append (' ' :: _), ← htext] at hpreamble
    exact parseTafHeader_of_token h hpreamble htime hvalidity htimeStation
  · have hc : c.isAlphanum = true := by
      refine List.all_eq_true.mp (Bool.and_eq_true_iff.mp report.isStation).2 c ?_
      rw [← hback]
      simp
    have hspace : c ≠ ' ' := by
      rintro rfl
      exact absurd hc (by decide)
    obtain ⟨preamble, hpreamble⟩ := parseTafPrefix_of_looksLike hword
      (' ' :: Str.unwords (report.issueTime :: report.validity.token :: report.body))
      fun h => absurd h hspace
    have hfirst : Str.IsWord [c] :=
      ⟨by simp, List.forall_mem_singleton.mpr (Str.isWhitespace_of_isAlphanum hc)⟩
    rw [if_neg hspace] at hpreamble
    have hone : isStationToken [c] = false := by
      have hlen : Str.byteLen [c] = 1 :=
        Str.byteLen_of_ascii (Str.isAscii_of_isAlphanum (by simpa using hc))
      rw [isStationToken, hlen]
      rfl
    have hread : parseTafPrefix (Str.unwords report.words) = some (preamble,
        Str.unwords ([c] :: report.issueTime :: report.validity.token :: report.body)) := by
      rw [htext, Str.unwords_cons [c] (List.cons_ne_nil _ _)]
      exact hpreamble
    exact parseTafHeader_of_token h hread hfirst htime hone
  · simp at hlength
    omega

/-- **Round trip.**  The groups that are read of a printed report are those that were printed
exactly if its station does not begin like a preamble, its initial conditions are told from its
groups, the probabilities of its groups are, and all conditions can be read. -/
theorem report_read_iff (report : Report) {text : Str} (h : report.Prints text) :
    report.RoundTrips text ↔ looksLikePreamble report.station = false ∧
      report.OpensWithConditions ∧ KeepsProbabilities false report.groups ∧ report.Readable := by
  cases hlooks : looksLikePreamble report.station with
  | true =>
      refine iff_of_false ?_ nofun
      rintro ⟨bulletin, hparse, -⟩
      rw [parseTafBulletin, parseTafHeader_of_looksLike h hlooks] at hparse
      cases hparse
  | false =>
      have hbody : Str.splitWhitespace (Str.trim (Str.unwords report.body)) = report.body := by
        rw [Str.splitWhitespace_trim, Str.splitWhitespace_unwords (isWord_body report)]
      rw [and_iff_right rfl, ← parseForecastGroups_body_iff report hbody]
      unfold Report.RoundTrips parseTafBulletin
      rw [parseTafHeader_of_preamble h _ (parseTafPrefix_of_not hlooks), Option.bind_eq_bind,
        Option.bind_some]
      dsimp only
      rcases parseForecastGroups (Str.trim (Str.unwords report.body)) with _ | ⟨conditions, reads⟩
      · simp
      · simp [Preamble.normalizedPrefix]

/-- The hours from noon to six, and from six to noon of the next day, as they are printed. -/
def afternoon : Validity := ⟨⟨"0712".toList, rfl, by decide⟩, ⟨"0718".toList, rfl, by decide⟩⟩

def night : Validity := ⟨⟨"0718".toList, rfl, by decide⟩, ⟨"0812".toList, rfl, by decide⟩⟩

/-- A report of a station with two groups. -/
def reportOf (first second : GroupMarker) : Report where
  station := "KBOS".toList
  issueTime := "071130Z".toList
  validity := afternoon
  initial := ["P6SM".toList]
  groups := [⟨first, ["BR".toList], by decide, by decide⟩,
    ⟨second, ["RA".toList], by decide, by decide⟩]
  isStation := by decide
  isTime := by decide
  isConditionToken := by decide

/-- A probability behind a group that takes none. -/
theorem report_read_fm :
    (reportOf (.fm ⟨"071400".toList, rfl, by decide⟩) (.probTempo .prob30 night)).RoundTrips
      "TAF\nKBOS 071130Z 0712/0718 P6SM\n FM071400 BR\n PROB30 TEMPO 0718/0812 RA=".toList :=
  (report_read_iff _ ⟨by decide, ⟨1, by decide⟩, by decide⟩).mpr
    ⟨by decide, ⟨nofun, by decide⟩, ⟨trivial, nofun, trivial⟩, by decide, by decide⟩

set_option maxRecDepth 4000 in
/-- A probability behind `TEMPO`, which is taken for that of the group in front. -/
theorem report_read_tempo :
    ¬ ∀ (report : Report) (text : Str), report.Prints text → report.RoundTrips text := by
  intro h
  obtain ⟨bulletin, hparse, -, -, -, hgroups⟩ := h
    (reportOf (.change .tempo afternoon) (.probTempo .prob30 night))
    "TAF KBOS 071130Z 0712/0718 P6SM TEMPO 0712/0718 BR PROB30 TEMPO 0718/0812 RA".toList
    ⟨by decide, ⟨0, by decide⟩, by decide⟩
  have hread : (parseTafBulletin
      "TAF KBOS 071130Z 0712/0718 P6SM TEMPO 0712/0718 BR PROB30 TEMPO 0718/0812 RA".toList).map
        (Option.map fun bulletin => bulletin.groups.map TafForecastGroup.probabilityPercent) =
      some (some [some 30, none]) := by decide
  rw [hparse] at hread
  have hpercents : bulletin.groups.map TafForecastGroup.probabilityPercent = [some 30, none] :=
    Option.some.inj (Option.some.inj hread)
  rcases hreads : bulletin.groups with _ | ⟨read, reads⟩
  · rw [hreads] at hpercents
    cases hpercents
  · rw [hreads] at hpercents hgroups
    have hprinted : read.probabilityPercent = none :=
      (List.forall₂_cons.mp hgroups).1.probabilityPercent
    rw [List.map_cons, hprinted] at hpercents
    cases hpercents

end Parser.Taf
