/-
# A bulletin over Weather Wire

The text of a payload ends every line with two line feeds.  `convert_to_noaaport` makes
transport line ends of the pairs and puts a start of heading in front, directly before the
first line.  The bulletin parser removes a line that begins with a start of heading, so
the first line of a payload, where the feed has its sequence number, is never read; the
bulletin behind it is read as the same bulletin from the satellite feed.
-/
import Emwin.Parser.TransportWrapping
import Emwin.WxWire.Codec

namespace WxWire

open ListReplace Parser.Header

variable {Element : Type} {first rest text : Str}

/-! ## The converted text -/

/-- The characters of a transport line end that the parser keeps. -/
theorem filter_expanded_feed (s : Str) :
    (expanded '\n' ['\r', '\r', '\n'] s).filter isKept = s.filter isKept :=
  filter_expanded (by decide)

/-- What the parser keeps of a converted payload whose line ends are doubled. -/
theorem filter_convertToNoaaport (hlast : ∀ c ∈ text.getLast?, c ≠ '\n') (hne : text ≠ []) :
    (convertToNoaaport (doubled '\n' text)).filter isKept =
      '\x01' :: (text.filter isKept ++ ['\n', '\x03']) := by
  have hend : ('\x01' :: expanded '\n' ['\r', '\r', '\n'] text).getLast? ≠ some '\n' := by
    obtain ⟨front, c, rfl⟩ := (List.eq_nil_or_concat text).resolve_left hne
    have hc : c ≠ '\n' := hlast c (by simp)
    have hexp : expanded '\n' ['\r', '\r', '\n'] (front ++ [c]) =
        expanded '\n' ['\r', '\r', '\n'] front ++ [c] := by
      unfold expanded
      rw [List.flatMap_append, List.flatMap_singleton, if_neg hc]
    rw [List.concat_eq_append, hexp, ← List.cons_append, List.getLast?_concat]
    exact fun h => hc (Option.some.inj h)
  unfold convertToNoaaport
  dsimp only
  rw [replaceAll_doubled, if_neg hend, List.filter_append, List.filter_append,
    List.filter_cons_of_pos (by decide), filter_expanded_feed]
  simp [isKept]

/-- A doubled text begins and ends with what the text begins and ends with. -/
theorem trim_doubled {v w : Str} (hv : ∀ c ∈ v, Str.isWhitespace c = true)
    (hw : ∀ c ∈ w, Str.isWhitespace c = true)
    (hhead : ∀ c ∈ text.head?, Str.isWhitespace c = false)
    (hlast : ∀ c ∈ text.getLast?, Str.isWhitespace c = false) :
    Str.trim (v ++ (doubled '\n' text ++ w)) = doubled '\n' text := by
  have hfeed : ∀ {c : Char}, Str.isWhitespace c = false → c ≠ '\n' := by
    rintro c hc rfl
    cases hc
  rw [Str.trim_spaces_append hv, Str.trim_append_spaces _ hw]
  refine Str.trim_eq_self ?_ ?_
  · cases text with
    | nil => exact hhead
    | cons c s =>
        have hc := hhead c rfl
        intro d hd
        unfold doubled at hd
        rw [List.flatMap_cons, if_neg (hfeed hc)] at hd
        obtain rfl := Option.some.inj hd
        exact hc
  · rcases List.eq_nil_or_concat text with rfl | ⟨front, c, rfl⟩
    · exact hlast
    · have hc := hlast c (by simp)
      intro d hd
      rw [List.concat_eq_append, doubled_append, doubled_of_notMem (s := [c])
        (by simpa using (hfeed hc).symm), List.getLast?_concat] at hd
      obtain rfl := Option.some.inj hd
      exact hc

/-! ## The bulletin behind the first line -/

/-- The line end behind a first line is kept, alone or the first of a pair. -/
theorem exists_filter_replaced (rest : Str) :
    ∃ kept, (replaceAll ['\n', '\n'] ['\r', '\r', '\n'] ('\n' :: rest)).filter isKept =
      '\n' :: kept := by
  by_cases hpair : ['\n', '\n'] <+: '\n' :: rest
  · obtain ⟨rest', hrest⟩ := hpair
    rw [← hrest, replaceAll_append (by simp), List.filter_append]
    exact ⟨_, rfl⟩
  · rw [replaceAll, replaceFrom, if_neg hpair, List.filter_cons_of_pos (by decide)]
    exact ⟨_, rfl⟩

/-- What the parser keeps of a text behind its first line does not depend on that line. -/
theorem exists_filter_behind (rest : Str) :
    ∃ kept, ∀ first, '\n' ∉ first →
      (convertToNoaaport (first ++ '\n' :: rest)).filter isKept =
        '\x01' :: first.filter isKept ++ '\n' :: (kept ++ ['\x03']) := by
  obtain ⟨kept, hkept⟩ := exists_filter_replaced rest
  have hne : replaceAll ['\n', '\n'] ['\r', '\r', '\n'] ('\n' :: rest) ≠ [] := by
    intro hnil
    rw [hnil] at hkept
    cases hkept
  have hfirst : ∀ first, '\n' ∉ first →
      replaceAll ['\n', '\n'] ['\r', '\r', '\n'] (first ++ '\n' :: rest) =
        first ++ replaceAll ['\n', '\n'] ['\r', '\r', '\n'] ('\n' :: rest) := by
    intro first hfirst
    exact replaceAll_append_of_notMem (by simpa using hfirst) (by simp) _ _
  -- whether a line end is added is decided behind the first line
  refine ⟨kept ++ if (replaceAll ['\n', '\n'] ['\r', '\r', '\n'] ('\n' :: rest)).getLast? =
    some '\n' then [] else ['\n'], fun first hline => ?_⟩
  unfold convertToNoaaport
  dsimp only
  rw [hfirst first hline, ← List.cons_append, List.getLast?_append_of_ne_nil _ hne]
  split
  · rw [List.filter_append, List.filter_append, hkept, List.filter_cons_of_pos (by decide)]
    simp [isKept]
  · rw [List.filter_append, List.filter_append, List.filter_append, hkept,
      List.filter_cons_of_pos (by decide)]
    simp [isKept]

/-- **The first line is not read.**  Whatever stands in the first line of a text, the parser
conditions the converted text to the same. -/
theorem first_line_ignored {first' : Str} (hfirst : '\n' ∉ first) (hfirst' : '\n' ∉ first') :
    conditionText (convertToNoaaport (first ++ '\n' :: rest)) =
      conditionText (convertToNoaaport (first' ++ '\n' :: rest)) := by
  obtain ⟨kept, hkept⟩ := exists_filter_behind rest
  -- what is left of the text behind the start of a heading
  have hread : ∀ line : Str, '\n' ∉ line →
      let raw := convertToNoaaport (line ++ '\n' :: rest)
      Str.trim (raw.filter isKept) ≠ [] ∧
        removeSoh (Str.trim (raw.filter isKept)) = kept ++ ['\x03'] := by
    intro line hline raw
    have hfilter := hkept line hline
    have htrim : Str.trim (raw.filter isKept) = raw.filter isKept := by
      rw [hfilter]
      refine Str.trim_eq_self ?_ ?_
      · intro c hc
        obtain rfl := Option.some.inj hc
        decide
      · intro c hc
        have hend : '\x01' :: line.filter isKept ++ '\n' :: (kept ++ ['\x03']) =
            ('\x01' :: line.filter isKept ++ '\n' :: kept) ++ ['\x03'] := by simp
        rw [hend, List.getLast?_concat] at hc
        obtain rfl := Option.some.inj hc
        decide
    have hfeed : '\n' ∉ '\x01' :: line.filter isKept := by
      intro hmem
      rcases List.mem_cons.mp hmem with hmem | hmem
      · exact absurd hmem (by decide)
      · exact hline (List.mem_of_mem_filter hmem)
    rw [htrim, hfilter]
    refine ⟨by simp, ?_⟩
    rw [removeSoh, if_pos (by rfl), Str.splitOnce_append hfeed]
    rfl
  obtain ⟨hne1, h1⟩ := hread first hfirst
  obtain ⟨hne2, h2⟩ := hread first' hfirst'
  unfold conditionText
  dsimp only
  rw [if_neg hne1, if_neg hne2, h1, h2]

/-- The heading of a bulletin without a sequence number is not read. -/
theorem first_line_ignored_heading :
    conditionText (convertToNoaaport ("ABCD KBOX 022101".toList ++ '\n' :: "AFDBOX".toList)) =
      conditionText (convertToNoaaport ("277 ".toList ++ '\n' :: "AFDBOX".toList)) :=
  first_line_ignored (by decide) (by decide)

/-- A payload that carries a bulletin: the bulletin behind a line of its own, its line ends
doubled and with white space around it. -/
structure Payload.Carries (payload : Payload) (w : Wrapping) (b : Bulletin) (first v v' : Str) :
    Prop where
  before : ∀ c ∈ v, Str.isWhitespace c = true
  after : ∀ c ∈ v', Str.isWhitespace c = true
  first_line : '\n' ∉ first
  visible : ∃ c, first.head? = some c ∧ Str.isWhitespace c = false
  kept : ∀ c ∈ first ++ w.core b, isKept c = true
  text : payload.text = v ++ (doubled '\n' (first ++ '\n' :: w.core b) ++ v')

/-- What stands of a payload in a file: the bulletin, behind a line of its own and in front of an
end of text. -/
theorem Payload.Carries.exists_wrapped {payload : Payload} {w : Wrapping} {b : Bulletin}
    {v v' : Str} (h : payload.Carries w b first v v') :
    Str.trim payload.text ≠ [] ∧ ∃ u : Wrapping,
      (convertToNoaaport (Str.trim payload.text)).filter isKept = u.wrap b ∧
        u.conditioned b = w.conditioned b := by
  obtain ⟨c, hc, hvisible⟩ := h.visible
  obtain ⟨last, hlast, hlastVisible, -⟩ := w.getLast_core b
  have hcore : w.core b ≠ [] := by
    obtain ⟨x, rest, hx, -⟩ := w.exists_core b
    rw [hx]
    exact List.cons_ne_nil _ _
  have hfirst : first ≠ [] := by
    rintro rfl
    cases hc
  -- the ends of the text
  have hend : ∀ d ∈ (first ++ '\n' :: w.core b).getLast?, Str.isWhitespace d = false := by
    intro d hd
    rw [List.getLast?_append_of_ne_nil _ (List.cons_ne_nil _ _),
      List.getLast?_cons_of_ne_nil hcore, hlast] at hd
    obtain rfl := Option.some.inj hd
    exact hlastVisible
  have hbegin : ∀ d ∈ (first ++ '\n' :: w.core b).head?, Str.isWhitespace d = false := by
    intro d hd
    rw [List.head?_append_of_ne_nil _ hfirst, hc] at hd
    obtain rfl := Option.some.inj hd
    exact hvisible
  have htrim : Str.trim payload.text = doubled '\n' (first ++ '\n' :: w.core b) := by
    rw [h.text, trim_doubled h.before h.after hbegin hend]
  -- what the parser keeps of the file is the bulletin in a wrapping
  have hline : '\n' ∉ first.filter isKept := fun hmem => h.first_line (List.mem_of_mem_filter hmem)
  refine ⟨?_, { w with opening := .soh (first.filter isKept) hline, closing := .feedEtx }, ?_, rfl⟩
  · rw [htrim, doubled_append, doubled_of_notMem h.first_line]
    exact List.append_ne_nil_of_left_ne_nil hfirst _
  · have hkept : (first ++ '\n' :: w.core b).filter isKept =
        first.filter isKept ++ '\n' :: w.core b := by
      rw [List.filter_append, List.filter_cons_of_pos (by decide),
        List.filter_eq_self.mpr fun d hd => h.kept d (List.mem_append_right _ hd)]
    have hfeeds : ∀ d ∈ (first ++ '\n' :: w.core b).getLast?, d ≠ '\n' := by
      rintro d hd rfl
      exact absurd (hend _ hd) (by decide)
    rw [htrim, filter_convertToNoaaport hfeeds (by simp), hkept]
    simp [Wrapping.wrap, Opening.text, Closing.text, Wrapping.core, Wrapping.lines,
      Wrapping.headingLine]

/-- A payload with a text makes a file of it. -/
theorem feedMessage_of_text (env : WxWireEnv Element) {message : Message} {payload : Payload}
    (hpayload : nwwsPayload message = some payload) (htext : Str.trim payload.text ≠ []) :
    ∃ warning : Option WxWireReceiverWarning, feedMessage env message =
      (warning.map .warning).toList ++
        [.file (fileOf env message payload (Str.trim payload.text)).1] := by
  refine ⟨(fileOf env message payload (Str.trim payload.text)).2, ?_⟩
  unfold feedMessage parseMessageToFile
  rw [hpayload]
  dsimp only
  rw [if_neg htext]

/-- A bulletin in a payload makes a file, and the file is conditioned as the bulletin. -/
theorem exists_file_of_carries (env : WxWireEnv Element) {message : Message} {payload : Payload}
    (hpayload : nwwsPayload message = some payload) {w : Wrapping} {b : Bulletin} {v v' : Str}
    (h : payload.Carries w b first v v') :
    ∃ file, (∃ warning : Option WxWireReceiverWarning,
        feedMessage env message = (warning.map .warning).toList ++ [.file file]) ∧
      conditionTextBytes file.data = .ok (w.conditioned b) := by
  obtain ⟨htext, u, hu, hconditioned⟩ := h.exists_wrapped
  refine ⟨_, feedMessage_of_text env hpayload htext, ?_⟩
  show conditionTextBytes (Utf8.encode (convertToNoaaport (Str.trim payload.text))) = _
  rw [conditionTextBytes, Utf8.decodeLossy_encode, u.conditionText_wrap b hu, hconditioned]

/-- **Weather Wire.**  A bulletin in a payload makes a file, and the file is conditioned and
read as the bulletin; the satellite feed's copy of it, whatever it is wrapped in, has the same
header and body. -/
theorem bulletin_over_wxWire (env : WxWireEnv Element) (message : Message) (payload : Payload)
    (hpayload : nwwsPayload message = some payload) (w : Wrapping) (b : Bulletin) {v v' : Str}
    (hcarries : payload.Carries w b first v v') :
    ∃ file parsed, (∃ warning : Option WxWireReceiverWarning,
        feedMessage env message = (warning.map .warning).toList ++ [.file file]) ∧
      conditionTextBytes file.data = .ok (w.conditioned b) ∧
      parseTextProductConditionedRef (w.conditioned b) = .ok parsed ∧
      ∀ (w' : Wrapping) (raw : Str), raw.filter isKept = w'.wrap b → ∃ text parsed',
        conditionTextBytes (Utf8.encode raw) = .ok text ∧
        parseTextProductConditionedRef text = .ok parsed' ∧
        parsed'.header = parsed.header ∧ parsed'.bodyText = parsed.bodyText := by
  obtain ⟨file, hfeed, htext⟩ := exists_file_of_carries env hpayload hcarries
  refine ⟨file, b.product (w.conditioned b), hfeed, htext, w.parse_conditioned b, ?_⟩
  intro w' raw hraw
  refine ⟨w'.conditioned b, b.product (w'.conditioned b), ?_, w'.parse_conditioned b, rfl, rfl⟩
  rw [conditionTextBytes, Utf8.decodeLossy_encode, w'.conditionText_wrap b hraw]

/-- A payload with an identifier. -/
def samplePayload (text : Str) : Payload where
  name := "x".toList
  ns := "nwws-oi".toList
  attrs := [("awipsid".toList, "AFDBOX".toList)]
  text

/-- A message with one payload. -/
def sampleMessage (text : Str) : Message where
  bestBody := some "TEST SUBJECT".toList
  bestSubject := none
  payloads := [samplePayload text]

/-- Libraries that read no time stamp. -/
def WxWireEnv.bare : WxWireEnv Message where
  parseElement _ := .error "no element".toList
  toMessage := some
  parseRfc3339 _ := none
  delayStamp _ := none
  now := 0

/-- A bulletin behind its sequence number, with a line end behind it. -/
theorem bulletin_over_wxWire_sample :
    let message := sampleMessage
      "277 \n\nABCD KBOX 022101 COR\n\nAFDBOX\n\nBODY\n\n\n\nMORE\n\n".toList
    ∃ file, (∃ warning : Option WxWireReceiverWarning,
        feedMessage .bare message = (warning.map .warning).toList ++ [.file file]) ∧
      conditionTextBytes file.data =
        .ok "000 \nABCD KBOX 022101 COR\nAFDBOX\nBODY\n\nMORE\n".toList := by
  intro message
  have hcarries : (samplePayload
      "277 \n\nABCD KBOX 022101 COR\n\nAFDBOX\n\nBODY\n\n\n\nMORE\n\n".toList).Carries
        ⟨.feeds 0, none, 0, [], .etx, by decide⟩ sampleBulletin "277 ".toList []
        "\n\n".toList :=
    ⟨by simp, by decide, by decide, ⟨'2', rfl, by decide⟩, by decide +kernel, by decide +kernel⟩
  obtain ⟨file, -, hfeed, htext, -⟩ := bulletin_over_wxWire .bare message _ rfl _ _ hcarries
  exact ⟨file, hfeed, htext⟩

end WxWire
