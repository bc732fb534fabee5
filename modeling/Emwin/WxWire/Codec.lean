/-
# The Weather Wire decoder

`wxwire_receiver/codec.rs` makes a file of an XMPP message: the payload of the namespace
`nwws-oi` carries a bulletin as its text and what is known about it as attributes.  Errors
of a message become warnings, so that feeding a message does not fail.

The library around it is collected in `WxWireEnv`: the reader of XML, the conversion of an
element into a message, the readers of time stamps, and the clock.
-/
import Emwin.Lib.Replace
import Emwin.Lib.Slices

namespace WxWire

open ListReplace

/-! ## Messages, files and warnings -/

/-- A child element of a message. -/
structure Payload where
  name : Str
  ns : Str
  attrs : List (Str × Str)
  text : Str
  deriving DecidableEq, Repr

/-- `attr` of an element. -/
def Payload.attr (p : Payload) (name : String) : Option Str :=
  (p.attrs.find? fun a => a.1 = name.toList).map Prod.snd

/-- An XMPP message, with the body and the subject in the preferred language. -/
structure Message where
  bestBody : Option Str
  bestSubject : Option Str
  payloads : List Payload
  deriving DecidableEq, Repr

/-- A fully assembled Weather Wire product file. -/
structure WxWireReceiverFile where
  filename : Str
  data : List UInt8
  subject : Str
  id : Str
  issueUtc : ℤ
  ttaaii : Str
  cccc : Str
  awipsid : Str
  delayStampUtc : Option ℤ
  deriving DecidableEq, Repr

/-- Warnings of the decoder and of the client. -/
inductive WxWireReceiverWarning where
  | missingNwwsNamespace
  | emptyBody
  | timestampParseFallback (raw : Str)
  | decoderRecovered (error : Str)
  | handlerError (message : Str)
  | backpressureDrop (droppedSinceLastReport totalDroppedEvents : ℕ)
  | transportError (message : Str)
  deriving DecidableEq, Repr

/-- What the decoder emits. -/
inductive WxWireReceiverFrameEvent where
  | file (file : WxWireReceiverFile)
  | warning (w : WxWireReceiverWarning)
  deriving DecidableEq, Repr

/-- What can be wrong with a stanza. -/
inductive WxWireDecodeError where
  | invalidXml (reason : Str)
  | notMessageStanza
  | missingPayload
  | emptyPayload
  deriving DecidableEq, Repr

/-- `Display` of a decode error. -/
def WxWireDecodeError.toText : WxWireDecodeError → Str
  | .invalidXml reason => "invalid xml stanza: ".toList ++ reason
  | .notMessageStanza => "not an xmpp <message/> stanza".toList
  | .missingPayload => "missing nwws-oi payload".toList
  | .emptyPayload => "weather wire payload is empty".toList

/-- What the decoder takes from its libraries.  An element is an arbitrary type: only a
message made of it is looked into. -/
structure WxWireEnv (Element : Type) where
  /-- `str::parse::<Element>`, or the text of its error. -/
  parseElement : Str → Except Str Element
  /-- `Message::try_from`. -/
  toMessage : Element → Option Message
  /-- `OffsetDateTime::parse` for RFC 3339: Unix seconds and nanoseconds. -/
  parseRfc3339 : Str → Option (ℤ × ℕ)
  /-- `Delay::try_from`: the stamp of a delay payload. -/
  delayStamp : Payload → Option (ℤ × ℕ)
  /-- `SystemTime::now`. -/
  now : ℤ

/-! ## The namespace of the root element -/

/-- The namespace of XMPP clients. -/
def CLIENT_NS : Str := "jabber:client".toList

/-- The offset of the first occurrence of a character. -/
def offsetOf (c : Char) (s : Str) : Option ℕ :=
  if c ∈ s then some (Str.byteLen (s.takeWhile (· ≠ c))) else none

/-- Whether a tag is none that opens the root element, or names a namespace already. -/
def isComplete (openTag : Str) : Bool :=
  "</".toList <+: openTag ∨ "<?".toList <+: openTag ∨ "<!".toList <+: openTag ∨
    "xmlns=".toList <:+: openTag ∨ "xmlns:".toList <:+: openTag

/-- `add_default_client_ns_on_root`; `none` is a slice inside a character. -/
def addDefaultClientNsOnRoot (xml : Str) : Option Str :=
  match offsetOf '<' xml with
  | none => some xml
  | some openStart => do
      let tail ← Str.sliceFrom openStart xml
      match offsetOf '>' tail with
      | none => some xml
      | some openEndRel =>
          let openEnd := openStart + openEndRel
          let openTag ← Str.slice openStart (openEnd + 1) xml
          if isComplete openTag then some xml
          else
            let insertAt := if "/>".toList <:+ openTag then openEnd - 1 else openEnd
            let before ← Str.sliceTo insertAt xml
            let after ← Str.sliceFrom insertAt xml
            some (before ++ " xmlns='".toList ++ CLIENT_NS ++ ['\''] ++ after)

/-! ## From a message to a file -/

/-- `chrono_to_system_time`. -/
def chronoToSystemTime (seconds : ℤ) (nanos : ℕ) : ℤ :=
  if 0 ≤ seconds then seconds * 1000000000 + nanos
  else -(seconds.natAbs * 1000000000 + nanos : ℤ)

/-- `build_filename`. -/
def buildFilename (awipsid ttaaii cccc id : Str) (issueUtc : ℤ) : Str :=
  if awipsid ≠ [] ∧ awipsid ≠ "NONE".toList then awipsid ++ ".TXT".toList
  else if ttaaii ≠ [] ∧ cccc ≠ [] then ttaaii ++ '_' :: cccc ++ ".TXT".toList
  else if id ≠ [] then id ++ ".TXT".toList
  else
    -- times before the epoch count as the epoch
    "wxwire_".toList ++ Str.ofNat (issueUtc.toNat / 1000000000) ++ ".TXT".toList

/-- `convert_to_noaaport`. -/
def convertToNoaaport (text : Str) : Str :=
  let noaaport := '\x01' :: replaceAll ['\n', '\n'] ['\r', '\r', '\n'] text
  (if noaaport.getLast? = some '\n' then noaaport else noaaport ++ ['\r', '\r', '\n']) ++ ['\x03']

section Decoder

variable {Element : Type} (env : WxWireEnv Element)

/-- `parse_timestamp_or_now`. -/
def parseTimestampOrNow (raw : Str) : ℤ × Option WxWireReceiverWarning :=
  match env.parseRfc3339 raw with
  | some (seconds, nanos) => (chronoToSystemTime seconds nanos, none)
  | none => (env.now, if raw = [] then none else some (.timestampParseFallback raw))

/-- The attribute of a payload, trimmed. -/
def trimmedAttr (payload : Payload) (name : String) : Str :=
  Str.trim ((payload.attr name).getD [])

/-- The payload with the bulletin. -/
def nwwsPayload (message : Message) : Option Payload :=
  message.payloads.find? fun p => p.name = "x".toList ∧ p.ns = "nwws-oi".toList

/-- The stamp of the first delay payload that has one. -/
def delayStampUtc (message : Message) : Option ℤ :=
  message.payloads.findSome? fun p =>
    if p.name ≠ "delay".toList ∨ p.ns ≠ "urn:xmpp:delay".toList then none
    else (env.delayStamp p).map fun stamp => chronoToSystemTime stamp.1 stamp.2

/-- The file and the warning that `parse_message_to_file` makes of a payload and its text. -/
def fileOf (message : Message) (payload : Payload) (body : Str) :
    WxWireReceiverFile × Option WxWireReceiverWarning :=
  let id := trimmedAttr payload "id"
  let ttaaii := trimmedAttr payload "ttaaii"
  let cccc := trimmedAttr payload "cccc"
  let awipsid :=
    if trimmedAttr payload "awipsid" ≠ [] then trimmedAttr payload "awipsid" else "NONE".toList
  let issue := parseTimestampOrNow env (trimmedAttr payload "issue")
  ({ filename := buildFilename awipsid ttaaii cccc id issue.1
     data := Utf8.encode (convertToNoaaport body)
     subject := (message.bestBody.or message.bestSubject).getD []
     id, issueUtc := issue.1, ttaaii, cccc, awipsid
     delayStampUtc := delayStampUtc env message }, issue.2)

/-- `parse_message_to_file`. -/
def parseMessageToFile (message : Message) :
    Except WxWireDecodeError (WxWireReceiverFile × Option WxWireReceiverWarning) :=
  match nwwsPayload message with
  | none => .error .missingPayload
  | some payload =>
      if Str.trim payload.text = [] then .error .emptyPayload
      else .ok (fileOf env message payload (Str.trim payload.text))

/-- The warning for a message that is no file. -/
def decodeWarning : WxWireDecodeError → WxWireReceiverWarning
  | .missingPayload => .missingNwwsNamespace
  | .emptyPayload => .emptyBody
  | other => .decoderRecovered other.toText

/-- `feed_message`. -/
def feedMessage (message : Message) : List WxWireReceiverFrameEvent :=
  match parseMessageToFile env message with
  | .ok (file, warning) => (warning.map .warning).toList ++ [.file file]
  | .error e => [.warning (decodeWarning e)]

/-- `parse_message_element`: a second attempt supplies the namespace. -/
def parseMessageElement (stanza : Str) : Option (Except Str Element) :=
  match env.parseElement stanza with
  | .ok element => some (.ok element)
  | .error _ => (addDefaultClientNsOnRoot stanza).map env.parseElement

/-- `feed`; `none` is a panic. -/
def feed (stanza : Str) : Option (Except WxWireDecodeError (List WxWireReceiverFrameEvent)) := do
  match ← parseMessageElement env (Str.trim stanza) with
  | .error reason => some (.error (.invalidXml reason))
  | .ok element =>
      match env.toMessage element with
      | none => some (.error .notMessageStanza)
      | some message => some (.ok (feedMessage env message))

end Decoder

end WxWire

/-!
# The namespace of the root element

`add_default_client_ns_on_root` cuts the text of a stanza at the ends of its first tag.  The
offsets lie beside ASCII characters, so the cuts are between characters in every text; the
namespace is inserted into a tag that names none, and then the tag names one, so that a
second call changes nothing.
-/

namespace WxWire

variable {a m t : Str} {c : Char}

/-! ## Where the first tag is -/

theorem offsetOf_append (h : c ∉ a) (t : Str) : offsetOf c (a ++ c :: t) = some (Str.byteLen a) := by
  have hall : ∀ d ∈ a, decide (d ≠ c) = true := by
    intro d hd
    rw [decide_eq_true_eq]
    rintro rfl
    exact h hd
  unfold offsetOf
  rw [if_pos (by simp), List.takeWhile_append_of_pos hall, List.takeWhile_cons_of_neg (by simp),
    List.append_nil]

theorem offsetOf_eq_none (h : c ∉ a) : offsetOf c a = none := if_neg h

/-- The tag that `add_default_client_ns_on_root` looks at. -/
structure FirstTag (xml a m t : Str) : Prop where
  eq : xml = a ++ ('<' :: m ++ '>' :: t)
  before : '<' ∉ a
  inside : '>' ∉ m

/-- A text has a first tag, or there is nothing to look at. -/
theorem exists_firstTag (xml : Str) : (∃ a m t, FirstTag xml a m t) ∨ '<' ∉ xml ∨
    ∃ a tail, xml = a ++ '<' :: tail ∧ '<' ∉ a ∧ '>' ∉ '<' :: tail := by
  by_cases hopen : '<' ∈ xml
  · obtain ⟨a, tail, rfl, ha⟩ := List.eq_append_cons_of_mem hopen
    by_cases hclose : '>' ∈ tail
    · obtain ⟨m, t, rfl, hm⟩ := List.eq_append_cons_of_mem hclose
      exact Or.inl ⟨a, m, t, by simp, ha, hm⟩
    · refine Or.inr (Or.inr ⟨a, tail, rfl, ha, ?_⟩)
      simpa using hclose
  · exact Or.inr (Or.inl hopen)

/-- The inserted text. -/
def insertedNs : Str := " xmlns='".toList ++ CLIENT_NS ++ ['\'']

/-- A tag that is closed at its end. -/
theorem eq_concat_of_slash (h : "/>".toList <:+ '<' :: m ++ ['>']) : m = m.dropLast ++ ['/'] := by
  obtain ⟨front, hfront⟩ := h
  have hcut : front ++ ['/'] = '<' :: m := by
    have hends : (front ++ ['/']) ++ ['>'] = ('<' :: m) ++ ['>'] := by
      rw [← hfront]
      simp
    exact List.append_cancel_right hends
  cases front with
  | nil => cases hcut
  | cons d front =>
      obtain rfl : front ++ ['/'] = m := (List.cons.inj hcut).2
      rw [List.dropLast_concat]

/-- Inserting the namespace at the end of a prefix. -/
theorem insert_at {xml before after : Str} {n : ℕ} (h : xml = before ++ after)
    (hn : n = Str.byteLen before) :
    ((Str.sliceTo n xml).bind fun front => (Str.sliceFrom n xml).bind fun back =>
      some (front ++ " xmlns='".toList ++ CLIENT_NS ++ ['\''] ++ back)) =
      some (before ++ insertedNs ++ after) := by
  have hassoc : ∀ x y z : Str, before ++ x ++ y ++ z ++ after = before ++ (x ++ y ++ z) ++ after := by
    intro x y z
    simp only [List.append_assoc]
  rw [h, hn, Str.sliceTo_append, Str.sliceFrom_append]
  exact congrArg some (hassoc _ _ _)

/-- What the function does with a first tag. -/
theorem addDefaultClientNs_firstTag {xml : Str} (h : FirstTag xml a m t) :
    addDefaultClientNsOnRoot xml =
      if isComplete ('<' :: m ++ ['>']) then some xml
      else if "/>".toList <:+ '<' :: m ++ ['>'] then
        some (a ++ '<' :: m.dropLast ++ insertedNs ++ ("/>".toList ++ t))
      else some (a ++ '<' :: m ++ insertedNs ++ '>' :: t) := by
  obtain ⟨rfl, ha, hm⟩ := h
  have hone : ∀ s : Str, Str.byteLen (s ++ ['>']) = Str.byteLen s + 1 := fun s => by
    rw [Str.byteLen_append]
    rfl
  have hclose : '>' ∉ '<' :: m := by simpa using hm
  have htail : Str.sliceFrom (Str.byteLen a) (a ++ ('<' :: m ++ '>' :: t)) =
      some ('<' :: m ++ '>' :: t) := Str.sliceFrom_append _ _
  have htag : Str.slice (Str.byteLen a) (Str.byteLen a + Str.byteLen ('<' :: m) + 1)
      (a ++ ('<' :: m ++ '>' :: t)) = some ('<' :: m ++ ['>']) := by
    have hslice := Str.slice_append a ('<' :: m ++ ['>']) t
    rw [hone, ← Nat.add_assoc] at hslice
    rw [← hslice]
    simp
  unfold addDefaultClientNsOnRoot
  rw [List.cons_append, offsetOf_append ha]
  dsimp only
  rw [← List.cons_append, htail]
  simp only [Option.bind_eq_bind, Option.bind_some]
  rw [offsetOf_append hclose]
  simp only [htag, Option.bind_some]
  split
  · rfl
  · by_cases hslash : "/>".toList <:+ '<' :: m ++ ['>']
    · -- the slash is the last character in front of the end of the tag
      have hm' : '<' :: m = '<' :: m.dropLast ++ ['/'] :=
        congrArg (List.cons '<') (eq_concat_of_slash hslash)
      have hslashLen : Str.byteLen ['/'] = 1 := rfl
      have hend : Str.byteLen a + Str.byteLen ('<' :: m) - 1 =
          Str.byteLen (a ++ '<' :: m.dropLast) := by
        rw [hm', Str.byteLen_append, Str.byteLen_append, hslashLen]
        omega
      have hsplit : a ++ ('<' :: m ++ '>' :: t) =
          (a ++ '<' :: m.dropLast) ++ ("/>".toList ++ t) := by
        rw [hm']
        simp
      rw [if_pos hslash, if_pos hslash]
      exact insert_at hsplit hend
    · have hend : Str.byteLen a + Str.byteLen ('<' :: m) = Str.byteLen (a ++ '<' :: m) :=
        (Str.byteLen_append _ _).symm
      have hsplit : a ++ ('<' :: m ++ '>' :: t) = (a ++ '<' :: m) ++ '>' :: t := by simp
      rw [if_neg hslash, if_neg hslash]
      exact insert_at hsplit hend

/-- **The namespace is inserted once.**  No text makes the function panic; it leaves the text
as it is or inserts the namespace into it, and a second call changes nothing. -/
theorem addDefaultClientNs_once (xml : Str) : ∃ out, addDefaultClientNsOnRoot xml = some out ∧
    (out = xml ∨ ∃ before after, xml = before ++ after ∧
      out = before ++ " xmlns='jabber:client'".toList ++ after) ∧
    addDefaultClientNsOnRoot out = some out := by
  rcases exists_firstTag xml with ⟨a, m, t, h⟩ | hopen | ⟨a, tail, rfl, ha, hclose⟩
  · have hfirst := addDefaultClientNs_firstTag h
    -- a tag with the namespace is complete
    have hagain : ∀ {m' t' : Str}, '>' ∉ m' → insertedNs <:+: m' →
        addDefaultClientNsOnRoot (a ++ ('<' :: m' ++ '>' :: t')) =
          some (a ++ ('<' :: m' ++ '>' :: t')) := by
      intro m' t' hm' hns
      have hcomplete : isComplete ('<' :: m' ++ ['>']) = true := by
        have hin : "xmlns=".toList <:+: '<' :: m' ++ ['>'] := by
          refine List.IsInfix.trans (by decide : "xmlns=".toList <:+: insertedNs) ?_
          refine hns.trans ?_
          exact (List.suffix_cons _ _).isInfix.trans (List.prefix_append _ _).isInfix
        unfold isComplete
        rw [decide_eq_true_eq]
        exact Or.inr (Or.inr (Or.inr (Or.inl hin)))
      rw [addDefaultClientNs_firstTag ⟨rfl, h.before, hm'⟩, if_pos hcomplete]
    have hns : '>' ∉ insertedNs := by decide
    by_cases hcomplete : isComplete ('<' :: m ++ ['>']) = true
    · rw [if_pos hcomplete] at hfirst
      exact ⟨xml, hfirst, Or.inl rfl, hfirst⟩
    · rw [if_neg hcomplete] at hfirst
      split at hfirst
      · next hslash =>
          have hm := eq_concat_of_slash hslash
          have hout : a ++ '<' :: m.dropLast ++ insertedNs ++ ("/>".toList ++ t) =
              a ++ ('<' :: (m.dropLast ++ insertedNs ++ ['/']) ++ '>' :: t) := by simp
          refine ⟨_, hfirst, Or.inr ⟨a ++ '<' :: m.dropLast, "/>".toList ++ t, ?_, rfl⟩, ?_⟩
          · rw [h.eq]
            nth_rewrite 1 [hm]
            simp
          · rw [hout]
            refine hagain ?_ ((List.suffix_append _ _).isInfix.trans (List.prefix_append _ _).isInfix)
            intro hmem
            rcases List.mem_append.mp hmem with hmem | hmem
            · rcases List.mem_append.mp hmem with hmem | hmem
              · exact h.inside (List.mem_of_mem_dropLast hmem)
              · exact hns hmem
            · exact absurd hmem (by decide)
      · next hslash =>
          have hout : a ++ '<' :: m ++ insertedNs ++ '>' :: t =
              a ++ ('<' :: (m ++ insertedNs) ++ '>' :: t) := by simp
          refine ⟨_, hfirst, Or.inr ⟨a ++ '<' :: m, '>' :: t, ?_, rfl⟩, ?_⟩
          · rw [h.eq]
            simp
          · rw [hout]
            refine hagain ?_ (List.suffix_append _ _).isInfix
            rw [List.mem_append, not_or]
            exact ⟨h.inside, hns⟩
  · have hnone : addDefaultClientNsOnRoot xml = some xml := by
      unfold addDefaultClientNsOnRoot
      rw [offsetOf_eq_none hopen]
    exact ⟨xml, hnone, Or.inl rfl, hnone⟩
  · have hnone : addDefaultClientNsOnRoot (a ++ '<' :: tail) = some (a ++ '<' :: tail) := by
      unfold addDefaultClientNsOnRoot
      rw [offsetOf_append ha]
      dsimp only
      rw [Str.sliceFrom_append]
      simp only [Option.bind_eq_bind, Option.bind_some]
      rw [offsetOf_eq_none hclose]
    exact ⟨_, hnone, Or.inl rfl, hnone⟩

end WxWire
