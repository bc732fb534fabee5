/-
# Logons cut into chunks

A client may send anything in front of its logon message, and the message may arrive in
any pieces.  For ASCII the parser's cuts lie between characters, so what it keeps of a
stream is the stream's last 8192 characters (`consume_of_ascii`).  As long as the message
is incomplete nothing is taken out of them (`takeLogon_of_incomplete`); they reach back to
the beginning of the message, and once it is complete it is what is taken out
(`takeLogon_of_complete`).
-/
import Emwin.Relay.AuthParser

namespace Relay

open Qbt ListSearch

/-! ## Texts with a logon message at their end -/

theorem unbordered_LOGON_PREFIX : Unbordered LOGON_PREFIX := by decide

theorem unbordered_LOGON_SUFFIX : Unbordered LOGON_SUFFIX := by decide

/-- An email that is read back from its logon message. -/
structure IsLogonEmail (email : Str) : Prop where
  nonempty : email ≠ []
  /-- It does not begin with white space. -/
  head : ∀ c ∈ email.head?, Str.isWhitespace c = false
  /-- It does not end with white space. -/
  last : ∀ c ∈ email.getLast?, Str.isWhitespace c = false
  /-- It does not contain the end of a message. -/
  noSuffix : ¬ LOGON_SUFFIX <:+: email

variable {email noise : Str}

/-- A logon message is read back. -/
theorem parseLogonMessage_build (hemail : IsLogonEmail email) :
    parseLogonMessage (buildLogonMessage email) = some ⟨email⟩ := by
  have hfront : Str.stripPrefix LOGON_PREFIX (buildLogonMessage email) =
      some (email ++ LOGON_SUFFIX) := by
    rw [Str.stripPrefix, buildLogonMessage, List.append_assoc, if_pos (List.prefix_append _ _),
      List.drop_left]
  have hsuffix : Str.stripSuffix LOGON_SUFFIX (email ++ LOGON_SUFFIX) = some email := by
    rw [Str.stripSuffix, if_pos (List.suffix_append _ _), List.length_append,
      Nat.add_sub_cancel, List.take_left]
  have htrim : Str.trim email = email := Str.trim_eq_self hemail.head hemail.last
  rw [parseLogonMessage, hfront]
  simp [hsuffix, htrim, hemail.nonempty]

/-- Before the message is complete, nothing is taken out. -/
theorem takeLogon_of_incomplete (hnoise : ¬ LOGON_PREFIX <:+: noise)
    (hemail : ¬ LOGON_SUFFIX <:+: email) {text : Str}
    (htext : text <+: noise ++ buildLogonMessage email)
    (hlt : text.length < (noise ++ buildLogonMessage email).length) :
    takeLogon text = (none, ⟨text⟩) := by
  have hassoc : noise ++ buildLogonMessage email =
      noise ++ (LOGON_PREFIX ++ (email ++ LOGON_SUFFIX)) := by
    rw [buildLogonMessage, List.append_assoc]
  rw [hassoc] at htext hlt
  unfold takeLogon
  cases hstart : Str.find LOGON_PREFIX text with
  | none => rfl
  | some start =>
      -- the first prefix is the one of the message
      have hat : start = noise.length := by
        obtain ⟨rest, hrest⟩ := htext
        have hlater := findSub_append_of_some hstart rest
        rw [hrest, unbordered_LOGON_PREFIX.findSub_append hnoise] at hlater
        exact (Option.some.inj hlater).symm
      have hin := add_length_le_of_findSub hstart
      have hdrop : text.drop (start + LOGON_PREFIX.length) <+: email ++ LOGON_SUFFIX := by
        have hcut := htext.drop (noise ++ LOGON_PREFIX).length
        rwa [← List.append_assoc, List.drop_left, List.length_append, ← hat] at hcut
      have hnone : Str.find LOGON_SUFFIX (text.drop (start + LOGON_PREFIX.length)) = none := by
        refine unbordered_LOGON_SUFFIX.findSub_eq_none hemail hdrop ?_
        simp only [List.length_append] at hlt
        rw [List.length_drop]
        omega
      dsimp only
      rw [hnone]

/-- Once it is complete, the email is taken out of it, and nothing of it is left. -/
theorem takeLogon_of_complete (hnoise : ¬ LOGON_PREFIX <:+: noise)
    (hemail : IsLogonEmail email) :
    takeLogon (noise ++ buildLogonMessage email) = (some email, ⟨[]⟩) := by
  have hassoc : noise ++ buildLogonMessage email =
      noise ++ (LOGON_PREFIX ++ (email ++ LOGON_SUFFIX)) := by
    rw [buildLogonMessage, List.append_assoc]
  have hstart : Str.find LOGON_PREFIX (noise ++ buildLogonMessage email) = some noise.length := by
    rw [hassoc]
    exact unbordered_LOGON_PREFIX.findSub_append hnoise _
  have hdrop : (noise ++ buildLogonMessage email).drop (noise.length + LOGON_PREFIX.length) =
      email ++ LOGON_SUFFIX := by
    rw [hassoc, ← List.append_assoc, ← List.length_append, List.drop_left]
  have hsuffix : Str.find LOGON_SUFFIX (email ++ LOGON_SUFFIX) = some email.length := by
    have := unbordered_LOGON_SUFFIX.findSub_append hemail.noSuffix []
    rwa [List.append_nil] at this
  have hstop : noise.length + LOGON_PREFIX.length + email.length + LOGON_SUFFIX.length =
      (noise ++ buildLogonMessage email).length := by
    rw [hassoc]
    simp only [List.length_append]
    omega
  unfold takeLogon
  rw [hstart]
  dsimp only
  rw [hdrop, hsuffix]
  dsimp only
  rw [hstop, List.take_length, List.drop_length, List.drop_left, parseLogonMessage_build hemail]
  rfl

/-! ## What the parser keeps of ASCII -/

/-- A chunk of an ASCII text is put behind the text, of which the last 8192 characters are
kept. -/
theorem consume_of_ascii {kept text : Str} (hkept : Str.IsAscii kept)
    (htext : Str.IsAscii text) :
    AuthParser.consume ⟨kept⟩ (xorFf (Utf8.encode text)) =
      some (takeLogon ((kept ++ text).rtake DECODED_TEXT_BYTES)) := by
  have hall : Str.IsAscii (kept ++ text) := hkept.append htext
  rw [AuthParser.consume, xorFf_xorFf, Utf8.decodeLossy_encode, keepTrailing,
    Str.byteLen_of_ascii hall]
  split
  · next hlong =>
      rw [Str.sliceFrom_of_ascii hall (Nat.sub_le _ _)]
      rfl
  · next hshort =>
      rw [rtake_of_length_le (Nat.not_lt.mp hshort)]
      rfl

/-- The chunks of an encoded ASCII text are those of its pieces. -/
theorem exists_pieces {text : Str} (htext : Str.IsAscii text) {chunks : List (List UInt8)}
    (h : chunks.flatten = xorFf (Utf8.encode text)) :
    ∃ pieces : List Str, pieces.flatten = text ∧
      chunks = pieces.map fun piece => xorFf (Utf8.encode piece) := by
  induction chunks generalizing text with
  | nil =>
      have hnil : Utf8.encode text = [] := by simpa using (congrArg xorFf h).symm
      have := Utf8.decodeLossy_encode text
      rw [hnil] at this
      exact ⟨[], this, rfl⟩
  | cons chunk chunks ih =>
      have hcut : Utf8.encode text = xorFf chunk ++ xorFf chunks.flatten := by
        rw [← xorFf_append, ← List.flatten_cons, h, xorFf_xorFf]
      obtain ⟨piece, rest, rfl, hpiece, hrest⟩ := Utf8.exists_encode_append hcut (by
        intro b hb
        apply Str.isContinuation_of_ascii htext
        rw [hcut]
        exact List.mem_append_right _ (List.mem_of_head? hb))
      have hascii : Str.IsAscii rest := fun c hc => htext c (List.mem_append_right _ hc)
      obtain ⟨pieces, rfl, rfl⟩ := ih hascii (by rw [← hrest, xorFf_xorFf])
      refine ⟨piece :: pieces, rfl, ?_⟩
      rw [List.map_cons, ← hpiece, xorFf_xorFf]

/-! ## Runs of the parser -/

/-- What the parser returns for each of several chunks, and the parser after them. -/
def AuthParser.consumeAll :
    AuthParser → List (List UInt8) → Option (List (Option Str) × AuthParser)
  | p, [] => some ([], p)
  | p, wire :: wires => do
      let (found, p) ← p.consume wire
      let (rest, p) ← p.consumeAll wires
      some (found :: rest, p)

theorem consumeAll_cons {p q r : AuthParser} {wire : List UInt8} {wires : List (List UInt8)}
    {found : Option Str} {rest : List (Option Str)} (hconsume : p.consume wire = some (found, q))
    (hrest : q.consumeAll wires = some (rest, r)) :
    p.consumeAll (wire :: wires) = some (found :: rest, r) := by
  rw [AuthParser.consumeAll, hconsume]
  show (q.consumeAll wires).bind _ = _
  rw [hrest]
  rfl

/-- The last characters of a stream with a short message at its end. -/
theorem exists_rtake_eq (text : Str) {message : Str}
    (hshort : message.length ≤ DECODED_TEXT_BYTES) :
    ∃ d, (text ++ message).rtake DECODED_TEXT_BYTES = text.drop d ++ message := by
  refine ⟨(text ++ message).length - DECODED_TEXT_BYTES, ?_⟩
  rw [List.rtake, List.drop_append_of_le_length]
  rw [List.length_append]
  omega

/-- What is not in a text is not in its end. -/
theorem not_infix_drop {needle text : Str} (h : ¬ needle <:+: text) (d : ℕ) :
    ¬ needle <:+: text.drop d := fun hin => h (hin.trans (List.drop_suffix d text).isInfix)

/-- Nothing is taken out of the end of an incomplete stream either. -/
theorem takeLogon_rtake_of_incomplete (hnoise : ¬ LOGON_PREFIX <:+: noise)
    (hemail : ¬ LOGON_SUFFIX <:+: email)
    (hshort : (buildLogonMessage email).length ≤ DECODED_TEXT_BYTES) {text : Str}
    (htext : text <+: noise ++ buildLogonMessage email)
    (hlt : text.length < (noise ++ buildLogonMessage email).length) :
    takeLogon (text.rtake DECODED_TEXT_BYTES) = (none, ⟨text.rtake DECODED_TEXT_BYTES⟩) := by
  -- what is given up belongs to the noise
  have hd : text.length - DECODED_TEXT_BYTES ≤ noise.length := by
    rw [List.length_append] at hlt
    omega
  have hcut := htext.drop (text.length - DECODED_TEXT_BYTES)
  rw [List.drop_append_of_le_length hd] at hcut
  refine takeLogon_of_incomplete (not_infix_drop hnoise _) hemail hcut ?_
  rw [length_rtake, List.length_append, List.length_drop]
  rw [List.length_append] at hlt
  omega

/-- Nothing comes of chunks without bytes. -/
theorem consumeAll_of_empty {pieces : List Str} (h : pieces.flatten = []) :
    AuthParser.consumeAll ⟨[]⟩ (pieces.map fun piece => xorFf (Utf8.encode piece)) =
      some (List.replicate pieces.length none, ⟨[]⟩) := by
  induction pieces with
  | nil => rfl
  | cons piece pieces ih =>
      rw [List.flatten_cons, List.append_eq_nil_iff] at h
      obtain ⟨rfl, hrest⟩ := h
      exact consumeAll_cons rfl (ih hrest)

/-- **Run.**  From the last characters of a stream on, whose rest completes the message. -/
theorem consumeAll_of_pieces (hnoise : ¬ LOGON_PREFIX <:+: noise) (hemail : IsLogonEmail email)
    (hshort : (buildLogonMessage email).length ≤ DECODED_TEXT_BYTES)
    (hascii : Str.IsAscii (noise ++ buildLogonMessage email)) (received : Str)
    (pieces : List Str) (h : received ++ pieces.flatten = noise ++ buildLogonMessage email)
    (hne : pieces.flatten ≠ []) :
    ∃ front last back, pieces = front ++ last :: back ∧ last ≠ [] ∧ (∀ piece ∈ back, piece = []) ∧
      AuthParser.consumeAll ⟨received.rtake DECODED_TEXT_BYTES⟩
          (pieces.map fun piece => xorFf (Utf8.encode piece)) =
        some (List.replicate front.length none ++ some email :: List.replicate back.length none,
          ⟨[]⟩) := by
  induction pieces generalizing received with
  | nil => exact absurd rfl hne
  | cons piece pieces ih =>
      rw [List.flatten_cons, ← List.append_assoc] at h
      have hreceived : Str.IsAscii (received ++ piece) := by
        intro c hc
        apply hascii
        rw [← h]
        exact List.mem_append_left _ hc
      have hkept : Str.IsAscii (received.rtake DECODED_TEXT_BYTES) := by
        intro c hc
        exact hreceived c (List.mem_append_left _ (mem_of_mem_rtake hc))
      have hpiece : Str.IsAscii piece := fun c hc => hreceived c (List.mem_append_right _ hc)
      have hconsume : AuthParser.consume ⟨received.rtake DECODED_TEXT_BYTES⟩
          (xorFf (Utf8.encode piece)) =
            some (takeLogon ((received ++ piece).rtake DECODED_TEXT_BYTES)) := by
        rw [consume_of_ascii hkept hpiece, rtake_rtake_append]
      by_cases hrest : pieces.flatten = []
      · -- this piece completes the message
        obtain ⟨d, hd⟩ := exists_rtake_eq noise hshort
        rw [hrest, List.append_nil] at h
        rw [h, hd, takeLogon_of_complete (not_infix_drop hnoise d) hemail] at hconsume
        refine ⟨[], piece, pieces, rfl, ?_, List.flatten_eq_nil_iff.mp hrest, ?_⟩
        · rintro rfl
          exact hne hrest
        · have hempty := consumeAll_of_empty hrest
          exact consumeAll_cons hconsume hempty
      · have hlt : (received ++ piece).length < (noise ++ buildLogonMessage email).length := by
          have hpos := List.length_pos_iff.mpr hrest
          have hlen := congrArg List.length h
          rw [List.length_append] at hlen
          omega
        rw [takeLogon_rtake_of_incomplete hnoise hemail.noSuffix hshort ⟨_, h⟩ hlt] at hconsume
        obtain ⟨front, last, back, rfl, hlast, hback, hrun⟩ := ih (received ++ piece) h hrest
        exact ⟨piece :: front, last, back, rfl, hlast, hback, consumeAll_cons hconsume hrun⟩

/-- **Logon round trip.**  However an encoded logon message with noise in front of it is
cut into chunks, the parser returns nothing for all chunks but the one that completes the
message, the email for that one, and keeps no text. -/
theorem logon_roundtrip {email noise : Str} (hemailAscii : Str.IsAscii email)
    (hemail : IsLogonEmail email)
    (hshort : Str.byteLen (buildLogonMessage email) ≤ DECODED_TEXT_BYTES)
    (hnoiseAscii : Str.IsAscii noise) (hnoise : ¬ LOGON_PREFIX <:+: noise)
    (chunks : List (List UInt8))
    (hchunks : chunks.flatten = xorFf (Utf8.encode (noise ++ buildLogonMessage email))) :
    ∃ front last back, chunks = front ++ last :: back ∧ last ≠ [] ∧ (∀ chunk ∈ back, chunk = []) ∧
      AuthParser.default.consumeAll chunks =
        some (List.replicate front.length none ++ some email :: List.replicate back.length none,
          ⟨[]⟩) := by
  have hmessage : Str.IsAscii (buildLogonMessage email) := by
    have hfront : Str.IsAscii LOGON_PREFIX := by decide
    have hsuffix : Str.IsAscii LOGON_SUFFIX := by decide
    exact (hfront.append hemailAscii).append hsuffix
  have hascii : Str.IsAscii (noise ++ buildLogonMessage email) := hnoiseAscii.append hmessage
  rw [Str.byteLen_of_ascii hmessage] at hshort
  obtain ⟨pieces, hpieces, rfl⟩ := exists_pieces hascii hchunks
  have hne : pieces.flatten ≠ [] := by
    rw [hpieces, buildLogonMessage]
    intro hnil
    have hlen := congrArg List.length hnil
    simp [LOGON_SUFFIX] at hlen
  obtain ⟨front, last, back, rfl, hlast, hback, hrun⟩ :=
    consumeAll_of_pieces hnoise hemail hshort hascii [] pieces hpieces hne
  refine ⟨front.map fun piece => xorFf (Utf8.encode piece), xorFf (Utf8.encode last),
    back.map fun piece => xorFf (Utf8.encode piece), by simp, ?_, ?_, ?_⟩
  · intro hnil
    have hencode := congrArg xorFf hnil
    rw [xorFf_xorFf] at hencode
    have hdecode := Utf8.decodeLossy_encode last
    rw [hencode] at hdecode
    exact hlast hdecode.symm
  · intro chunk hchunk
    obtain ⟨piece, hpiece, rfl⟩ := List.mem_map.mp hchunk
    rw [hback piece hpiece]
    rfl
  · rw [List.length_map, List.length_map]
    exact hrun

/-- A logon behind some noise, cut inside its prefix and inside its suffix. -/
theorem logon_roundtrip_user :
    ∃ front last back,
      [xorFf (Utf8.encode "hello ByteBl".toList),
        xorFf (Utf8.encode "ast Client|NM-user@example.com|".toList),
        xorFf (Utf8.encode "V2".toList)] = front ++ last :: back ∧
      last ≠ [] ∧ (∀ chunk ∈ back, chunk = []) ∧
      AuthParser.default.consumeAll
          [xorFf (Utf8.encode "hello ByteBl".toList),
            xorFf (Utf8.encode "ast Client|NM-user@example.com|".toList),
            xorFf (Utf8.encode "V2".toList)] =
        some (List.replicate front.length none ++
          some "user@example.com".toList :: List.replicate back.length none, ⟨[]⟩) :=
  have hnoise : ¬ LOGON_PREFIX <:+: "hello ".toList := by decide
  have hemail : IsLogonEmail "user@example.com".toList :=
    ⟨by decide, by rintro _ ⟨⟩; rfl, by rintro _ ⟨⟩; rfl, by decide⟩
  logon_roundtrip (by decide) hemail (by decide) (by decide) hnoise _ (by decide)

end Relay
