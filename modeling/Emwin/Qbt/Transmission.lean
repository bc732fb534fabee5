/-
# A transmission read back

What a sender puts on the wire, in the way the tests of `protocol/codec.rs` build
it: `build_header` prints the tags of a data block and pads them to 80 bytes, and
`frame_with_body` puts the sync marker in front and the body behind.  Server lists,
printed by `build_server_list_wire`, stand between the blocks.

A decoder that stands at the start of a frame reads one frame and stands there
again (`feed_frame`), so a whole transmission is read frame by frame, and by the
independence of the cuts it is read the same way in whatever pieces it arrives.
-/
import Emwin.Lib.Layout
import Emwin.Lib.Slices
import Emwin.Qbt.SelfSync
import Emwin.Qbt.ServerListWire

namespace Qbt

open ListSearch StepLoop

/-! ## What a sender prints -/

/-- One data block as its sender has it: what the header says, the bytes of the body
and the content these bytes stand for. -/
structure OutgoingBlock where
  filename : Str
  blockNumber : UInt32
  totalBlocks : UInt32
  fd : Str
  version : QbtProtocolVersion
  body : List UInt8
  content : List UInt8
  deriving DecidableEq, Repr

/-- The tags of a header: the optional `/DL` announces the body of a V2 frame. -/
def OutgoingBlock.tags (b : OutgoingBlock) : Str :=
  "/PF".toList ++ b.filename ++ " /PN ".toList ++ Str.ofNat b.blockNumber.toNat
    ++ " /PT ".toList ++ Str.ofNat b.totalBlocks.toNat
    ++ " /CS ".toList ++ Str.ofNat (calculateQbtChecksum b.content) ++ " /FD".toList ++ b.fd
    ++ match b.version with
      | .v1 => []
      | .v2 => " /DL".toList ++ Str.ofNat b.body.length

/-- `build_header` of the tests: the tags and a line end, padded with blanks. -/
def buildHeader (b : OutgoingBlock) : List UInt8 :=
  let raw := Utf8.encode (b.tags ++ "\r\n".toList)
  (raw ++ List.replicate (HEADER_SIZE - raw.length) 0x20).take HEADER_SIZE

/-- What a sender puts between two sync markers. -/
inductive Frame where
  | block (b : OutgoingBlock)
  | serverList (servers : List (Str × UInt16))
  deriving DecidableEq, Repr

/-- The decoded bytes of a frame. -/
def Frame.bytes : Frame → List UInt8
  | .block b => buildHeader b ++ b.body
  | .serverList servers => Utf8.encode (serverListText servers) ++ [0]

/-- A frame on the wire behind some zero bytes.  With six of them, a sync marker, this is
`frame_with_body` of the tests. -/
def Frame.wire (padding : ℕ) (f : Frame) : List UInt8 := xorFf (zeros padding ++ f.bytes)

/-- Frames one after another, each behind its own padding. -/
def transmit (frames : List (ℕ × Frame)) : List UInt8 := frames.flatMap fun f => f.2.wire f.1

/-! ## What a sender may print -/

/-- A value that a header field can carry. -/
structure IsFieldValue (value : Str) : Prop where
  ne_nil : value ≠ []
  trimmed : Str.trim value = value
  no_tag : ¬ " /".toList <:+: value

/-- A block whose header fits and whose body is what its version allows. -/
structure OutgoingBlock.Sendable (env : CodecEnv) (config : QbtDecodeConfig)
    (b : OutgoingBlock) : Prop where
  filename : IsFieldValue b.filename
  not_fill : Str.eqIgnoreAsciiCase b.filename "FILLFILE.TXT".toList = false
  fd : IsFieldValue b.fd
  fits : (Utf8.encode (b.tags ++ "\r\n".toList)).length ≤ HEADER_SIZE
  numbering : 1 ≤ b.blockNumber ∧ b.blockNumber ≤ b.totalBlocks
  length : match b.version with
    | .v1 => b.body.length = V1_BODY_SIZE
    | .v2 => 1 ≤ b.body.length ∧ b.body.length ≤ config.maxV2BodySize ∧ b.body.length < 2 ^ 32
  /-- A body that the decoder inflates was deflated, and any other is sent as it is. -/
  carried : if shouldAttempt config b.version b.body then env.inflate b.body = .ok b.content
    else b.body = b.content

/-- A frame that a decoder with this configuration accepts. -/
def Frame.Sendable (env : CodecEnv) (config : QbtDecodeConfig) : Frame → Prop
  | .block b => b.Sendable env config
  | .serverList servers => servers ≠ [] ∧ (∀ s ∈ servers, HostOk s.1) ∧
      (Utf8.encode (serverListText servers)).length ≤
        max config.maxServerListFrameBytes MIN_SERVER_LIST_FRAME_BYTES

/-- The segment that a block arrives as. -/
def OutgoingBlock.segment (env : CodecEnv) (b : OutgoingBlock) : QbtSegment where
  filename := b.filename
  blockNumber := b.blockNumber
  totalBlocks := b.totalBlocks
  content := if isTextOrWmo b.filename then trimTextPadding b.content else b.content
  checksum := UInt32.ofNat (calculateQbtChecksum b.content)
  length := b.body.length
  version := b.version
  timestampUtc := (headerTimestamp env b.fd).1
  source := none

/-- The events that a frame is read as. -/
def Frame.events (env : CodecEnv) : Frame → List QbtFrameEvent
  | .block b => (headerTimestamp env b.fd).2.map .warning ++ [.dataBlock (b.segment env)]
  | .serverList servers => [.serverListUpdate ⟨servers⟩]

/-! ## Reading a header back -/

section Fields

variable {value blanks : Str}

theorem no_blanks : ∀ c ∈ ([] : Str), Str.isWhitespace c = true := by simp

theorem unbordered_tag : Unbordered " /".toList := by decide

theorem IsFieldValue.head (h : IsFieldValue value) (rest : Str) :
    ∀ c ∈ (value ++ rest).head?, Str.isWhitespace c = false := by
  intro c hc
  rw [List.head?_append_of_ne_nil _ h.ne_nil] at hc
  exact Str.head_of_trim_eq_self h.trimmed c hc

theorem IsFieldValue.trimEnd (h : IsFieldValue value) : Str.trimEnd value = value := by
  have htrim := h.trimmed
  rwa [Str.trim, Str.trimStart_eq_self (Str.head_of_trim_eq_self htrim)] at htrim

/-- A field value and the tag behind it. -/
theorem parseTagValue_append (h : IsFieldValue value)
    (hblanks : ∀ c ∈ blanks, Str.isWhitespace c = true) (tag rest : Str) :
    parseTagValue (tag ++ (blanks ++ (value ++ (" /".toList ++ rest)))) tag =
      .ok (value, '/' :: rest) := by
  have hstart : Str.trimStart (blanks ++ (value ++ (" /".toList ++ rest))) =
      value ++ (" /".toList ++ rest) := by
    rw [Str.trimStart_spaces_append hblanks, Str.trimStart_eq_self (h.head _)]
  have hfind : Str.find " /".toList (value ++ (" /".toList ++ rest)) = some value.length :=
    unbordered_tag.findSub_append h.no_tag rest
  -- the blank in front of the next tag goes with the value and is trimmed
  have htake : (value ++ (" /".toList ++ rest)).take (value.length + 1) = value ++ [' '] := by
    rw [List.take_append, List.take_of_length_le (by omega), Nat.add_sub_cancel_left]
    rfl
  have hdrop : (value ++ (" /".toList ++ rest)).drop (value.length + 1) = '/' :: rest := by
    rw [List.drop_append, List.drop_of_length_le (by omega), Nat.add_sub_cancel_left]
    rfl
  have hvalue : Str.trimEnd (value ++ [' ']) = value := by
    rw [Str.trimEnd, List.rdropWhile_concat_pos _ _ _ (by decide)]
    exact h.trimEnd
  unfold parseTagValue
  rw [Str.stripPrefix_append]
  dsimp only
  rw [hstart, hfind]
  dsimp only
  rw [htake, hvalue, hdrop, if_neg h.ne_nil]

/-- A field value with nothing behind it. -/
theorem parseTagValue_last (h : IsFieldValue value)
    (hblanks : ∀ c ∈ blanks, Str.isWhitespace c = true) (tag : Str) :
    parseTagValue (tag ++ (blanks ++ value)) tag = .ok (value, []) := by
  have hstart : Str.trimStart (blanks ++ value) = value := by
    rw [Str.trimStart_spaces_append hblanks,
      Str.trimStart_eq_self (Str.head_of_trim_eq_self h.trimmed)]
  have hfind : Str.find " /".toList value = none := by
    cases hf : Str.find " /".toList value with
    | none => rfl
    | some i =>
        have hin := (prefix_drop_of_findSub hf).isInfix.trans (List.drop_suffix i value).isInfix
        exact absurd hin h.no_tag
  unfold parseTagValue
  rw [Str.stripPrefix_append]
  dsimp only
  rw [hstart, hfind]
  dsimp only
  rw [List.take_length, List.drop_length, h.trimEnd, if_neg h.ne_nil]

/-- A printed number is a field value. -/
theorem isFieldValue_ofNat (n : ℕ) : IsFieldValue (Str.ofNat n) where
  ne_nil := Nat.toDigits_ne_nil
  trimmed := Str.trim_of_digits fun _ hc => Nat.isDigit_of_mem_toDigits (by decide) (by decide) hc
  no_tag h := by
    have hblank : ' ' ∈ Str.ofNat n := h.subset (by decide)
    have hdigit := Nat.isDigit_of_mem_toDigits (by decide) (by decide) hblank
    exact absurd hdigit (by decide)

/-- A numeric field and the tag behind it. -/
theorem parseNumericTag_append (n : UInt32) (hblanks : ∀ c ∈ blanks, Str.isWhitespace c = true)
    (tag rest : Str) :
    parseNumericTag (tag ++ (blanks ++ (Str.ofNat n.toNat ++ (" /".toList ++ rest)))) tag =
      .ok (n, '/' :: rest) := by
  have hle : n.toNat ≤ 2 ^ 32 - 1 := by
    have := n.toNat_lt
    omega
  unfold parseNumericTag
  rw [parseTagValue_append (isFieldValue_ofNat _) hblanks]
  dsimp only
  rw [Str.parseUnsigned_ofNat hle]
  dsimp only
  rw [UInt32.ofNat_toNat]

/-- The length field at the end of a V2 header. -/
theorem parseDl_printed {n : ℕ} (hn : n < 2 ^ 32) :
    parseDl ("/DL".toList ++ Str.ofNat n) = .ok (some (UInt32.ofNat n)) := by
  have hlast : ∀ c ∈ ("/DL".toList ++ Str.ofNat n).getLast?, Str.isWhitespace c = false := by
    intro c hc
    rw [List.getLast?_append_of_ne_nil _ (isFieldValue_ofNat n).ne_nil] at hc
    exact Str.isWhitespace_of_isDigit
      (Nat.isDigit_of_mem_toDigits (by decide) (by decide) (List.mem_of_mem_getLast? hc))
  have htrim : Str.trim ("/DL".toList ++ Str.ofNat n) = "/DL".toList ++ Str.ofNat n := by
    refine Str.trim_eq_self ?_ hlast
    intro c hc
    obtain rfl : '/' = c := by simpa using hc
    decide
  have hread : parseNumericTag ("/DL".toList ++ Str.ofNat n) "/DL".toList =
      .ok (UInt32.ofNat n, []) := by
    have hvalue := parseTagValue_last (isFieldValue_ofNat n) no_blanks "/DL".toList
    rw [List.nil_append] at hvalue
    unfold parseNumericTag
    rw [hvalue]
    dsimp only
    rw [Str.parseUnsigned_ofNat (by omega)]
  unfold parseDl
  dsimp only
  rw [htrim, if_neg (by simp), hread]
  rfl

end Fields

/-! ## The header of a block -/

section Headers

variable {env : CodecEnv} {config : QbtDecodeConfig} {b : OutgoingBlock}

/-- What the tags end with is no blank and no line end. -/
theorem getLast_tags (h : b.Sendable env config) :
    ∀ c ∈ b.tags.getLast?, c ∉ [' ', '\r', '\n'] := by
  have hspace : ∀ c : Char, Str.isWhitespace c = false → c ∉ [' ', '\r', '\n'] := by
    intro c hc hmem
    have hall : ∀ d ∈ [' ', '\r', '\n'], Str.isWhitespace d = true := by decide
    rw [hall c hmem] at hc
    cases hc
  intro c hc
  unfold OutgoingBlock.tags at hc
  cases hv : b.version with
  | v1 =>
      rw [hv, List.append_nil, List.getLast?_append_of_ne_nil _ h.fd.ne_nil] at hc
      have hfd := h.fd.trimEnd
      rw [Str.trimEnd, List.rdropWhile_eq_self_iff] at hfd
      rw [List.getLast?_eq_getLast_of_ne_nil h.fd.ne_nil] at hc
      obtain rfl := Option.some.inj hc
      exact hspace _ (by simpa using hfd h.fd.ne_nil)
  | v2 =>
      rw [hv, List.getLast?_append_of_ne_nil _ (by simp)] at hc
      dsimp only at hc
      rw [List.getLast?_append_of_ne_nil _ (isFieldValue_ofNat _).ne_nil] at hc
      exact hspace c (Str.isWhitespace_of_isDigit
        (Nat.isDigit_of_mem_toDigits (by decide) (by decide) (List.mem_of_mem_getLast? hc)))

/-- A header that fits is its text and the padding. -/
theorem buildHeader_eq (h : b.Sendable env config) :
    ∃ n, buildHeader b =
        Utf8.encode (b.tags ++ ("\r\n".toList ++ List.replicate n ' ')) ∧
      (buildHeader b).length = HEADER_SIZE := by
  set raw := Utf8.encode (b.tags ++ "\r\n".toList) with hraw
  have hlen : (raw ++ List.replicate (HEADER_SIZE - raw.length) 0x20).length = HEADER_SIZE := by
    have hfits := h.fits
    rw [← hraw] at hfits
    rw [List.length_append, List.length_replicate]
    omega
  have hbuild : buildHeader b = raw ++ List.replicate (HEADER_SIZE - raw.length) 0x20 := by
    unfold buildHeader
    dsimp only
    rw [List.take_of_length_le hlen.le]
  have hblanks : ∀ n, Utf8.encode (List.replicate n ' ') = List.replicate n 0x20 := by
    intro n
    induction n with
    | zero => rfl
    | succ n ih => rw [List.replicate_succ, Utf8.encode_cons, ih]; rfl
  refine ⟨HEADER_SIZE - raw.length, ?_, by rw [hbuild, hlen]⟩
  rw [hbuild, ← List.append_assoc, Utf8.encode_append, ← hraw, hblanks]

/-- What the header of a block announces. -/
def OutgoingBlock.pending (env : CodecEnv) (b : OutgoingBlock) : PendingSegment where
  filename := b.filename
  blockNumber := b.blockNumber
  totalBlocks := b.totalBlocks
  checksum := UInt32.ofNat (calculateQbtChecksum b.content)
  length := b.body.length
  version := b.version
  content := []
  timestampUtc := (headerTimestamp env b.fd).1
  warnings := (headerTimestamp env b.fd).2
  decompressionFailed := false

/-- A checksum fits its field. -/
theorem toNat_ofNat_checksum (content : List UInt8) :
    (UInt32.ofNat (calculateQbtChecksum content)).toNat = calculateQbtChecksum content := by
  have hlt : calculateQbtChecksum content < 2 ^ 16 := Nat.mod_lt _ (by decide)
  rw [UInt32.toNat_ofNat']
  exact Nat.mod_eq_of_lt (by omega)

/-- The four fields in front of the timestamp, read off the tags. -/
theorem tags_eq (b : OutgoingBlock) (dl : Str)
    (hdl : (match b.version with
      | .v1 => []
      | .v2 => " /DL".toList ++ Str.ofNat b.body.length) = dl) :
    b.tags = "/PF".toList ++ ([] ++ (b.filename ++ (" /".toList ++ ("PN ".toList ++
      (Str.ofNat b.blockNumber.toNat ++ (" /".toList ++ ("PT ".toList ++
      (Str.ofNat b.totalBlocks.toNat ++ (" /".toList ++ ("CS ".toList ++
      (Str.ofNat (calculateQbtChecksum b.content) ++ (" /".toList ++ ("FD".toList ++
      (b.fd ++ dl)))))))))))))) := by
  unfold OutgoingBlock.tags
  rw [hdl]
  simp only [List.append_assoc, List.nil_append]
  rfl

/-- A printed header is read back as what it announces. -/
theorem parseHeader_buildHeader (h : b.Sendable env config) :
    parseHeader env (buildHeader b) config.maxV2BodySize = .ok (b.pending env) := by
  obtain ⟨n, hbytes, -⟩ := buildHeader_eq h
  have htext : fromUtf8 (buildHeader b) =
      .ok (b.tags ++ ("\r\n".toList ++ List.replicate n ' ')) := by
    unfold fromUtf8
    rw [hbytes, (Utf8.decode_eq_ok_iff _ _).mpr rfl]
  have htrim : Str.trimEndMatches [' ', '\r', '\n']
      (b.tags ++ ("\r\n".toList ++ List.replicate n ' ')) = b.tags := by
    refine Str.trimEndMatches_append ?_ (getLast_tags h)
    intro c hc
    rcases List.mem_append.mp hc with hc | hc
    · exact (by decide : ∀ c ∈ "\r\n".toList, c ∈ [' ', '\r', '\n']) c hc
    · rw [List.eq_of_mem_replicate hc]
      decide
  have hblank : ∀ c ∈ " ".toList, Str.isWhitespace c = true := by decide
  have hpf := fun rest => parseTagValue_append h.filename no_blanks
    "/PF".toList rest
  have hpn := fun rest => parseNumericTag_append b.blockNumber hblank "/PN".toList rest
  have hpt := fun rest => parseNumericTag_append b.totalBlocks hblank "/PT".toList rest
  have hcs := fun rest => parseNumericTag_append
    (UInt32.ofNat (calculateQbtChecksum b.content)) hblank "/CS".toList rest
  rw [toNat_ofNat_checksum] at hcs
  -- what stands behind the timestamp, and what the header says by it
  obtain ⟨dl, hfd, hlength⟩ : ∃ dl,
      (∃ rest, parseTagValue ('/' :: ("FD".toList ++ (b.fd ++ match b.version with
          | .v1 => []
          | .v2 => " /DL".toList ++ Str.ofNat b.body.length))) "/FD".toList = .ok (b.fd, rest) ∧
        parseDl rest = .ok dl) ∧
      bodyLength config.maxV2BodySize dl = .ok (b.version, b.body.length) := by
    have hlen := h.length
    cases hv : b.version with
    | v1 =>
        rw [hv] at hlen
        have hvalue := parseTagValue_last h.fd no_blanks "/FD".toList
        refine ⟨none, ⟨[], ?_, rfl⟩, ?_⟩
        · dsimp only
          rw [List.append_nil]
          exact hvalue
        · rw [hlen]
          rfl
    | v2 =>
        rw [hv] at hlen
        obtain ⟨hpos, hmax, hlt⟩ := hlen
        have hvalue := parseTagValue_append h.fd no_blanks "/FD".toList
          ("DL".toList ++ Str.ofNat b.body.length)
        refine ⟨some (UInt32.ofNat b.body.length), ⟨_, hvalue, parseDl_printed hlt⟩, ?_⟩
        have hnat : (UInt32.ofNat b.body.length).toNat = b.body.length := by
          rw [UInt32.toNat_ofNat']
          exact Nat.mod_eq_of_lt hlt
        unfold bodyLength
        dsimp only
        rw [hnat, if_neg (by omega)]
  obtain ⟨rest, hfd, hdl⟩ := hfd
  unfold parseHeader
  refine Results.bind_eq_ok.mpr ⟨_, htext, ?_⟩
  dsimp only
  rw [htrim, tags_eq b _ rfl]
  refine Results.bind_eq_ok.mpr ⟨_, hpf _, ?_⟩
  refine Results.bind_eq_ok.mpr ⟨_, hpn _, ?_⟩
  refine Results.bind_eq_ok.mpr ⟨_, hpt _, ?_⟩
  refine Results.bind_eq_ok.mpr ⟨_, hcs _, ?_⟩
  refine Results.bind_eq_ok.mpr ⟨_, hfd, ?_⟩
  refine Results.bind_eq_ok.mpr ⟨_, hdl, ?_⟩
  exact Results.bind_eq_ok.mpr ⟨_, hlength, rfl⟩

/-- The checksum a sender prints is the one its block is compared with. -/
theorem verifyChecksum_printed (content : List UInt8) (version : QbtProtocolVersion) :
    verifyChecksum content
      (expectedChecksum version (UInt32.ofNat (calculateQbtChecksum content))) = true := by
  have hlt : calculateQbtChecksum content < 2 ^ 16 := Nat.mod_lt _ (by decide)
  have hexpected : expectedChecksum version (UInt32.ofNat (calculateQbtChecksum content)) =
      (calculateQbtChecksum content : ℤ) := by
    cases version with
    | v1 => rw [expectedChecksum, toNat_ofNat_checksum, Nat.mod_eq_of_lt hlt]
    | v2 => rw [expectedChecksum, toNat_ofNat_checksum]
  unfold verifyChecksum
  rw [hexpected, if_neg (by omega), beq_iff_eq]
  omega

/-- What a sender prints is a well-formed frame with the content it stands for. -/
theorem wellFormedFrame_of_sendable (h : b.Sendable env config) :
    WellFormedFrame env config (buildHeader b) b.body (b.pending env) ∧
      payload env config b.version b.body = b.content := by
  have hcarried := h.carried
  have hpayload : payload env config b.version b.body = b.content := by
    unfold payload
    split
    · next hattempt =>
        rw [if_pos hattempt] at hcarried
        rw [hcarried]
    · next hplain =>
        rwa [if_neg hplain] at hcarried
  obtain ⟨-, -, hlength⟩ := buildHeader_eq h
  obtain ⟨hone, hle⟩ := h.numbering
  have hone' : 1 ≤ b.blockNumber.toNat := UInt32.le_iff_toNat_le.mp hone
  have hle' : b.blockNumber.toNat ≤ b.totalBlocks.toNat := UInt32.le_iff_toNat_le.mp hle
  refine ⟨⟨hlength, parseHeader_buildHeader h, rfl, ?_, ⟨?_, ?_, hle⟩, ?_, h.not_fill⟩, hpayload⟩
  · intro hattempt
    have hattempt' : shouldAttempt config b.version b.body = true := hattempt
    rw [if_pos hattempt'] at hcarried
    exact ⟨_, hcarried⟩
  · intro hzero
    have hzero' : b.totalBlocks.toNat = 0 := congrArg UInt32.toNat hzero
    omega
  · intro hzero
    have hzero' : b.blockNumber.toNat = 0 := congrArg UInt32.toNat hzero
    omega
  · show verifyChecksum (payload env config b.version b.body) _ = true
    rw [hpayload]
    exact verifyChecksum_printed b.content b.version

end Headers

/-! ## Reading frame after frame -/

/-- A decoder that stands at the start of a frame with nothing buffered or pending. -/
structure AtStart (config : QbtDecodeConfig) (d : QbtProtocolDecoder) : Prop where
  state : d.state = .startFrame
  buffer : d.buffer = []
  pending : d.pending = none
  config : d.config = (QbtProtocolDecoder.new config).config

section Frames

variable {env : CodecEnv} {config : QbtDecodeConfig} {d : QbtProtocolDecoder}

theorem AtStart.ok (h : AtStart config d) : DecoderOk d :=
  DecoderOk.of_none h.pending (by simp [h.state]) (by simp [h.state])

theorem AtStart.settled (h : AtStart config d) : (feedLoop env).drain d = ([], d) := by
  obtain ⟨cfg, buf, st, pend⟩ := d
  obtain rfl : st = .startFrame := h.state
  obtain rfl : buf = [] := h.buffer
  exact drain_startFrame_zeros rfl rfl

/-- Padding in front of a frame is skipped. -/
theorem drain_padding (hs : d.state = .startFrame) (n : ℕ) {frame : List UInt8}
    (hne : ∃ b rest, frame = b :: rest ∧ b ≠ 0) (hb : d.buffer = zeros n ++ frame) :
    (feedLoop env).drain d = (feedLoop env).drain { d with buffer := frame } := by
  obtain ⟨b, rest, rfl, hzero⟩ := hne
  have hskip : (zeros n ++ b :: rest).dropWhile (· = 0) = (b :: rest).dropWhile (· = 0) :=
    List.dropWhile_append_of_pos (by simp [zeros])
  apply (feedLoop env).drain_congr
  show feedPass env d = feedPass env { d with buffer := b :: rest }
  rw [feedPass_startFrame env hs,
    feedPass_startFrame env (d := { d with buffer := b :: rest }) hs, hb, hskip]
  simp [hzero]

/-- A frame begins with a slash. -/
theorem bytes_ne_zero (f : Frame) (hf : f.Sendable env config) :
    ∃ b rest, f.bytes = b :: rest ∧ b ≠ 0 := by
  have hslash : ∀ {l : List UInt8}, [0x2F] <+: l → ∃ b rest, l = b :: rest ∧ b ≠ 0 := by
    rintro l ⟨rest, rfl⟩
    exact ⟨0x2F, rest, rfl, by decide⟩
  cases f with
  | block b =>
      have hpre := prefix_of_parseHeader (wellFormedFrame_of_sendable hf).1.accepted
      exact hslash ((by decide : ([0x2F] : List UInt8) <+: [0x2F, 0x50, 0x46]).trans
        (hpre.trans (List.prefix_append _ _)))
  | serverList servers =>
      have hpre : [0x2F] <+: Utf8.encode (serverListText servers) := by
        rw [serverListText, Utf8.encode_append]
        exact List.IsPrefix.trans (by decide) (List.prefix_append _ _)
      exact hslash (hpre.trans (List.prefix_append _ _))

/-- The frame alone, from the start of a frame back to the start of a frame. -/
theorem drain_bytes (h : AtStart config d) (f : Frame) (hf : f.Sendable env config) :
    (feedLoop env).drain { d with buffer := f.bytes } = (f.events env, d) := by
  have hd : { d with buffer := [] } = d := by rw [← h.buffer]
  cases f with
  | block b =>
      obtain ⟨hframe, hpayload⟩ := wellFormedFrame_of_sendable hf
      have hframe' : WellFormedFrame env { d with buffer := buildHeader b ++ b.body }.config
          (buildHeader b) b.body (b.pending env) := by
        show WellFormedFrame env d.config _ _ _
        rw [h.config]
        exact ⟨hframe.header_length, hframe.accepted, hframe.body_length, hframe.inflates,
          hframe.numbering, hframe.checksum, hframe.not_fill⟩
      have hdrain := drain_frame hframe' h.state rfl
      have hpayload' : payload env d.config b.version b.body = b.content := by
        rw [h.config]
        exact hpayload
      show (feedLoop env).drain { d with buffer := buildHeader b ++ b.body } = _
      rw [hdrain]
      refine Prod.ext ?_ ?_
      · show _ ++ [QbtFrameEvent.dataBlock (emittedSegment { b.pending env with
          content := payload env d.config b.version b.body })] = _
        rw [hpayload']
        rfl
      · show { d with buffer := [], pending := none } = d
        rw [← h.pending, ← h.buffer]
  | serverList servers =>
      obtain ⟨hne, hok, hlimit⟩ := hf
      have hread : readServerList (Utf8.encode (serverListText servers)) = .ok (⟨servers⟩, []) := by
        unfold readServerList fromUtf8
        rw [(Utf8.decode_eq_ok_iff _ _).mpr rfl]
        exact parseServerListFrame_text hne hok
      have hpre : [0x2F, 0x53, 0x65] <+: Utf8.encode (serverListText servers) := by
        rw [serverListText, Utf8.encode_append]
        exact List.IsPrefix.trans (by decide) (List.prefix_append _ _)
      have hlimit' : (Utf8.encode (serverListText servers)).length ≤
          d.config.maxServerListFrameBytes := by
        rw [h.config]
        exact hlimit
      have hdrain := @drain_serverListFrame env
        { d with buffer := Utf8.encode (serverListText servers) ++ [0] } _ _ _ h.state rfl
        (zero_notMem_serverListText fun s hs => (hok s hs).no_nul) hpre hlimit' hread
      show (feedLoop env).drain { d with buffer := Utf8.encode (serverListText servers) ++ [0] } = _
      rw [hdrain]
      exact Prod.ext rfl hd

/-- The first bytes of a frame: those of a block or those of a server list. -/
def Frame.mark : Frame → List UInt8
  | .block _ => [0x2F, 0x50, 0x46]
  | .serverList _ => [0x2F, 0x53, 0x65]

/-- The state in which the decoder goes on behind these bytes. -/
def Frame.after : Frame → DecoderState
  | .block _ => .blockHeader
  | .serverList _ => .qbtServerList

/-- A frame begins with its first bytes. -/
theorem mark_begins (f : Frame) (hf : f.Sendable env config) : f.mark <+: f.bytes := by
  cases f with
  | block b =>
      have hpre := prefix_of_parseHeader (wellFormedFrame_of_sendable hf).1.accepted
      exact hpre.trans (List.prefix_append _ _)
  | serverList servers =>
      have hpre : [0x2F, 0x53, 0x65] <+: Utf8.encode (serverListText servers) := by
        rw [serverListText, Utf8.encode_append]
        exact List.IsPrefix.trans (by decide) (List.prefix_append _ _)
      exact hpre.trans (List.prefix_append _ _)

/-- A loop that stops at once without events has none. -/
theorem drain_quiet {s : QbtProtocolDecoder} (hpass : feedPass env s = ⟨[], s, false⟩) :
    ((feedLoop env).drain s).1 = [] := by
  have hstop : ((feedLoop env).body s).again = false := by
    show (feedPass env s).again = false
    rw [hpass]
  rw [(feedLoop env).drain_of_stop hstop]
  show (feedPass env s).out = []
  rw [hpass]

/-- Behind its first bytes a frame that is cut waits for its end. -/
theorem drain_cut_after (h : AtStart config d) (f : Frame) (hf : f.Sendable env config)
    {p rest : List UInt8} (hcut : f.bytes = p ++ rest) (hrest : rest ≠ []) :
    ((feedLoop env).drain { d with buffer := p, state := f.after }).1 = [] := by
  cases f with
  | block b =>
      obtain ⟨hframe, -⟩ := wellFormedFrame_of_sendable hf
      have hbytes : buildHeader b ++ b.body = p ++ rest := hcut
      have hlen : (buildHeader b).length + b.body.length = p.length + rest.length := by
        rw [← List.length_append, hbytes, List.length_append]
      have hpos := List.length_pos_iff.mpr hrest
      have hpass := feedPass_blockHeader env
        (d := { d with buffer := p, state := .blockHeader }) rfl
      dsimp only at hpass
      by_cases hshort : p.length < 80
      · rw [if_pos hshort] at hpass
        exact drain_quiet hpass
      · -- the header is complete, and the body is not
        have htake : p.take 80 = buildHeader b := by
          have hwhole : (buildHeader b ++ b.body).take 80 = buildHeader b :=
            List.take_left' hframe.header_length
          rw [hbytes, List.take_append_of_le_length (by omega)] at hwhole
          exact hwhole
        have haccepted :
            parseHeader env (p.take 80) d.config.maxV2BodySize = .ok (b.pending env) := by
          rw [htake, h.config]
          exact hframe.accepted
        rw [if_neg hshort, haccepted] at hpass
        show ((feedLoop env).drain { d with buffer := p, state := .blockHeader }).1 = []
        rw [drain_of_feedPass hpass, List.nil_append]
        have hwait := feedPass_blockBody env (d := { d with
          buffer := p.drop 80, pending := some (b.pending env), state := .blockBody }) rfl rfl
        dsimp only at hwait
        have hmissing : (p.drop 80).length < (b.pending env).length := by
          show _ < b.body.length
          have hheader := hframe.header_length
          rw [List.length_drop]
          omega
        rw [if_pos hmissing] at hwait
        exact drain_quiet hwait
  | serverList servers =>
      obtain ⟨-, hok, hlimit⟩ := hf
      have hbytes : Utf8.encode (serverListText servers) ++ [0] = p ++ rest := hcut
      -- the cut is in front of the NUL
      obtain ⟨rest', hrest'⟩ : ∃ rest', Utf8.encode (serverListText servers) = p ++ rest' := by
        obtain ⟨front, c, rfl⟩ := (List.eq_nil_or_concat rest).resolve_left hrest
        rw [List.concat_eq_append, ← List.append_assoc] at hbytes
        exact ⟨front, (List.append_inj' hbytes rfl).1⟩
      have hzero : (0 : UInt8) ∉ p := fun hmem =>
        zero_notMem_serverListText (fun s hs => (hok s hs).no_nul) (by
          rw [hrest']
          exact List.mem_append_left _ hmem)
      have hfits : p.length ≤ d.config.maxServerListFrameBytes := by
        rw [hrest', List.length_append] at hlimit
        rw [h.config]
        exact le_trans (Nat.le_add_right _ _) hlimit
      have hpass := feedPass_serverList_none env
        (d := { d with buffer := p, state := .qbtServerList }) rfl
        (findIdx?_eq_none_of_notMem hzero)
      dsimp only at hpass
      rw [if_neg (Nat.not_lt.mpr hfits)] at hpass
      exact drain_quiet hpass

/-- A frame that has not arrived to its end is not read. -/
theorem drain_cut (h : AtStart config d) (f : Frame) (hf : f.Sendable env config)
    {p rest : List UInt8} (hcut : f.bytes = p ++ rest) (hp : p ≠ []) (hrest : rest ≠ []) :
    ((feedLoop env).drain { d with buffer := p }).1 = [] := by
  have hpre : p <+: f.bytes := ⟨rest, hcut.symm⟩
  have hslash : f.mark.head? = some 0x2F := by cases f <;> rfl
  have hthree : f.mark.length = 3 := by cases f <;> rfl
  -- the cut frame begins with a slash as well
  obtain ⟨q, rfl⟩ : ∃ q, p = 0x2F :: q := by
    obtain ⟨back, hback⟩ := mark_begins f hf
    have hhead : f.bytes.head? = some 0x2F := by
      rw [← hback, List.head?_append, hslash]
      rfl
    cases p with
    | nil => exact absurd rfl hp
    | cons c q =>
        rw [hcut] at hhead
        exact ⟨q, by rw [Option.some.inj hhead]⟩
  have hpass1 : feedPass env { d with buffer := 0x2F :: q } =
      ⟨[], { d with buffer := 0x2F :: q, state := .frameType }, true⟩ := by
    rw [feedPass_startFrame env (d := { d with buffer := 0x2F :: q }) h.state]
    rfl
  rw [drain_of_feedPass hpass1, List.nil_append]
  have hpass2 := feedPass_frameType env
    (d := { d with buffer := 0x2F :: q, state := .frameType }) rfl
  dsimp only at hpass2
  rw [if_neg (not_not.mpr rfl)] at hpass2
  by_cases hshort : (0x2F :: q).length < 3
  · rw [if_pos hshort] at hpass2
    exact drain_quiet hpass2
  · -- the first bytes have arrived and tell what it is
    have hmark : f.mark <+: 0x2F :: q :=
      List.prefix_of_prefix_length_le (mark_begins f hf) hpre (by omega)
    have hafter : feedPass env { d with buffer := 0x2F :: q, state := .frameType } =
        ⟨[], { d with buffer := 0x2F :: q, state := f.after }, true⟩ := by
      rw [hpass2, if_neg hshort]
      obtain ⟨back, hback⟩ := hmark
      rw [← hback]
      cases f <;> rfl
    rw [drain_of_feedPass hafter, List.nil_append]
    exact drain_cut_after h f hf hcut hrest

/-- What has arrived of a frame whose end has not. -/
theorem feed_cut (h : AtStart config d) (f : Frame) (hf : f.Sendable env config) (n : ℕ)
    {w : List UInt8} (hw : w <+: f.wire n) (hne : w ≠ f.wire n) : (feed env d w).1 = [] := by
  obtain ⟨rest, hrest⟩ := hw
  have hplain : xorFf w ++ xorFf rest = zeros n ++ f.bytes := by
    rw [← xorFf_xorFf (zeros n ++ f.bytes)]
    show _ = xorFf (f.wire n)
    rw [← hrest, xorFf_append]
  have hbuffer : extendBuffer d (xorFf w) = { d with buffer := xorFf w } := by
    unfold extendBuffer
    rw [h.buffer, List.nil_append]
  show ((feedLoop env).drain (extendBuffer d (xorFf w))).1 = []
  rw [hbuffer]
  have hzeros : ∀ {z : List UInt8}, z.dropWhile (· = 0) = [] →
      ((feedLoop env).drain { d with buffer := z }).1 = [] := by
    intro z hz
    rw [drain_startFrame_zeros (d := { d with buffer := z }) h.state hz]
  rcases List.append_eq_append_iff.mp hplain with ⟨z, hz, -⟩ | ⟨p, hp, hrest'⟩
  · -- the cut is in the padding
    refine hzeros (List.dropWhile_eq_nil_iff.mpr fun b hb => ?_)
    have hmem : b ∈ zeros n := by
      rw [hz]
      exact List.mem_append_left _ hb
    simpa [zeros] using (List.mem_replicate.mp hmem).2
  · by_cases hempty : p = []
    · refine hzeros ?_
      rw [hp, hempty, List.append_nil, dropWhile_zeros]
    · obtain ⟨b, tail, hbytes, hzero⟩ := bytes_ne_zero f hf
      have hstart : ∃ b rest, p = b :: rest ∧ b ≠ 0 := by
        cases p with
        | nil => exact absurd rfl hempty
        | cons c q =>
            rw [hrest', List.cons_append] at hbytes
            exact ⟨c, q, rfl, (List.cons.inj hbytes).1 ▸ hzero⟩
      have hmissing : xorFf rest ≠ [] := by
        intro hnil
        have hnone : rest = [] := by
          have hback := xorFf_xorFf rest
          rw [hnil] at hback
          exact hback.symm
        rw [hnone, List.append_nil] at hrest
        exact hne hrest
      rw [drain_padding (d := { d with buffer := xorFf w }) h.state n hstart hp]
      exact drain_cut h f hf hrest' hempty hmissing

/-- **Step.**  One frame with its padding is read, and the decoder stands where it stood. -/
theorem feed_frame (h : AtStart config d) (f : Frame) (hf : f.Sendable env config) (n : ℕ) :
    feed env d (f.wire n) = (f.events env, d) := by
  have hbuffer : (extendBuffer d (zeros n ++ f.bytes)).buffer = zeros n ++ f.bytes := by
    show d.buffer ++ _ = _
    rw [h.buffer, List.nil_append]
  unfold feed Ranked.feed Frame.wire
  rw [xorFf_xorFf, drain_padding (d := extendBuffer d (zeros n ++ f.bytes)) h.state n
    (bytes_ne_zero f hf) hbuffer]
  exact drain_bytes h f hf

/-- **Run.**  Frame after frame is read from the start of the first. -/
theorem feedAll_frames (h : AtStart config d) (frames : List (ℕ × Frame))
    (hframes : ∀ f ∈ frames, f.2.Sendable env config) :
    feedAll env d (frames.map fun f => f.2.wire f.1) =
      (frames.flatMap fun f => f.2.events env, d) := by
  induction frames with
  | nil => rfl
  | cons f frames ih =>
      obtain ⟨hf, hrest⟩ := List.forall_mem_cons.mp hframes
      rw [List.map_cons, feedAll, feed_frame h f.2 hf f.1, ih hrest, List.flatMap_cons]

end Frames

/-- **A transmission is read back.**  A decoder at the start of a frame reads data blocks of
either version and server lists, one after another and cut into whatever chunks, as exactly
one event for each (after a warning for a timestamp it cannot read), in order and with what
the sender put in, but for the padding of texts, which is trimmed, and stands at the start of a
frame again. -/
theorem transmission_read (env : CodecEnv) (config : QbtDecodeConfig) {d : QbtProtocolDecoder}
    (h : AtStart config d) (frames : List (ℕ × Frame))
    (hframes : ∀ f ∈ frames, f.2.Sendable env config) (chunks : List (List UInt8))
    (hchunks : chunks.flatten = transmit frames) :
    feedAll env d chunks = (frames.flatMap fun f => f.2.events env, d) := by
  have hcuts : chunks.flatten = (frames.map fun f => f.2.wire f.1).flatten := by
    rw [hchunks, transmit, List.flatMap_def]
  rw [feedAll_eq_feed h.ok h.settled, hcuts, ← feedAll_eq_feed h.ok h.settled]
  exact feedAll_frames h frames hframes

/-- A sync marker brings a fresh decoder to the start of a frame. -/
theorem feed_sync_new (env : CodecEnv) (config : QbtDecodeConfig) {n : ℕ} (hn : 6 ≤ n) :
    (feed env (QbtProtocolDecoder.new config) (xorFf (zeros n))).1 = [] ∧
      AtStart config (feed env (QbtProtocolDecoder.new config) (xorFf (zeros n))).2 := by
  have hfound : findSub SYNC_BYTES (extendBuffer (QbtProtocolDecoder.new config)
      (zeros n)).buffer = some 0 := findSub_eq_zero (sync_prefix_zeros hn)
  have hpass := feedPass_resync env
    (d := extendBuffer (QbtProtocolDecoder.new config) (zeros n)) rfl
  rw [hfound] at hpass
  have hzeros : ((extendBuffer (QbtProtocolDecoder.new config) (zeros n)).buffer.drop
      (0 + 6)).dropWhile (· = 0) = [] := by
    show ((zeros n).drop 6).dropWhile (· = 0) = []
    rw [drop_zeros, dropWhile_zeros]
  have hfeed : feed env (QbtProtocolDecoder.new config) (xorFf (zeros n)) =
      ([], { QbtProtocolDecoder.new config with buffer := [], state := .startFrame }) := by
    unfold feed Ranked.feed
    rw [xorFf_xorFf, drain_of_feedPass hpass, drain_startFrame_zeros rfl hzeros]
    rfl
  rw [hfeed]
  exact ⟨rfl, rfl, rfl, rfl, rfl⟩

/-- A V2 block that is sent as it is, with a timestamp that cannot be read. -/
def helloBlock : OutgoingBlock where
  filename := "HELLO.TXT".toList
  blockNumber := 1
  totalBlocks := 1
  fd := "never".toList
  version := .v2
  body := Utf8.encode "HELLO".toList
  content := Utf8.encode "HELLO".toList

theorem helloBlock_sendable : helloBlock.Sendable .bare .default where
  filename := ⟨by decide, by decide, by decide⟩
  not_fill := by decide
  fd := ⟨by decide, by decide, by decide⟩
  fits := by decide +kernel
  numbering := by decide
  length := ⟨by decide, by decide, by decide⟩
  carried := by decide +kernel

/-- A server list and a block, the wire cut in the middle of the block's header. -/
theorem transmission_read_hello :
    let frames := [(6, Frame.serverList [("a.example".toList, 2211)]),
      (0, Frame.block helloBlock)]
    let start : QbtProtocolDecoder :=
      { QbtProtocolDecoder.new .default with state := .startFrame }
    feedAll .bare start [(transmit frames).take 50, [], (transmit frames).drop 50] =
      ([.serverListUpdate ⟨[("a.example".toList, 2211)]⟩,
        .warning (.timestampParseFallback "never".toList),
        .dataBlock (helloBlock.segment .bare)], start) := by
  intro frames start
  have hframes : ∀ f ∈ frames, f.2.Sendable .bare .default := by
    refine List.forall_mem_cons.mpr ⟨⟨by decide, ?_, by decide +kernel⟩,
      List.forall_mem_singleton.mpr helloBlock_sendable⟩
    exact List.forall_mem_singleton.mpr ⟨by decide, by decide, by decide, by decide, by decide⟩
  exact transmission_read .bare .default (d := start) ⟨rfl, rfl, rfl, rfl⟩ frames hframes _
    (by simp)

end Qbt
