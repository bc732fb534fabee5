/-
# The data-block header

`parse_header` of `protocol/codec.rs` with its helpers, and the checksum of
`protocol/checksum.rs`.  A header is 80 bytes of text made of the tags `/PF`,
`/PN`, `/PT`, `/CS`, `/FD` and optionally `/DL`; the last one makes the frame a
V2 frame with a body of the announced length.

What the decoder takes from outside the repository is collected in `CodecEnv`:
zlib inflate, the calendar parser of the `/FD` timestamp and the clock behind
its fallback.  All of it is arbitrary here.
-/
import Emwin.Lib.Results
import Emwin.Qbt.Model

namespace Qbt

/-- Body size for V1 protocol frames. -/
def V1_BODY_SIZE : ℕ := 1024

/-- Size of the frame header in bytes. -/
def HEADER_SIZE : ℕ := 80

/-- The library functions the decoder calls, and the clock it reads. -/
structure CodecEnv where
  /-- `flate2::read::ZlibDecoder::read_to_end`, or the text of its error. -/
  inflate : List UInt8 → Except Str (List UInt8)
  /-- `PrimitiveDateTime::parse` with the `/FD` format: Unix seconds and nanoseconds. -/
  parseDateTime : Str → Option (ℤ × ℕ)
  /-- `SystemTime::now`. -/
  now : ℤ

/-- An environment for runs that neither inflate a body nor carry a valid `/FD`. -/
def CodecEnv.bare : CodecEnv where
  inflate _ := .error "corrupt deflate stream".toList
  parseDateTime _ := none
  now := 0

/-- Partially decoded data-block frame held between state-machine steps. -/
structure PendingSegment where
  filename : Str
  blockNumber : UInt32
  totalBlocks : UInt32
  checksum : UInt32
  length : ℕ
  version : QbtProtocolVersion
  content : List UInt8
  timestampUtc : ℤ
  warnings : List QbtProtocolWarning
  decompressionFailed : Bool
  deriving DecidableEq, Repr

/-! ## Tags -/

/-- The value of `tag` at the front of the input, and what follows the value. -/
def parseTagValue (input tag : Str) : Except QbtProtocolError (Str × Str) :=
  match Str.stripPrefix tag input with
  | none => .error (.missingField tag)
  | some rest =>
      let rest := Str.trimStart rest
      let nextTag := match Str.find " /".toList rest with
        | some idx => idx + 1
        | none => rest.length
      let value := Str.trimEnd (rest.take nextTag)
      if value = [] then .error .invalidHeader
      else .ok (value, rest.drop nextTag)

/-- A tag whose value is an unsigned 32-bit number. -/
def parseNumericTag (input tag : Str) : Except QbtProtocolError (UInt32 × Str) :=
  match parseTagValue input tag with
  | .error e => .error e
  | .ok (value, rest) =>
      match Str.parseUnsigned (2 ^ 32 - 1) value with
      | none => .error .invalidHeader
      | some n => .ok (UInt32.ofNat n, rest)

/-- The `/FD` timestamp as a point in time. -/
def parseFdTimestamp (env : CodecEnv) (fd : Str) : Option ℤ :=
  match env.parseDateTime fd with
  | none => none
  | some (seconds, nanos) =>
      if 0 ≤ seconds then some (seconds * 1000000000 + nanos)
      else some (-(seconds.natAbs * 1000000000 + nanos : ℤ))

/-! ## The header -/

/-- The body length and version announced by an optional `/DL` field. -/
def bodyLength (maxV2BodySize : ℕ) (dl : Option UInt32) :
    Except QbtProtocolError (QbtProtocolVersion × ℕ) :=
  match dl with
  | some dl =>
      if dl.toNat = 0 ∨ maxV2BodySize < dl.toNat then .error (.invalidBodyLength dl.toNat)
      else .ok (.v2, dl.toNat)
  | none => .ok (.v1, V1_BODY_SIZE)

/-- The optional `/DL` field in what follows `/FD`. -/
def parseDl (rest : Str) : Except QbtProtocolError (Option UInt32) :=
  let rest := Str.trim rest
  if rest = [] then .ok none
  else
    match parseNumericTag rest "/DL".toList with
    | .error e => .error e
    | .ok (dl, trailing) =>
        if Str.trim trailing = [] then .ok (some dl) else .error .invalidHeader

/-- `std::str::from_utf8`, with its error as a protocol error. -/
def fromUtf8 (input : List UInt8) : Except QbtProtocolError Str :=
  match Utf8.decode input with
  | .ok text => .ok text
  | .error e => .error (.invalidUtf8 (utf8ErrorText e))

/-- The time of a segment: the `/FD` field, or the clock with a warning. -/
def headerTimestamp (env : CodecEnv) (fd : Str) : ℤ × List QbtProtocolWarning :=
  match parseFdTimestamp env fd with
  | some ts => (ts, [])
  | none => (env.now, [.timestampParseFallback fd])

/-- Parse the 80-byte header of a data block. -/
def parseHeader (env : CodecEnv) (input : List UInt8) (maxV2BodySize : ℕ) :
    Except QbtProtocolError PendingSegment := do
  let header ← fromUtf8 input
  let header := Str.trimEndMatches [' ', '\r', '\n'] header
  let (filename, rest) ← parseTagValue header "/PF".toList
  let (blockNumber, rest) ← parseNumericTag rest "/PN".toList
  let (totalBlocks, rest) ← parseNumericTag rest "/PT".toList
  let (checksum, rest) ← parseNumericTag rest "/CS".toList
  let (fd, rest) ← parseTagValue rest "/FD".toList
  let dl ← parseDl rest
  let (version, length) ← bodyLength maxV2BodySize dl
  return { filename, blockNumber, totalBlocks, checksum, length, version,
           content := [], timestampUtc := (headerTimestamp env fd).1,
           warnings := (headerTimestamp env fd).2, decompressionFailed := false }

/-- What an accepted header went through: the text it decodes to, the `/PF`
value at its front, and the announced length. -/
theorem parseHeader_eq_ok {env : CodecEnv} {input : List UInt8} {maxV2BodySize : ℕ}
    {p : PendingSegment} (h : parseHeader env input maxV2BodySize = .ok p) :
    (∃ text rest, Utf8.decode input = .ok text ∧
      parseTagValue (Str.trimEndMatches [' ', '\r', '\n'] text) "/PF".toList
        = .ok (p.filename, rest)) ∧
    (∃ dl, bodyLength maxV2BodySize dl = .ok (p.version, p.length)) ∧
    p.content = [] ∧ p.decompressionFailed = false := by
  unfold parseHeader at h
  obtain ⟨text, htext, h⟩ := Results.bind_eq_ok.mp h
  have hdecode : Utf8.decode input = .ok text := by
    unfold fromUtf8 at htext
    cases hd : Utf8.decode input with
    | error e => rw [hd] at htext; cases htext
    | ok t => rw [hd] at htext; cases htext; rfl
  obtain ⟨⟨filename, r1⟩, hpf, h⟩ := Results.bind_eq_ok.mp h
  obtain ⟨⟨blockNumber, r2⟩, -, h⟩ := Results.bind_eq_ok.mp h
  obtain ⟨⟨totalBlocks, r3⟩, -, h⟩ := Results.bind_eq_ok.mp h
  obtain ⟨⟨checksum, r4⟩, -, h⟩ := Results.bind_eq_ok.mp h
  obtain ⟨⟨fd, r5⟩, -, h⟩ := Results.bind_eq_ok.mp h
  obtain ⟨dl, -, h⟩ := Results.bind_eq_ok.mp h
  obtain ⟨⟨version, length⟩, hlen, h⟩ := Results.bind_eq_ok.mp h
  cases h
  exact ⟨⟨text, r1, hdecode, hpf⟩, ⟨dl, hlen⟩, rfl, rfl⟩

/-- The announced body is never empty and never longer than the limits. -/
theorem length_of_parseHeader {env : CodecEnv} {input : List UInt8} {maxV2BodySize : ℕ}
    {p : PendingSegment} (h : parseHeader env input maxV2BodySize = .ok p) :
    0 < p.length ∧ p.length ≤ max V1_BODY_SIZE maxV2BodySize := by
  obtain ⟨-, ⟨dl, hdl⟩, -⟩ := parseHeader_eq_ok h
  cases dl with
  | none =>
      obtain ⟨-, hl⟩ := Prod.ext_iff.mp (Except.ok.inj hdl)
      have hl' : V1_BODY_SIZE = p.length := hl
      exact ⟨hl' ▸ by decide, hl' ▸ le_max_left _ _⟩
  | some dl =>
      rw [bodyLength] at hdl
      split at hdl
      · cases hdl
      · next hne =>
          obtain ⟨-, hl⟩ := Prod.ext_iff.mp (Except.ok.inj hdl)
          have hl' : dl.toNat = p.length := hl
          rw [← hl']
          exact ⟨by omega, le_max_of_le_right (by omega)⟩

/-- An accepted header starts with the bytes of `/PF`. -/
theorem prefix_of_parseHeader {env : CodecEnv} {input : List UInt8} {maxV2BodySize : ℕ}
    {p : PendingSegment} (h : parseHeader env input maxV2BodySize = .ok p) :
    [0x2F, 0x50, 0x46] <+: input := by
  obtain ⟨⟨text, rest, hdecode, hpf⟩, -⟩ := parseHeader_eq_ok h
  have hinput := (Utf8.decode_eq_ok_iff input text).mp hdecode
  have hpre : "/PF".toList <+: Str.trimEndMatches [' ', '\r', '\n'] text := by
    unfold parseTagValue Str.stripPrefix at hpf
    by_contra hnot
    rw [if_neg hnot] at hpf
    cases hpf
  obtain ⟨t, rfl⟩ := hpre.trans (List.rdropWhile_prefix _ text)
  rw [hinput, Utf8.encode_append]
  exact List.prefix_append _ _

/-! ## Checksums -/

/-- The 16-bit additive checksum used on the wire. -/
def calculateQbtChecksum (data : List UInt8) : ℕ :=
  (data.map UInt8.toNat).sum % 2 ^ 32 % 2 ^ 16

/-- Compare the low 16 bits of an expected checksum; negative values never match. -/
def verifyChecksum (data : List UInt8) (expected : ℤ) : Bool :=
  if expected < 0 then false else (calculateQbtChecksum data : ℤ) == expected % 2 ^ 16

/-- The checksum a pending segment is compared with. -/
def expectedChecksum (version : QbtProtocolVersion) (checksum : UInt32) : ℤ :=
  match version with
  | .v1 => (checksum.toNat % 2 ^ 16 : ℕ)
  | .v2 => (checksum.toNat : ℕ)

end Qbt
