/-
# Data model of the QBT protocol

The configuration of the decoder, the events it emits and the errors its
handlers return, from `config.rs`, `error.rs` and `protocol/model.rs`.  The
texts of the errors are part of the model: a recovered error reaches the event
stream as its text.

Bytes are `UInt8`, block numbers and checksums `UInt32`, ports `UInt16`; sizes
are natural numbers, and a point in time is a number of nanoseconds since the
Unix epoch.
-/
import Emwin.Lib.Text
import Emwin.Lib.Utf8

namespace Qbt

/-! ## Configuration -/

/-- Policy for handling V2 protocol compression. -/
inductive QbtV2CompressionPolicy where
  | requireZlibHeader
  | tryAlways
  deriving DecidableEq, Repr

/-- Configuration for the protocol decoder.  The checksum policy of the source
has one value and is not read by the decoder. -/
structure QbtDecodeConfig where
  compressionPolicy : QbtV2CompressionPolicy
  maxV2BodySize : ℕ
  maxServerListFrameBytes : ℕ
  deriving DecidableEq, Repr

/-- `QbtDecodeConfig::default`. -/
def QbtDecodeConfig.default : QbtDecodeConfig where
  compressionPolicy := .requireZlibHeader
  maxV2BodySize := 1024
  maxServerListFrameBytes := 65536

/-! ## Errors -/

/-- The errors a decoder handler can return. -/
inductive QbtProtocolError where
  | invalidHeader
  | invalidBodyLength (len : ℕ)
  | unsupportedFrame
  | missingField (tag : Str)
  | decompression (reason : Str)
  | invalidFrameType
  | invalidUtf8 (reason : Str)
  deriving DecidableEq, Repr

/-- `Display` of a protocol error. -/
def QbtProtocolError.toText : QbtProtocolError → Str
  | .invalidHeader => "invalid frame header".toList
  | .invalidBodyLength len => "invalid body length: ".toList ++ Str.ofNat len
  | .unsupportedFrame => "unsupported frame".toList
  | .missingField tag => "missing field: ".toList ++ tag
  | .decompression reason => "decompression failed: ".toList ++ reason
  | .invalidFrameType => "invalid frame type".toList
  | .invalidUtf8 reason => "invalid utf8 in frame: ".toList ++ reason

/-- `Display` of the standard library's UTF-8 error. -/
def utf8ErrorText (e : Utf8.Utf8Error) : Str :=
  match e.errorLen with
  | some len =>
      "invalid utf-8 sequence of ".toList ++ Str.ofNat len ++ " bytes from index ".toList
        ++ Str.ofNat e.validUpTo
  | none => "incomplete utf-8 byte sequence from index ".toList ++ Str.ofNat e.validUpTo

/-! ## Events -/

/-- Protocol version identifier. -/
inductive QbtProtocolVersion where
  | v1
  | v2
  deriving DecidableEq, Repr

/-- A single data segment (block) from a file transfer. -/
structure QbtSegment where
  filename : Str
  blockNumber : UInt32
  totalBlocks : UInt32
  content : List UInt8
  checksum : UInt32
  length : ℕ
  version : QbtProtocolVersion
  timestampUtc : ℤ
  source : Option Str
  deriving DecidableEq, Repr

/-- List of available servers for connection. -/
structure QbtServerList where
  servers : List (Str × UInt16)
  deriving DecidableEq, Repr

/-- Warnings emitted while decoding. -/
inductive QbtProtocolWarning where
  | checksumMismatch (filename : Str) (blockNumber : UInt32)
  | decompressionFailed (filename : Str) (blockNumber : UInt32) (reason : Str)
  | decoderRecovered (error : Str)
  | malformedServerEntry (entry : Str)
  | timestampParseFallback (raw : Str)
  deriving DecidableEq, Repr

/-- Events emitted by the protocol decoder. -/
inductive QbtFrameEvent where
  | dataBlock (segment : QbtSegment)
  | serverListUpdate (list : QbtServerList)
  | warning (w : QbtProtocolWarning)
  deriving DecidableEq, Repr

/-! ## The wire transform -/

/-- The protocol's XOR-`0xFF` wire transform. -/
def xorFf (data : List UInt8) : List UInt8 := data.map (· ^^^ 0xFF)

/-- The transform is its own inverse. -/
@[simp] theorem xorFf_xorFf (data : List UInt8) : xorFf (xorFf data) = data := by
  unfold xorFf
  rw [List.map_map]
  have h : ((fun b : UInt8 => b ^^^ 0xFF) ∘ fun b => b ^^^ 0xFF) = id := by
    funext b
    rw [Function.comp_apply, UInt8.xor_assoc, UInt8.xor_self, UInt8.xor_zero, id_eq]
  rw [h, List.map_id]

@[simp] theorem xorFf_append (v w : List UInt8) : xorFf (v ++ w) = xorFf v ++ xorFf w :=
  List.map_append

@[simp] theorem xorFf_nil : xorFf [] = [] := rfl

/-! ## Logon messages -/

/-- Wire-format prefix for QBT logon messages. -/
def LOGON_PREFIX : Str := "ByteBlast Client|NM-".toList

/-- Wire-format suffix for QBT logon messages. -/
def LOGON_SUFFIX : Str := "|V2".toList

/-- The payload of a logon message. -/
structure QbtAuthMessage where
  email : Str
  deriving DecidableEq, Repr

/-- Builds the wire-format logon message for a user email address. -/
def buildLogonMessage (email : Str) : Str := LOGON_PREFIX ++ email ++ LOGON_SUFFIX

/-- Parses a logon message and extracts the authentication payload. -/
def parseLogonMessage (message : Str) : Option QbtAuthMessage := do
  let payload ← Str.stripPrefix LOGON_PREFIX message
  let email ← (Str.stripSuffix LOGON_SUFFIX payload).map Str.trim
  if email = [] then none else some ⟨email⟩

example : parseLogonMessage "ByteBlast Client|NM-user@example.com|V2".toList =
    some ⟨"user@example.com".toList⟩ := by decide

example : parseLogonMessage "ByteBlast Client|NM-|V2".toList = none := by decide

end Qbt
