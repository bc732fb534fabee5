/-
# The streaming QBT decoder

`QbtProtocolDecoder` of `protocol/codec.rs`: a state machine with seven states
over a buffer of decoded wire bytes.  A handler takes the decoder and returns
the events it pushed, the decoder it leaves and its `Result<bool>`; `feed`
appends the decoded chunk and runs the handlers until one makes no progress,
turning an error into a `DecoderRecovered` warning.

The loop of `feed` is a `StepLoop.Ranked`: `potential` is the measure that every
progressing pass lowers, mixing the number of buffered bytes with the position
of the state in a frame.
-/
import Emwin.Lib.StepLoop
import Emwin.Qbt.Header
import Emwin.Qbt.ServerList

namespace Qbt

open ListSearch StepLoop

/-- Synchronization bytes that mark the start of a frame. -/
def SYNC_BYTES : List UInt8 := List.replicate 6 0

/-- Minimum buffered size enforced for server-list scans. -/
def MIN_SERVER_LIST_FRAME_BYTES : ℕ := 1024

/-- Internal state machine for the streaming decoder. -/
inductive DecoderState where
  | resync
  | startFrame
  | frameType
  | qbtServerList
  | blockHeader
  | blockBody
  | validate
  deriving DecidableEq, Repr

/-- Stateful decoder for EMWIN protocol frames. -/
structure QbtProtocolDecoder where
  config : QbtDecodeConfig
  buffer : List UInt8
  state : DecoderState
  pending : Option PendingSegment
  deriving DecidableEq, Repr

/-- Creates a decoder, with the server-list limit clamped from below. -/
def QbtProtocolDecoder.new (config : QbtDecodeConfig) : QbtProtocolDecoder where
  config := { config with
    maxServerListFrameBytes := max config.maxServerListFrameBytes MIN_SERVER_LIST_FRAME_BYTES }
  buffer := []
  state := .resync
  pending := none

/-- What a handler leaves: the events pushed, the decoder and its result. -/
structure Handled where
  out : List QbtFrameEvent
  decoder : QbtProtocolDecoder
  result : Except QbtProtocolError Bool

/-- A handler that pushes no event and cannot fail. -/
def Handled.quiet (r : QbtProtocolDecoder × Bool) : Handled := ⟨[], r.1, .ok r.2⟩

/-! ## The handlers -/

/-- The first position that carries the sync marker; only zero bytes are compared
further, as `memchr` does. -/
def searchSync : List UInt8 → Option ℕ
  | [] => none
  | b :: rest =>
      if b = 0 ∧ SYNC_BYTES <+: b :: rest then some 0 else (searchSync rest).map (· + 1)

/-- Searches for the six-byte sync marker and retains a suffix for split markers. -/
def findSync (d : QbtProtocolDecoder) : QbtProtocolDecoder × Bool :=
  if d.buffer.length < SYNC_BYTES.length then (d, false)
  else
    match searchSync d.buffer with
    | some idx =>
        ({ d with buffer := d.buffer.drop (idx + SYNC_BYTES.length), state := .startFrame }, true)
    | none =>
        -- the buffer may end with the first bytes of a marker
        let keep := SYNC_BYTES.length - 1
        if keep < d.buffer.length then
          ({ d with buffer := d.buffer.drop (d.buffer.length - keep) }, false)
        else (d, false)

/-- Consumes any padding that follows a sync marker before frame classification. -/
def skipPadding (d : QbtProtocolDecoder) : QbtProtocolDecoder × Bool :=
  let rest := d.buffer.dropWhile (· = 0)
  if rest ≠ [] then ({ d with buffer := rest, state := .frameType }, true)
  else ({ d with buffer := rest }, 0 < d.buffer.length - rest.length)

/-- Routes the decoder into the handler for the next frame kind. -/
def detectFrameType (d : QbtProtocolDecoder) : QbtProtocolDecoder × Bool :=
  match d.buffer with
  | [] => (d, false)
  | b :: rest =>
      -- every frame begins with a slash, followed by `PF` or `Se`
      if b ≠ 0x2F then ({ d with buffer := rest, state := .resync }, true)
      else if d.buffer.length < 3 then (d, false)
      else if [0x2F, 0x50, 0x46] <+: d.buffer then ({ d with state := .blockHeader }, true)
      else if [0x2F, 0x53, 0x65] <+: d.buffer ∨ Utf8.encode serverListPrefix <+: d.buffer then
        ({ d with state := .qbtServerList }, true)
      else ({ d with buffer := rest, state := .resync }, true)

/-- `find_subsequence` of the source. -/
def findSubsequence (haystack needle : List UInt8) : Option ℕ :=
  if needle = [] ∨ haystack.length < needle.length then none else findSub needle haystack

/-- Drops a malformed server list up to the next sync marker. -/
def discardMalformedServerList (d : QbtProtocolDecoder) : QbtProtocolDecoder :=
  -- the search starts behind the first byte, which belongs to the list
  let buffer := match findSubsequence (d.buffer.drop 1) SYNC_BYTES with
    | some idx => d.buffer.drop (idx + 1)
    | none =>
        let keep := SYNC_BYTES.length - 1
        if keep < d.buffer.length then d.buffer.drop (d.buffer.length - keep) else d.buffer
  { d with buffer := buffer, state := .resync }

/-- The warning for a server list that outgrows the limit. -/
def serverListExceeded (limit : ℕ) : QbtFrameEvent :=
  .warning (.decoderRecovered
    ("server list frame exceeded ".toList ++ Str.ofNat limit ++ " bytes".toList))

/-- Reads a server list up to its terminating NUL. -/
def processServerList (d : QbtProtocolDecoder) : Handled :=
  match d.buffer.findIdx? (· = 0) with
  | none =>
      if d.config.maxServerListFrameBytes < d.buffer.length then
        ⟨[serverListExceeded d.config.maxServerListFrameBytes], discardMalformedServerList d,
          .ok true⟩
      else ⟨[], d, .ok false⟩
  | some endIdx =>
      if d.config.maxServerListFrameBytes < endIdx then
        ⟨[serverListExceeded d.config.maxServerListFrameBytes], discardMalformedServerList d,
          .ok true⟩
      else
        -- the frame is consumed before it is read: an error does not meet it again
        let d' := { d with buffer := d.buffer.drop (endIdx + 1) }
        match fromUtf8 (d.buffer.take endIdx) with
        | .error e => ⟨[], d', .error e⟩
        | .ok content =>
            match parseServerListFrame content with
            | .error e => ⟨[], d', .error e⟩
            | .ok (list, warnings) =>
                ⟨.serverListUpdate list :: warnings.map .warning,
                  { d' with state := .startFrame }, .ok true⟩

/-- Parses the 80-byte header of a data block. -/
def processBlockHeader (env : CodecEnv) (d : QbtProtocolDecoder) : Handled :=
  if d.buffer.length < HEADER_SIZE then ⟨[], d, .ok false⟩
  else
    let d' := { d with buffer := d.buffer.drop HEADER_SIZE }
    match parseHeader env (d.buffer.take HEADER_SIZE) d.config.maxV2BodySize with
    | .error e => ⟨[], d', .error e⟩
    | .ok pending => ⟨[], { d' with pending := some pending, state := .blockBody }, .ok true⟩

/-- Whether the payload starts with one of the zlib headers seen on the feed. -/
def hasZlibHeader (input : List UInt8) : Bool :=
  input.take 2 ∈ [[0x78, 0x9C], [0x78, 0xDA], [0x78, 0x01]]

/-- Whether the body of a frame goes through inflate. -/
def shouldAttempt (config : QbtDecodeConfig) (version : QbtProtocolVersion) (body : List UInt8) :
    Bool :=
  match version with
  | .v1 => false
  | .v2 =>
      match config.compressionPolicy with
      | .requireZlibHeader => hasZlibHeader body
      | .tryAlways => true

/-- A pending segment with its body, decompressed where that is attempted. -/
def fillBody (env : CodecEnv) (config : QbtDecodeConfig) (pending : PendingSegment)
    (body : List UInt8) : PendingSegment :=
  if shouldAttempt config pending.version body then
    match env.inflate body with
    | .ok decompressed => { pending with content := decompressed }
    | .error reason =>
        { pending with
          content := body
          decompressionFailed := true
          warnings := pending.warnings ++ [.decompressionFailed pending.filename
            pending.blockNumber (QbtProtocolError.decompression reason).toText] }
  else { pending with content := body }

/-- Reads the body of a data block once all of it is buffered. -/
def processBlockBody (env : CodecEnv) (d : QbtProtocolDecoder) : Handled :=
  match d.pending with
  | none => ⟨[], d, .error .invalidFrameType⟩
  | some pending =>
      if d.buffer.length < pending.length then ⟨[], d, .ok false⟩
      else
        ⟨[], { d with
            buffer := d.buffer.drop pending.length
            pending := some (fillBody env d.config pending (d.buffer.take pending.length))
            state := .validate }, .ok true⟩

/-- Filenames whose content is trimmed. -/
def isTextOrWmo (filename : Str) : Bool :=
  ".TXT".toList <:+ Str.toAsciiUppercase filename ∨ ".WMO".toList <:+ Str.toAsciiUppercase filename

/-- Removes trailing NULs, blanks, tabs and line ends. -/
def trimTextPadding (content : List UInt8) : List UInt8 :=
  content.rdropWhile fun b => b ∈ [0x00, 0x20, 0x09, 0x0D, 0x0A]

/-- The segment emitted for a validated pending segment. -/
def emittedSegment (pending : PendingSegment) : QbtSegment where
  filename := pending.filename
  blockNumber := pending.blockNumber
  totalBlocks := pending.totalBlocks
  content :=
    if isTextOrWmo pending.filename then trimTextPadding pending.content else pending.content
  checksum := pending.checksum
  length := pending.length
  version := pending.version
  timestampUtc := pending.timestampUtc
  source := none

/-- The events of a complete pending segment after its own warnings. -/
def validated (pending : PendingSegment) : List QbtFrameEvent :=
  -- the first three kinds of segments are dropped without an event of their own
  if pending.decompressionFailed then []
  else if pending.totalBlocks = 0 ∨ pending.blockNumber = 0
      ∨ pending.totalBlocks < pending.blockNumber then []
  else if Str.eqIgnoreAsciiCase pending.filename "FILLFILE.TXT".toList then []
  else if verifyChecksum pending.content (expectedChecksum pending.version pending.checksum)
  then [.dataBlock (emittedSegment pending)]
  else [.warning (.checksumMismatch pending.filename pending.blockNumber)]

/-- Validates the pending segment and emits it. -/
def validateAndEmit (d : QbtProtocolDecoder) : Handled :=
  match d.pending with
  | none => ⟨[], d, .error .invalidFrameType⟩
  | some pending =>
      ⟨pending.warnings.map .warning ++ validated pending,
        { d with pending := none, state := .startFrame }, .ok true⟩

/-- Dispatches one state-machine step against the buffered wire data. -/
def processBuffer (env : CodecEnv) (d : QbtProtocolDecoder) : Handled :=
  match d.state with
  | .resync => .quiet (findSync d)
  | .startFrame => .quiet (skipPadding d)
  | .frameType => .quiet (detectFrameType d)
  | .qbtServerList => processServerList d
  | .blockHeader => processBlockHeader env d
  | .blockBody => processBlockBody env d
  | .validate => validateAndEmit d

/-! ## The loop of `feed` -/

/-- Recovery from an error: a warning, no pending segment, and a fresh search for
a sync marker; a byte is dropped for an invalid frame type. -/
def recover (out : List QbtFrameEvent) (d : QbtProtocolDecoder) (err : QbtProtocolError) :
    Pass QbtProtocolDecoder QbtFrameEvent :=
  let out := out ++ [.warning (.decoderRecovered err.toText)]
  let d' := { d with pending := none, state := .resync }
  if err = .invalidFrameType ∧ d.buffer ≠ [] then
    ⟨out, { d' with buffer := d.buffer.drop 1 }, true⟩
  else ⟨out, d', !d.buffer.isEmpty⟩

/-- One pass of the loop in `feed`. -/
def feedPass (env : CodecEnv) (d : QbtProtocolDecoder) : Pass QbtProtocolDecoder QbtFrameEvent :=
  match (processBuffer env d).result with
  | .ok progressed => ⟨(processBuffer env d).out, (processBuffer env d).decoder, progressed⟩
  | .error err => recover (processBuffer env d).out (processBuffer env d).decoder err

/-! ## What one pass does, state by state -/

section Passes

variable (env : CodecEnv) {d : QbtProtocolDecoder}

/-- Only zero bytes start a sync marker, so the scan is a search for the marker. -/
theorem searchSync_eq_findSub (l : List UInt8) : searchSync l = findSub SYNC_BYTES l := by
  induction l with
  | nil => rfl
  | cons b l ih =>
      rw [searchSync]
      by_cases hp : SYNC_BYTES <+: b :: l
      · -- the marker begins with a zero, so the first test does not exclude it
        have hb : b = 0 := by
          obtain ⟨t, ht⟩ := hp
          exact (List.cons.inj ht).1.symm
        rw [if_pos ⟨hb, hp⟩, findSub_eq_zero hp]
      · rw [if_neg (fun h => hp h.2), findSub_cons_skip hp, ih]

/-- Searching for a marker: consume it, or keep the last five bytes. -/
theorem feedPass_resync (h : d.state = .resync) :
    feedPass env d = match findSub SYNC_BYTES d.buffer with
      | some idx => ⟨[], { d with buffer := d.buffer.drop (idx + 6), state := .startFrame }, true⟩
      | none => ⟨[], { d with buffer := d.buffer.rtake 5 }, false⟩ := by
  have hlen : SYNC_BYTES.length = 6 := rfl
  obtain ⟨cfg, buf, st, pend⟩ := d
  obtain rfl : st = .resync := h
  unfold feedPass processBuffer
  dsimp only [Handled.quiet]
  unfold findSync
  rw [searchSync_eq_findSub, hlen]
  by_cases hshort : buf.length < 6
  · rw [if_pos hshort, findSub_eq_none_of_length_lt (by rw [hlen]; exact hshort),
      rtake_of_length_le (by omega)]
  · rw [if_neg hshort]
    cases findSub SYNC_BYTES buf with
    | some idx => rfl
    | none =>
        dsimp only
        rw [if_pos (by omega)]
        rfl

/-- Skipping padding: on to the frame type, or wait with an empty buffer. -/
theorem feedPass_startFrame (h : d.state = .startFrame) :
    feedPass env d =
      if d.buffer.dropWhile (· = 0) ≠ [] then
        ⟨[], { d with buffer := d.buffer.dropWhile (· = 0), state := .frameType }, true⟩
      else ⟨[], { d with buffer := [] }, !d.buffer.isEmpty⟩ := by
  obtain ⟨cfg, buf, st, pend⟩ := d
  obtain rfl : st = .startFrame := h
  unfold feedPass processBuffer
  dsimp only [Handled.quiet]
  unfold skipPadding
  by_cases hrest : buf.dropWhile (· = 0) = []
  · simp only [hrest, ne_eq, not_true_eq_false, if_false, List.length_nil, Nat.sub_zero]
    cases buf with
    | nil => rfl
    | cons b l => simp
  · simp only [ne_eq, hrest, not_false_eq_true, if_true]

/-- The two prefixes of a server list amount to the shorter one. -/
theorem serverList_prefix_iff (l : List UInt8) :
    ([0x2F, 0x53, 0x65] <+: l ∨ Utf8.encode serverListPrefix <+: l) ↔ [0x2F, 0x53, 0x65] <+: l := by
  constructor
  · rintro (h | h)
    · exact h
    · exact List.IsPrefix.trans (by decide) h
  · exact Or.inl

/-- Classifying a frame by its first bytes. -/
theorem feedPass_frameType (h : d.state = .frameType) :
    feedPass env d = match d.buffer with
      | [] => ⟨[], d, false⟩
      | b :: rest =>
          if b ≠ 0x2F then ⟨[], { d with buffer := rest, state := .resync }, true⟩
          else if d.buffer.length < 3 then ⟨[], d, false⟩
          else if [0x2F, 0x50, 0x46] <+: d.buffer then
            ⟨[], { d with state := .blockHeader }, true⟩
          else if [0x2F, 0x53, 0x65] <+: d.buffer then
            ⟨[], { d with state := .qbtServerList }, true⟩
          else ⟨[], { d with buffer := rest, state := .resync }, true⟩ := by
  obtain ⟨cfg, buf, st, pend⟩ := d
  obtain rfl : st = .frameType := h
  unfold feedPass processBuffer
  dsimp only [Handled.quiet]
  unfold detectFrameType
  cases buf with
  | nil => rfl
  | cons b rest =>
      simp only [serverList_prefix_iff]
      split_ifs <;> rfl

/-- A server list without its NUL waits, or is given up past the limit. -/
theorem feedPass_serverList_none (h : d.state = .qbtServerList)
    (hnul : d.buffer.findIdx? (· = 0) = none) :
    feedPass env d =
      if d.config.maxServerListFrameBytes < d.buffer.length then
        ⟨[serverListExceeded d.config.maxServerListFrameBytes], discardMalformedServerList d, true⟩
      else ⟨[], d, false⟩ := by
  obtain ⟨cfg, buf, st, pend⟩ := d
  obtain rfl : st = .qbtServerList := h
  unfold feedPass processBuffer
  dsimp only at *
  unfold processServerList
  rw [hnul]
  dsimp only
  split_ifs <;> rfl

/-- A NUL past the limit gives the server list up. -/
theorem feedPass_serverList_exceeded (h : d.state = .qbtServerList) {e : ℕ}
    (hnul : d.buffer.findIdx? (· = 0) = some e) (he : d.config.maxServerListFrameBytes < e) :
    feedPass env d =
      ⟨[serverListExceeded d.config.maxServerListFrameBytes], discardMalformedServerList d,
        true⟩ := by
  obtain ⟨cfg, buf, st, pend⟩ := d
  obtain rfl : st = .qbtServerList := h
  unfold feedPass processBuffer
  dsimp only at *
  unfold processServerList
  rw [hnul]
  dsimp only
  rw [if_pos he]

/-- The result of reading the text of a server list. -/
def readServerList (content : List UInt8) :
    Except QbtProtocolError (QbtServerList × List QbtProtocolWarning) :=
  fromUtf8 content >>= parseServerListFrame

/-- A complete server list is read, or recovered from. -/
theorem feedPass_serverList_some (h : d.state = .qbtServerList) {e : ℕ}
    (hnul : d.buffer.findIdx? (· = 0) = some e) (he : e ≤ d.config.maxServerListFrameBytes) :
    feedPass env d = match readServerList (d.buffer.take e) with
      | .ok (list, warnings) =>
          ⟨.serverListUpdate list :: warnings.map .warning,
            { d with buffer := d.buffer.drop (e + 1), state := .startFrame }, true⟩
      | .error err => recover [] { d with buffer := d.buffer.drop (e + 1) } err := by
  obtain ⟨cfg, buf, st, pend⟩ := d
  obtain rfl : st = .qbtServerList := h
  unfold feedPass processBuffer
  dsimp only at *
  unfold processServerList readServerList
  rw [hnul]
  dsimp only
  rw [if_neg (by omega)]
  cases hu : fromUtf8 (buf.take e) with
  | error err => rfl
  | ok content =>
      change _ = match parseServerListFrame content with
        | .ok (list, warnings) => _
        | .error err => _
      dsimp only
      cases hp : parseServerListFrame content with
      | error err => rfl
      | ok r => rfl

/-- A header waits for its 80 bytes, and is then parsed or recovered from. -/
theorem feedPass_blockHeader (h : d.state = .blockHeader) :
    feedPass env d =
      if d.buffer.length < 80 then ⟨[], d, false⟩
      else match parseHeader env (d.buffer.take 80) d.config.maxV2BodySize with
        | .ok pending => ⟨[], { d with buffer := d.buffer.drop 80, pending := some pending,
                                       state := .blockBody }, true⟩
        | .error err => recover [] { d with buffer := d.buffer.drop 80 } err := by
  have hsize : HEADER_SIZE = 80 := rfl
  obtain ⟨cfg, buf, st, pend⟩ := d
  obtain rfl : st = .blockHeader := h
  unfold feedPass processBuffer
  dsimp only at *
  unfold processBlockHeader
  rw [hsize]
  by_cases hlen : buf.length < 80
  · simp only [if_pos hlen]
  · simp only [if_neg hlen]
    cases parseHeader env (buf.take 80) cfg.maxV2BodySize with
    | error err => rfl
    | ok pending => rfl

/-- A body waits for the announced number of bytes. -/
theorem feedPass_blockBody (h : d.state = .blockBody) {p : PendingSegment}
    (hp : d.pending = some p) :
    feedPass env d =
      if d.buffer.length < p.length then ⟨[], d, false⟩
      else ⟨[], { d with
          buffer := d.buffer.drop p.length
          pending := some (fillBody env d.config p (d.buffer.take p.length))
          state := .validate }, true⟩ := by
  obtain ⟨cfg, buf, st, pend⟩ := d
  obtain rfl : st = .blockBody := h
  unfold feedPass processBuffer
  dsimp only at *
  unfold processBlockBody
  rw [hp]
  dsimp only
  split_ifs <;> rfl

/-- A complete segment is validated without looking at the buffer. -/
theorem feedPass_validate (h : d.state = .validate) {p : PendingSegment}
    (hp : d.pending = some p) :
    feedPass env d =
      ⟨p.warnings.map .warning ++ validated p, { d with pending := none, state := .startFrame },
        true⟩ := by
  obtain ⟨cfg, buf, st, pend⟩ := d
  obtain rfl : st = .validate := h
  unfold feedPass processBuffer
  dsimp only at *
  unfold validateAndEmit
  rw [hp]

/-- A body or a validation without a pending segment is an invalid frame type. -/
theorem feedPass_without_pending (h : d.state = .blockBody ∨ d.state = .validate)
    (hp : d.pending = none) : feedPass env d = recover [] d .invalidFrameType := by
  unfold feedPass processBuffer
  rcases h with h | h <;> rw [h] <;> dsimp only
  · unfold processBlockBody
    rw [hp]
  · unfold validateAndEmit
    rw [hp]

end Passes

/-! ## Termination of the loop -/

/-- The position of a state in a frame: passes that consume nothing go down. -/
def DecoderState.rank : DecoderState → ℕ
  | .resync => 0
  | .qbtServerList => 2
  | .blockHeader => 2
  | .frameType => 3
  | .startFrame => 4
  | .validate => 5
  | .blockBody => 6

/-- The measure of the loop: buffered bytes first, then the position in a frame. -/
def potential (d : QbtProtocolDecoder) : ℕ := 8 * d.buffer.length + d.state.rank

/-- Dropping a malformed server list never lengthens the buffer. -/
theorem length_discardMalformedServerList_le (d : QbtProtocolDecoder) :
    (discardMalformedServerList d).buffer.length ≤ d.buffer.length := by
  unfold discardMalformedServerList
  dsimp only
  split
  · rw [List.length_drop]; omega
  · split_ifs
    · rw [List.length_drop]; omega
    · exact le_rfl

/-- Recovery starts over in `resync` with at most the same buffer. -/
theorem recover_state (out : List QbtFrameEvent) (d : QbtProtocolDecoder)
    (err : QbtProtocolError) :
    (recover out d err).state.state = .resync ∧ (recover out d err).state.pending = none ∧
      (recover out d err).state.config = d.config ∧
      (recover out d err).state.buffer.length ≤ d.buffer.length := by
  unfold recover
  dsimp only
  split_ifs
  · exact ⟨rfl, rfl, rfl, by rw [List.length_drop]; omega⟩
  · exact ⟨rfl, rfl, rfl, le_rfl⟩

/-- Recovery ends the frame. -/
theorem potential_recover_le (out : List QbtFrameEvent) (d : QbtProtocolDecoder)
    (err : QbtProtocolError) : potential (recover out d err).state ≤ 8 * d.buffer.length := by
  obtain ⟨hstate, -, -, hlen⟩ := recover_state out d err
  rw [potential, hstate]
  simp only [DecoderState.rank]
  omega

section Termination

variable {env : CodecEnv} {d : QbtProtocolDecoder}

/-- A found sync mark is dropped. -/
theorem potential_lt_resync (hs : d.state = .resync) (h : (feedPass env d).again = true) :
    potential (feedPass env d).state < potential d := by
  rw [potential, potential, hs]
  rw [feedPass_resync env hs] at h ⊢
  cases hf : findSub SYNC_BYTES d.buffer with
  | none => rw [hf] at h; cases h
  | some idx =>
      have hlen : idx + 6 ≤ d.buffer.length := add_length_le_of_findSub hf
      simp only [DecoderState.rank, List.length_drop]
      omega

/-- Padding is dropped. -/
theorem potential_lt_startFrame (hs : d.state = .startFrame) (h : (feedPass env d).again = true) :
    potential (feedPass env d).state < potential d := by
  rw [potential, potential, hs]
  rw [feedPass_startFrame env hs] at h ⊢
  have hlen : (d.buffer.dropWhile (· = 0)).length ≤ d.buffer.length :=
    (List.dropWhile_suffix _).length_le
  split at h
  · next hrest =>
      rw [if_pos hrest]
      simp only [DecoderState.rank]
      omega
  · next hrest =>
      rw [if_neg hrest]
      cases hb : d.buffer with
      | nil => rw [hb] at h; cases h
      | cons b l => simp [hs]

/-- Detecting the frame moves on in the frame, or drops a byte. -/
theorem potential_lt_frameType (hs : d.state = .frameType) (h : (feedPass env d).again = true) :
    potential (feedPass env d).state < potential d := by
  rw [potential, potential, hs]
  rw [feedPass_frameType env hs] at h ⊢
  cases hb : d.buffer with
  | nil => rw [hb] at h; cases h
  | cons b rest =>
      rw [hb] at h
      dsimp only at h ⊢
      split_ifs at h ⊢ <;> simp only [DecoderState.rank, List.length_cons] <;> omega

/-- A server list is dropped whole, or as far as it is malformed. -/
theorem potential_lt_qbtServerList (hs : d.state = .qbtServerList)
    (h : (feedPass env d).again = true) :
    potential (feedPass env d).state < potential d := by
  rw [potential, potential, hs]
  have hdisc := length_discardMalformedServerList_le d
  cases hnul : d.buffer.findIdx? (· = 0) with
  | none =>
      rw [feedPass_serverList_none env hs hnul] at h ⊢
      split_ifs at h ⊢
      · simp only [discardMalformedServerList, DecoderState.rank] at hdisc ⊢
        omega
  | some e =>
      have hlt : e < d.buffer.length := (List.findIdx?_eq_some_iff_getElem.mp hnul).1
      by_cases he : d.config.maxServerListFrameBytes < e
      · rw [feedPass_serverList_exceeded env hs hnul he]
        simp only [discardMalformedServerList, DecoderState.rank] at hdisc ⊢
        omega
      · rw [feedPass_serverList_some env hs hnul (by omega)]
        cases readServerList (d.buffer.take e) with
        | ok r =>
            simp only [DecoderState.rank, List.length_drop]
            omega
        | error err =>
            have hrecover := potential_recover_le [] { d with buffer := d.buffer.drop (e + 1) } err
            simp only [potential, DecoderState.rank, List.length_drop] at hrecover ⊢
            omega

/-- A header is dropped. -/
theorem potential_lt_blockHeader (hs : d.state = .blockHeader) (h : (feedPass env d).again = true) :
    potential (feedPass env d).state < potential d := by
  rw [potential, potential, hs]
  rw [feedPass_blockHeader env hs] at h ⊢
  split at h
  · cases h
  · next hlen =>
      rw [if_neg hlen]
      cases parseHeader env (d.buffer.take 80) d.config.maxV2BodySize with
      | ok p =>
          simp only [DecoderState.rank, List.length_drop]
          omega
      | error err =>
          have hrecover := potential_recover_le [] { d with buffer := d.buffer.drop 80 } err
          simp only [potential, DecoderState.rank, List.length_drop] at hrecover ⊢
          omega

/-- A body is dropped. -/
theorem potential_lt_blockBody (hs : d.state = .blockBody) (h : (feedPass env d).again = true) :
    potential (feedPass env d).state < potential d := by
  rw [potential, potential, hs]
  cases hp : d.pending with
  | none =>
      rw [feedPass_without_pending env (Or.inl hs) hp]
      have hrecover := potential_recover_le [] d .invalidFrameType
      simp only [potential, DecoderState.rank] at hrecover ⊢
      omega
  | some p =>
      rw [feedPass_blockBody env hs hp] at h ⊢
      split at h
      · cases h
      · next hlen =>
          rw [if_neg hlen]
          simp only [DecoderState.rank, List.length_drop]
          omega

/-- A validated block leads to the start of the next frame. -/
theorem potential_lt_validate (hs : d.state = .validate) :
    potential (feedPass env d).state < potential d := by
  rw [potential, potential, hs]
  cases hp : d.pending with
  | none =>
      rw [feedPass_without_pending env (Or.inr hs) hp]
      have hrecover := potential_recover_le [] d .invalidFrameType
      simp only [potential, DecoderState.rank] at hrecover ⊢
      omega
  | some p =>
      rw [feedPass_validate env hs hp]
      simp only [DecoderState.rank]
      omega

end Termination

/-- **Termination of the loop.**  Every progressing pass lowers the potential. -/
theorem potential_lt (env : CodecEnv) (d : QbtProtocolDecoder)
    (h : (feedPass env d).again = true) : potential (feedPass env d).state < potential d := by
  cases hs : d.state with
  | resync => exact potential_lt_resync hs h
  | startFrame => exact potential_lt_startFrame hs h
  | frameType => exact potential_lt_frameType hs h
  | qbtServerList => exact potential_lt_qbtServerList hs h
  | blockHeader => exact potential_lt_blockHeader hs h
  | blockBody => exact potential_lt_blockBody hs h
  | validate => exact potential_lt_validate hs

/-- The loop of `feed`, with the measure that bounds it. -/
def feedLoop (env : CodecEnv) : Ranked QbtProtocolDecoder QbtFrameEvent where
  body := feedPass env
  rank := potential
  rank_lt := potential_lt env

/-! ## Feeding and resetting -/

/-- Append decoded bytes to the buffer. -/
def extendBuffer (d : QbtProtocolDecoder) (decoded : List UInt8) : QbtProtocolDecoder :=
  { d with buffer := d.buffer ++ decoded }

/-- Feeds one chunk of XOR-obfuscated wire data into the decoder. -/
def feed (env : CodecEnv) (d : QbtProtocolDecoder) (chunk : List UInt8) :
    List QbtFrameEvent × QbtProtocolDecoder :=
  (feedLoop env).feed extendBuffer d (xorFf chunk)

/-- Feeds chunks one after another and collects their events. -/
def feedAll (env : CodecEnv) (d : QbtProtocolDecoder) :
    List (List UInt8) → List QbtFrameEvent × QbtProtocolDecoder
  | [] => ([], d)
  | chunk :: chunks =>
      ((feed env d chunk).1 ++ (feedAll env (feed env d chunk).2 chunks).1,
        (feedAll env (feed env d chunk).2 chunks).2)

/-- Resets the decoder state. -/
def reset (d : QbtProtocolDecoder) : QbtProtocolDecoder :=
  { d with buffer := [], pending := none, state := .resync }

/-- The decoders obtained from a fresh one by `feed` and `reset` calls. -/
inductive Reachable (env : CodecEnv) (config : QbtDecodeConfig) : QbtProtocolDecoder → Prop
  | new : Reachable env config (QbtProtocolDecoder.new config)
  | feed {d : QbtProtocolDecoder} (chunk : List UInt8) :
      Reachable env config d → Reachable env config (feed env d chunk).2
  | reset {d : QbtProtocolDecoder} : Reachable env config d → Reachable env config (reset d)

end Qbt
