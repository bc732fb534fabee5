/-
# The ingest stream

`ingest/qbt_adapter.rs` and `ingest/wxwire_adapter.rs` bring the events of the two receivers
into one stream.  The satellite feed sends files in blocks: its adapter owns the assembler,
which outlives the connections.  A Weather Wire file is complete as it comes.

The errors of the receivers are passed on without being looked into, so their type is a
parameter.
-/
import Emwin.Client.RunHistory
import Emwin.Client.Runtime
import Emwin.Qbt.Delivery
import Emwin.Qbt.Transmission
import Emwin.WxWire.NoaaportText
import Emwin.WxWire.RunHistory
import Emwin.WxWire.Runtime

namespace Ingest

open Client Qbt Qbt.QbtFileAssembler WxWire

/-! ## What is ingested -/

/-- Source that provided a product. -/
inductive ProductOrigin where
  | qbt
  | wxWire (messageId subject : Str) (delayStampUtc : Option ℤ)
  deriving DecidableEq, Repr

/-- A complete product received from either source. -/
structure ReceivedProduct where
  filename : Str
  data : List UInt8
  sourceTimestampUtc : ℤ
  origin : ProductOrigin
  deriving DecidableEq, Repr

/-- `From<QbtCompletedFile>`. -/
def ReceivedProduct.ofCompletedFile (file : QbtCompletedFile) : ReceivedProduct where
  filename := file.filename
  data := file.data
  sourceTimestampUtc := file.timestampUtc
  origin := .qbt

/-- `From<WxWireReceiverFile>`. -/
def ReceivedProduct.ofWxWireFile (file : WxWireReceiverFile) : ReceivedProduct where
  filename := file.filename
  data := file.data
  sourceTimestampUtc := file.issueUtc
  origin := .wxWire file.id file.subject file.delayStampUtc

/-- A warning of one of the receivers; those of the satellite client are apart from those of
its decoder. -/
inductive IngestWarning where
  | qbt (w : QbtProtocolWarning)
  | qbtClient (w : ClientWarning)
  | wxWire (w : WxWireReceiverWarning)
  deriving DecidableEq, Repr

/-- Telemetry snapshot from receiver. -/
inductive IngestTelemetry where
  | qbt (snapshot : QbtReceiverTelemetrySnapshot)
  | wxWire (snapshot : WxWireReceiverTelemetrySnapshot)
  deriving DecidableEq, Repr

/-- The unified event stream. -/
inductive IngestEvent where
  | product (p : ReceivedProduct)
  | connected (endpoint : Str)
  | disconnected
  | telemetry (snapshot : IngestTelemetry)
  | warning (w : IngestWarning)
  deriving DecidableEq, Repr

/-- An item of a receiver's stream, met at a time by an assembler with an iteration order. -/
structure Item (ε : Type) where
  event : Except ε QbtReceiverEvent
  now : ℕ
  order : IterationOrder (Σ _ : Str, InflightFile)

/-! ## The adapters -/

section Adapters

variable {ε : Type} (toLowercase : Str → Str)

/-- The size of the duplicate cache of the adapter's assembler. -/
def DEFAULT_DUPLICATE_CACHE_SIZE : ℕ := 100

/-- `map_qbt_frame_event`. -/
def mapQbtFrameEvent (frame : QbtFrameEvent) (asm : QbtFileAssembler) (now : ℕ)
    (order : IterationOrder (Σ _ : Str, InflightFile)) :
    Option IngestEvent × QbtFileAssembler :=
  match frame with
  | .dataBlock segment =>
      let pushed := push toLowercase asm segment now order
      (pushed.1.map fun file => .product (.ofCompletedFile file), pushed.2)
  | .warning w => (some (.warning (.qbt w)), asm)
  | .serverListUpdate _ => (none, asm)

/-- `map_qbt_event`. -/
def mapQbtEvent (item : Item ε) (asm : QbtFileAssembler) :
    Option (Except ε IngestEvent) × QbtFileAssembler :=
  match item.event with
  | .ok (.connected endpoint) => (some (.ok (.connected endpoint)), asm)
  | .ok .disconnected => (some (.ok .disconnected), asm)
  | .ok (.telemetry snapshot) => (some (.ok (.telemetry (.qbt snapshot))), asm)
  | .ok (.clientWarning w) => (some (.ok (.warning (.qbtClient w))), asm)
  | .ok (.frame frame) =>
      let mapped := mapQbtFrameEvent toLowercase frame asm item.now item.order
      (mapped.1.map .ok, mapped.2)
  | .error e => (some (.error e), asm)

/-- The stream that `adapt_qbt_events` makes of the items from a state of the assembler on. -/
def adaptFrom (asm : QbtFileAssembler) : List (Item ε) → List (Except ε IngestEvent)
  | [] => []
  | item :: items =>
      (mapQbtEvent toLowercase item asm).1.toList ++
        adaptFrom (mapQbtEvent toLowercase item asm).2 items

/-- `adapt_qbt_events`. -/
def adaptQbtEvents (items : List (Item ε)) : List (Except ε IngestEvent) :=
  adaptFrom toLowercase (QbtFileAssembler.new DEFAULT_DUPLICATE_CACHE_SIZE) items

/-- `map_wxwire_frame_event`. -/
def mapWxWireFrameEvent : WxWireReceiverFrameEvent → Option (Except ε IngestEvent)
  | .file file => some (.ok (.product (.ofWxWireFile file)))
  | .warning w => some (.ok (.warning (.wxWire w)))

/-- `map_wxwire_event`. -/
def mapWxWireEvent : Except ε WxWireReceiverEvent → Option (Except ε IngestEvent)
  | .ok (.connected endpoint) => some (.ok (.connected endpoint))
  | .ok .disconnected => some (.ok .disconnected)
  | .ok (.telemetry snapshot) => some (.ok (.telemetry (.wxWire snapshot)))
  | .ok (.frame frame) => mapWxWireFrameEvent frame
  | .error e => some (.error e)

/-- `adapt_wxwire_events`. -/
def adaptWxWireEvents (items : List (Except ε WxWireReceiverEvent)) : List (Except ε IngestEvent) :=
  items.filterMap mapWxWireEvent

end Adapters

/-! ## The products of a stream -/

section Products

variable {ε : Type} {toLowercase : Str → Str}

/-- The product of an event. -/
def product? : Except ε IngestEvent → Option ReceivedProduct
  | .ok (.product p) => some p
  | _ => none

/-- The products among the events of a stream. -/
def products (events : List (Except ε IngestEvent)) : List ReceivedProduct :=
  events.filterMap product?

/-- The segment that an item carries, as it is pushed. -/
def Item.push? (item : Item ε) : Option Push :=
  match item.event with
  | .ok (.frame (.dataBlock segment)) => some ⟨segment, item.now, item.order⟩
  | _ => none

/-- The pushes that the items of a stream lead to. -/
def pushes (items : List (Item ε)) : List Push := items.filterMap Item.push?

/-- **The adapter adds nothing and loses nothing.**  The products of the stream are the files
that the assembler returns for the segments among the items. -/
theorem products_adaptFrom (asm : QbtFileAssembler) (items : List (Item ε)) :
    products (adaptFrom toLowercase asm items) =
      (emitted toLowercase asm (pushes items)).map ReceivedProduct.ofCompletedFile := by
  induction items generalizing asm with
  | nil => rfl
  | cons item items ih =>
      unfold products at ih ⊢
      rw [adaptFrom, List.filterMap_append, ih]
      obtain ⟨event, now, order⟩ := item
      match event with
      | .error e => rfl
      | .ok (.connected endpoint) => rfl
      | .ok .disconnected => rfl
      | .ok (.telemetry snapshot) => rfl
      | .ok (.clientWarning w) => rfl
      | .ok (.frame (.warning w)) => rfl
      | .ok (.frame (.serverListUpdate list)) => rfl
      | .ok (.frame (.dataBlock segment)) =>
          have hpushes : pushes (⟨.ok (.frame (.dataBlock segment)), now, order⟩ :: items :
              List (Item ε)) = ⟨segment, now, order⟩ :: pushes items := rfl
          rw [hpushes, emitted, List.map_append]
          congr 1
          show List.filterMap product? (((push toLowercase asm segment now order).1.map
            (fun file => IngestEvent.product (.ofCompletedFile file))).map Except.ok).toList = _
          cases (push toLowercase asm segment now order).1 <;> rfl

end Products

end Ingest

/-!
# From the wire to the ingest stream

The satellite feed as a whole: a sender cuts files into blocks and prints frames, the client
reads the bytes of one connection after another in whatever chunks they come, each connection
with a fresh decoder, offers the frames to a queue that may refuse them, and the adapter
assembles the blocks of all connections.

Every layer was treated on its own; here they are put together.  A connection may be lost in
the middle of a frame, and a file may begin on one connection and end on another.
-/

namespace Ingest

open Client Qbt Qbt.QbtFileAssembler Transition

variable {ε : Type} {env : CodecEnv} {config : QbtDecodeConfig}

/-! ## Connections -/

/-- What arrives on a connection: zero bytes, whole frames, and the beginning of another. -/
structure Connection where
  padding : ℕ
  frames : List (ℕ × Frame)
  cut : List UInt8
  deriving DecidableEq, Repr

/-- The bytes of a connection. -/
def Connection.bytes (c : Connection) : List UInt8 :=
  xorFf (zeros c.padding) ++ (transmit c.frames ++ c.cut)

/-- The decoder accepts the frames, and the sync marker comes first. -/
structure Connection.Sound (env : CodecEnv) (config : QbtDecodeConfig) (c : Connection) : Prop where
  padding : 6 ≤ c.padding
  sendable : ∀ f ∈ c.frames, f.2.Sendable env config
  cut : c.cut = [] ∨ ∃ (n : ℕ) (f : Frame),
    f.Sendable env config ∧ c.cut <+: f.wire n ∧ c.cut ≠ f.wire n

/-- The data block of a frame. -/
def block? : ℕ × Frame → Option OutgoingBlock
  | (_, .block b) => some b
  | (_, .serverList _) => none

/-- The data blocks that arrive on some connections. -/
def sentBlocks (connections : List Connection) : List OutgoingBlock :=
  connections.flatMap fun c => c.frames.filterMap block?

/-- A fresh decoder reads a connection frame by frame. -/
theorem Connection.Sound.feed_bytes {c : Connection} (h : c.Sound env config) :
    (feed env (QbtProtocolDecoder.new config) c.bytes).1 =
      c.frames.flatMap fun f => f.2.events env := by
  obtain ⟨hquiet, hstart⟩ := feed_sync_new env config h.padding
  have hnew : Reachable env config (QbtProtocolDecoder.new config) := .new
  have hcut : ∀ {d : QbtProtocolDecoder}, AtStart config d → (feed env d c.cut).1 = [] := by
    intro d hd
    rcases h.cut with hnil | ⟨n, f, hf, hpre, hne⟩
    · rw [hnil]
      show ((feedLoop env).drain (extendBuffer d [])).1 = []
      rw [extendBuffer_nil, hd.settled]
    · exact feed_cut hd f hf n hpre hne
  -- the same bytes in pieces
  have hpieces : c.bytes = (xorFf (zeros c.padding) ::
      ((c.frames.map fun f => f.2.wire f.1) ++ [c.cut])).flatten := by
    rw [Connection.bytes, List.flatten_cons, List.flatten_append, List.flatten_singleton, transmit,
      List.flatMap_def]
  rw [hpieces, ← feedAll_eq_feed hnew.ok.1 hnew.settled, feedAll, feedAll_append, hquiet,
    feedAll_frames hstart c.frames h.sendable]
  show [] ++ (_ ++ ((feed env _ c.cut).1 ++ [])) = _
  rw [hcut hstart]
  simp

/-! ## The segments of a stream -/

/-- The segment of a decoder event. -/
def segment? : QbtFrameEvent → Option QbtSegment
  | .dataBlock segment => some segment
  | .serverListUpdate _ | .warning _ => none

/-- The segments of the events of frames are those of the data blocks. -/
theorem segments_events (frames : List (ℕ × Frame)) :
    (frames.flatMap fun f => f.2.events env).filterMap segment? =
      (frames.filterMap block?).map (OutgoingBlock.segment env) := by
  induction frames with
  | nil => rfl
  | cons f frames ih =>
      rw [List.flatMap_cons, List.filterMap_append, ih]
      obtain ⟨n, frame⟩ := f
      cases frame with
      | serverList servers => rfl
      | block b =>
          have hwarnings : ((headerTimestamp env b.fd).2.map QbtFrameEvent.warning).filterMap
              segment? = [] := by
            rw [List.filterMap_map, List.filterMap_eq_nil_iff]
            intro w _
            rfl
          show ((headerTimestamp env b.fd).2.map QbtFrameEvent.warning ++
            [QbtFrameEvent.dataBlock (b.segment env)]).filterMap segment? ++ _ = _
          rw [List.filterMap_append, hwarnings]
          rfl

/-- A segment is pushed exactly if its frame is among the items. -/
theorem exists_push_iff {items : List (Item ε)} {segment : QbtSegment} :
    (∃ p ∈ pushes items, p.segment = segment) ↔
      .ok (.frame (.dataBlock segment)) ∈ items.map Item.event := by
  rw [List.mem_map]
  constructor
  · rintro ⟨p, hp, rfl⟩
    obtain ⟨⟨event, now, order⟩, hitem, hpush⟩ := List.mem_filterMap.mp hp
    refine ⟨_, hitem, ?_⟩
    match event with
    | .ok (.frame (.dataBlock segment)) =>
        obtain rfl := Option.some.inj hpush
        rfl
    | .error e => cases hpush
    | .ok (.connected endpoint) => cases hpush
    | .ok .disconnected => cases hpush
    | .ok (.telemetry snapshot) => cases hpush
    | .ok (.clientWarning w) => cases hpush
    | .ok (.frame (.serverListUpdate list)) => cases hpush
    | .ok (.frame (.warning w)) => cases hpush
  · rintro ⟨⟨event, now, order⟩, hitem, rfl⟩
    exact ⟨_, List.mem_filterMap.mpr ⟨_, hitem, rfl⟩, rfl⟩

/-! ## The client in between -/

section Runs

variable {env : RuntimeEnv} {config : RuntimeConfig} {acts : List Act} {s : State}
  {persisted : Option (Except QbtReceiverError (List Endpoint))} {connections : List Connection}

/-- What the queue takes was offered. -/
theorem mem_items_of_accepted {event : QbtFrameEvent}
    (h : .ok (.frame event) ∈ s.telemetry.runtime.accepted.map offeredItem) :
    .ok (.frame event) ∈ s.telemetry.items := by
  obtain ⟨offer, hoffer, hitem⟩ := List.mem_map.mp h
  obtain ⟨send, hsend, rfl⟩ := List.mem_map.mp hoffer
  have hsends := List.mem_of_mem_filter hsend
  refine List.mem_filterMap.mpr ⟨send, hsends, ?_⟩
  obtain ⟨offer, answer⟩ := send
  cases offer with
  | warning w => cases hitem
  | event item => exact congrArg some hitem

/-- A data block in the stream of the client was sent. -/
theorem exists_block_of_mem_items
    (hrun : exec (step env config) (State.start env config persisted) acts = some s)
    (hsound : ∀ c ∈ connections, c.Sound env.codec config.decode)
    (hread : (sessions s.history).map (fun r => r.chunks.flatten) =
      connections.map Connection.bytes) {segment : QbtSegment}
    (h : .ok (.frame (.dataBlock segment)) ∈ s.telemetry.items) :
    ∃ b ∈ sentBlocks connections, b.segment env.codec = segment := by
  have hnew : Reachable env.codec config.decode (QbtProtocolDecoder.new config.decode) := .new
  -- it was read in one of the sessions
  have hsaid : .frame (.dataBlock segment) ∈ s.telemetry.items.filterMap essential? :=
    List.mem_filterMap.mpr ⟨_, h, rfl⟩
  rw [(ok_exec hrun).consistent.agrees.stream] at hsaid
  obtain ⟨r, hr, hmem⟩ := List.mem_flatMap.mp hsaid
  have hframe : .dataBlock segment ∈ r.frames env config := by
    rcases List.mem_cons.mp hmem with hmem | hmem
    · cases hmem
    · rcases List.mem_append.mp hmem with hmem | hmem
      · obtain ⟨event, hevent, heq⟩ := List.mem_map.mp hmem
        rwa [← QbtReceiverEvent.frame.inj heq]
      · split_ifs at hmem
        · cases List.mem_singleton.mp hmem
        · cases hmem
  -- and the session has read a connection
  obtain ⟨c, hc, hbytes⟩ := List.mem_map.mp (hread ▸ List.mem_map_of_mem hr :
    r.chunks.flatten ∈ connections.map Connection.bytes)
  rw [SessionRecord.frames, feedAll_eq_feed hnew.ok.1 hnew.settled, ← hbytes,
    (hsound c hc).feed_bytes] at hframe
  have hsegment : segment ∈ (c.frames.flatMap fun f => f.2.events env.codec).filterMap segment? :=
    List.mem_filterMap.mpr ⟨_, hframe, rfl⟩
  rw [segments_events] at hsegment
  obtain ⟨b, hb, hseg⟩ := List.mem_map.mp hsegment
  exact ⟨b, List.mem_flatMap.mpr ⟨c, hc, hb⟩, hseg⟩

/-- **Files reach the ingest stream.**  Files are cut into blocks, and the blocks are sent on one
connection after another, in any order and repeated at will, with server lists in between; the
connections are read in any chunks and may be lost anywhere, and the queue may refuse any
offer.  If the stream is taken from the queue and the run stays within the limits of the
assembler, there is no product twice, and the products are exactly the files of which every
block was sent and got through the queue, each put together from its blocks as they are decoded
(those of texts without their padding). -/
theorem files_reach_ingest (toLowercase : Str → Str) {files : List OutgoingFile}
    (hd : Distinct toLowercase files)
    (hrun : exec (step env config) (State.start env config persisted) acts = some s)
    (hsound : ∀ c ∈ connections, c.Sound env.codec config.decode)
    (hread : (sessions s.history).map (fun r => r.chunks.flatten) =
      connections.map Connection.bytes)
    {items : List (Item ReceiverFailure)}
    (hitems : items.map Item.event = s.telemetry.runtime.accepted.map offeredItem)
    (hlimits : WithinLimits toLowercase files
      (QbtFileAssembler.new DEFAULT_DUPLICATE_CACHE_SIZE) (pushes items)) :
    let received := products (adaptQbtEvents toLowercase items)
    received.Nodup ∧ ∀ p, p ∈ received ↔ ∃ f ∈ files,
      p = { filename := f.filename
            data := f.blocks.flatten
            sourceTimestampUtc := f.timestampUtc
            origin := .qbt } ∧
      ∀ n, 1 ≤ n → n ≤ f.blocks.length → ∃ b ∈ sentBlocks connections,
        Carries f (b.segment env.codec) ∧ b.blockNumber.toNat = n ∧
        .ok (.frame (.dataBlock (b.segment env.codec))) ∈
          s.telemetry.runtime.accepted.map offeredItem := by
  intro received
  have hreceived : received = (emitted toLowercase
      (QbtFileAssembler.new DEFAULT_DUPLICATE_CACHE_SIZE) (pushes items)).map
        ReceivedProduct.ofCompletedFile := products_adaptFrom _ items
  have hsent : ∀ (f : OutgoingFile) (n : ℕ),
      (∃ p ∈ pushes items, Carries f p.segment ∧ p.segment.blockNumber.toNat = n) ↔
        ∃ b ∈ sentBlocks connections, Carries f (b.segment env.codec) ∧ b.blockNumber.toNat = n ∧
          .ok (.frame (.dataBlock (b.segment env.codec))) ∈
            s.telemetry.runtime.accepted.map offeredItem := by
    intro f n
    constructor
    · rintro ⟨p, hp, hcarries, hn⟩
      have haccepted := exists_push_iff.mp ⟨p, hp, rfl⟩
      rw [hitems] at haccepted
      obtain ⟨b, hb, hseg⟩ :=
        exists_block_of_mem_items hrun hsound hread (mem_items_of_accepted haccepted)
      rw [← hseg] at hcarries hn haccepted
      exact ⟨b, hb, hcarries, hn, haccepted⟩
    · rintro ⟨b, hb, hcarries, hn, haccepted⟩
      rw [← hitems] at haccepted
      obtain ⟨p, hp, hseg⟩ := exists_push_iff.mpr haccepted
      rw [← hseg] at hcarries
      refine ⟨p, hp, hcarries, ?_⟩
      rw [hseg]
      exact hn
  have hinjective : Function.Injective ReceivedProduct.ofCompletedFile := by
    rintro ⟨a1, a2, a3⟩ ⟨b1, b2, b3⟩ h
    cases h
    rfl
  rw [hreceived]
  refine ⟨(nodup_emitted hd hlimits).map hinjective, fun p => ?_⟩
  rw [List.mem_map]
  constructor
  · rintro ⟨file, hfile, rfl⟩
    obtain ⟨f, hf, rfl, hall⟩ := (mem_emitted hd hlimits file).mp hfile
    exact ⟨f, hf, rfl, fun n hpos hle => (hsent f n).mp (hall n hpos hle)⟩
  · rintro ⟨f, hf, rfl, hall⟩
    refine ⟨f.completed, (mem_emitted hd hlimits _).mpr ⟨f, hf, rfl, ?_⟩, rfl⟩
    exact fun n hpos hle => (hsent f n).mpr (hall n hpos hle)

/-! ### A file over two connections -/

/-- The first block of a file, with a timestamp that cannot be read. -/
def helloFirst : OutgoingBlock := { helloBlock with totalBlocks := 2 }

/-- The second block. -/
def helloSecond : OutgoingBlock :=
  { helloBlock with
    blockNumber := 2
    totalBlocks := 2
    body := Utf8.encode "WORLD".toList
    content := Utf8.encode "WORLD".toList }

/-- The file they belong to. -/
def helloFile : OutgoingFile where
  filename := "HELLO.TXT".toList
  timestampUtc := 0
  blocks := [Utf8.encode "HELLO".toList, Utf8.encode "WORLD".toList]

/-- The second block comes first; the first connection is lost within the first block, which
the second connection repeats. -/
def helloConnections : List Connection :=
  [⟨6, [(0, .block helloSecond)], (Frame.wire 6 (.block helloFirst)).take 50⟩,
    ⟨8, [(3, .block helloFirst)], []⟩]

/-- A queue with room, and no handlers. -/
def roomyEnv : RuntimeEnv where
  codec := .bare
  answers _ := .ok
  handlers := []
  save _ _ := .ok ()

/-- A client with one server. -/
def soleServer : RuntimeConfig where
  servers := [("a.example".toList, 2211)]
  serverListPath := none
  followServerListUpdates := false
  decode := .default
  watchdogTimeoutSecs := 20
  maxExceptions := 10

/-- The run that reads both connections to their ends. -/
def helloActs : List Act :=
  helloConnections.flatMap fun c =>
    [.turn, .connectOk 0 (.ok ()), .read 1 (.bytes c.bytes), .read 2 (.bytes [])]

theorem helloConnections_sound : ∀ c ∈ helloConnections, c.Sound .bare .default := by
  have hfirst : helloFirst.Sendable .bare .default :=
    { helloBlock_sendable with fits := by decide +kernel, numbering := by decide }
  have hsecond : helloSecond.Sendable .bare .default :=
    { helloBlock_sendable with
      fits := by decide +kernel
      numbering := by decide
      length := ⟨by decide, by decide, by decide⟩
      carried := by decide +kernel }
  refine List.forall_mem_cons.mpr ⟨⟨by decide, ?_, ?_⟩,
    List.forall_mem_singleton.mpr ⟨by decide, ?_, .inl rfl⟩⟩
  · exact List.forall_mem_singleton.mpr hsecond
  · refine .inr ⟨6, .block helloFirst, hfirst, List.take_prefix _ _, fun heq => ?_⟩
    have hlength : 50 = (Frame.wire 6 (.block helloFirst)).length := by
      rw [← heq]
      decide +kernel
    exact absurd hlength (by decide +kernel)
  · exact List.forall_mem_singleton.mpr hfirst

/-- The theorem at this run. -/
theorem files_reach_ingest_hello :
    ∃ (s : State) (items : List (Item ReceiverFailure)),
      exec (step roomyEnv soleServer) (State.start roomyEnv soleServer none) helloActs = some s ∧
      (products (adaptQbtEvents id items)).Nodup ∧
      ∀ p, p ∈ products (adaptQbtEvents id items) ↔ ∃ f ∈ [helloFile],
        p = { filename := f.filename
              data := f.blocks.flatten
              sourceTimestampUtc := f.timestampUtc
              origin := .qbt } ∧
        ∀ n, 1 ≤ n → n ≤ f.blocks.length → ∃ b ∈ sentBlocks helloConnections,
          Carries f (b.segment .bare) ∧ b.blockNumber.toNat = n ∧
          .ok (.frame (.dataBlock (b.segment .bare))) ∈
            s.telemetry.runtime.accepted.map offeredItem := by
  have hruns : (exec (step roomyEnv soleServer) (State.start roomyEnv soleServer none)
      helloActs).map (fun s => (sessions s.history).map fun r => r.chunks.flatten) =
        some (helloConnections.map Connection.bytes) := by
    decide +kernel
  obtain ⟨s, hrun, hread⟩ := Option.map_eq_some_iff.mp hruns
  have hd : Distinct id [helloFile] := ⟨by decide, by decide, by decide⟩
  have hcarries : ∀ b ∈ sentBlocks helloConnections, Carries helloFile (b.segment .bare) := by
    have hblocks : sentBlocks helloConnections = [helloSecond, helloFirst] := rfl
    rw [hblocks]
    refine List.forall_mem_cons.mpr ⟨⟨rfl, rfl, rfl, by decide, ?_⟩,
      List.forall_mem_singleton.mpr ⟨rfl, rfl, rfl, by decide, ?_⟩⟩
    · decide +kernel
    · decide +kernel
  -- the items are taken from the queue at once
  let items : List (Item ReceiverFailure) :=
    s.telemetry.runtime.accepted.map fun offer => ⟨offeredItem offer, 0, .plain⟩
  have hitems : items.map Item.event = s.telemetry.runtime.accepted.map offeredItem := by
    rw [List.map_map]
    rfl
  have hnow : ∀ p ∈ pushes items, p.now = 0 := by
    intro p hp
    obtain ⟨item, hitem, hpush⟩ := List.mem_filterMap.mp hp
    obtain ⟨offer, -, rfl⟩ := List.mem_map.mp hitem
    unfold Item.push? at hpush
    split at hpush
    · obtain rfl := Option.some.inj hpush
      rfl
    · cases hpush
  have hcarried : ∀ p ∈ pushes items, ∃ f ∈ [helloFile], Carries f p.segment := by
    intro p hp
    have haccepted := exists_push_iff.mp ⟨p, hp, rfl⟩
    rw [hitems] at haccepted
    obtain ⟨b, hb, hseg⟩ := exists_block_of_mem_items hrun helloConnections_sound hread
      (mem_items_of_accepted haccepted)
    exact ⟨helloFile, List.mem_singleton_self _, hseg ▸ hcarries b hb⟩
  refine ⟨s, items, hrun, ?_⟩
  refine files_reach_ingest id hd hrun helloConnections_sound hread hitems
    (withinLimits_of_few hd hcarried (by decide) (by decide) fun p hp q hq => ?_)
  rw [hnow p hp, Nat.zero_sub]
  exact Nat.zero_le _

end Runs

end Ingest

/-!
# From the room to the ingest stream

The Weather Wire as a whole: bulletins come as stanzas among others, over one connection after
another; the client decodes them and offers the files to a queue that may refuse them, and the
adapter passes on what the queue took.
-/

namespace Ingest

open Client Parser.Header Transition WxWire

variable {Element : Type} {ε : Type}

/-! ## What the stanzas carry -/

/-- The message that a stanza is. -/
def messageOf? (decoder : WxWireEnv Element) (stanza : Str) : Option Message :=
  match parseMessageElement decoder (Str.trim stanza) with
  | some (.ok element) => decoder.toMessage element
  | some (.error _) | none => none

/-- The stanza carries the bulletin, or makes no file if there is none. -/
def Delivers (env : WxWireRuntimeEnv Element) (stanza : ℕ × Str) :
    Option (Wrapping × Bulletin) → Prop
  | some (w, b) => ∃ message payload first v v',
      messageOf? (env.decoder stanza.1) stanza.2 = some message ∧
      nwwsPayload message = some payload ∧ payload.Carries w b first v v'
  | none => filesOf env stanza = []

/-- A file that the parser conditions as the bulletin. -/
def IsCopy (file : WxWireReceiverFile) (sent : Wrapping × Bulletin) : Prop :=
  conditionTextBytes file.data = .ok (sent.1.conditioned sent.2)

/-- A stanza makes the file of what it carries. -/
theorem forall₂_filesOf {env : WxWireRuntimeEnv Element} {stanza : ℕ × Str}
    {sent : Option (Wrapping × Bulletin)} (h : Delivers env stanza sent) :
    List.Forall₂ IsCopy (filesOf env stanza) sent.toList := by
  rcases sent with _ | ⟨w, b⟩
  · rw [show filesOf env stanza = [] from h]
    exact .nil
  · obtain ⟨message, payload, first, v, v', hmessage, hpayload, hcarries⟩ := h
    obtain ⟨file, ⟨warning, hfeed⟩, htext⟩ :=
      exists_file_of_carries (env.decoder stanza.1) hpayload hcarries
    -- the frames of the stanza are a warning at most, and the file
    have hframes : framesOf (env.decoder stanza.1) stanza.2 =
        some ((warning.map .warning).toList ++ [.file file], true) := by
      unfold messageOf? at hmessage
      unfold framesOf WxWire.feed
      cases helement : parseMessageElement (env.decoder stanza.1) (Str.trim stanza.2) with
      | none =>
          rw [helement] at hmessage
          cases hmessage
      | some result =>
          rw [helement] at hmessage
          cases result with
          | error e => cases hmessage
          | ok element =>
              have htoMessage : (env.decoder stanza.1).toMessage element = some message := hmessage
              rw [Option.bind_eq_bind, Option.bind_some]
              dsimp only
              rw [htoMessage]
              show some (feedMessage (env.decoder stanza.1) message, true) = _
              rw [hfeed]
    have hfiles : filesOf env stanza = [file] := by
      unfold filesOf
      rw [hframes]
      cases warning <;> rfl
    rw [hfiles]
    exact .cons htext .nil

/-- The files of some stanzas, one for each bulletin. -/
theorem forall₂_files {env : WxWireRuntimeEnv Element} {stanzas : List (ℕ × Str)}
    {sent : List (Option (Wrapping × Bulletin))} (h : List.Forall₂ (Delivers env) stanzas sent) :
    List.Forall₂ IsCopy (stanzas.flatMap (filesOf env)) sent.reduceOption := by
  induction h with
  | nil => exact .nil
  | @cons stanza delivered stanzas sent hone _ ih =>
      have hcons : (delivered :: sent).reduceOption = delivered.toList ++ sent.reduceOption := by
        cases delivered <;> rfl
      rw [List.flatMap_cons, hcons]
      exact List.rel_append (forall₂_filesOf hone) ih

/-! ## The files that are offered -/

/-- The file of an offer. -/
def offeredFile? (offer : Offer DropReport WxWireReceiverEvent) : Option WxWireReceiverFile :=
  match offeredEvent offer with
  | .frame frame => file? frame
  | .connected _ | .disconnected | .telemetry _ => none

/-- The products of what was taken from the queue are its files. -/
theorem products_adaptWxWireEvents (offers : List (Offer DropReport WxWireReceiverEvent)) :
    products (adaptWxWireEvents (offers.map fun offer =>
      (.ok (offeredEvent offer) : Except ε WxWireReceiverEvent))) =
      (offers.filterMap offeredFile?).map ReceivedProduct.ofWxWireFile := by
  unfold products adaptWxWireEvents
  rw [List.filterMap_map, List.filterMap_filterMap, List.map_filterMap]
  congr 1
  funext offer
  unfold offeredFile?
  show Option.bind (mapWxWireEvent (.ok (offeredEvent offer))) product? = _
  cases offeredEvent offer with
  | connected label => rfl
  | disconnected => rfl
  | telemetry snapshot => rfl
  | frame frame => cases frame <;> rfl

/-- What is offered in a run is the files of the stanzas. -/
theorem offered_files {env : WxWireRuntimeEnv Element} {s : WxWireState} (h : s.Ok env) :
    (s.telemetry.runtime.sends.map Prod.fst).filterMap offeredFile? =
      (fedStanzas s.history).flatMap (filesOf env) := by
  -- the file of an event that is not left out
  let eventFile? : WxWireReceiverEvent → Option WxWireReceiverFile
    | .frame frame => file? frame
    | .connected _ | .disconnected | .telemetry _ => none
  have hevents : (s.telemetry.runtime.sends.map Prod.fst).filterMap offeredFile? =
      (s.telemetry.events.filterMap WxWire.essential?).filterMap eventFile? := by
    show _ =
      ((s.telemetry.runtime.sends.filterMap _).filterMap WxWire.essential?).filterMap eventFile?
    rw [List.filterMap_map, List.filterMap_filterMap, List.filterMap_filterMap]
    congr 1
    funext send
    obtain ⟨offer, answer⟩ := send
    cases offer with
    | warning w => rfl
    | event event =>
        cases event with
        | connected label => rfl
        | disconnected => rfl
        | telemetry snapshot => rfl
        | frame frame => cases frame <;> rfl
  have hfiles : ∀ files : List WxWireReceiverFile,
      (files.map fun file => WxWireReceiverEvent.frame (.file file)).filterMap eventFile? =
        files := by
    intro files
    rw [List.filterMap_map]
    exact List.filterMap_some
  rw [hevents, h.agrees.stream, WxWireState.transcript, List.filterMap_append]
  have hfarewell : s.phase.farewell.filterMap eventFile? = [] := by
    unfold WxWirePhase.farewell
    split <;> rfl
  rw [hfarewell, List.append_nil, List.filterMap_flatMap]
  show _ = ((wxWireSessions s.history).flatMap WxWireSession.stanzas).flatMap (filesOf env)
  rw [List.flatMap_assoc]
  congr 1
  funext r
  unfold WxWireSession.transcript
  rw [List.cons_append, List.filterMap_cons_none rfl, List.filterMap_append, hfiles]
  split_ifs
  · exact List.append_nil _
  · exact List.append_nil _

/-- Part of a list that is related item by item is related to part of the other. -/
theorem sublistForall₂_of_sublist {α β : Type} {R : α → β → Prop} {l₁ l₂ : List α} {l₃ : List β}
    (hsub : l₁.Sublist l₂) (h : List.Forall₂ R l₂ l₃) : List.SublistForall₂ R l₁ l₃ := by
  induction hsub generalizing l₃ with
  | slnil => exact .nil
  | cons a _ ih =>
      cases h with
      | cons _ hrest => exact .cons_right (ih hrest)
  | cons_cons a _ ih =>
      cases h with
      | cons hone hrest => exact .cons hone (ih hrest)

/-! ## The client in between -/

section Runs

variable {env : WxWireRuntimeEnv Element} {idleTimeoutSecs : ℕ} {acts : List WxWireAct}
  {s : WxWireState}

/-- **Bulletins reach the ingest stream.**  If every stanza of a run carries a bulletin or makes
no file, the products taken from the queue are read, in order, as bulletins that were sent, and
as all of them if the queue refused nothing. -/
theorem bulletins_reach_ingest
    (hrun : exec (wxWireStep env idleTimeoutSecs) .start acts = some s)
    {sent : List (Option (Wrapping × Bulletin))}
    (hsent : List.Forall₂ (Delivers env) (fedStanzas s.history) sent) :
    let received := products (adaptWxWireEvents (s.telemetry.runtime.accepted.map fun offer =>
      (.ok (offeredEvent offer) : Except ε WxWireReceiverEvent)))
    let readAs := fun (p : ReceivedProduct) (wb : Wrapping × Bulletin) =>
      ∃ text, conditionTextBytes p.data = .ok text ∧
        parseTextProductConditionedRef text = .ok (wb.2.product text)
    List.SublistForall₂ readAs received sent.reduceOption ∧
      ((∀ send ∈ s.telemetry.runtime.sends, send.2 = .ok) →
        List.Forall₂ readAs received sent.reduceOption) := by
  intro received readAs
  have hreceived : received =
      (s.telemetry.runtime.accepted.filterMap offeredFile?).map .ofWxWireFile :=
    products_adaptWxWireEvents _
  have hoffered := offered_files (ok_exec hrun)
  -- each of the offered files is read as its bulletin
  have hread : ∀ {files : List WxWireReceiverFile} {bulletins : List (Wrapping × Bulletin)},
      List.Forall₂ IsCopy files bulletins →
        List.Forall₂ readAs (files.map .ofWxWireFile) bulletins := by
    intro files bulletins h
    rw [List.forall₂_map_left_iff]
    refine h.imp fun file wb hcopy => ⟨_, hcopy, ?_⟩
    exact wb.1.parse_conditioned wb.2
  have hall := hread (forall₂_files hsent)
  rw [← hoffered] at hall
  constructor
  · -- what the queue took is some of what was offered
    have hsome : s.telemetry.runtime.accepted.Sublist (s.telemetry.runtime.sends.map Prod.fst) :=
      List.filter_sublist.map _
    rw [hreceived]
    have hsub := ((hsome.filterMap offeredFile?).map ReceivedProduct.ofWxWireFile)
    exact sublistForall₂_of_sublist hsub hall
  · intro hok
    have hevery : s.telemetry.runtime.accepted = s.telemetry.runtime.sends.map Prod.fst := by
      unfold Reporter.accepted
      rw [List.filter_eq_self.mpr fun send hsend => decide_eq_true (hok send hsend)]
    rw [hreceived, hevery]
    exact hall

/-- Surroundings in which a stanza is the text of its payload, and the queue has room. -/
def roomyRoom : WxWireRuntimeEnv Str where
  decoder now :=
    { parseElement := .ok
      toMessage := fun text => some (sampleMessage text)
      parseRfc3339 := fun _ => none
      delayStamp := fun _ => none
      now := now }
  answers _ := .ok
  handlers := []

/-- A bulletin behind its sequence number. -/
def sampleStanza : Str := "277 \n\nABCD KBOX 022101 COR\n\nAFDBOX\n\nBODY\n\n\n\nMORE".toList

/-- The wrapping that it comes in. -/
def sampleWrapping : Wrapping := ⟨.feeds 0, none, 0, [], .etx, by decide⟩

/-- A connection with an empty stanza and a bulletin, which is lost. -/
def roomActs : List WxWireAct :=
  [.loop, .connectOk 5 "nwws".toList, .stanza 6 [], .loop, .stanza 7 sampleStanza, .loop,
    .transportError "reset".toList]

/-- The theorem at this run. -/
theorem bulletins_reach_ingest_room :
    ∃ s, exec (wxWireStep roomyRoom 90) .start roomActs = some s ∧
      let received := products (adaptWxWireEvents (s.telemetry.runtime.accepted.map fun offer =>
        (.ok (offeredEvent offer) : Except Str WxWireReceiverEvent)))
      let readAs := fun (p : ReceivedProduct) (wb : Wrapping × Bulletin) =>
        ∃ text, conditionTextBytes p.data = .ok text ∧
          parseTextProductConditionedRef text = .ok (wb.2.product text)
      List.SublistForall₂ readAs received [(sampleWrapping, sampleBulletin)] ∧
        ((∀ send ∈ s.telemetry.runtime.sends, send.2 = .ok) →
          List.Forall₂ readAs received [(sampleWrapping, sampleBulletin)]) := by
  have hfed : (exec (wxWireStep roomyRoom 90) .start roomActs).map
      (fun s => fedStanzas s.history) = some [(6, []), (7, sampleStanza)] := by
    decide +kernel
  obtain ⟨s, hrun, hstanzas⟩ := Option.map_eq_some_iff.mp hfed
  have hcarries : (samplePayload sampleStanza).Carries sampleWrapping sampleBulletin
      "277 ".toList [] [] :=
    ⟨by simp, by simp, by decide, ⟨'2', rfl, by decide⟩, by decide +kernel, by decide +kernel⟩
  have hempty : Delivers roomyRoom (6, []) none := rfl
  have hbulletin : Delivers roomyRoom (7, sampleStanza) (some (sampleWrapping, sampleBulletin)) :=
    ⟨sampleMessage sampleStanza, _, _, [], [], by decide, rfl, hcarries⟩
  have hsent : List.Forall₂ (Delivers roomyRoom) (fedStanzas s.history)
      [none, some (sampleWrapping, sampleBulletin)] := by
    rw [hstanzas]
    exact .cons hempty (.cons hbulletin .nil)
  exact ⟨s, hrun, bulletins_reach_ingest hrun hsent⟩

end Runs

end Ingest
