/-
# Server lists on the wire

`build_server_list_wire` prints a server list and the decoder reads one.  The text
survives: splitting at `|`, trimming, and cutting at the last `:` invert the
formatting of every list of endpoints whose hosts are `HostOk`
(`parseServerListFrame_text`), so behind a sync marker the printed frame is read
back (`feed_marked_serverListWire`).  The printed frame carries no marker of its
own, though, and a fresh decoder starts by looking for one: it reads nothing.
-/
import Emwin.Qbt.Chunking

namespace Qbt

open ListSearch StepLoop

/-- A host name that the text of a server list can carry. -/
structure HostOk (host : Str) : Prop where
  ne_nil : host ≠ []
  no_nul : '\x00' ∉ host
  no_bar : '|' ∉ host
  no_backslash : '\\' ∉ host
  trimmed : Str.trim host = host

/-- The text of a server-list frame, without its terminating NUL. -/
def serverListText (servers : List (Str × UInt16)) : Str :=
  serverListPrefix ++ ['|'].intercalate (servers.map formatServer)

/-! ## Reading back what was printed -/

section RoundTrip

variable {server : Str × UInt16} {servers : List (Str × UInt16)}

/-- A character of a printed endpoint is the colon, a digit, or from the host. -/
theorem mem_formatServer {c : Char} (h : c ∈ formatServer server) :
    c ∈ server.1 ∨ c = ':' ∨ c.isDigit = true := by
  rcases List.mem_append.mp h with h | h
  · exact Or.inl h
  · rcases List.mem_cons.mp h with h | h
    · exact Or.inr (Or.inl h)
    · exact Or.inr (Or.inr (Nat.isDigit_of_mem_toDigits (by decide) (by decide) h))

/-- What a host lacks, a printed endpoint lacks too. -/
theorem notMem_formatServer {c : Char} (hc : c ≠ ':') (hd : c.isDigit = false)
    (h : c ∉ server.1) : c ∉ formatServer server := by
  intro hmem
  rcases mem_formatServer hmem with hmem | rfl | hmem
  · exact h hmem
  · exact hc rfl
  · rw [hd] at hmem
    cases hmem

/-- A printed endpoint ends with a digit. -/
theorem isDigit_of_getLast_formatServer {c : Char} (h : c ∈ (formatServer server).getLast?) :
    c.isDigit = true := by
  have hne : Str.ofNat server.2.toNat ≠ [] := Nat.toDigits_ne_nil
  have hlast : (formatServer server).getLast? = (Str.ofNat server.2.toNat).getLast? := by
    unfold formatServer
    rw [List.getLast?_append_of_ne_nil _ (List.cons_ne_nil _ _), List.getLast?_cons_of_ne_nil hne]
  rw [hlast] at h
  exact Nat.isDigit_of_mem_toDigits (by decide) (by decide) (List.mem_of_getLast? h)

/-- A printed endpoint has no white space around it. -/
theorem trim_formatServer (h : HostOk server.1) :
    Str.trim (formatServer server) = formatServer server := by
  refine Str.trim_eq_self ?_ ?_
  · intro c hc
    refine Str.head_of_trim_eq_self h.trimmed c ?_
    rwa [formatServer, List.head?_append_of_ne_nil _ h.ne_nil] at hc
  · intro c hc
    exact Str.isWhitespace_of_isDigit (isDigit_of_getLast_formatServer hc)

/-- A printed endpoint is read back. -/
theorem parseQbtServer_formatServer (server : Str × UInt16) :
    parseQbtServer (formatServer server) = some server := by
  have hcolon : ':' ∉ Str.ofNat server.2.toNat := by
    intro hmem
    exact absurd (Nat.isDigit_of_mem_toDigits (by decide) (by decide) hmem) (by decide)
  have hport : server.2.toNat ≤ 2 ^ 16 - 1 := by
    have := server.2.toNat_lt
    omega
  unfold parseQbtServer formatServer
  rw [Str.rsplitOnce_append hcolon]
  dsimp only
  rw [Str.parseUnsigned_ofNat hport]
  simp

/-- The entries of a printed list are the printed endpoints. -/
theorem listEntries_intercalate (hne : servers ≠ []) (hok : ∀ s ∈ servers, HostOk s.1) :
    listEntries (['|'].intercalate (servers.map formatServer)) '|' =
      servers.map formatServer := by
  have hbar : ∀ e ∈ servers.map formatServer, '|' ∉ e := by
    intro e he
    obtain ⟨s, hs, rfl⟩ := List.mem_map.mp he
    exact notMem_formatServer (by decide) (by decide) (hok s hs).no_bar
  have htrim : (servers.map formatServer).map Str.trim = servers.map formatServer := by
    rw [List.map_map]
    refine List.map_congr_left fun s hs => ?_
    exact trim_formatServer (hok s hs)
  unfold listEntries
  rw [List.splitOn_intercalate _ hbar (by simpa using hne), htrim, List.filter_eq_self]
  intro e he
  obtain ⟨s, -, rfl⟩ := List.mem_map.mp he
  simp [formatServer]

theorem parseListEntries_intercalate (hne : servers ≠ []) (hok : ∀ s ∈ servers, HostOk s.1) :
    parseListEntries (['|'].intercalate (servers.map formatServer)) '|' = (servers, []) := by
  have hread : parseQbtServer ∘ formatServer = some := by
    funext s
    exact parseQbtServer_formatServer s
  unfold parseListEntries
  rw [listEntries_intercalate hne hok, List.filterMap_map, hread, List.filterMap_some,
    List.filter_map]
  have hnone : (fun e => (parseQbtServer e).isNone) ∘ formatServer = fun _ => false := by
    funext s
    simp [parseQbtServer_formatServer]
  rw [hnone]
  simp

theorem notMem_intercalate {c : Char} (hbar : c ≠ '|') (hcolon : c ≠ ':')
    (hdigit : c.isDigit = false) (h : ∀ s ∈ servers, c ∉ s.1) :
    c ∉ ['|'].intercalate (servers.map formatServer) := by
  induction servers with
  | nil => simp
  | cons s rest ih =>
      have hs : c ∉ formatServer s := notMem_formatServer hcolon hdigit (h s List.mem_cons_self)
      have hrest := ih fun t ht => h t (List.mem_cons_of_mem _ ht)
      cases rest with
      | nil => simpa using hs
      | cons t rest =>
          rw [List.map_cons] at hrest
          rw [List.map_cons, List.map_cons, List.intercalate_cons_cons]
          simp only [List.mem_append, List.mem_singleton, not_or]
          exact ⟨⟨hs, hbar⟩, hrest⟩

/-- A pattern is not found where its first character does not occur. -/
theorem find_eq_none {c : Char} {p s : Str} (h : c ∉ s) : Str.find (c :: p) s = none := by
  cases hf : Str.find (c :: p) s with
  | none => rfl
  | some i =>
      have hpre := prefix_drop_of_findSub hf
      exact absurd (List.mem_of_mem_drop (hpre.subset List.mem_cons_self)) h

/-- **The text round trip.**  The text of a printed server list is read back. -/
theorem parseServerListFrame_text (hne : servers ≠ []) (hok : ∀ s ∈ servers, HostOk s.1) :
    parseServerListFrame (serverListText servers) = .ok (⟨servers⟩, []) := by
  have hbackslash : '\\' ∉ ['|'].intercalate (servers.map formatServer) :=
    notMem_intercalate (by decide) (by decide) (by decide) fun s hs => (hok s hs).no_backslash
  have hnul : '\x00' ∉ serverListText servers := by
    intro hmem
    rcases List.mem_append.mp hmem with hmem | hmem
    · exact absurd hmem (by decide)
    · exact notMem_intercalate (by decide) (by decide) (by decide)
        (fun s hs => (hok s hs).no_nul) hmem
  have htrim : Str.trimEndMatches ['\x00'] (serverListText servers) = serverListText servers := by
    unfold Str.trimEndMatches
    rw [List.rdropWhile_eq_self_iff]
    intro hl hlast
    have : (serverListText servers).getLast hl = '\x00' := by simpa using hlast
    exact hnul (this ▸ List.getLast_mem hl)
  have hregular : splitRegularServers (serverListText servers) =
      ['|'].intercalate (servers.map formatServer) := by
    unfold splitRegularServers serverListText
    rw [List.drop_left]
    simp only [SATELLITE_MARKERS, List.filterMap_cons, List.filterMap_nil]
    rw [show "\\ServerList\\/SatServers/".toList =
      '\\' :: "ServerList\\/SatServers/".toList from rfl,
      show "\\QbtServerList\\/SatServers/".toList = '\\' :: "QbtServerList\\/SatServers/".toList
        from rfl,
      find_eq_none hbackslash, find_eq_none hbackslash]
    rfl
  have hpre : serverListPrefix <+: serverListText servers := List.prefix_append _ _
  unfold parseServerListFrame
  rw [if_neg (not_not.mpr hpre), htrim]
  dsimp only
  rw [hregular, parseListEntries_intercalate hne hok]

end RoundTrip

/-! ## The frame behind a marker, and without one -/

/-- The decoded bytes of a printed frame: the text and its NUL. -/
theorem xorFf_buildServerListWire (servers : List (Str × UInt16)) :
    xorFf (buildServerListWire servers) = Utf8.encode (serverListText servers) ++ [0] := by
  unfold buildServerListWire serverListPayload
  rw [xorFf_xorFf, Utf8.encode_append]
  rfl

/-- Without a NUL in a host, the only zero byte of a frame is its last. -/
theorem zero_notMem_serverListText {servers : List (Str × UInt16)}
    (h : ∀ s ∈ servers, '\x00' ∉ s.1) : (0 : UInt8) ∉ Utf8.encode (serverListText servers) := by
  refine Utf8.zero_notMem_encode fun hmem => ?_
  rcases List.mem_append.mp hmem with hmem | hmem
  · exact absurd hmem (by decide)
  · exact notMem_intercalate (by decide) (by decide) (by decide) h hmem

/-- From the start of a frame, a complete server list is read and leaves nothing behind. -/
theorem drain_serverListFrame {env : CodecEnv} {d : QbtProtocolDecoder} {text : List UInt8}
    {list : QbtServerList} {warnings : List QbtProtocolWarning} (hs : d.state = .startFrame)
    (hb : d.buffer = text ++ [0]) (hzero : (0 : UInt8) ∉ text)
    (hpre : [0x2F, 0x53, 0x65] <+: text)
    (hlimit : text.length ≤ d.config.maxServerListFrameBytes)
    (hread : readServerList text = .ok (list, warnings)) :
    (feedLoop env).drain d =
      (.serverListUpdate list :: warnings.map .warning, { d with buffer := [] }) := by
  obtain ⟨rest, hrest⟩ := hpre
  have hend : (text ++ [0]).findIdx? (· = 0) = some text.length := by
    rw [List.findIdx?_append, findIdx?_eq_none_of_notMem hzero]
    simp [List.findIdx?_cons]
  have hpass1 : feedPass env d =
      ⟨[], { d with buffer := text ++ [0], state := .frameType }, true⟩ := by
    rw [feedPass_startFrame env hs, hb, ← hrest]
    rfl
  have hpass2 : feedPass env { d with buffer := text ++ [0], state := .frameType } =
      ⟨[], { d with buffer := text ++ [0], state := .qbtServerList }, true⟩ := by
    rw [feedPass_frameType env rfl, ← hrest]
    rfl
  have hpass3 : feedPass env { d with buffer := text ++ [0], state := .qbtServerList } =
      ⟨.serverListUpdate list :: warnings.map .warning,
        { d with buffer := [], state := .startFrame }, true⟩ := by
    have hpass := feedPass_serverList_some env
      (d := { d with buffer := text ++ [0], state := .qbtServerList }) rfl hend hlimit
    dsimp only at hpass
    rw [List.take_left, hread] at hpass
    simpa using hpass
  have hdone : (feedLoop env).drain { d with buffer := [], state := .startFrame } =
      ([], { d with buffer := [], state := .startFrame }) :=
    drain_startFrame_zeros rfl rfl
  rw [drain_of_feedPass hpass1, drain_of_feedPass hpass2, drain_of_feedPass hpass3, hdone]
  simp [hs]

/-- Behind a sync marker a printed frame is read back. -/
theorem feed_marked_serverListWire (env : CodecEnv) (config : QbtDecodeConfig)
    {servers : List (Str × UInt16)} (hne : servers ≠ []) (hok : ∀ s ∈ servers, HostOk s.1)
    (hlimit : (Utf8.encode (serverListText servers)).length ≤
      max config.maxServerListFrameBytes MIN_SERVER_LIST_FRAME_BYTES) :
    (feed env (QbtProtocolDecoder.new config)
      (xorFf SYNC_BYTES ++ buildServerListWire servers)).1 = [.serverListUpdate ⟨servers⟩] := by
  set frame := Utf8.encode (serverListText servers) ++ [0] with hframe
  have hresync : feedPass env (extendBuffer (QbtProtocolDecoder.new config)
      (SYNC_BYTES ++ frame)) =
        ⟨[],
          { QbtProtocolDecoder.new config with
            buffer := frame
            state := .startFrame }, true⟩ := by
    have hfound : findSub SYNC_BYTES (extendBuffer (QbtProtocolDecoder.new config)
        (SYNC_BYTES ++ frame)).buffer = some 0 := findSub_eq_zero (List.prefix_append _ _)
    rw [feedPass_resync env rfl, hfound]
    rfl
  have hread : readServerList (Utf8.encode (serverListText servers)) = .ok (⟨servers⟩, []) := by
    unfold readServerList fromUtf8
    rw [(Utf8.decode_eq_ok_iff _ _).mpr rfl]
    exact parseServerListFrame_text hne hok
  have hpre : [0x2F, 0x53, 0x65] <+: Utf8.encode (serverListText servers) := by
    rw [serverListText, Utf8.encode_append]
    exact List.IsPrefix.trans (by decide) (List.prefix_append _ _)
  unfold feed Ranked.feed
  rw [xorFf_append, xorFf_xorFf, xorFf_buildServerListWire, ← hframe, drain_of_feedPass hresync,
    drain_serverListFrame rfl hframe (zero_notMem_serverListText fun s hs => (hok s hs).no_nul)
      hpre hlimit hread]
  rfl

/-- A run of bytes with a single zero byte holds no sync marker. -/
theorem findSub_sync_eq_none {l : List UInt8} (h : (0 : UInt8) ∉ l) :
    findSub SYNC_BYTES (l ++ [0]) = none := by
  cases hf : findSub SYNC_BYTES (l ++ [0]) with
  | none => rfl
  | some i =>
      have hlen : i + 6 ≤ (l ++ [0]).length := add_length_le_of_findSub hf
      rw [List.length_append, List.length_singleton] at hlen
      -- the first byte of the marker lies before the terminating zero
      have hpre := prefix_drop_of_findSub hf
      rw [List.drop_append_of_le_length (by omega), List.drop_eq_getElem_cons (by omega)] at hpre
      obtain ⟨t, ht⟩ := hpre
      exact absurd ((List.cons.inj ht).1 ▸ List.getElem_mem _) h

/-- A fresh decoder reads nothing from a printed frame. -/
theorem feed_serverListWire (env : CodecEnv) (config : QbtDecodeConfig)
    {servers : List (Str × UInt16)} (h : ∀ s ∈ servers, '\x00' ∉ s.1) :
    (feed env (QbtProtocolDecoder.new config) (buildServerListWire servers)).1 = [] := by
  have hsearch : findSub SYNC_BYTES (extendBuffer (QbtProtocolDecoder.new config)
      (xorFf (buildServerListWire servers))).buffer = none := by
    show findSub SYNC_BYTES ([] ++ xorFf (buildServerListWire servers)) = none
    rw [List.nil_append, xorFf_buildServerListWire]
    exact findSub_sync_eq_none (zero_notMem_serverListText h)
  unfold feed Ranked.feed
  rw [drain_resync_none rfl hsearch]

/-! ## What a rejected client reads -/

/-- The server lists among the events of a decoder. -/
def serverListUpdates (events : List QbtFrameEvent) : List QbtServerList :=
  events.filterMap fun
    | .serverListUpdate list => some list
    | _ => none

/-- The warnings among the events of a decoder. -/
def protocolWarnings (events : List QbtFrameEvent) : List QbtProtocolWarning :=
  events.filterMap fun
    | .warning w => some w
    | _ => none

/-- A client with a fresh decoder reads exactly these endpoints from the frame that
the relay writes to it, and no warning. -/
def ReadsServers (env : CodecEnv) (config : QbtDecodeConfig) (servers : List (Str × UInt16)) :
    Prop :=
  serverListUpdates
      (feed env (QbtProtocolDecoder.new config) (buildServerListWire servers)).1 = [⟨servers⟩] ∧
    protocolWarnings
      (feed env (QbtProtocolDecoder.new config) (buildServerListWire servers)).1 = []

/-- **Rejected clients read no server list.**  The frame carries no sync marker, so
no list of endpoints reaches a client whose decoder is fresh. -/
theorem rejected_client_reads_nothing (env : CodecEnv) (config : QbtDecodeConfig)
    (servers : List (Str × UInt16)) (hnul : ∀ s ∈ servers, '\x00' ∉ s.1) :
    ¬ ReadsServers env config servers := by
  rintro ⟨hupdates, -⟩
  rw [feed_serverListWire env config hnul] at hupdates
  cases hupdates

/-- The theorem at a single endpoint. -/
theorem rejected_client_reads_nothing_single :
    (∀ s ∈ [("a.example".toList, (2211 : UInt16))], '\x00' ∉ s.1) ∧
      ¬ ReadsServers .bare .default [("a.example".toList, 2211)] :=
  ⟨by decide, rejected_client_reads_nothing .bare .default _ (by decide)⟩

/-- A readable endpoint within the limit that a rejected client does not read. -/
theorem rejected_client_misses_list :
    ¬ ∀ (env : CodecEnv) (config : QbtDecodeConfig) (servers : List (Str × UInt16)),
      servers ≠ [] → (∀ s ∈ servers, HostOk s.1) →
      (buildServerListWire servers).length ≤
        (QbtProtocolDecoder.new config).config.maxServerListFrameBytes →
      ReadsServers env config servers := by
  intro h
  have hread := h .bare .default [("a.example".toList, 2211)] (by decide) ?_ (by decide +kernel)
  · rw [ReadsServers, feed_serverListWire _ _ (by decide)] at hread
    cases hread.1
  · intro s hs
    obtain rfl := List.mem_singleton.mp hs
    exact ⟨by decide, by decide, by decide, by decide, by decide +kernel⟩

end Qbt
