/-
# Server-list frames

`protocol/server_list.rs`, which reads a `/ServerList/` control frame, and
`build_server_list_wire` of `protocol/server_list_wire.rs`, which prints one.
Malformed entries are reported as warnings and left out of the list.
-/
import Emwin.Qbt.Model

namespace Qbt

/-- The marker at the front of a server-list frame. -/
def serverListPrefix : Str := "/ServerList/".toList

/-! ## Reading a frame -/

/-- One `host:port` endpoint. -/
def parseQbtServer (input : Str) : Option (Str × UInt16) :=
  match Str.rsplitOnce ':' input with
  | none => none
  | some (host, port) =>
      match Str.parseUnsigned (2 ^ 16 - 1) port with
      | none => none
      | some n => some (host, UInt16.ofNat n)

/-- The non-empty trimmed entries of a delimited list. -/
def listEntries (input : Str) (delimiter : Char) : List Str :=
  ((input.splitOn delimiter).map Str.trim).filter (· ≠ [])

/-- The endpoints of a delimited list, and a warning for each malformed entry. -/
def parseListEntries (input : Str) (delimiter : Char) :
    List (Str × UInt16) × List QbtProtocolWarning :=
  ((listEntries input delimiter).filterMap parseQbtServer,
    ((listEntries input delimiter).filter fun e => (parseQbtServer e).isNone).map
      .malformedServerEntry)

/-- The markers that open the satellite section of a frame. -/
def SATELLITE_MARKERS : List Str :=
  ["\\ServerList\\/SatServers/".toList, "\\QbtServerList\\/SatServers/".toList]

/-- The part of the payload with the regular servers. -/
def splitRegularServers (payload : Str) : Str :=
  let regular := payload.drop serverListPrefix.length
  match (SATELLITE_MARKERS.filterMap fun marker => Str.find marker regular).min? with
  | some idx => regular.take idx
  | none => regular

/-- Parse a complete `/ServerList/` control frame. -/
def parseServerListFrame (content : Str) :
    Except QbtProtocolError (QbtServerList × List QbtProtocolWarning) :=
  if ¬ serverListPrefix <+: content then .error .unsupportedFrame
  else
    let payload := Str.trimEndMatches ['\x00'] content
    let entries := parseListEntries (splitRegularServers payload) '|'
    .ok (⟨entries.1⟩, entries.2)

/-! ## Printing a frame -/

/-- `host:port`. -/
def formatServer (server : Str × UInt16) : Str :=
  server.1 ++ ':' :: Str.ofNat server.2.toNat

/-- The text of a server-list frame, with its terminating NUL. -/
def serverListPayload (servers : List (Str × UInt16)) : Str :=
  serverListPrefix ++ ['|'].intercalate (servers.map formatServer) ++ ['\x00']

/-- Build an XOR-encoded `/ServerList/` frame from server endpoints. -/
def buildServerListWire (servers : List (Str × UInt16)) : List UInt8 :=
  xorFf (Utf8.encode (serverListPayload servers))

end Qbt
