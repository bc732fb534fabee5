/-
# The server list of the client

`client/server_list_manager.rs` keeps the endpoints the client may connect to: the list it
was configured with, the one it has on disk, or the last one the feed has announced.  The
list is sorted and rid of duplicates, and handed out in round-robin order.

What is on disk, and whether saving succeeds, are inputs here.
-/
import Emwin.Qbt.Model
import Mathlib.Data.List.Destutter
import Mathlib.Data.List.Sort
import Mathlib.Data.Prod.Lex
import Mathlib.Data.String.Basic

namespace Client

open Qbt

/-- A host and a port. -/
abbrev Endpoint := Str × UInt16

/-- The errors of the server list. -/
inductive QbtReceiverError where
  | lifecycle (message : Str)
  | io (message : Str)
  deriving DecidableEq, Repr

/-- The current server list and its rotation. -/
structure ServerListManager where
  path : Option Str
  current : QbtServerList
  /-- The endpoints, the next one first. -/
  available : List Endpoint
  deriving DecidableEq, Repr

/-- The order of endpoints: by host, then by port. -/
def endpointKey (e : Endpoint) : Lex (Str × ℕ) := toLex (e.1, e.2.toNat)

/-- `sort_dedup_endpoints`. -/
def sortDedupEndpoints (endpoints : List Endpoint) : List Endpoint :=
  (endpoints.insertionSort fun a b => endpointKey a ≤ endpointKey b).destutter (· ≠ ·)

namespace ServerListManager

/-- `ServerListManager::rebuild_available`. -/
def rebuildAvailable (m : ServerListManager) : ServerListManager :=
  let servers := sortDedupEndpoints m.current.servers
  { m with current := ⟨servers⟩, available := servers }

/-- `ServerListManager::new`. -/
def new (path : Option Str) (defaultServers : List Endpoint) : ServerListManager :=
  rebuildAvailable { path, current := ⟨defaultServers⟩, available := [] }

/-- `ServerListManager::load`, given what is found at the path: nothing, or the endpoints
of the persisted list, or a failure to read it. -/
def load (m : ServerListManager) (persisted : Option (Except QbtReceiverError (List Endpoint))) :
    Except QbtReceiverError Unit × ServerListManager :=
  match m.path, persisted with
  | none, _ | some _, none => (.ok (), m)
  | some _, some (.error err) => (.error err, m)
  | some _, some (.ok servers) =>
      (.ok (), if servers.isEmpty then m else rebuildAvailable { m with current := ⟨servers⟩ })

/-- `ServerListManager::apply_server_list`, given whether the list is saved. -/
def applyServerList (m : ServerListManager) (list : QbtServerList)
    (saved : Except QbtReceiverError Unit) : Except QbtReceiverError Unit × ServerListManager :=
  if list.servers.isEmpty then
    (.error (.lifecycle "server list update contained no valid endpoints".toList), m)
  else
    (if m.path.isSome then saved else .ok (), rebuildAvailable { m with current := list })

/-- `ServerListManager::next_endpoint`. -/
def nextEndpoint (m : ServerListManager) : Option Endpoint × ServerListManager :=
  match m.available with
  | [] => (none, m)
  | endpoint :: rest => (some endpoint, { m with available := rest ++ [endpoint] })

/-- `ServerListManager::endpoint_count`. -/
def endpointCount (m : ServerListManager) : ℕ := m.available.length

end ServerListManager

/-! ## The endpoints are distinct -/

/-- Two endpoints with the same key are the same. -/
theorem endpointKey_injective : Function.Injective endpointKey := by
  rintro ⟨host, port⟩ ⟨host', port'⟩ h
  have hpair : (host, port.toNat) = (host', port'.toNat) := toLex.injective h
  rw [Prod.mk.injEq] at hpair
  rw [hpair.1, UInt16.toNat.inj hpair.2]

/-- A sorted list without adjacent duplicates has no duplicates. -/
theorem nodup_of_sorted {l : List Endpoint}
    (hsorted : l.Pairwise fun a b => endpointKey a ≤ endpointKey b) (hchain : l.IsChain (· ≠ ·)) :
    l.Nodup := by
  induction l with
  | nil => exact List.nodup_nil
  | cons a l ih =>
      rw [List.nodup_cons]
      refine ⟨?_, ih hsorted.of_cons hchain.tail⟩
      rintro hmem
      cases l with
      | nil => cases hmem
      | cons b l =>
          rw [List.isChain_cons_cons] at hchain
          have hab := List.rel_of_pairwise_cons hsorted List.mem_cons_self
          -- what follows `b` is not smaller, so `a` occurs again only if `b` is `a`
          have hba : endpointKey b ≤ endpointKey a := by
            rcases List.mem_cons.mp hmem with rfl | hrest
            · exact le_rfl
            · exact List.rel_of_pairwise_cons hsorted.of_cons hrest
          exact hchain.1 (endpointKey_injective (le_antisymm hab hba))

instance : Std.Total fun a b : Endpoint => endpointKey a ≤ endpointKey b :=
  ⟨fun _ _ => le_total _ _⟩

instance : IsTrans Endpoint fun a b => endpointKey a ≤ endpointKey b :=
  ⟨fun _ _ _ => le_trans⟩

/-- The endpoints of a rebuilt list are distinct. -/
theorem nodup_sortDedupEndpoints (endpoints : List Endpoint) :
    (sortDedupEndpoints endpoints).Nodup := by
  have hsorted := List.pairwise_insertionSort (fun a b => endpointKey a ≤ endpointKey b) endpoints
  exact nodup_of_sorted (hsorted.sublist (List.destutter_sublist _ _))
    (List.isChain_destutter _ _)

/-- The endpoints of a manager that loaded its list are distinct. -/
theorem nodup_available_load (path : Option Str) (servers : List Endpoint)
    (persisted : Option (Except QbtReceiverError (List Endpoint))) :
    ((ServerListManager.new path servers).load persisted).2.available.Nodup := by
  have hnew : (ServerListManager.new path servers).available.Nodup :=
    nodup_sortDedupEndpoints servers
  unfold ServerListManager.load
  split
  · exact hnew
  · exact hnew
  · exact hnew
  · split
    · exact hnew
    · exact nodup_sortDedupEndpoints _

end Client
