/-
# Applying a server list of the feed

`apply_server_list_update` of `client/runtime.rs` hands a list to the server list manager and
then shows the number of endpoints in the telemetry.  The manager replaces its list before it
saves it, and an error of the disk is passed on with `?`: the list stays replaced, and the
telemetry is not touched.  `update_atomic_iff` says when this is not seen.
-/
import Emwin.Client.ServerListManager

namespace Client

open Qbt

/-- The part of the runtime telemetry that shows the server list. -/
structure ServerTelemetry where
  /-- Current number of active endpoints in the round-robin set. -/
  activeServers : ℕ
  deriving DecidableEq, Repr

/-- `sync_active_servers`. -/
def syncActiveServers (telemetry : ServerTelemetry) (m : ServerListManager) : ServerTelemetry :=
  { telemetry with activeServers := m.endpointCount }

/-- What `apply_server_list_update` leaves behind. -/
structure ServerListUpdate where
  result : Except QbtReceiverError Unit
  serverList : ServerListManager
  telemetry : ServerTelemetry

/-- `apply_server_list_update`, given whether the list is saved. -/
def applyServerListUpdate (m : ServerListManager) (list : QbtServerList)
    (telemetry : ServerTelemetry) (saved : Except QbtReceiverError Unit) : ServerListUpdate :=
  match m.applyServerList list saved with
  | (.error err, m') => ⟨.error err, m', telemetry⟩
  | (.ok (), m') => ⟨.ok (), m', syncActiveServers telemetry m'⟩

/-! ## The two ways out -/

/-- Without an error of the disk the new list is in place and shown. -/
theorem applyServerListUpdate_of_saved {m : ServerListManager} {list : QbtServerList}
    {saved : Except QbtReceiverError Unit} (hne : list.servers ≠ [])
    (hsaved : m.path = none ∨ saved = .ok ()) (telemetry : ServerTelemetry) :
    applyServerListUpdate m list telemetry saved =
      ⟨.ok (), ServerListManager.rebuildAvailable { m with current := list },
        ⟨(sortDedupEndpoints list.servers).length⟩⟩ := by
  have hempty : list.servers.isEmpty = false := by simpa using hne
  have happly : m.applyServerList list saved =
      (.ok (), ServerListManager.rebuildAvailable { m with current := list }) := by
    unfold ServerListManager.applyServerList
    rcases hsaved with hpath | rfl
    · simp [hempty, hpath]
    · simp [hempty]
  rw [applyServerListUpdate, happly]
  rfl

/-- With an error of the disk the new list is in place as well, and not shown. -/
theorem applyServerListUpdate_of_error {m : ServerListManager} {list : QbtServerList}
    {err : QbtReceiverError} (hne : list.servers ≠ []) (hpath : m.path ≠ none)
    (telemetry : ServerTelemetry) :
    applyServerListUpdate m list telemetry (.error err) =
      ⟨.error err, ServerListManager.rebuildAvailable { m with current := list }, telemetry⟩ := by
  have hempty : list.servers.isEmpty = false := by simpa using hne
  have happly : m.applyServerList list (.error err) =
      (.error err, ServerListManager.rebuildAvailable { m with current := list }) := by
    unfold ServerListManager.applyServerList
    simp [hempty, Option.isSome_iff_ne_none.mpr hpath]
  rw [applyServerListUpdate, happly]

/-! ## Atomicity -/

/-- The telemetry shows the endpoints of the manager, and an error means that the manager is
as it was. -/
def UpdateAtomic (m : ServerListManager) (update : ServerListUpdate) : Prop :=
  update.telemetry.activeServers = update.serverList.endpointCount ∧
    ∀ err, update.result = .error err →
      update.serverList.current = m.current ∧ update.serverList.available = m.available

/-- The update leaves a manager and a telemetry as they are: they had the same list, rotated
to its beginning and shown. -/
def AlreadyApplied (m : ServerListManager) (list : QbtServerList) (telemetry : ServerTelemetry) :
    Prop :=
  m.current.servers = sortDedupEndpoints list.servers ∧ m.available = m.current.servers ∧
    telemetry.activeServers = m.available.length

/-- **An update is atomic exactly if it is saved**, or there is nowhere to save it, or it
changes nothing. -/
theorem update_atomic_iff (m : ServerListManager) (list : QbtServerList)
    (telemetry : ServerTelemetry) (saved : Except QbtReceiverError Unit)
    (hne : list.servers ≠ []) :
    UpdateAtomic m (applyServerListUpdate m list telemetry saved) ↔
      m.path = none ∨ saved = .ok () ∨ AlreadyApplied m list telemetry := by
  by_cases hsaved : m.path = none ∨ saved = .ok ()
  · rw [applyServerListUpdate_of_saved hne hsaved]
    refine iff_of_true ⟨rfl, fun err h => by cases h⟩ ?_
    exact hsaved.imp_right Or.inl
  · obtain ⟨hpath, hfailed⟩ := not_or.mp hsaved
    obtain ⟨err, rfl⟩ : ∃ err, saved = .error err := by
      cases saved with
      | error err => exact ⟨err, rfl⟩
      | ok => exact absurd rfl hfailed
    rw [applyServerListUpdate_of_error hne hpath]
    simp only [UpdateAtomic, AlreadyApplied, ServerListManager.rebuildAvailable,
      ServerListManager.endpointCount, hpath, hfailed, false_or]
    constructor
    · rintro ⟨hshown, hkept⟩
      obtain ⟨hcurrent, havailable⟩ := hkept err rfl
      exact ⟨by rw [← hcurrent], by rw [← hcurrent, ← havailable], by rw [hshown, havailable]⟩
    · rintro ⟨hcurrent, havailable, hshown⟩
      refine ⟨by rw [hshown, havailable, hcurrent], fun _ _ => ⟨?_, ?_⟩⟩
      · rw [← hcurrent]
      · rw [havailable, hcurrent]

/-- An update that is saved is atomic. -/
theorem update_atomic_iff_saved :
    UpdateAtomic ⟨some "servers.json".toList, ⟨[]⟩, []⟩
      (applyServerListUpdate ⟨some "servers.json".toList, ⟨[]⟩, []⟩
        ⟨[("a".toList, 1), ("b".toList, 2)]⟩ ⟨0⟩ (.ok ())) :=
  (update_atomic_iff _ _ _ _ (by decide)).mpr (Or.inr (Or.inl rfl))

/-- The disk is full: the endpoints are replaced, and the telemetry shows the old number. -/
theorem update_not_atomic :
    ¬ ∀ (m : ServerListManager) (list : QbtServerList) (telemetry : ServerTelemetry)
        (saved : Except QbtReceiverError Unit), list.servers ≠ [] →
        UpdateAtomic m (applyServerListUpdate m list telemetry saved) := by
  intro h
  have hatomic := h (.new (some "servers.json".toList) [("a".toList, 1)])
    ⟨[("b".toList, 2), ("c".toList, 3)]⟩ ⟨1⟩ (.error (.io "no space left on device".toList))
    (by decide)
  have hshown : (1 : ℕ) = 2 := hatomic.1
  cases hshown

end Client
