/-
# The incident stream

Incident changes take two hops.  The live runtime publishes them on a broadcast channel;
`run_incident_relay_loop` of `server/runtime.rs` receives them there and publishes each again,
with an id of its own, on a second channel, from which `incident_events_handler` of
`server_http/streams.rs` feeds its clients.

A client is warned when its own receiver lags.  When the relay lags, the changes it skips
never reach the second channel, and only a log line tells of them
(`incident_stream_silent_gap`).  As long as the relay skips nothing that a client is due,
and its counter of ids does not wrap, there is no silent gap over both hops
(`incident_stream_no_silent_gap`).

The filter is any predicate on the payload of a change.
-/
import Emwin.Api.EventStream
import Emwin.Lib.Transition

namespace Api

open Broadcast Transition

variable {χ π : Type*}

/-- A change on the second channel; the position it had on the first one is history. -/
structure IncidentBroadcastEvent (π : Type*) where
  id : ℕ
  payload : π
  source : ℕ
  deriving DecidableEq, Repr

/-- How many changes each channel keeps. -/
def EVENT_CHANNEL_CAPACITY : ℕ := 4096

/-- A change that matches the filter. -/
def matching (filter : π → Bool) (event : IncidentBroadcastEvent π) :
    Option (IncidentBroadcastEvent π) :=
  if filter event.payload then some event else none

/-- One turn of the loop of `incident_events_handler`. -/
def incidentEventsTurn (filter : π → Bool) :
    StreamState (IncidentBroadcastEvent π) → ℕ → Received (IncidentBroadcastEvent π) →
      StreamState (IncidentBroadcastEvent π) :=
  StreamState.handle IncidentBroadcastEvent.id (matching filter)

/-! ## Runs -/

/-- The two channels, the relay between them and a client, and as history how many changes
were published when the client subscribed. -/
structure Relayed (χ π : Type*) where
  changes : List χ
  relayCursor : ℕ
  nextIncidentEventId : ℕ
  events : List (IncidentBroadcastEvent π)
  client : Option (StreamState (IncidentBroadcastEvent π))
  subscribedAt : ℕ

/-- What happens next. -/
inductive IncidentLabel (χ : Type*) where
  /-- The live runtime publishes a change. -/
  | publish (change : χ)
  /-- The relay takes a turn. -/
  | relay
  /-- The client connects without a `Last-Event-ID`. -/
  | connect
  | disconnect
  /-- The stream of the client takes a turn. -/
  | receive
  deriving DecidableEq, Repr

/-- `publish_incident_change`: the relay is the only one to draw ids, so drawing and sending
are one step. -/
def Relayed.publishIncidentChange (s : Relayed χ π) (payload : π) (source : ℕ) : Relayed χ π :=
  { s with
    nextIncidentEventId := (s.nextIncidentEventId + 1) % 2 ^ 64
    events := s.events ++ [⟨s.nextIncidentEventId, payload, source⟩] }

/-- One turn of `run_incident_relay_loop`. -/
def Relayed.relay (fromChange : χ → π) (s : Relayed χ π) (cursor : ℕ) :
    Received χ → Relayed χ π
  | .ok change =>
      { s.publishIncidentChange (fromChange change) s.relayCursor with relayCursor := cursor }
  -- a lag is logged, and nothing is sent
  | .lagged _ => { s with relayCursor := cursor }

/-- One step. -/
def incidentStep (fromChange : χ → π) (filter : π → Bool) (s : Relayed χ π) :
    IncidentLabel χ → Option (Relayed χ π)
  | .publish change => some { s with changes := s.changes ++ [change] }
  | .relay =>
      (recv EVENT_CHANNEL_CAPACITY s.changes s.relayCursor).map fun r =>
        s.relay fromChange r.2 r.1
  | .connect =>
      some { s with client := some (.subscribe s.events none), subscribedAt := s.changes.length }
  | .disconnect => some { s with client := none }
  | .receive =>
      s.client.bind fun st =>
        (recv EVENT_CHANNEL_CAPACITY s.events st.cursor).map fun r =>
          { s with client := some (incidentEventsTurn filter st r.2 r.1) }

/-- The relay has subscribed, after some changes were published. -/
def Relayed.initial (before : List χ) : Relayed χ π := ⟨before, before.length, 1, [], none, 0⟩

/-! ## What a client is due -/

section Promise

variable (fromChange : χ → π) (filter : π → Bool)

/-- The change at a position of the first channel matches the filter. -/
def MatchesAt (s : Relayed χ π) (p : ℕ) : Prop :=
  ∃ change, s.changes[p]? = some change ∧ filter (fromChange change) = true

/-- The positions on the first channel of the changes that were sent. -/
def sources (sent : List (Sent (IncidentBroadcastEvent π))) : List ℕ :=
  sent.filterMap fun a =>
    match a with
    | .item _ event => some event.source
    | .warning _ _ => none

/-- The position of the first channel up to which a client was served. -/
def servedUpTo (s : Relayed χ π) (st : StreamState (IncidentBroadcastEvent π)) : ℕ :=
  (s.events[st.cursor]?.map IncidentBroadcastEvent.source).getD s.relayCursor

/-- A warning was sent behind all changes before a position and in front of all later ones. -/
def WarnedAt (p : ℕ) (sent : List (Sent (IncidentBroadcastEvent π))) : Prop :=
  ∃ front q dropped back, sent = front ++ .warning q dropped :: back ∧
    (∀ r ∈ sources front, r < p) ∧ ∀ r ∈ sources back, p < r

/-- The client was sent changes as they were published, each once and in order, and of those
published since it subscribed and served so far, every matching one or a warning in its
place. -/
structure NoSilentIncidentGap (s : Relayed χ π)
    (st : StreamState (IncidentBroadcastEvent π)) : Prop where
  ordered : (sources st.sent).Pairwise (· < ·)
  sound : ∀ p event, .item p event ∈ st.sent →
    ∃ change, s.changes[event.source]? = some change ∧ event.payload = fromChange change ∧
      filter event.payload = true
  complete : ∀ p, s.subscribedAt ≤ p → p < servedUpTo s st → MatchesAt fromChange filter s p →
    p ∈ sources st.sent ∨ WarnedAt p st.sent

/-- The relay skips no matching change that was published since the client subscribed, and
draws no id from a counter that has wrapped. -/
def RelayKeepsUp (s : Relayed χ π) : IncidentLabel χ → Prop
  | .relay =>
      (∀ change next, recv EVENT_CHANNEL_CAPACITY s.changes s.relayCursor =
          some (.ok change, next) → s.nextIncidentEventId ≠ 0) ∧
        ∀ dropped next, recv EVENT_CHANNEL_CAPACITY s.changes s.relayCursor =
          some (.lagged dropped, next) →
            s.client ≠ none → ∀ p, s.subscribedAt ≤ p → s.relayCursor ≤ p → p < next →
              ¬ MatchesAt fromChange filter s p
  | _ => True

/-- What holds between the channels, the relay and the client. -/
structure Consistent (s : Relayed χ π) : Prop where
  ordered : s.events.Pairwise fun a b => a.source < b.source
  republished : ∀ event ∈ s.events, event.source < s.relayCursor ∧
    ∃ change, s.changes[event.source]? = some change ∧ event.payload = fromChange change
  relay_le : s.relayCursor ≤ s.changes.length
  ids : ∀ k event, s.events[k]? = some event → event.id = k + 1
  next : s.nextIncidentEventId = (s.events.length + 1) % 2 ^ 64
  bound : s.events.length < 2 ^ 64
  kept : ∀ st ∈ s.client, st.Kept (matching filter) s.events
  mark : ∀ st ∈ s.client, st.lastId ≤ st.cursor
  /-- Every matching change since the subscription that the relay has passed is on the second
  channel, where the client receives it. -/
  relayed : ∀ st ∈ s.client, ∀ p, s.subscribedAt ≤ p → p < s.relayCursor →
    MatchesAt fromChange filter s p →
      ∃ k event, st.start ≤ k ∧ s.events[k]? = some event ∧ event.source = p

end Promise

variable {fromChange : χ → π} {filter : π → Bool} {s : Relayed χ π}

/-! ## Steps -/

theorem consistent_initial (before : List χ) :
    Consistent fromChange filter (Relayed.initial before : Relayed χ π) where
  ordered := List.Pairwise.nil
  republished := by rintro event ⟨⟩
  relay_le := le_rfl
  ids := by rintro k event ⟨⟩
  next := rfl
  bound := Nat.two_pow_pos 64
  kept := by rintro st ⟨⟩
  mark := by rintro st ⟨⟩
  relayed := by rintro st ⟨⟩

/-- A change that is published does not move those before it. -/
theorem matchesAt_publish {change : χ} {p : ℕ} (hp : p < s.changes.length) :
    MatchesAt fromChange filter { s with changes := s.changes ++ [change] } p ↔
      MatchesAt fromChange filter s p := by
  unfold MatchesAt
  rw [List.getElem?_append_left hp]

theorem Consistent.publish (h : Consistent fromChange filter s) (change : χ) :
    Consistent fromChange filter { s with changes := s.changes ++ [change] } where
  ordered := h.ordered
  republished event hevent := by
    obtain ⟨hlt, change', hchange, hpayload⟩ := h.republished event hevent
    refine ⟨hlt, change', ?_, hpayload⟩
    rw [List.getElem?_append_left (hlt.trans_le h.relay_le)]
    exact hchange
  relay_le := by
    rw [List.length_append]
    exact h.relay_le.trans (Nat.le_add_right _ _)
  ids := h.ids
  next := h.next
  bound := h.bound
  kept := h.kept
  mark := h.mark
  relayed st hst p hp hlt hmatch :=
    h.relayed st hst p hp hlt ((matchesAt_publish (hlt.trans_le h.relay_le)).mp hmatch)

/-- The relay publishes a change again. -/
theorem Consistent.relay_ok (h : Consistent fromChange filter s) {change : χ}
    (hchange : s.changes[s.relayCursor]? = some change) (hid : s.nextIncidentEventId ≠ 0) :
    Consistent fromChange filter (s.relay fromChange (s.relayCursor + 1) (.ok change)) := by
  have hlen : s.events.length + 1 < 2 ^ 64 := by
    have hnext := h.next
    have hbound := h.bound
    by_contra hwrapped
    exact hid (by rw [hnext, show s.events.length + 1 = 2 ^ 64 by omega, Nat.mod_self])
  have hnext : s.nextIncidentEventId = s.events.length + 1 := by
    rw [h.next, Nat.mod_eq_of_lt hlen]
  have hmore : s.events <+: s.events ++
      [⟨s.nextIncidentEventId, fromChange change, s.relayCursor⟩] := List.prefix_append _ _
  constructor
  · refine List.pairwise_append.mpr ⟨h.ordered, List.pairwise_singleton _ _, ?_⟩
    intro a ha b hb
    obtain rfl := List.mem_singleton.mp hb
    exact (h.republished a ha).1
  · intro event hevent
    rcases List.mem_append.mp hevent with hevent | hevent
    · obtain ⟨hlt, hsame⟩ := h.republished event hevent
      exact ⟨hlt.trans (Nat.lt_succ_self _), hsame⟩
    · obtain rfl := List.mem_singleton.mp hevent
      exact ⟨Nat.lt_succ_self _, change, hchange, rfl⟩
  · exact (List.getElem?_eq_some_iff.mp hchange).1
  · intro k event hevent
    rcases getElem?_concat_cases hevent with hevent | ⟨rfl, rfl⟩
    · exact h.ids k event hevent
    · exact hnext
  · show (s.nextIncidentEventId + 1) % 2 ^ 64 = ((s.events ++ [_]).length + 1) % 2 ^ 64
    rw [hnext, List.length_append, List.length_singleton]
  · show (s.events ++ [_]).length < 2 ^ 64
    rw [List.length_append, List.length_singleton]
    exact hlen
  · exact fun st hst => (h.kept st hst).more hmore
  · exact h.mark
  · intro st hst p hp hlt hmatch
    have hstart : st.start ≤ s.events.length :=
      (h.kept st hst).start_le.trans (h.kept st hst).cursor_le
    rcases Nat.lt_or_ge p s.relayCursor with hold | hnew
    · obtain ⟨k, event, hk, hevent, hsource⟩ := h.relayed st hst p hp hold hmatch
      refine ⟨k, event, hk, ?_, hsource⟩
      exact (List.getElem?_append_left (List.getElem?_eq_some_iff.mp hevent).1).trans hevent
    · have hat : p = s.relayCursor := Nat.le_antisymm (Nat.le_of_lt_succ hlt) hnew
      exact ⟨s.events.length, _, hstart, List.getElem?_concat_length, hat.symm⟩

/-- The relay skips changes that the client is not due. -/
theorem Consistent.relay_lagged (h : Consistent fromChange filter s) {dropped next : ℕ}
    (hforward : s.relayCursor ≤ next) (hle : next ≤ s.changes.length)
    (hskips : s.client ≠ none → ∀ p, s.subscribedAt ≤ p → s.relayCursor ≤ p → p < next →
      ¬ MatchesAt fromChange filter s p) :
    Consistent fromChange filter (s.relay fromChange next (.lagged dropped)) where
  ordered := h.ordered
  republished event hevent := by
    obtain ⟨hlt, hsame⟩ := h.republished event hevent
    exact ⟨hlt.trans_le hforward, hsame⟩
  relay_le := hle
  ids := h.ids
  next := h.next
  bound := h.bound
  kept := h.kept
  mark := h.mark
  relayed st hst p hp hlt hmatch := by
    rcases Nat.lt_or_ge p s.relayCursor with hold | hnew
    · exact h.relayed st hst p hp hold hmatch
    · have hsome : s.client ≠ none := by
        rintro hnone
        have hst' : st ∈ s.client := hst
        rw [hnone] at hst'
        cases hst'
      exact absurd hmatch (hskips hsome p hp hnew hlt)

/-- A client that connects is due nothing yet. -/
theorem Consistent.connect (h : Consistent fromChange filter s) :
    Consistent fromChange filter
      { s with client := some (.subscribe s.events none), subscribedAt := s.changes.length } where
  ordered := h.ordered
  republished := h.republished
  relay_le := h.relay_le
  ids := h.ids
  next := h.next
  bound := h.bound
  kept := by
    rintro st ⟨⟩
    exact StreamState.kept_subscribe _ _ _
  mark := by
    rintro st ⟨⟩
    exact Nat.zero_le _
  relayed := by
    rintro st ⟨⟩ p hp hlt -
    have hrelay := h.relay_le
    exact absurd (hp.trans_lt hlt) (not_lt.mpr hrelay)

theorem Consistent.disconnect (h : Consistent fromChange filter s) :
    Consistent fromChange filter { s with client := none } where
  ordered := h.ordered
  republished := h.republished
  relay_le := h.relay_le
  ids := h.ids
  next := h.next
  bound := h.bound
  kept := by rintro st ⟨⟩
  mark := by rintro st ⟨⟩
  relayed := by rintro st ⟨⟩

/-- The mark of a client holds no event back, and stays behind the position of its receiver. -/
theorem Consistent.receive (h : Consistent fromChange filter s)
    {st : StreamState (IncidentBroadcastEvent π)} (hst : s.client = some st)
    {r : Received (IncidentBroadcastEvent π)} {next : ℕ}
    (hrecv : recv EVENT_CHANNEL_CAPACITY s.events st.cursor = some (r, next)) :
    Consistent fromChange filter
      { s with client := some (incidentEventsTurn filter st next r) } where
  ordered := h.ordered
  republished := h.republished
  relay_le := h.relay_le
  ids := h.ids
  next := h.next
  bound := h.bound
  kept := by
    rintro _ ⟨⟩
    refine ((h.kept st hst).handle_iff IncidentBroadcastEvent.id hrecv).mpr ?_
    rintro event rfl -
    rcases recv_cases hrecv with ⟨_, ⟨⟩, hevent, -⟩ | ⟨_, ⟨⟩, -⟩
    rw [h.ids _ _ hevent]
    exact Nat.lt_succ_of_le (h.mark st hst)
  mark := by
    rintro _ ⟨⟩
    have hmark := h.mark st hst
    unfold incidentEventsTurn
    rw [StreamState.cursor_handle]
    rcases recv_cases hrecv with ⟨event, rfl, hevent, rfl⟩ | ⟨dropped, rfl, -, rfl, -⟩
    · have hid := h.ids _ _ hevent
      unfold StreamState.handle
      dsimp only
      split
      · dsimp only
        omega
      · split <;> dsimp only <;> omega
    · exact hmark.trans (Nat.le_add_right _ _)
  relayed := by
    rintro _ ⟨⟩ p hp hlt hmatch
    unfold incidentEventsTurn
    rw [StreamState.start_handle]
    exact h.relayed st hst p hp hlt hmatch

/-- **Step.**  If the relay keeps up, both hops stay consistent. -/
theorem consistent_step {t : Relayed χ π} {l : IncidentLabel χ}
    (hs : Consistent fromChange filter s) (hkeeps : RelayKeepsUp fromChange filter s l)
    (h : incidentStep fromChange filter s l = some t) : Consistent fromChange filter t := by
  cases l with
  | publish change =>
      obtain rfl := Option.some.inj h
      exact hs.publish change
  | relay =>
      obtain ⟨⟨r, next⟩, hrecv, rfl⟩ := Option.map_eq_some_iff.mp h
      obtain ⟨hid, hskips⟩ := hkeeps
      rcases recv_cases hrecv with ⟨change, rfl, hchange, rfl⟩ | ⟨dropped, rfl, -, rfl, hle⟩
      · exact hs.relay_ok hchange (hid change _ hrecv)
      · exact hs.relay_lagged (Nat.le_add_right _ _) hle (hskips dropped _ hrecv)
  | connect =>
      obtain rfl := Option.some.inj h
      exact hs.connect
  | disconnect =>
      obtain rfl := Option.some.inj h
      exact hs.disconnect
  | receive =>
      obtain ⟨st, hst, hreceive⟩ := Option.bind_eq_some_iff.mp h
      obtain ⟨⟨r, next⟩, hrecv, rfl⟩ := Option.map_eq_some_iff.mp hreceive
      exact hs.receive hst hrecv

/-! ## Both hops together -/

theorem mem_sources {sent : List (Sent (IncidentBroadcastEvent π))} {r : ℕ} :
    r ∈ sources sent ↔ ∃ q event, .item q event ∈ sent ∧ event.source = r := by
  unfold sources
  rw [List.mem_filterMap]
  constructor
  · rintro ⟨a, ha, hr⟩
    cases a with
    | item q event => exact ⟨q, event, ha, Option.some.inj hr⟩
    | warning q dropped => cases hr
  · rintro ⟨q, event, ha, rfl⟩
    exact ⟨_, ha, rfl⟩

section Hops

variable {st : StreamState (IncidentBroadcastEvent π)}

/-- What was sent at a position is the event there, and it matches. -/
theorem getElem?_of_item (hkept : st.Kept (matching filter) s.events) {q : ℕ}
    {event : IncidentBroadcastEvent π} (h : .item q event ∈ st.sent) :
    s.events[q]? = some event ∧ filter event.payload = true := by
  obtain ⟨event', hevent', hmatch⟩ := Option.bind_eq_some_iff.mp (hkept.gapless.sound q event h)
  unfold matching at hmatch
  split at hmatch
  · next hfilter =>
      obtain rfl := Option.some.inj hmatch
      exact ⟨hevent', hfilter⟩
  · cases hmatch

/-- Later events of the second channel are later changes. -/
theorem Consistent.source_lt (h : Consistent fromChange filter s) {k m : ℕ}
    {a b : IncidentBroadcastEvent π} (ha : s.events[k]? = some a) (hb : s.events[m]? = some b)
    (hkm : k < m) : a.source < b.source := by
  obtain ⟨hk, rfl⟩ := List.getElem?_eq_some_iff.mp ha
  obtain ⟨hm, rfl⟩ := List.getElem?_eq_some_iff.mp hb
  exact List.pairwise_iff_getElem.mp h.ordered k m hk hm hkm

/-- The changes are sent in the order in which they were published. -/
theorem Consistent.ordered_sources (h : Consistent fromChange filter s) (hst : st ∈ s.client) :
    (sources st.sent).Pairwise (· < ·) := by
  have hkept := h.kept st hst
  unfold sources
  rw [List.pairwise_filterMap]
  refine hkept.gapless.ordered.imp_of_mem ?_
  intro a b ha hb hab r hr r' hr'
  cases a with
  | warning q dropped => cases hr
  | item q event =>
      cases b with
      | warning q' dropped' => cases hr'
      | item q' event' =>
          obtain rfl := Option.some.inj hr
          obtain rfl := Option.some.inj hr'
          exact h.source_lt (getElem?_of_item hkept ha).1 (getElem?_of_item hkept hb).1 hab

/-- A change that the client was served is one that its receiver has passed. -/
theorem Consistent.cursor_of_served (h : Consistent fromChange filter s) {k : ℕ}
    {event : IncidentBroadcastEvent π} (hevent : s.events[k]? = some event)
    (hserved : event.source < servedUpTo s st) : k < st.cursor := by
  by_contra hlate
  unfold servedUpTo at hserved
  cases hcursor : s.events[st.cursor]? with
  | none =>
      have hlen := List.getElem?_eq_none_iff.mp hcursor
      have hk := (List.getElem?_eq_some_iff.mp hevent).1
      omega
  | some first =>
      rw [hcursor] at hserved
      have hserved' : event.source < first.source := hserved
      rcases Nat.eq_or_lt_of_le (not_lt.mp hlate) with heq | hlt
      · rw [heq, hevent] at hcursor
        obtain rfl := Option.some.inj hcursor
        exact lt_irrefl _ hserved'
      · exact absurd (h.source_lt hcursor hevent hlt) (not_lt.mpr hserved'.le)

/-- **Both hops.**  What is consistent leaves no silent gap. -/
theorem Consistent.noSilentGap (h : Consistent fromChange filter s) (hst : st ∈ s.client) :
    NoSilentIncidentGap fromChange filter s st where
  ordered := h.ordered_sources hst
  sound p event hmem := by
    obtain ⟨hevent, hmatch⟩ := getElem?_of_item (h.kept st hst) hmem
    obtain ⟨-, change, hchange, hpayload⟩ := h.republished event (List.mem_of_getElem? hevent)
    exact ⟨change, hchange, hpayload, hmatch⟩
  complete p hp hserved hmatch := by
    have hkept := h.kept st hst
    have hrelayed : p < s.relayCursor := by
      unfold servedUpTo at hserved
      cases hcursor : s.events[st.cursor]? with
      | none => simpa [hcursor] using hserved
      | some first =>
          rw [hcursor] at hserved
          exact lt_trans hserved (h.republished first (List.mem_of_getElem? hcursor)).1
    obtain ⟨k, event, hk, hevent, rfl⟩ := h.relayed st hst p hp hrelayed hmatch
    have hpassed := h.cursor_of_served hevent hserved
    have hdue : due (matching filter) s.events k ≠ none := by
      obtain ⟨-, change, hchange, hpayload⟩ := h.republished event (List.mem_of_getElem? hevent)
      obtain ⟨change', hchange', hfilter⟩ := hmatch
      obtain rfl : change = change' := Option.some.inj (hchange.symm.trans hchange')
      rw [due, hevent, Option.bind_some, matching, hpayload, if_pos hfilter]
      exact Option.some_ne_none _
    obtain ⟨a, ha, hfirst, hbehind⟩ := hkept.gapless.complete k hk hpassed hdue
    cases a with
    | item q event' =>
        have hq : q = k := Nat.le_antisymm hfirst (Nat.le_of_lt_succ hbehind)
        have hevent' := (getElem?_of_item hkept ha).1
        rw [hq, hevent] at hevent'
        obtain rfl := Option.some.inj hevent'
        exact Or.inl (mem_sources.mpr ⟨q, event, ha, rfl⟩)
    | warning q dropped =>
        right
        obtain ⟨front, back, hsplit⟩ := List.append_of_mem ha
        have hordered := hkept.gapless.ordered
        rw [hsplit, List.pairwise_append, List.pairwise_cons] at hordered
        obtain ⟨-, ⟨hback, -⟩, hfront⟩ := hordered
        refine ⟨front, q, dropped, back, hsplit, ?_, ?_⟩
        · -- what was sent before the warning stands for earlier positions
          intro r hr
          obtain ⟨m, earlier, hmem, rfl⟩ := mem_sources.mp hr
          have hm : m + 1 ≤ q := hfront _ hmem _ List.mem_cons_self
          have hearlier := (getElem?_of_item hkept (hsplit ▸ List.mem_append_left _ hmem)).1
          have hqk : q ≤ k := hfirst
          exact h.source_lt hearlier hevent (by omega)
        · intro r hr
          obtain ⟨m, later, hmem, rfl⟩ := mem_sources.mp hr
          have hm : q + dropped ≤ m := hback _ hmem
          have hlater := (getElem?_of_item hkept
            (hsplit ▸ List.mem_append_right _ (List.mem_cons_of_mem _ hmem))).1
          have hkq : k < q + dropped := hbehind
          exact h.source_lt hevent hlater (by omega)

end Hops

/-- **No silent gap over both hops.**  In a run in which the relay skips no matching change
that was published since the client subscribed, and its counter of ids does not wrap, a client
is sent every matching change once and in order, or a lag warning in its place, in every state
that is reached. -/
theorem incident_stream_no_silent_gap (fromChange : χ → π) (filter : π → Bool) (before : List χ)
    (labels : List (IncidentLabel χ)) (s : Relayed χ π)
    (h : exec (incidentStep fromChange filter) (.initial before) labels = some s)
    (hkeeps : Always (incidentStep fromChange filter) (RelayKeepsUp fromChange filter)
      (.initial before) labels) :
    ∀ st ∈ s.client, NoSilentIncidentGap fromChange filter s st := by
  intro st hst
  have hconsistent := exec_invariant_of_always
    (fun u l t hu hkeep hstep => consistent_step hu hkeep hstep) h
    (consistent_initial before) hkeeps
  exact hconsistent.noSilentGap hst

/-- A change that the relay passes on is sent to a client. -/
theorem incident_stream_no_silent_gap_one :
    ∃ s : Relayed Unit Unit, exec (incidentStep id fun _ => true) (.initial [])
        [.connect, .publish (), .relay, .receive] = some s ∧
      ∀ st ∈ s.client, NoSilentIncidentGap id (fun _ => true) s st := by
  refine ⟨_, rfl, incident_stream_no_silent_gap id (fun _ => true) []
    [.connect, .publish (), .relay, .receive] _ rfl ?_⟩
  refine ⟨trivial, ?_⟩
  rintro _ ⟨⟩
  refine ⟨trivial, ?_⟩
  rintro _ ⟨⟩
  refine ⟨⟨fun _ _ _ => Nat.one_ne_zero, ?_⟩, ?_⟩
  · rintro dropped next ⟨⟩
  · rintro _ ⟨⟩
    refine ⟨trivial, ?_⟩
    rintro _ ⟨⟩
    trivial

/-! ## A silent gap -/

/-- Changes are published one after the other. -/
theorem exec_publish (s : Relayed χ π) (more : List χ) :
    exec (incidentStep fromChange filter) s (more.map .publish) =
      some { s with changes := s.changes ++ more } := by
  induction more generalizing s with
  | nil => simp [exec]
  | cons change more ih =>
      rw [List.map_cons, exec, incidentStep, Option.bind_some, ih]
      simp

/-- The relay falls one change more behind than its channel keeps, and then passes one on. -/
def slowRelayLabels : List (IncidentLabel Unit) :=
  .connect :: ((List.replicate 4097 ()).map .publish ++ [.relay, .relay, .receive])

/-- What the client is left with. -/
def slowRelayClient : StreamState (IncidentBroadcastEvent Unit) :=
  ⟨1, 1, 0, [.item 0 ⟨1, (), 1⟩]⟩

/-- Where the run ends. -/
def slowRelayState : Relayed Unit Unit :=
  ⟨List.replicate 4097 (), 2, 2, [⟨1, (), 1⟩], some slowRelayClient, 0⟩

/-- The relay skips the first change, and the client is handed the second one. -/
theorem exec_skip {changes : List Unit}
    (hlag : recv EVENT_CHANNEL_CAPACITY changes 0 = some (.lagged 1, 1))
    (hnext : recv EVENT_CHANNEL_CAPACITY changes 1 = some (.ok (), 2)) :
    exec (incidentStep id fun _ => true) ⟨changes, 0, 1, [], some ⟨0, 0, 0, []⟩, 0⟩
        [.relay, .relay, .receive] =
      some ⟨changes, 2, 2, [⟨1, (), 1⟩], some slowRelayClient, 0⟩ := by
  rw [exec, incidentStep, hlag, Option.map_some, Option.bind_some]
  rw [exec, incidentStep, Relayed.relay, hnext, Option.map_some, Option.bind_some]
  rfl

/-- The two receipts of the relay. -/
theorem recv_slowRelay :
    recv EVENT_CHANNEL_CAPACITY (List.replicate 4097 ()) 0 = some (.lagged 1, 1) ∧
      recv EVENT_CHANNEL_CAPACITY (List.replicate 4097 ()) 1 = some (.ok (), 2) := by
  rw [recv, recv, List.length_replicate]
  constructor
  · rfl
  · rw [if_neg (by decide), List.getElem?_replicate, if_pos (by decide)]
    rfl

theorem exec_slowRelay :
    exec (incidentStep id fun _ => true) (.initial []) slowRelayLabels = some slowRelayState := by
  refine exec_cons.mpr ⟨_, rfl, exec_append.mpr ⟨_, exec_publish _ _, ?_⟩⟩
  rw [Relayed.initial, List.nil_append]
  exact exec_skip recv_slowRelay.1 recv_slowRelay.2

/-- **Counterexample.**  The relay lags, and the client is sent a later change without a
warning in place of the one that was skipped. -/
theorem incident_stream_silent_gap :
    ¬ ∀ (labels : List (IncidentLabel Unit)) (s : Relayed Unit Unit),
      exec (incidentStep id fun _ => true) (.initial []) labels = some s →
        ∀ st ∈ s.client, NoSilentIncidentGap id (fun _ => true) s st := by
  intro h
  have hclient := h slowRelayLabels slowRelayState exec_slowRelay slowRelayClient rfl
  have hmatch : MatchesAt id (fun _ => true) slowRelayState 0 := ⟨(), rfl, rfl⟩
  rcases hclient.complete 0 le_rfl Nat.two_pos hmatch with
    hsent | ⟨front, q, dropped, back, hsent, -⟩
  · exact absurd hsent (by decide)
  · have hwarning : Sent.warning q dropped ∈ slowRelayClient.sent :=
      hsent ▸ List.mem_append_right _ List.mem_cons_self
    obtain hwarning := List.mem_singleton.mp hwarning
    cases hwarning

end Api
