/-
# The product stream

`publish` of the live runtime (`emwin-live/src/events.rs`) draws an id and then sends the
event on a broadcast channel; the ingest task and the product processor both publish, and
their steps interleave.  `events_handler` of `server_http/streams.rs` subscribes to the
channel and passes the products on that match a filter, if their ids are above a mark: the
`Last-Event-ID` that the client connected with, or the last id it was sent.

The ids begin anew with every process, the mark of a client does not.  What a client misses
in a run of restarts, publishes and receives without being told is exactly what the mark
holds back (`product_stream_iff`), and the mark of the running process holds back nothing
(`aboveMark_of_marks`).

The filter is any predicate on the metadata of a product.
-/
import Emwin.Api.EventStream
import Emwin.Lib.Transition

namespace Api

open Broadcast Transition

variable {μ : Type*}

/-! ## Events -/

/-- What an event is about; of the data only the metadata of a product is looked at. -/
inductive LiveEventKind (μ : Type*) where
  | connected
  | disconnected
  | receiverFrame
  | productAvailable (metadata : μ)
  | telemetry
  | error
  deriving DecidableEq, Repr

/-- An event with its id. -/
structure LiveBroadcastEvent (μ : Type*) where
  id : ℕ
  kind : LiveEventKind μ
  deriving DecidableEq, Repr

/-- How many events the channel keeps. -/
def LIVE_CHANNEL_CAPACITY : ℕ := 4096

/-- The tasks that publish events. -/
inductive Publisher where
  | ingest
  | productProcessor
  deriving DecidableEq, Repr

/-- Products are published by the product processor, everything else by the ingest task. -/
def Publisher.publishes : Publisher → LiveEventKind μ → Bool
  | .productProcessor, .productAvailable _ => true
  | .productProcessor, _ => false
  | .ingest, .productAvailable _ => false
  | .ingest, _ => true

/-- What a server process holds: the counter of ids, the events that were sent, and for each
task an event whose id is drawn and that is not sent yet. -/
structure Process (μ : Type*) where
  nextEventId : ℕ
  events : List (LiveBroadcastEvent μ)
  drawn : Publisher → Option (LiveBroadcastEvent μ)

/-- A process that has just started. -/
def Process.initial : Process μ := ⟨1, [], fun _ => none⟩

/-- The first half of `publish`: `fetch_add` wraps at 64 bits. -/
def Process.draw (p : Process μ) (publisher : Publisher) (kind : LiveEventKind μ) :
    Option (Process μ) :=
  if publisher.publishes kind ∧ p.drawn publisher = none then
    some { p with
      nextEventId := (p.nextEventId + 1) % 2 ^ 64
      drawn := Function.update p.drawn publisher (some ⟨p.nextEventId, kind⟩) }
  else none

/-- The second half of `publish`. -/
def Process.send (p : Process μ) (publisher : Publisher) : Option (Process μ) :=
  (p.drawn publisher).map fun event =>
    { p with
      events := p.events ++ [event]
      drawn := Function.update p.drawn publisher none }

/-! ## Clients -/

/-- The id and the product of an event that matches the filter. -/
def wanted (filter : μ → Bool) (event : LiveBroadcastEvent μ) : Option (ℕ × μ) :=
  match event.kind with
  | .productAvailable metadata => if filter metadata then some (event.id, metadata) else none
  | _ => none

/-- One turn of the loop of `events_handler`. -/
def eventsTurn (filter : μ → Bool) :
    StreamState (ℕ × μ) → ℕ → Received (LiveBroadcastEvent μ) → StreamState (ℕ × μ) :=
  StreamState.handle LiveBroadcastEvent.id (wanted filter)

/-- The ids of what a client was sent. -/
def idsOf (st : StreamState (ℕ × μ)) : List ℕ :=
  st.sent.filterMap fun a =>
    match a with
    | .item _ value => some value.1
    | .warning _ _ => none

/-! ## Runs -/

/-- The server and a client, and as history the ids that the client received on earlier
connections, of this process or of others. -/
structure Service (μ : Type*) where
  process : Process μ
  client : Option (StreamState (ℕ × μ))
  received : List ℕ

/-- What happens next. -/
inductive Label (μ : Type*) where
  /-- The process ends and a new one starts. -/
  | restart
  | draw (publisher : Publisher) (kind : LiveEventKind μ)
  | send (publisher : Publisher)
  /-- The client connects, without a mark or with an id that it received before. -/
  | connect (lastEventId : Option ℕ)
  | disconnect
  /-- The stream of the client takes a turn. -/
  | receive
  deriving DecidableEq, Repr

/-- The connection of the client ends, and the client keeps the ids it was sent. -/
def Service.disconnect (s : Service μ) : Service μ :=
  { s with
    client := none
    received := s.received ++ (s.client.map idsOf).getD [] }

/-- One step. -/
def step (filter : μ → Bool) (s : Service μ) : Label μ → Option (Service μ)
  | .restart => some { s.disconnect with process := .initial }
  | .draw publisher kind => (s.process.draw publisher kind).map fun p => { s with process := p }
  | .send publisher => (s.process.send publisher).map fun p => { s with process := p }
  | .connect lastEventId =>
      if ∀ id ∈ lastEventId, id ∈ s.disconnect.received then
        some { s.disconnect with client := some (.subscribe s.process.events lastEventId) }
      else none
  | .disconnect => some s.disconnect
  | .receive =>
      s.client.bind fun st =>
        (recv LIVE_CHANNEL_CAPACITY s.process.events st.cursor).map fun r =>
          { s with client := some (eventsTurn filter st r.2 r.1) }

/-- Before the first connection. -/
def Service.initial : Service μ := ⟨.initial, none, []⟩

/-! ## What a client is due -/

/-- The client was sent every matching product since its subscription, up to the position of
its receiver, once and in order, with a warning in place of what was skipped. -/
def NoSilentGap (filter : μ → Bool) (s : Service μ) : Prop :=
  ∀ st ∈ s.client, st.Kept (wanted filter) s.process.events

/-- If the client is handed a matching product, the id of the product is above the mark of the
client. -/
def AboveMark (filter : μ → Bool) (s : Service μ) : Label μ → Prop
  | .receive => ∀ st ∈ s.client, ∀ event next,
      recv LIVE_CHANNEL_CAPACITY s.process.events st.cursor = some (.ok event, next) →
        wanted filter event ≠ none → st.lastId < event.id
  | _ => True

variable {filter : μ → Bool}

/-- More events do not matter to what was received before. -/
theorem NoSilentGap.more {s : Service μ} (hs : NoSilentGap filter s) {p : Process μ}
    (hp : s.process.events <+: p.events) : NoSilentGap filter { s with process := p } := by
  intro st hst
  exact (hs st hst).more hp

/-- **Step.**  A step keeps the promise exactly if no mark holds a product back. -/
theorem noSilentGap_step_iff {s t : Service μ} {l : Label μ} (hs : NoSilentGap filter s)
    (h : step filter s l = some t) : NoSilentGap filter t ↔ AboveMark filter s l := by
  cases l with
  | restart =>
      obtain rfl := Option.some.inj h
      exact iff_of_true (by rintro st ⟨⟩) trivial
  | draw publisher kind =>
      obtain ⟨p, hp, rfl⟩ := Option.map_eq_some_iff.mp h
      refine iff_of_true (hs.more ?_) trivial
      unfold Process.draw at hp
      split at hp
      · obtain rfl := Option.some.inj hp
        exact List.prefix_rfl
      · cases hp
  | send publisher =>
      obtain ⟨p, hp, rfl⟩ := Option.map_eq_some_iff.mp h
      refine iff_of_true (hs.more ?_) trivial
      obtain ⟨event, -, rfl⟩ := Option.map_eq_some_iff.mp hp
      exact List.prefix_append _ _
  | connect lastEventId =>
      unfold step at h
      dsimp only at h
      split at h
      · obtain rfl := Option.some.inj h
        refine iff_of_true ?_ trivial
        rintro st ⟨⟩
        exact StreamState.kept_subscribe _ _ _
      · cases h
  | disconnect =>
      obtain rfl := Option.some.inj h
      exact iff_of_true (by rintro st ⟨⟩) trivial
  | receive =>
      obtain ⟨st, hst, hreceive⟩ := Option.bind_eq_some_iff.mp h
      obtain ⟨⟨r, next⟩, hrecv, rfl⟩ := Option.map_eq_some_iff.mp hreceive
      have hturn := (hs st hst).handle_iff LiveBroadcastEvent.id hrecv
      constructor
      · intro ht st' hst' event next' hok hwanted
        obtain rfl : st = st' := Option.some.inj (hst.symm.trans hst')
        obtain ⟨rfl, rfl⟩ := Prod.mk.inj (Option.some.inj (hrecv.symm.trans hok))
        exact hturn.mp (ht _ rfl) event rfl hwanted
      · rintro habove _ ⟨⟩
        refine hturn.mpr ?_
        rintro event rfl hwanted
        exact habove st hst event next hrecv hwanted

/-- **No silent gap, exactly.**  In every state of a run the client was sent every matching
product of its connection, or a warning in its place, if and only if no turn of the stream
hands the client a matching product whose id is not above its mark. -/
theorem product_stream_iff (filter : μ → Bool) (labels : List (Label μ)) :
    (∀ front s, front <+: labels → exec (step filter) .initial front = some s →
        NoSilentGap filter s) ↔
      Always (step filter) (AboveMark filter) .initial labels := by
  refine forall_prefix_iff_always (fun s l t hs h => noSilentGap_step_iff hs h) ?_ ?_
  · intro s l hnone
    cases l with
    | receive =>
        intro st hst event next hrecv _
        rw [Option.mem_def] at hst
        simp [step, hst, hrecv] at hnone
    | restart => trivial
    | draw publisher kind => trivial
    | send publisher => trivial
    | connect lastEventId => trivial
    | disconnect => trivial
  · rintro st ⟨⟩

/-- A client that has received the second product of a process connects to the next process,
which publishes its first product. -/
def restartLabels : List (Label Unit) :=
  [.connect none, .draw .productProcessor (.productAvailable ()), .send .productProcessor,
    .draw .productProcessor (.productAvailable ()), .send .productProcessor, .receive, .receive,
    .restart, .connect (some 2), .draw .productProcessor (.productAvailable ()),
    .send .productProcessor, .receive]

/-- The product is not sent to the client, and no warning either. -/
theorem product_stream_silent_gap :
    ¬ ∀ (labels : List (Label Unit)) (s : Service Unit),
      exec (step fun _ => true) .initial labels = some s → NoSilentGap (fun _ => true) s := by
  intro h
  have hkept := h restartLabels _ rfl ⟨2, 1, 0, []⟩ rfl
  obtain ⟨a, ha, -⟩ := hkept.gapless.complete 0 le_rfl Nat.zero_lt_one (Option.some_ne_none _)
  cases ha

/-! ## Marks of the running process -/

section Marks

variable {p q : Process μ} {k mark : ℕ} {event : LiveBroadcastEvent μ}

/-- A mark that the client brings is the id of a product of the running process, and the
counter of ids does not wrap. -/
def MarkFits (s : Service μ) : Label μ → Prop
  | .draw _ _ => s.process.nextEventId + 1 < 2 ^ 64
  | .connect lastEventId =>
      ∀ id ∈ lastEventId, ∃ event ∈ s.process.events,
        Publisher.productProcessor.publishes event.kind = true ∧ event.id = id
  | _ => True

/-- Every product that a process sends from a position on has an id above a mark. -/
structure Ahead (p : Process μ) (k mark : ℕ) : Prop where
  next : mark < p.nextEventId
  drawn : ∀ event ∈ p.drawn .productProcessor, mark < event.id
  sent : ∀ j event, k ≤ j → p.events[j]? = some event →
    Publisher.productProcessor.publishes event.kind = true → mark < event.id

/-- The products of a process are sent with increasing ids. -/
structure InOrder (p : Process μ) : Prop where
  positive : Ahead p 0 0
  publishes : ∀ publisher, ∀ event ∈ p.drawn publisher, publisher.publishes event.kind = true
  drawn_lt : ∀ publisher, ∀ event ∈ p.drawn publisher, event.id < p.nextEventId
  order : ∀ k event, p.events[k]? = some event →
    Publisher.productProcessor.publishes event.kind = true → Ahead p (k + 1) event.id

theorem Ahead.mono (h : Ahead p k mark) {k' : ℕ} (hk : k ≤ k') : Ahead p k' mark where
  next := h.next
  drawn := h.drawn
  sent j event hj := h.sent j event (hk.trans hj)

/-- An id that is drawn is above every mark that lies behind. -/
theorem Ahead.draw (h : Ahead p k mark) {publisher : Publisher} {kind : LiveEventKind μ}
    (hfits : p.nextEventId + 1 < 2 ^ 64) (hq : p.draw publisher kind = some q) :
    Ahead q k mark := by
  have hnext := h.next
  unfold Process.draw at hq
  split at hq
  · obtain rfl := Option.some.inj hq
    refine ⟨?_, ?_, h.sent⟩
    · dsimp only
      rw [Nat.mod_eq_of_lt hfits]
      exact hnext.trans (Nat.lt_succ_self _)
    · intro event hevent
      dsimp only at hevent
      rw [Function.update_apply] at hevent
      split at hevent
      · obtain rfl := Option.some.inj hevent
        exact hnext
      · exact h.drawn event hevent
  · cases hq

/-- What is sent was drawn above every mark that lies behind. -/
theorem Ahead.send (h : Ahead p k mark) (hp : InOrder p) {publisher : Publisher}
    (hq : p.send publisher = some q) : Ahead q k mark := by
  obtain ⟨event, hevent, rfl⟩ := Option.map_eq_some_iff.mp hq
  refine ⟨h.next, ?_, ?_⟩
  · intro other hother
    dsimp only at hother
    rw [Function.update_apply] at hother
    split at hother
    · cases hother
    · exact h.drawn other hother
  · intro j other hj hother hproduct
    rcases getElem?_concat_cases hother with hother | ⟨-, rfl⟩
    · exact h.sent j other hj hother hproduct
    · -- a product was drawn by the product processor
      have hpublishes := hp.publishes publisher other hevent
      cases publisher with
      | productProcessor => exact h.drawn other hevent
      | ingest =>
          cases hkind : other.kind <;> simp [hkind, Publisher.publishes] at hproduct hpublishes

theorem inOrder_initial : InOrder (.initial : Process μ) where
  positive := ⟨Nat.one_pos, by rintro event ⟨⟩, by rintro j event - ⟨⟩⟩
  publishes := by rintro publisher event ⟨⟩
  drawn_lt := by rintro publisher event ⟨⟩
  order := by rintro k event ⟨⟩

theorem InOrder.draw (h : InOrder p) {publisher : Publisher} {kind : LiveEventKind μ}
    (hfits : p.nextEventId + 1 < 2 ^ 64) (hq : p.draw publisher kind = some q) : InOrder q := by
  have hahead {k mark : ℕ} (hmark : Ahead p k mark) : Ahead q k mark := hmark.draw hfits hq
  unfold Process.draw at hq
  split at hq
  · next hdraws =>
      obtain rfl := Option.some.inj hq
      refine ⟨hahead h.positive, ?_, ?_, fun k event hevent hproduct =>
        hahead (h.order k event hevent hproduct)⟩
      · intro other event hevent
        dsimp only at hevent
        rw [Function.update_apply] at hevent
        split at hevent
        · next hsame =>
            obtain rfl := Option.some.inj hevent
            exact hsame ▸ hdraws.1
        · exact h.publishes other event hevent
      · intro other event hevent
        dsimp only at hevent ⊢
        rw [Nat.mod_eq_of_lt hfits]
        rw [Function.update_apply] at hevent
        split at hevent
        · obtain rfl := Option.some.inj hevent
          exact Nat.lt_succ_self _
        · exact (h.drawn_lt other event hevent).trans (Nat.lt_succ_self _)
  · cases hq

theorem InOrder.send (h : InOrder p) {publisher : Publisher} (hq : p.send publisher = some q) :
    InOrder q := by
  have hahead {k mark : ℕ} (hmark : Ahead p k mark) : Ahead q k mark := hmark.send h hq
  obtain ⟨event, hevent, rfl⟩ := Option.map_eq_some_iff.mp hq
  have hdrawn (other : Publisher) (e : LiveBroadcastEvent μ)
      (he : e ∈ Function.update p.drawn publisher none other) : e ∈ p.drawn other := by
    rw [Function.update_apply] at he
    split at he
    · cases he
    · exact he
  refine ⟨hahead h.positive, fun other e he => h.publishes other e (hdrawn other e he),
    fun other e he => h.drawn_lt other e (hdrawn other e he), ?_⟩
  intro k e he hproduct
  rcases getElem?_concat_cases he with hold | ⟨rfl, rfl⟩
  · exact hahead (h.order k e hold hproduct)
  · refine ⟨h.drawn_lt publisher e hevent, ?_, ?_⟩
    · -- the product processor has sent what it had drawn
      have hpublishes := h.publishes publisher e hevent
      cases publisher with
      | productProcessor =>
          intro other hother
          dsimp only at hother
          rw [Function.update_self] at hother
          cases hother
      | ingest =>
          cases hkind : e.kind <;> simp [hkind, Publisher.publishes] at hproduct hpublishes
    · intro j other hj hother
      have hlt := (List.getElem?_eq_some_iff.mp hother).1
      rw [List.length_append, List.length_singleton] at hlt
      omega

end Marks

/-- The products of the running process are sent with increasing ids, and those that the
client has still to receive have ids above its mark. -/
structure MarkBehind (s : Service μ) : Prop where
  inOrder : InOrder s.process
  client : ∀ st ∈ s.client, Ahead s.process st.cursor st.lastId

/-- An event that is wanted is a product. -/
theorem publishes_of_wanted {event : LiveBroadcastEvent μ} (h : wanted filter event ≠ none) :
    Publisher.productProcessor.publishes event.kind = true := by
  unfold wanted at h
  split at h
  · next hkind => simp [hkind, Publisher.publishes]
  · exact absurd rfl h

/-- A turn of the stream leaves the mark behind. -/
theorem MarkBehind.receive {s : Service μ} (h : MarkBehind s) {st : StreamState (ℕ × μ)}
    (hst : st ∈ s.client) {r : Received (LiveBroadcastEvent μ)} {next : ℕ}
    (hrecv : recv LIVE_CHANNEL_CAPACITY s.process.events st.cursor = some (r, next)) :
    MarkBehind { s with client := some (eventsTurn filter st next r) } := by
  refine ⟨h.inOrder, ?_⟩
  rintro _ ⟨⟩
  have hmark := h.client st hst
  rcases recv_cases hrecv with ⟨event, rfl, hevent, rfl⟩ | ⟨dropped, rfl, -, rfl, -⟩
  · unfold eventsTurn StreamState.handle
    dsimp only
    split
    · exact hmark.mono (Nat.le_succ _)
    · split
      · exact hmark.mono (Nat.le_succ _)
      · next hwanted =>
          have hsome : wanted filter event ≠ none := by
            rw [hwanted]
            exact Option.some_ne_none _
          exact h.inOrder.order st.cursor event hevent (publishes_of_wanted hsome)
  · exact hmark.mono (Nat.le_add_right _ _)

/-- **Step.**  Marks of the running process stay behind. -/
theorem markBehind_step {s t : Service μ} {l : Label μ} (hs : MarkBehind s)
    (hfits : MarkFits s l) (h : step filter s l = some t) : MarkBehind t := by
  cases l with
  | restart =>
      obtain rfl := Option.some.inj h
      exact ⟨inOrder_initial, by rintro st ⟨⟩⟩
  | draw publisher kind =>
      obtain ⟨p, hp, rfl⟩ := Option.map_eq_some_iff.mp h
      exact ⟨hs.inOrder.draw hfits hp, fun st hst => (hs.client st hst).draw hfits hp⟩
  | send publisher =>
      obtain ⟨p, hp, rfl⟩ := Option.map_eq_some_iff.mp h
      exact ⟨hs.inOrder.send hp, fun st hst => (hs.client st hst).send hs.inOrder hp⟩
  | connect lastEventId =>
      unfold step at h
      dsimp only at h
      split at h
      · obtain rfl := Option.some.inj h
        refine ⟨hs.inOrder, ?_⟩
        rintro st ⟨⟩
        cases lastEventId with
        | none => exact hs.inOrder.positive.mono (Nat.zero_le _)
        | some id =>
            obtain ⟨event, hevent, hproduct, rfl⟩ := hfits id rfl
            obtain ⟨k, hk⟩ := List.mem_iff_getElem?.mp hevent
            exact (hs.inOrder.order k event hk hproduct).mono (List.getElem?_eq_some_iff.mp hk).1
      · cases h
  | disconnect =>
      obtain rfl := Option.some.inj h
      exact ⟨hs.inOrder, by rintro st ⟨⟩⟩
  | receive =>
      obtain ⟨st, hst, hreceive⟩ := Option.bind_eq_some_iff.mp h
      obtain ⟨⟨r, next⟩, hrecv, rfl⟩ := Option.map_eq_some_iff.mp hreceive
      exact hs.receive hst hrecv

/-- **Run.**  If a client only brings marks of the running process, and the counter of ids does
not wrap, no mark holds a product back, however the tasks interleave. -/
theorem aboveMark_of_marks {labels : List (Label μ)}
    (h : Always (step filter) MarkFits .initial labels) :
    Always (step filter) (AboveMark filter) .initial labels := by
  refine h.imp (fun s l t hs hfits hstep => markBehind_step hs hfits hstep) ?_
    ⟨inOrder_initial, by rintro st ⟨⟩⟩
  intro s l hs _
  cases l with
  | receive =>
      intro st hst event next hrecv hwanted
      rcases recv_cases hrecv with ⟨_, ⟨⟩, hevent, -⟩ | ⟨_, ⟨⟩, -⟩
      exact (hs.client st hst).sent st.cursor event le_rfl hevent (publishes_of_wanted hwanted)
  | restart => trivial
  | draw publisher kind => trivial
  | send publisher => trivial
  | connect lastEventId => trivial
  | disconnect => trivial

end Api
