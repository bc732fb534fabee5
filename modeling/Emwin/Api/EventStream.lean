/-
# Streams of events

`events_handler` and `incident_events_handler` of `server_http/streams.rs` run the same loop:
they receive from a broadcast channel, pass over events whose ids are not above a mark and
events that are not wanted, send the others and raise the mark, and send a warning for every
lag.  They differ in the channel and in what is wanted.

A turn of the loop keeps what the stream promises (`Gapless`) exactly if it does not pass over
a wanted event because of the mark (`StreamState.Kept.handle_iff`).
-/
import Emwin.Lib.Broadcast

namespace Api

open Broadcast

variable {ε β : Type*}

/-- A client of a stream: its mark and the position of its receiver, and as history where it
subscribed and what it was sent. -/
structure StreamState (β : Type*) where
  lastId : ℕ
  cursor : ℕ
  start : ℕ
  sent : List (Sent β)

/-- A client connects; without a `Last-Event-ID` its mark is 0. -/
def StreamState.subscribe (events : List ε) (lastEventId : Option ℕ) : StreamState β :=
  ⟨lastEventId.getD 0, events.length, events.length, []⟩

/-- One turn of the loop, with what the receiver was handed and its new position. -/
def StreamState.handle (idOf : ε → ℕ) (wanted : ε → Option β) (st : StreamState β) (cursor : ℕ) :
    Received ε → StreamState β
  | .lagged dropped =>
      { st with cursor := cursor, sent := st.sent ++ [.warning st.cursor dropped] }
  | .ok event =>
      if idOf event ≤ st.lastId then { st with cursor := cursor }
      else
        match wanted event with
        | none => { st with cursor := cursor }
        | some value =>
            { st with
              lastId := idOf event
              cursor := cursor
              sent := st.sent ++ [.item st.cursor value] }

/-- What is due at a position of the channel. -/
def due (wanted : ε → Option β) (events : List ε) (p : ℕ) : Option β := events[p]?.bind wanted

/-- An event of a channel to which one more was sent is an old one or the last. -/
theorem getElem?_concat_cases {events : List ε} {a b : ε} {k : ℕ}
    (h : (events ++ [a])[k]? = some b) : events[k]? = some b ∨ k = events.length ∧ b = a := by
  rcases Nat.lt_or_ge k events.length with hk | hk
  · rw [List.getElem?_append_left hk] at h
    exact Or.inl h
  · rw [List.getElem?_append_right hk] at h
    obtain ⟨hlt, rfl⟩ := List.getElem?_eq_some_iff.mp h
    rw [List.length_singleton] at hlt
    exact Or.inr ⟨by omega, List.getElem_singleton _⟩

/-- What was due stays due when more is sent. -/
theorem due_append {wanted : ε → Option β} {events more : List ε} {p : ℕ} (hp : p < events.length) :
    due wanted (events ++ more) p = due wanted events p := by
  rw [due, due, List.getElem?_append_left hp]

/-- What a stream has kept of its promise: up to the position of its receiver, the client was
sent every wanted event since its subscription once and in order, or a warning in its place. -/
structure StreamState.Kept (wanted : ε → Option β) (events : List ε) (st : StreamState β) :
    Prop where
  start_le : st.start ≤ st.cursor
  cursor_le : st.cursor ≤ events.length
  gapless : Gapless (due wanted events) st.start st.cursor st.sent

variable {idOf : ε → ℕ} {wanted : ε → Option β} {events : List ε} {st : StreamState β}

/-- A stream has kept its promise at first. -/
theorem StreamState.kept_subscribe (wanted : ε → Option β) (events : List ε)
    (lastEventId : Option ℕ) :
    (StreamState.subscribe events lastEventId : StreamState β).Kept wanted events where
  start_le := le_rfl
  cursor_le := le_rfl
  gapless := Gapless.empty _ _

/-- More events do not matter to what was received before. -/
theorem StreamState.Kept.more (h : st.Kept wanted events) {events' : List ε}
    (hmore : events <+: events') : st.Kept wanted events' := by
  obtain ⟨more, rfl⟩ := hmore
  refine ⟨h.start_le, ?_, h.gapless.congr fun q hq => due_append (hq.trans_le h.cursor_le)⟩
  rw [List.length_append]
  exact h.cursor_le.trans (Nat.le_add_right _ _)

@[simp] theorem StreamState.cursor_handle (st : StreamState β) (next : ℕ) (r : Received ε) :
    (st.handle idOf wanted next r).cursor = next := by
  unfold handle
  split
  · rfl
  · split
    · rfl
    · split <;> rfl

@[simp] theorem StreamState.start_handle (st : StreamState β) (next : ℕ) (r : Received ε) :
    (st.handle idOf wanted next r).start = st.start := by
  unfold handle
  split
  · rfl
  · split
    · rfl
    · split <;> rfl

/-- **Turn.**  A turn of the loop keeps the promise exactly if the mark holds no wanted event
back. -/
theorem StreamState.Kept.handle_iff (h : st.Kept wanted events) (idOf : ε → ℕ)
    {capacity : ℕ} {r : Received ε} {next : ℕ}
    (hrecv : recv capacity events st.cursor = some (r, next)) :
    (st.handle idOf wanted next r).Kept wanted events ↔
      ∀ event, r = .ok event → wanted event ≠ none → st.lastId < idOf event := by
  have hforward : st.start ≤ next := by
    have hle := h.start_le
    rcases recv_cases hrecv with ⟨-, -, -, rfl⟩ | ⟨dropped, -, -, rfl, -⟩ <;> omega
  have hkept : (st.handle idOf wanted next r).Kept wanted events ↔
      Gapless (due wanted events) st.start next (st.handle idOf wanted next r).sent := by
    constructor
    · intro ht
      simpa using ht.gapless
    · intro hgapless
      refine ⟨by simpa using hforward, ?_, by simpa using hgapless⟩
      simpa using cursor_le_of_recv hrecv
  rw [hkept]
  rcases recv_cases hrecv with ⟨event, rfl, hevent, rfl⟩ | ⟨dropped, rfl, -, rfl, -⟩
  · have hdue : due wanted events st.cursor = wanted event := by
      rw [due, hevent]
      rfl
    rw [handle]
    split
    · next hmark =>
        rw [h.gapless.pass_iff h.start_le, hdue]
        constructor
        · rintro hnone _ ⟨⟩ hwanted
          exact absurd hnone hwanted
        · intro hmarks
          by_contra hwanted
          exact absurd (hmarks event rfl hwanted) (not_lt.mpr hmark)
    · next hmark =>
        refine iff_of_true ?_ (by rintro _ ⟨⟩ -; exact not_le.mp hmark)
        cases hwanted : wanted event with
        | none => exact (h.gapless.pass_iff h.start_le).mpr (hdue.trans hwanted)
        | some value => exact h.gapless.deliver h.start_le (hdue.trans hwanted)
  · exact iff_of_true (h.gapless.warn h.start_le dropped) (by rintro _ ⟨⟩)

end Api
