/-
# Broadcast channels that may lag

A broadcast channel keeps the latest values that were sent, up to its capacity.  A receiver
is handed the values in the order in which they were sent, from its subscription on; if it
is so far behind that values were overwritten, it is told how many and goes on with the
oldest one that is kept (`recv`).  The log of all values that were sent stands for the
channel, and a position in it for a receiver.

`Gapless` is what a consumer can promise that passes on some of the values and a warning
for every lag: up to the position of its receiver, each value to be passed on is passed on
once and in order, or lies in what a warning stands for.
-/
import Mathlib.Data.List.Infix
import Mathlib.Order.Basic

namespace Broadcast

variable {α β : Type*}

/-! ## Receivers -/

/-- What a receiver is handed. -/
inductive Received (α : Type*) where
  | ok (value : α)
  /-- Values were overwritten before they were received. -/
  | lagged (dropped : ℕ)
  deriving DecidableEq, Repr

/-- The next receipt of a receiver at a position, and its position behind it; `none` if it
has to wait. -/
def recv (capacity : ℕ) (log : List α) (cursor : ℕ) : Option (Received α × ℕ) :=
  if capacity < log.length - cursor then
    some (.lagged (log.length - capacity - cursor), log.length - capacity)
  else log[cursor]?.map fun value => (.ok value, cursor + 1)

/-- A receipt is the value at the position, or stands for some values from there on. -/
theorem recv_cases {capacity cursor next : ℕ} {log : List α} {r : Received α}
    (h : recv capacity log cursor = some (r, next)) :
    (∃ value, r = .ok value ∧ log[cursor]? = some value ∧ next = cursor + 1) ∨
      ∃ dropped, r = .lagged dropped ∧ 0 < dropped ∧ next = cursor + dropped ∧
        next ≤ log.length := by
  unfold recv at h
  split at h
  · next hlag =>
      obtain ⟨rfl, rfl⟩ := Prod.mk.inj (Option.some.inj h)
      exact Or.inr ⟨_, rfl, by omega, by omega, by omega⟩
  · obtain ⟨value, hvalue, heq⟩ := Option.map_eq_some_iff.mp h
    obtain ⟨rfl, rfl⟩ := Prod.mk.inj heq
    exact Or.inl ⟨value, rfl, hvalue, rfl⟩

/-- A receiver does not pass the end of the log. -/
theorem cursor_le_of_recv {capacity cursor next : ℕ} {log : List α} {r : Received α}
    (h : recv capacity log cursor = some (r, next)) : next ≤ log.length := by
  rcases recv_cases h with ⟨value, -, hvalue, rfl⟩ | ⟨dropped, -, -, -, hle⟩
  · exact (List.getElem?_eq_some_iff.mp hvalue).1
  · exact hle

/-! ## What is passed on -/

/-- What a consumer passes on, with the positions it stands for. -/
inductive Sent (β : Type*) where
  /-- A value, and the position it was received at. -/
  | item (position : ℕ) (value : β)
  /-- A warning in place of the values from a position on. -/
  | warning (position dropped : ℕ)
  deriving DecidableEq, Repr

/-- The first position it stands for. -/
def Sent.first : Sent β → ℕ
  | .item position _ => position
  | .warning position _ => position

/-- The position behind those it stands for. -/
def Sent.behind : Sent β → ℕ
  | .item position _ => position + 1
  | .warning position dropped => position + dropped

/-- Between two positions, what was expected at each was passed on once and in order, or it
lies in what a warning stands for. -/
structure Gapless (expected : ℕ → Option β) (start stop : ℕ) (sent : List (Sent β)) : Prop where
  ordered : sent.Pairwise fun a b => a.behind ≤ b.first
  within : ∀ a ∈ sent, start ≤ a.first ∧ a.behind ≤ stop
  sound : ∀ p value, .item p value ∈ sent → expected p = some value
  complete : ∀ p, start ≤ p → p < stop → expected p ≠ none → ∃ a ∈ sent, a.first ≤ p ∧ p < a.behind

namespace Gapless

variable {expected : ℕ → Option β} {start stop : ℕ} {sent : List (Sent β)}

/-- Nothing is due at first. -/
theorem empty (expected : ℕ → Option β) (start : ℕ) : Gapless expected start start [] where
  ordered := List.Pairwise.nil
  within := by simp
  sound := by simp
  complete p hp hlt := by omega

/-- Only what is expected up to the end matters. -/
theorem congr {expected' : ℕ → Option β} (h : Gapless expected start stop sent)
    (hagree : ∀ p < stop, expected' p = expected p) : Gapless expected' start stop sent where
  ordered := h.ordered
  within := h.within
  sound p value hmem := by
    have hlt : p + 1 ≤ stop := (h.within _ hmem).2
    rw [hagree p (by omega)]
    exact h.sound p value hmem
  complete p hp hlt hne := h.complete p hp hlt (hagree p hlt ▸ hne)

/-- One more thing is passed on, that stands for the positions from the end on. -/
theorem append (h : Gapless expected start stop sent) (hle : start ≤ stop) (a : Sent β)
    (hfirst : a.first = stop) (hbehind : stop ≤ a.behind)
    (hsound : ∀ p value, a = .item p value → expected p = some value) :
    Gapless expected start a.behind (sent ++ [a]) where
  ordered := by
    rw [List.pairwise_append]
    refine ⟨h.ordered, List.pairwise_singleton _ _, ?_⟩
    intro b hb c hc
    obtain rfl := List.mem_singleton.mp hc
    rw [hfirst]
    exact (h.within b hb).2
  within b hb := by
    rcases List.mem_append.mp hb with hb | hb
    · exact ⟨(h.within b hb).1, (h.within b hb).2.trans hbehind⟩
    · obtain rfl := List.mem_singleton.mp hb
      exact ⟨hfirst ▸ hle, le_rfl⟩
  sound p value hmem := by
    rcases List.mem_append.mp hmem with hmem | hmem
    · exact h.sound p value hmem
    · exact hsound p value (List.mem_singleton.mp hmem).symm
  complete p hp hlt hne := by
    by_cases hold : p < stop
    · obtain ⟨b, hb, hcovers⟩ := h.complete p hp hold hne
      exact ⟨b, List.mem_append_left _ hb, hcovers⟩
    · exact ⟨a, by simp, by omega, hlt⟩

/-- An expected value is passed on. -/
theorem deliver (h : Gapless expected start stop sent) (hle : start ≤ stop) {value : β}
    (hvalue : expected stop = some value) :
    Gapless expected start (stop + 1) (sent ++ [.item stop value]) :=
  h.append hle (.item stop value) rfl (Nat.le_succ stop) (by rintro p v ⟨⟩; exact hvalue)

/-- A lag is passed on as a warning. -/
theorem warn (h : Gapless expected start stop sent) (hle : start ≤ stop) (dropped : ℕ) :
    Gapless expected start (stop + dropped) (sent ++ [.warning stop dropped]) :=
  h.append hle (.warning stop dropped) rfl (Nat.le_add_right stop dropped) (by rintro p v ⟨⟩)

/-- Nothing need be passed on exactly if nothing is expected. -/
theorem pass_iff (h : Gapless expected start stop sent) (hle : start ≤ stop) :
    Gapless expected start (stop + 1) sent ↔ expected stop = none := by
  constructor
  · intro hpass
    by_contra hne
    -- what stands for the position would stand behind the old end
    obtain ⟨a, ha, -, hlt⟩ := hpass.complete stop hle (Nat.lt_succ_self stop) hne
    exact absurd (h.within a ha).2 (by omega)
  · intro hnone
    refine ⟨h.ordered, ?_, h.sound, ?_⟩
    · intro a ha
      exact ⟨(h.within a ha).1, (h.within a ha).2.trans (Nat.le_succ stop)⟩
    · intro p hp hlt hne
      refine h.complete p hp (Nat.lt_of_le_of_ne (Nat.le_of_lt_succ hlt) ?_) hne
      rintro rfl
      exact hne hnone

end Gapless

end Broadcast
