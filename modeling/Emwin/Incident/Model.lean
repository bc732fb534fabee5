/-
# Incidents

An incident is one VTEC event of an office: a row under the key (office, phenomena,
significance, event tracking number) that shows the status after the newest product that
mentioned it.  A change of a row is reported with what it did and who did it.

Times are microseconds since the epoch, as the database stores them.
-/
import Emwin.Lib.Text
import Mathlib.Data.Prod.Lex
import Mathlib.Data.List.Lex
import Mathlib.Data.Char

namespace Incident

/-- A point in time, in microseconds. -/
abbrev Time := ℤ

/-- The microseconds of a number of seconds. -/
def seconds (n : ℤ) : Time := n * 1000000

/-- The key of an incident. -/
structure IncidentKey where
  office : Str
  phenomena : Str
  significance : Str
  etn : ℤ
deriving Repr

/-- The fields of a key in the order in which they are compared. -/
def IncidentKey.order (k : IncidentKey) : Str ×ₗ Str ×ₗ Str ×ₗ ℤ :=
  toLex (k.office, toLex (k.phenomena, toLex (k.significance, k.etn)))

theorem IncidentKey.order_injective : Function.Injective IncidentKey.order := by
  rintro ⟨o, p, s, e⟩ ⟨o', p', s', e'⟩ h
  simp only [IncidentKey.order, EmbeddingLike.apply_eq_iff_eq, Prod.mk.injEq] at h
  obtain ⟨rfl, rfl, rfl, rfl⟩ := h
  rfl

instance : LinearOrder IncidentKey :=
  LinearOrder.lift' IncidentKey.order IncidentKey.order_injective

/-- The states that the column `current_status` admits. -/
inductive IncidentStatus where
  | active
  | cancelled
  | expired
  | upgraded
deriving DecidableEq, Repr

/-- The text of a status. -/
def IncidentStatus.label : IncidentStatus → Str
  | .active => "active".toList
  | .cancelled => "cancelled".toList
  | .expired => "expired".toList
  | .upgraded => "upgraded".toList

/-- A row of `incidents`. -/
structure IncidentSummary where
  key : IncidentKey
  currentStatus : IncidentStatus
  latestVtecAction : Str
  issuedAt : Time
  startUtc : Option Time
  endUtc : Option Time
  lastUpdatedAt : Time
  firstProductId : ℕ
  latestProductId : ℕ
  latestProductTimestampUtc : Time
deriving DecidableEq, Repr

/-- Whether a change made the row or replaced it. -/
inductive IncidentChangeAction where
  | created
  | updated
deriving DecidableEq, Repr

/-- The text of an action. -/
def IncidentChangeAction.label : IncidentChangeAction → Str
  | .created => "created".toList
  | .updated => "updated".toList

/-- Who changed the row. -/
inductive IncidentChangeTrigger where
  | persist
  | cleanup
deriving DecidableEq, Repr

/-- A change of an incident, with the row after it. -/
structure IncidentChange where
  action : IncidentChangeAction
  trigger : IncidentChangeTrigger
  incident : IncidentSummary
deriving DecidableEq, Repr

end Incident
