/-
# Alert rules, source events, alert events and delivery attempts

The rows that the alert worker reads and writes, and the pure parts of its evaluation:
whether criteria match a source event, which silence covers it, what a rule's templates
render to, and the key under which an alert event is unique.

Code outside this development stands in `Env`: the compiled product filter, the JSON
decoder of an incident change, the template engine, the blob reader and the metadata
builder.
-/
import Emwin.Incident.Model
import Mathlib.Data.List.Nodup

open Incident

namespace Alert

/-! ## The rows -/

/-- What a source event reports. -/
inductive AlertSourceKind where
  | productAvailable
  | incidentChange
deriving DecidableEq, Repr

/-- The states of a delivery attempt. -/
inductive AlertDeliveryStatus where
  | pending
  | inProgress
  | delivered
  | retryPending
  | failed
  | suppressed
deriving DecidableEq, Repr

/-- Criteria for incident changes; each field is a comma-separated list. -/
structure IncidentFilterInput where
  action : Option Str
  office : Option Str
  phenomena : Option Str
  significance : Option Str
  status : Option Str
  etn : Option Str
deriving DecidableEq, Repr

/-- The criteria of a rule or a silence; `I` is the input of a product filter. -/
inductive AlertMatchCriteria (I : Type) where
  | productAvailable (input : I)
  | incidentChange (input : IncidentFilterInput)
deriving DecidableEq, Repr

/-- The kind of source event that criteria are about, stored beside a rule. -/
def AlertMatchCriteria.sourceKind {I : Type} : AlertMatchCriteria I → AlertSourceKind
  | .productAvailable _ => .productAvailable
  | .incidentChange _ => .incidentChange

/-- How a rule behaves when it matches. -/
structure AlertTriggerPolicy where
  cooldownSecs : ℕ
  severity : Option Str
deriving DecidableEq, Repr

/-- The texts of an alert, to be rendered. -/
structure AlertTemplate where
  title : Str
  body : Str
deriving DecidableEq, Repr

/-- One contact point of a rule. -/
structure AlertRuleTarget where
  contactPointId : ℕ
  position : ℤ
deriving DecidableEq, Repr

/-- An alert rule with its targets, as it is read from the database. -/
structure AlertRule (I : Type) where
  id : ℕ
  name : Str
  enabled : Bool
  criteria : AlertMatchCriteria I
  triggerPolicy : AlertTriggerPolicy
  template : AlertTemplate
  targets : List AlertRuleTarget
  /-- `(rule_id, contact_point_id)` is the primary key of `rule_targets`. -/
  targets_nodup : (targets.map AlertRuleTarget.contactPointId).Nodup

/-- A silence is active from `startsAt` to `endsAt`. -/
structure AlertSilence (I : Type) where
  id : ℕ
  criteria : AlertMatchCriteria I
  startsAt : Time
  endsAt : Time

/-- A row of `alerting.source_events`; `V` is the type of JSON values. -/
structure AlertSourceEvent (V : Type) where
  id : ℕ
  sourceKind : AlertSourceKind
  sourceId : Str
  payload : V
  sourceTimestamp : Time
  claimedAt : Option Time
  processedAt : Option Time
deriving DecidableEq, Repr

/-- A source event as it is inserted. -/
def newSourceEvent {V : Type} (id : ℕ) (kind : AlertSourceKind) (sourceId : Str) (payload : V)
    (sourceTimestamp : Time) : AlertSourceEvent V :=
  ⟨id, kind, sourceId, payload, sourceTimestamp, none, none⟩

/-- A row of `alerting.events`. -/
structure AlertEvent (V : Type) where
  id : ℕ
  ruleId : ℕ
  sourceEventId : ℕ
  deliveryKey : Str
  severity : Option Str
  title : Str
  body : Str
  payload : V
  createdAt : Time
deriving DecidableEq, Repr

/-- A row of `alerting.delivery_attempts`. -/
structure AlertDeliveryAttempt where
  id : ℕ
  alertEventId : ℕ
  contactPointId : ℕ
  deliveryKey : Str
  attemptNo : ℕ
  status : AlertDeliveryStatus
  claimedAt : Option Time
  nextRetryAt : Option Time
  responseCode : Option ℤ
  responseExcerpt : Option Str
  deliveredAt : Option Time
  createdAt : Time
  updatedAt : Time
deriving DecidableEq, Repr

/-- The columns of `products` from which the metadata of a product is rebuilt. -/
structure ProductRow where
  filename : Str
  sourceTimestampUtc : ℤ
  sourceReceiver : Str
  sourceMessageId : Option Str
  payloadLocation : Str
deriving DecidableEq, Repr

/-- Where a product came from. -/
inductive SourceKind where
  | qbt
  | wxWire (messageId : Str)
  | unknown
deriving DecidableEq, Repr

/-- The errors of the worker that are not failures of the database. -/
inductive AlertError where
  | invalidConfig (message : Str)
  | invalidRequest (message : Str)
  | rowNotFound
  | blob (message : Str)
  | json (message : Str)
  | template (message : Str)
  /-- The reading of the clock less a cooldown lies before the earliest time there is. -/
  | panic
deriving DecidableEq, Repr

/-- What a template is rendered with. -/
structure RenderContext (V : Type) where
  sourceEvent : V
  sourceKind : AlertSourceKind
  ruleId : ℕ
  ruleName : Str

/-- Code that the worker calls: product filters over inputs `I` and metadata `D`, JSON
values `V`, templates and blobs. -/
structure Env (I V D : Type) where
  /-- `FileEventFilter::try_from_input`, then `matches_metadata` of the filter. -/
  tryFromInput : I → Except Str (D → Bool)
  /-- `serde_json::from_value` at the type of incident changes. -/
  decodeIncidentChange : V → Except Str IncidentChange
  /-- `Environment::render_str`. -/
  renderStr : Str → RenderContext V → Except Str Str
  /-- The blob reader. -/
  readBlob : Str → Except Str (List UInt8)
  /-- `build_completed_file_metadata`. -/
  buildCompletedFileMetadata : Str → ℕ → SourceKind → List UInt8 → D

/-! ## Incident criteria -/

/-- Compare without regard to surrounding space, in lower case. -/
def normalizeLower (value : Str) : Str := (Str.trim value).map Char.toLower

/-- Compare without regard to surrounding space, in upper case. -/
def normalizeUpper (value : Str) : Str := Str.toAsciiUppercase (Str.trim value)

/-- The pieces between the commas. -/
def splitCommas : Str → List Str
  | [] => [[]]
  | c :: s =>
      match splitCommas s with
      | [] => [[c]]
      | piece :: rest => if c = ',' then [] :: piece :: rest else (c :: piece) :: rest

/-- Whether one of the listed values is the actual one; no list admits everything. -/
def matchesCsv (raw : Option Str) (actual : Str) (normalize : Str → Str) : Bool :=
  match raw with
  | some raw =>
      (((splitCommas raw).map Str.trim).filter (· ≠ [])).any fun candidate =>
        normalize candidate == normalize actual
  | none => true

/-- `str::parse::<i64>`: an optional sign and digits, within the range of the type. -/
def parseI64 (s : Str) : Option ℤ :=
  match s with
  | '-' :: '+' :: _ => none
  | '-' :: rest => (Str.parseUnsigned (2 ^ 63) rest).map fun n => -(n : ℤ)
  | _ => (Str.parseUnsigned (2 ^ 63 - 1) s).map fun n => (n : ℤ)

/-- As `matchesCsv`, for numbers; entries that are no numbers are passed over. -/
def matchesI64Csv (raw : Option Str) (actual : ℤ) : Bool :=
  match raw with
  | some raw => (((splitCommas raw).map Str.trim).filterMap parseI64).any (· == actual)
  | none => true

/-- Whether incident criteria admit a change. -/
def incidentFilterMatches (input : IncidentFilterInput) (change : IncidentChange) : Bool :=
  matchesCsv input.action change.action.label normalizeLower &&
  matchesCsv input.office change.incident.key.office normalizeUpper &&
  matchesCsv input.phenomena change.incident.key.phenomena normalizeUpper &&
  matchesCsv input.significance change.incident.key.significance normalizeUpper &&
  matchesCsv input.status change.incident.currentStatus.label normalizeLower &&
  matchesI64Csv input.etn change.incident.key.etn

/-! ## Matching, silences, rendering -/

section Evaluation

variable {I V D : Type} (env : Env I V D)

/-- Whether criteria match a source event.  A filter input or a payload that cannot be
read is an error of the whole evaluation. -/
def eventMatchesCriteria (criteria : AlertMatchCriteria I) (event : AlertSourceEvent V)
    (productMetadata : Option D) : Except AlertError Bool :=
  match criteria with
  | .productAvailable input =>
      if event.sourceKind ≠ .productAvailable then .ok false
      else match productMetadata with
        | none => .ok false
        | some metadata =>
            match env.tryFromInput input with
            | .error message => .error (.invalidConfig message)
            | .ok matchesMetadata => .ok (matchesMetadata metadata)
  | .incidentChange input =>
      if event.sourceKind ≠ .incidentChange then .ok false
      else match env.decodeIncidentChange event.payload with
        | .error message => .error (.json message)
        | .ok change => .ok (incidentFilterMatches input change)

/-- The first silence that matches the event. -/
def matchingSilence (event : AlertSourceEvent V) (metadata : Option D) :
    List (AlertSilence I) → Except AlertError (Option ℕ)
  | [] => .ok none
  | silence :: silences =>
      match eventMatchesCriteria env silence.criteria event metadata with
      | .error e => .error e
      | .ok true => .ok (some silence.id)
      | .ok false => matchingSilence event metadata silences

/-- The values a rule's templates see. -/
def renderContext (rule : AlertRule I) (event : AlertSourceEvent V) : RenderContext V where
  sourceEvent := event.payload
  sourceKind := event.sourceKind
  ruleId := rule.id
  ruleName := rule.name

/-- The title and the body of an alert. -/
def renderRule (rule : AlertRule I) (event : AlertSourceEvent V) :
    Except AlertError (Str × Str) :=
  match env.renderStr rule.template.title (renderContext rule event) with
  | .error message => .error (.template message)
  | .ok title =>
      match env.renderStr rule.template.body (renderContext rule event) with
      | .error message => .error (.template message)
      | .ok body => .ok (title, body)

/-- Where a product came from, by the columns of its row. -/
def sourceKindFromProductRow (sourceReceiver : Str) (sourceMessageId : Option Str) : SourceKind :=
  if sourceReceiver = "qbt".toList then .qbt
  else if sourceReceiver = "wxwire".toList then .wxWire (sourceMessageId.getD [])
  else .unknown

/-- The metadata of the product that a source event names: its row, then its payload. -/
def loadProductMetadataForSourceEvent (products : ℤ → Option ProductRow)
    (event : AlertSourceEvent V) : Except AlertError D :=
  match parseI64 event.sourceId with
  | none => .error (.invalidRequest event.sourceId)
  | some productId =>
      match products productId with
      | none => .error .rowNotFound
      | some row =>
          match env.readBlob row.payloadLocation with
          | .error message => .error (.blob message)
          | .ok bytes =>
              if row.sourceTimestampUtc < 0 then .error (.invalidRequest event.sourceId)
              else .ok (env.buildCompletedFileMetadata row.filename row.sourceTimestampUtc.toNat
                (sourceKindFromProductRow row.sourceReceiver row.sourceMessageId) bytes)

end Evaluation

/-! ## Delivery keys -/

/-- The key under which an alert event is unique. -/
def buildDeliveryKey {V : Type} (ruleId : ℕ) (event : AlertSourceEvent V) : Str :=
  match event.sourceKind with
  | .productAvailable =>
      Str.ofNat ruleId ++ ":product_available:".toList ++ event.sourceId ++ ":fire".toList
  | .incidentChange =>
      Str.ofNat ruleId ++ ":incident_change:".toList ++ event.sourceId ++ ":".toList ++
        Str.ofNat event.id ++ ":fire".toList

/-- The key of an attempt at one contact point. -/
def attemptDeliveryKey (deliveryKey : Str) (contactPointId : ℕ) : Str :=
  deliveryKey ++ ":".toList ++ Str.ofNat contactPointId

/-- The source id under which the archive reports a product. -/
def productSourceId (productId : ℕ) : Str := Str.ofNat productId

end Alert
