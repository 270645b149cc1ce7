import Mathlib.Data.List.Sort
import Mathlib.Logic.Function.Basic
import RatatoskrVault.Schema.Tables

/-! The queries behind the acknowledgement relay: which outbox rows are due, when one is published
and how a failure backs off. -/
namespace RatatoskrVault

def acknowledgementEventType : String := "vault.backup_policy.acknowledged.v1"

def OutboxEvent.eventType : OutboxEvent → String
  | .stateChanged _ _ _ _ _ => "vault.target.state_changed.v1"
  | .policyAcknowledged _ => acknowledgementEventType
  | .verificationFailed _ _ => "vault.snapshot.verification_failed.v1"
  | .restoreFailed _ _ => "vault.restore.failed.v1"

/-- A JSON value, as its text. -/
abbrev Json := String

/-- A decoded envelope: its identifier and all the rest, which nothing here reads. -/
structure EventEnvelope where
  eventId : Uuid
  rest : Json
  deriving DecidableEq

/-- The shared envelope format, and the JSON an outbox row stores. -/
structure EnvelopeFormat where
  payload : OutboxRow → Json
  fromValue : Json → Option EventEnvelope
  toCanonicalJson : EventEnvelope → Option String

/-- The columns of an outbox row that only the relay changes, and its age. -/
structure RelayColumns where
  createdAt : Time
  publishedAt : Option Time := none
  attemptCount : ℕ := 0
  lastError : Option String := none
  nextAttemptAt : Option Time := none
  deriving DecidableEq

/-- The database with the relay's columns of its outbox. -/
structure OutboxDb where
  db : Db
  relay : Uuid → RelayColumns

/-- What the policy lane writes, in a transaction that began at `at_`, and what the relay does. -/
inductive OutboxWrite
  | lane (write : Write) (at_ : Time)
  | markOutboxPublished (eventId : Uuid) (at_ : Time)
  | recordPublishFailure (eventId : Uuid) (failureClass : String) (nextAttemptAt : Time)

/-- `publish_backlog`. -/
structure PublishBacklog where
  oldestAttemptCount : ℕ
  oldestAge : ℕ
  anyFailed : Bool
  deriving DecidableEq

structure DueOutboxRow where
  eventId : Uuid
  eventType : String
  payload : Json
  attemptCount : ℕ
  deriving DecidableEq

namespace OutboxDb

def setColumns (o : OutboxDb) (eventId : Uuid) (columns : RelayColumns) : OutboxDb :=
  { o with relay := Function.update o.relay eventId columns }

def apply (o : OutboxDb) : OutboxWrite → OutboxDb
  | .lane (.insertOutbox row) at_ =>
    { db := o.db.apply (.insertOutbox row)
      relay := Function.update o.relay row.eventId { createdAt := at_ } }
  | .lane write _ => { o with db := o.db.apply write }
  | .markOutboxPublished eventId at_ =>
    if (o.relay eventId).publishedAt.isNone then
      o.setColumns eventId { o.relay eventId with publishedAt := some at_ }
    else o
  | .recordPublishFailure eventId failureClass nextAttemptAt =>
    o.setColumns eventId
      { o.relay eventId with
        attemptCount := (o.relay eventId).attemptCount + 1
        lastError := some failureClass
        nextAttemptAt := some nextAttemptAt }

variable (o : OutboxDb)

/-- The order of `created_at, event_id`. -/
def Older (a b : OutboxRow) : Prop :=
  (o.relay a.eventId).createdAt < (o.relay b.eventId).createdAt ∨
    ((o.relay a.eventId).createdAt = (o.relay b.eventId).createdAt ∧ a.eventId ≤ b.eventId)

instance : DecidableRel o.Older := fun _ _ => inferInstanceAs (Decidable (_ ∨ _))

/-- An acknowledgement that is not published. -/
def isPending (row : OutboxRow) : Bool :=
  row.event.eventType == acknowledgementEventType && (o.relay row.eventId).publishedAt.isNone

def isDue (now : Time) (row : OutboxRow) : Bool :=
  o.isPending row && (o.relay row.eventId).nextAttemptAt.all fun at_ => decide (at_ ≤ now)

def dueAcknowledgements (format : EnvelopeFormat) (now : Time) (limit : ℕ) : List DueOutboxRow :=
  (((o.db.outbox.filter (o.isDue now)).insertionSort o.Older).take limit).map fun row =>
    { eventId := row.eventId
      eventType := row.event.eventType
      payload := format.payload row
      attemptCount := (o.relay row.eventId).attemptCount }

def publishBacklog (now : Time) : Option PublishBacklog :=
  let pending := o.db.outbox.filter o.isPending
  (pending.insertionSort o.Older).head?.map fun oldest =>
    { oldestAttemptCount := (o.relay oldest.eventId).attemptCount
      oldestAge := now - (o.relay oldest.eventId).createdAt
      anyFailed := pending.any fun row => decide (0 < (o.relay row.eventId).attemptCount) }

end OutboxDb

end RatatoskrVault
