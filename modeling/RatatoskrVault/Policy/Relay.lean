import RatatoskrVault.Mirror.Lifecycle
import RatatoskrVault.Persistence.OutboxRelay
import RatatoskrVault.Policy.System

/-! The acknowledgement relay beside the policy lane: any number of relays publish the
acknowledgements the decisions left in the outbox, one database statement or broker call at a
time. -/
namespace RatatoskrVault.Relay

open Lib

def acknowledgementSubject : String := "evt.vault.backup_policy.acknowledged.v1"

/-- `BATCH`. -/
def batch : ℕ := 16

def backoffCeilingSeconds : ℕ := 300

def stuckAttempts : ℕ := 3

/-- `STUCK_AGE`, in seconds. -/
def stuckAge : ℕ := 300

def unacknowledged : String := "publish_unacknowledged"

inductive LaneError
  | busLost | storage | storedEnvelope
  deriving DecidableEq

/-- What comes back for a message: a `PubAck`, a refusal, or nothing before the time is out. -/
inductive BrokerReply
  | confirmed | refused | silent
  deriving DecidableEq

/-- A message sent to the broker, with what came back for it. -/
structure SentMessage where
  subject : String
  natsMsgId : String
  body : String
  reply : BrokerReply
  deriving DecidableEq

/-- What the relays have sent, and the health they reported last. -/
structure Bus where
  sent : List SentMessage := []
  publishHealthy : Option Bool := none

structure Settings where
  contracts : Contracts
  uuid : UuidFormat
  format : EnvelopeFormat

/-- The connection's loss signal and the reply to a message. -/
structure Input where
  lost : Bool
  reply : BrokerReply

inductive RelayLoc
  | poll
  | rows (todo : List DueOutboxRow) (refused : Bool)
  | mark (row : DueOutboxRow) (todo : List DueOutboxRow) (refused : Bool)
  | fail (row : DueOutboxRow) (todo : List DueOutboxRow)
  | reportHealth (healthy : Option Bool)
  | wait
  | finished (error : LaneError)
  deriving DecidableEq

/-- A closed match: a type with no subject stops the relay. -/
def subjectFor (eventType : String) : Except LaneError String :=
  if eventType = acknowledgementEventType then .ok acknowledgementSubject
  else .error .storedEnvelope

/-- Capped exponential backoff; a shift past the width of a `u64` is the ceiling. -/
def backoff (attempts : ℕ) : ℕ :=
  if attempts < 64 then min (2 ^ attempts) backoffCeilingSeconds else backoffCeilingSeconds

def healthyAfter (backlog : Option PublishBacklog) (refused : Bool) : Option Bool :=
  match backlog with
  | none => some true
  | some backlog =>
    if refused then
      some (decide (backlog.oldestAttemptCount < stuckAttempts) &&
        decide (backlog.oldestAge ≤ stuckAge))
    else if backlog.anyFailed then none
    else some true

/-- The message `publish` sends for a row, and what came back for it. -/
def message (settings : Settings) (row : DueOutboxRow) (reply : BrokerReply) :
    Except LaneError SentMessage :=
  match subjectFor row.eventType with
  | .error e => .error e
  | .ok subject =>
    match settings.format.fromValue row.payload with
    | none => .error .storedEnvelope
    | some envelope =>
      if envelope.eventId ≠ row.eventId then .error .storedEnvelope
      else
        match settings.format.toCanonicalJson envelope with
        | none => .error .storedEnvelope
        | some body =>
          .ok { subject, natsMsgId := settings.uuid.asHyphenated row.eventId, body, reply }

def stopRelay (e : LaneError) : Option (Action Bus Lock OutboxWrite RelayLoc) :=
  some (.rollback (.finished e))

def runRelay (settings : Settings) (m : Moment) (o : OutboxDb) (bus : Bus) (input : Input) :
    RelayLoc → Option (Action Bus Lock OutboxWrite RelayLoc)
  | .poll =>
    if input.lost then stopRelay .busLost
    else
      match o.dueAcknowledgements settings.format m.clock batch with
      | [] => some (.auto [] [] .wait)
      | due => some (.auto [] [] (.rows due false))
  | .rows [] refused =>
    some (.auto [] [] (.reportHealth (healthyAfter (o.publishBacklog m.clock) refused)))
  | .rows (row :: todo) refused =>
    match message settings row input.reply with
    | .error e => stopRelay e
    | .ok sent =>
      some (.call { bus with sent := bus.sent ++ [sent] }
        (if input.reply = .confirmed then .mark row todo refused else .fail row todo))
  | .mark row todo refused =>
    some (.auto [] [.markOutboxPublished row.eventId m.clock] (.rows todo refused))
  | .fail row todo =>
    -- the column is an `integer`
    if i32Max ≤ (o.relay row.eventId).attemptCount then stopRelay .storage
    else
      some (.auto []
        [.recordPublishFailure row.eventId unacknowledged (m.clock + backoff row.attemptCount)]
        (.rows todo true))
  | .reportHealth none => some (.auto [] [] .wait)
  | .reportHealth (some healthy) => some (.call { bus with publishHealthy := some healthy } .wait)
  | .wait => if input.lost then stopRelay .busLost else some (.auto [] [] .poll)
  | .finished _ => none

inductive Proc
  | policy (proc : Policy.Proc)
  | relay
  deriving DecidableEq

inductive Loc
  | policy (at_ : Policy.Loc)
  | relay (at_ : RelayLoc)
  deriving DecidableEq

def Loc.isIdle : Loc → Bool
  | .policy at_ => at_.isIdle
  | .relay (.finished _) => true
  | .relay _ => false

def start : Proc → Loc
  | .policy proc => .policy (Policy.start proc)
  | .relay => .relay .poll

/-- The failed reports that leave an event of another type. -/
inductive Op
  | verificationFailed (snapshotId : Uuid) (failureClass : Option String)
  | restoreFailed (snapshotId : Uuid) (failureClass : Option String)
  deriving DecidableEq

def Op.event : Op → OutboxEvent
  | verificationFailed snapshotId failureClass => .verificationFailed snapshotId failureClass
  | restoreFailed snapshotId failureClass => .restoreFailed snapshotId failureClass

def act (settings : Settings) (loc : Loc) (m : Moment) (o : OutboxDb) (bus : Bus) (input : Input) :
    Option (Action Bus Lock OutboxWrite Loc) :=
  match loc with
  | .policy at_ =>
    (Policy.act settings.contracts at_ m o.db).map
      (Action.lift id (fun w => .lane w m.now) (fun _ => bus) .policy)
  | .relay at_ => (runRelay settings m o bus input at_).map (Action.map .relay)

def operate (m : Moment) (o : Op) : List Lock × List OutboxWrite :=
  ([], [.lane (.insertOutbox { eventId := m.fresh, event := o.event }) m.clock])

abbrev machine (settings : Settings) :
    Machine OutboxDb Bus Lock OutboxWrite Loc Input Proc Op :=
  { apply := OutboxDb.apply
    act := act settings
    start
    isIdle := Loc.isIdle
    aborted := .policy .idle
    op := fun o m _ _ => some (operate m o) }

abbrev State := Lib.State OutboxDb Bus Lock OutboxWrite Loc
abbrev Label := Lib.Label Input Proc Op

/-- All sessions idle, and nothing in the outbox published yet. -/
def initial (db : Db) (createdAt : Uuid → Time) (clock fresh : ℕ) : State :=
  { db := { db, relay := fun eventId => { createdAt := createdAt eventId } }
    world := {}
    clock, fresh, held := []
    session := fun _ => { loc := .policy .idle, log := [], began := none } }

end RatatoskrVault.Relay
