import RatatoskrVault.Policy.RelaySteps

/-! The policy lane with its broker: any number of consumers take messages and settle them, and
any number of relays publish the acknowledgements, beside each other. -/
namespace RatatoskrVault.PolicyBus

open Lib Relay

/-- The only producer allowed to send this command. -/
def producer : String := "ratatoskr-github"

/-- An envelope as it was parsed; `payload` is what `payload_as` makes of its payload. -/
structure ReceivedCommand where
  commandType : String
  producer : String
  tenantId : Option String
  commandId : Uuid
  payload : Option DesiredBackupPolicy
  deriving DecidableEq

/-- The shared command contract: its wire type and the parser of its envelope. -/
structure CommandFormat where
  commandType : String
  fromJson : List UInt8 → Option ReceivedCommand

/-- The checks that need no state. -/
def decode (format : CommandFormat) (payload : List UInt8) : Except String CommandEnvelope :=
  match format.fromJson payload with
  | none => .error "undecodable_envelope"
  | some command =>
    if command.commandType ≠ format.commandType then .error "unknown_command_type"
    else if command.producer ≠ producer then .error "wrong_producer"
    else if command.tenantId.isSome then .error "unexpected_tenant"
    else
      match command.payload with
      | none => .error "undecodable_payload"
      | some policy => .ok { commandId := command.commandId, policy }

/-- A message of the durable; one that is not settled comes again. -/
structure Message where
  sequence : ℕ
  payload : List UInt8
  deriving DecidableEq

structure Settled where
  message : Message
  disposition : Disposition
  deriving DecidableEq

/-- What has reached the broker: the settlements and the relays' messages. -/
structure Broker where
  settled : List Settled := []
  bus : Bus := {}

structure Settings where
  relay : Relay.Settings
  commands : CommandFormat

/-- How a statement ends for its caller: the answer, an error, or a commit whose answer is lost. -/
inductive Storage
  | answers | fails | answerLost
  deriving DecidableEq

/-- The connection's loss signal, the message taken from the stream, the fate of the statement and
of the settlement, and the reply to a published message. -/
structure Input where
  lost : Bool := false
  received : Option Message := none
  storage : Storage := .answers
  arrives : Bool := true
  refused : Bool := false
  reply : BrokerReply := .silent

inductive ConsumerLoc
  | waiting
  | handling (message : Message) (at_ : CommandLoc)
  | settling (message : Message) (disposition : Disposition)
  | finished (error : LaneError)
  deriving DecidableEq

/-- Where the consumer goes on once the handler has moved. -/
def resume (message : Message) : CommandLoc → ConsumerLoc
  | .finished disposition => .settling message disposition
  | at_ => .handling message at_

/-- An error of the database gives the message back, also where its commit took effect. -/
def underStorage (message : Message) :
    Storage → Action Broker Lock OutboxWrite ConsumerLoc →
      Action Broker Lock OutboxWrite ConsumerLoc
  | .answers, action => action
  | .answerLost, .commit _ => .commit (.settling message .nak)
  | _, _ => .rollback (.settling message .nak)

def runConsumer (settings : Settings) (m : Moment) (o : OutboxDb) (broker : Broker)
    (input : Input) : ConsumerLoc → Option (Action Broker Lock OutboxWrite ConsumerLoc)
  | .waiting =>
    -- the loss is looked at first
    if input.lost then some (.call broker (.finished .busLost))
    else
      match input.received with
      | none => some (.call broker (.finished .busLost))
      | some message =>
        match decode settings.commands message.payload with
        | .error _ => some (.call broker (.settling message .term))
        | .ok command => some (.call broker (.handling message (.checkRecorded command)))
  | .handling message at_ =>
    (handleCommand settings.relay.contracts m o.db at_).map fun action =>
      underStorage message input.storage
        (action.lift id (fun w => .lane w m.now) (fun _ => broker) (resume message))
  | .settling message disposition =>
    some (.call
      (if input.arrives then
        { broker with settled := broker.settled ++ [{ message, disposition }] }
      else broker)
      (if input.refused then .finished .busLost else .waiting))
  | .finished _ => none

inductive Proc
  | consumer | relay
  deriving DecidableEq

inductive Loc
  | idle
  | consumer (at_ : ConsumerLoc)
  | relay (at_ : RelayLoc)
  deriving DecidableEq

def Loc.isIdle : Loc → Bool
  | .idle => true
  | .consumer (.finished _) => true
  | .relay (.finished _) => true
  | _ => false

def start : Proc → Loc
  | .consumer => .consumer .waiting
  | .relay => .relay .poll

def act (settings : Settings) (loc : Loc) (m : Moment) (o : OutboxDb) (broker : Broker)
    (input : Input) : Option (Action Broker Lock OutboxWrite Loc) :=
  match loc with
  | .idle => none
  | .consumer at_ => (runConsumer settings m o broker input at_).map (Action.map .consumer)
  | .relay at_ =>
    (runRelay settings.relay m o broker.bus { lost := input.lost, reply := input.reply } at_).map
      (Action.embed (fun bus => { broker with bus }) .relay)

abbrev machine (settings : Settings) :
    Machine OutboxDb Broker Lock OutboxWrite Loc Input Proc Op :=
  { apply := OutboxDb.apply
    act := act settings
    start
    isIdle := Loc.isIdle
    aborted := .idle
    op := fun o m _ _ => some (operate m o) }

abbrev State := Lib.State OutboxDb Broker Lock OutboxWrite Loc
abbrev Label := Lib.Label Input Proc Op

/-- All sessions idle, and the broker has heard nothing. -/
def initial (db : Db) (createdAt : Uuid → Time) (clock fresh : ℕ) : State :=
  { db := { db, relay := fun eventId => { createdAt := createdAt eventId } }
    world := {}
    clock, fresh, held := []
    session := fun _ => { loc := .idle, log := [], began := none } }

end RatatoskrVault.PolicyBus
