import RatatoskrVault.Policy.Reconcile

/-! `handle_command` for a decoded command, one statement at a time: an acceptable version is
applied, and then its decision is recorded with the acknowledgement that reports it. -/
namespace RatatoskrVault

open Lib

/-- How the broker message is settled. -/
inductive Disposition
  | ack | term | nak
  deriving DecidableEq

def Disposition.ofError : VaultError → Disposition
  | .invalidDelivery _ => term
  | _ => nak

inductive CommandLoc
  | checkRecorded (command : CommandEnvelope)
  | readLastApplied (command : CommandEnvelope)
  | readGoverned (command : CommandEnvelope) (lastApplied : ℕ)
  | apply (command : CommandEnvelope) (decision : PolicyDecision) (at_ : CycleLoc)
  | acknowledge (command : CommandEnvelope) (decision : PolicyDecision)
  | checkKnown (command : CommandEnvelope) (decision : PolicyDecision)
      (payload : PolicyAcknowledged)
  | insertAcknowledgement (command : CommandEnvelope) (decision : PolicyDecision)
      (payload : PolicyAcknowledged)
  | insertCommand (command : CommandEnvelope) (decision : PolicyDecision)
      (acknowledgementId : Uuid)
  | commit (command : CommandEnvelope) (decision : PolicyDecision)
  | finished (disposition : Disposition)
  deriving DecidableEq

/-- Where the command goes on once the cycle has moved. -/
def resumeCycle (command : CommandEnvelope) (decision : PolicyDecision) : CycleLoc → CommandLoc
  | .finished (.ok _) => .acknowledge command decision
  | .finished (.error e) => .finished (.ofError e)
  | at_ => .apply command decision at_

/-- The ledger row of a decision. -/
def commandRow (command : CommandEnvelope) (decision : PolicyDecision)
    (acknowledgementId : Uuid) : PolicyCommand :=
  { commandId := command.commandId
    policyVersion := decision.policyVersion
    outcome := decision.outcome
    rejectionCode := decision.rejectionCode.map (·.asStr)
    acknowledgementId }

/-- The unique keys an inserted ledger row takes. -/
def commandKeys (row : PolicyCommand) : List Lock :=
  .commandKey row.commandId ::
    if row.outcome = .accepted then [.acceptedVersionKey row.policyVersion] else []

def settle (result : Except VaultError Unit) : Option (Action Unit Lock Write CommandLoc) :=
  some (.rollback (.finished (match result with
    | .ok () => .ack
    | .error e => .ofError e)))

def handleCommand (contracts : Contracts) (m : Moment) (db : Db) :
    CommandLoc → Option (Action Unit Lock Write CommandLoc)
  | .checkRecorded command =>
    if db.policyCommandRecorded command.commandId then settle (.ok ())
    else some (.auto [] [] (.readLastApplied command))
  | .readLastApplied command =>
    let lastApplied := db.lastAppliedPolicyVersion
    match PolicyDecision.forVersion command.policy.policyVersion lastApplied with
    | .accepted _ _ => some (.auto [] [] (.readGoverned command lastApplied))
    | decision => some (.auto [] [] (.acknowledge command decision))
  | .readGoverned command lastApplied =>
    if i64Max < command.policy.policyVersion then
      settle (.error (.invalidDelivery "policy_version"))
    else
      match deliveriesForPolicy contracts command.commandId command.policy lastApplied
          (db.targetsGovernedBefore policySource command.policy.policyVersion) with
      | .error _ => settle (.error (.invalidDelivery "policy_version"))
      | .ok deliveries =>
        some (.auto [] [] (.apply command (.accepted command.policy.policyVersion lastApplied)
          (.ingest deliveries [])))
  | .apply command decision at_ =>
    (runCycle m db at_).map (Action.map (resumeCycle command decision))
  | .acknowledge command decision =>
    match acknowledgementEnvelope contracts command decision with
    | none => settle (.error .storageFailed)
    | some payload =>
      if i64Max < decision.policyVersion then settle (.error (.invalidDelivery "policy_version"))
      else some (.auto [] [] (.checkKnown command decision payload))
  | .checkKnown command decision payload =>
    if db.policyCommandRecorded command.commandId then settle (.ok ())
    else some (.stmt [] [] (.insertAcknowledgement command decision payload))
  | .insertAcknowledgement command decision payload =>
    some (.stmt [] [.insertOutbox { eventId := m.fresh, event := .policyAcknowledged payload }]
      (.insertCommand command decision m.fresh))
  | .insertCommand command decision acknowledgementId =>
    let row := commandRow command decision acknowledgementId
    if db.commandAllowed row then
      some (.stmt (commandKeys row) [.insertCommand row] (.commit command decision))
    else settle (.error .storageFailed)
  | .commit _ _ => some (.commit (.finished .ack))
  | .finished _ => none

end RatatoskrVault
