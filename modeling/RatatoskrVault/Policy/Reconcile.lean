import RatatoskrVault.Core.Planner
import RatatoskrVault.Persistence.PolicyLane
import RatatoskrVault.Persistence.Transition

/-! `run_cycle`, one statement at a time: every message is ingested in a transaction of its own,
and then every target a message named is moved toward the revision that governs it. -/
namespace RatatoskrVault

open Lib

structure CycleReport where
  proposed : ℕ
  executable : ℕ
  deriving DecidableEq

/-- One message being ingested, the messages after it and the targets named before it. -/
structure Ingesting where
  message : IncomingDelivery
  delivery : ValidatedDelivery
  policyRevision : ℕ
  todo : List IncomingDelivery
  touched : List Uuid
  deriving DecidableEq

/-- The targets still to converge and what has been counted. -/
structure Converging where
  todo : List Uuid
  report : CycleReport
  deriving DecidableEq

inductive CycleLoc
  | ingest (todo : List IncomingDelivery) (touched : List Uuid)
  | claimInbox (job : Ingesting)
  | insertTarget (job : Ingesting)
  | enrollEvent (job : Ingesting) (targetId : Uuid)
  | selectTarget (job : Ingesting)
  | insertRevision (job : Ingesting) (targetId : Uuid)
  | commit (job : Ingesting) (targetId : Uuid)
  | findTarget (message : IncomingDelivery) (todo : List IncomingDelivery) (touched : List Uuid)
  | readGoverning (targetId : Uuid) (rest : Converging)
  | readObserved (targetId : Uuid) (desired : ValidatedDelivery) (rest : Converging)
  | items (targetId : Uuid) (desired : ValidatedDelivery) (items : List WorkItem)
      (rest : Converging)
  | transition (request : TransitionRequest) (at_ : TransitionLoc) (items : List WorkItem)
      (rest : Converging)
  | finished (result : Except VaultError CycleReport)
  deriving DecidableEq

/-- Adds a target to those the cycle converges, once. -/
def remember (touched : List Uuid) (targetId : Uuid) : List Uuid :=
  if touched.contains targetId then touched else touched ++ [targetId]

def Converging.next (rest : Converging) : CycleLoc :=
  match rest.todo with
  | [] => .finished (.ok rest.report)
  | targetId :: todo => .readGoverning targetId { rest with todo }

def Converging.count (rest : Converging) (counters : PlanCounters) : Converging :=
  { rest with
    report :=
      { proposed := rest.report.proposed + counters.proposed
        executable := rest.report.executable + counters.executable } }

/-- Where the cycle goes on once the transition has moved. -/
def resumeTransition (request : TransitionRequest) (items : List WorkItem) (rest : Converging) :
    TransitionLoc → CycleLoc
  | .finished (.ok ()) => .items request.targetId request.governing items rest
  | .finished (.error e) => .finished (.error e)
  | at_ => .transition request at_ items rest

def failCycle (e : VaultError) : Option (Action Unit Lock Write CycleLoc) :=
  some (.rollback (.finished (.error e)))

def runCycle (m : Moment) (db : Db) : CycleLoc → Option (Action Unit Lock Write CycleLoc)
  | .ingest [] touched =>
    some (.auto [] [] ({ todo := touched, report := { proposed := 0, executable := 0 } } :
      Converging).next)
  | .ingest (message :: todo) touched =>
    match validateDelivery message.delivery with
    | .error e => failCycle e
    | .ok delivery =>
      match governedInputs delivery with
      | .error e => failCycle e
      | .ok policyRevision =>
        some (.auto [] [] (.claimInbox { message, delivery, policyRevision, todo, touched }))
  | .claimInbox job =>
    let row : InboxRow := { source := job.message.source, messageId := job.message.messageId }
    if !row.allowed then failCycle .storageFailed
    else if db.inbox.contains row then
      some (.rollback (.findTarget job.message job.todo job.touched))
    else some (.stmt [.inboxKey row.source row.messageId] [.insertInbox row] (.insertTarget job))
  | .insertTarget job =>
    let provider := job.message.provider
    let externalRepositoryId := job.message.externalRepositoryId
    let row : Target := { targetId := m.fresh, provider, externalRepositoryId, status := .requested }
    if !row.allowed then failCycle .storageFailed
    else if (db.repositoryTarget? provider externalRepositoryId).isSome then
      some (.stmt [] [] (.selectTarget job))
    else
      some (.stmt [.repositoryKey provider externalRepositoryId] [.insertTarget row]
        (.enrollEvent job m.fresh))
  | .enrollEvent job targetId =>
    some (.stmt []
      [.insertOutbox
        { eventId := m.fresh
          event := .stateChanged targetId none .requested job.policyRevision
            job.delivery.correlationId }]
      (.insertRevision job targetId))
  | .selectTarget job =>
    match db.repositoryTarget? job.message.provider job.message.externalRepositoryId with
    | none => failCycle (.invalidDelivery "target_id")
    | some target =>
      some (.stmt [.target target.targetId] [] (.insertRevision job target.targetId))
  | .insertRevision job targetId =>
    let row := revisionRow targetId job.policyRevision job.delivery (some job.message.source)
    if !row.allowed then failCycle .storageFailed
    else if db.hasRevision targetId job.policyRevision then
      some (.stmt [] [] (.commit job targetId))
    else if (db.target? targetId).isSome then
      some (.stmt [.revisionKey targetId job.policyRevision] [.insertRevision row]
        (.commit job targetId))
    else failCycle .storageFailed
  | .commit job targetId => some (.commit (.ingest job.todo (remember job.touched targetId)))
  | .findTarget message todo touched =>
    match db.repositoryTarget? message.provider message.externalRepositoryId with
    | none => failCycle (.invalidDelivery "target_id")
    | some target => some (.auto [] [] (.ingest todo (remember touched target.targetId)))
  | .readGoverning targetId rest =>
    match db.governing? targetId with
    | none => some (.auto [] [] rest.next)
    | some policy => some (.auto [] [] (.readObserved targetId (governedRecord policy) rest))
  | .readObserved targetId desired rest =>
    let planned := plan desired ((db.target? targetId).map (·.status))
    some (.auto [] [] (.items targetId desired planned.items (rest.count planned.counters)))
  | .items _ _ [] rest => some (.auto [] [] rest.next)
  | .items targetId desired (.exclude :: items) rest =>
    some (.auto [] [] (.transition { targetId, toStatus := .excluded, governing := desired } .begin
      items rest))
  | .items targetId desired (.reactivate :: items) rest =>
    some (.auto [] [] (.transition { targetId, toStatus := .requested, governing := desired }
      .begin items rest))
  | .items targetId desired (_ :: items) rest =>
    some (.auto [] [] (.items targetId desired items rest))
  | .transition request at_ items rest =>
    (applyTransition request m db at_).map (Action.map (resumeTransition request items rest))
  | .finished _ => none

end RatatoskrVault
