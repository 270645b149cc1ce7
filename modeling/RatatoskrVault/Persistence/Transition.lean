import RatatoskrVault.Lib.ReadCommitted
import RatatoskrVault.Schema.Guards

/-! `apply_transition`, one statement at a time: the governing revision, the locked target row,
the tombstone created or cancelled, the guarded status write and its event. -/
namespace RatatoskrVault

open Lib

/-- `DEFAULT_RETENTION_POLICY.grace_seconds`. -/
def graceSeconds : ℕ := 2592000

structure TransitionRequest where
  targetId : Uuid
  toStatus : TargetStatus
  governing : ValidatedDelivery
  deriving DecidableEq

inductive TransitionLoc
  | begin
  | insertRevision (policyRevision : ℕ)
  | lockTarget (policyRevision : ℕ)
  | insertTombstone (policyRevision : ℕ) (fromStatus : TargetStatus)
  | lockTombstone (policyRevision : ℕ) (fromStatus : TargetStatus)
  | stageStarted (policyRevision : ℕ) (fromStatus : TargetStatus) (tombstoneId : Uuid)
  | cancelPlans (policyRevision : ℕ) (fromStatus : TargetStatus) (tombstoneId : Uuid)
  | cancelTombstone (policyRevision : ℕ) (fromStatus : TargetStatus) (tombstoneId : Uuid)
  | updateTarget (policyRevision : ℕ) (fromStatus : TargetStatus)
  | insertEvent (policyRevision : ℕ) (fromStatus : TargetStatus)
  | commit
  | finished (result : Except VaultError Unit)
  deriving DecidableEq

/-- The revision row a governing record is persisted as. -/
def revisionRow (targetId : Uuid) (policyRevision : ℕ) (governing : ValidatedDelivery)
    (source : Option String) : Revision :=
  { targetId
    policyRevision
    preservationLevel := governing.preservationLevel
    pinned := governing.pinned.getD false
    includeWiki := governing.includeWiki.getD false
    includeReleases := governing.includeReleases.getD false
    includeIssues := governing.includeIssues.getD false
    offsiteRequired := governing.offsiteRequired.getD false
    correlationId := governing.correlationId
    source }

def Db.hasRevision (db : Db) (targetId : Uuid) (policyRevision : ℕ) : Bool :=
  db.revisions.any fun r => r.targetId == targetId && r.policyRevision == policyRevision

def Db.activeTombstone? (db : Db) (targetId : Uuid) : Option Tombstone :=
  db.tombstones.find? fun t => t.targetId == targetId && t.isActive

/-- The automatic plans under a tombstone that have not started. -/
def Db.cancellablePlans (db : Db) (tombstoneId : Uuid) : List DeletionPlan :=
  (db.plansUnder tombstoneId).filter fun p => p.automatic && p.status == .planned

def Db.stageStarted (db : Db) (tombstoneId : Uuid) : Bool :=
  db.attempts.any fun stage =>
    db.plans.any fun p => p.planId == stage.planId && p.tombstoneId == some tombstoneId

/-- `classify_status_update_failure`. -/
def classifyStatusUpdateFailure : SqlError → VaultError
  | .vlt01 fromStatus toStatus => .illegalTransition fromStatus.asStr toStatus.asStr
  | _ => .storageFailed

section

variable {World : Type} (request : TransitionRequest)

/-- The step `apply_target_retention_transition` takes once the target row is locked. -/
def retentionTransition (policyRevision : ℕ) (target : Target) :
    Except VaultError TransitionLoc :=
  match request.toStatus with
  | .excluded =>
    if request.governing.preservationLevel ≠ .none then
      .error (.invalidDelivery "tombstone_policy")
    else if target.pinned ∨ request.governing.pinned = some true then
      .error (.invalidDelivery "target_pin")
    else .ok (.insertTombstone policyRevision target.status)
  | .requested =>
    if request.governing.preservationLevel ≠ .none then
      .ok (.lockTombstone policyRevision target.status)
    else .ok (.updateTarget policyRevision target.status)
  | _ => .ok (.updateTarget policyRevision target.status)

def applyTransition (m : Moment) (db : Db) :
    TransitionLoc → Option (Action World Lock Write TransitionLoc)
  | .begin =>
    match governedInputs request.governing with
    | .error e => some (.rollback (.finished (.error e)))
    | .ok policyRevision => some (.stmt [] [] (.insertRevision policyRevision))
  | .insertRevision policyRevision =>
    let row := revisionRow request.targetId policyRevision request.governing none
    -- the row constraints are checked before the conflict is looked for
    if !row.allowed then some (.rollback (.finished (.error .storageFailed)))
    else if db.hasRevision request.targetId policyRevision then
      some (.stmt [] [] (.lockTarget policyRevision))
    else if (db.target? request.targetId).isSome then
      some (.stmt [.revisionKey request.targetId policyRevision] [.insertRevision row]
        (.lockTarget policyRevision))
    else some (.rollback (.finished (.error .storageFailed)))
  | .lockTarget policyRevision =>
    match db.target? request.targetId with
    | none => some (.rollback (.finished (.error (.invalidDelivery "target_id"))))
    | some target =>
      match retentionTransition request policyRevision target with
      | .error e => some (.rollback (.finished (.error e)))
      | .ok next => some (.stmt [.target request.targetId] [] next)
  | .insertTombstone policyRevision fromStatus =>
    if (db.activeTombstone? request.targetId).isSome then
      some (.stmt [] [] (.updateTarget policyRevision fromStatus))
    else
      some (.stmt []
        [.insertTombstone
          { tombstoneId := m.fresh
            targetId := request.targetId
            governingPolicyRevision := policyRevision
            recordedAt := m.now
            notBefore := m.now + graceSeconds }]
        (.updateTarget policyRevision fromStatus))
  | .lockTombstone policyRevision fromStatus =>
    match db.activeTombstone? request.targetId with
    | none => some (.stmt [] [] (.updateTarget policyRevision fromStatus))
    | some tombstone =>
      some (.stmt [.tombstone tombstone.tombstoneId] []
        (.stageStarted policyRevision fromStatus tombstone.tombstoneId))
  | .stageStarted policyRevision fromStatus tombstoneId =>
    if db.stageStarted tombstoneId then
      some (.rollback
        (.finished (.error (.invalidDelivery "reactivation_after_deletion_started"))))
    else some (.stmt [] [] (.cancelPlans policyRevision fromStatus tombstoneId))
  | .cancelPlans policyRevision fromStatus tombstoneId =>
    let plans := db.cancellablePlans tombstoneId
    some (.stmt (plans.map fun p => .plan p.planId)
      (plans.map fun p => .setPlanStatus p.planId .planned .cancelled)
      (.cancelTombstone policyRevision fromStatus tombstoneId))
  | .cancelTombstone policyRevision fromStatus tombstoneId =>
    match db.tombstone? tombstoneId with
    | none => some (.stmt [] [] (.updateTarget policyRevision fromStatus))
    | some tombstone =>
      match Db.guardTombstoneClose tombstone (some m.now) none with
      | .error _ => some (.rollback (.finished (.error .storageFailed)))
      | .ok () =>
        some (.stmt [] [.cancelTombstone tombstoneId m.now]
          (.updateTarget policyRevision fromStatus))
  | .updateTarget policyRevision fromStatus =>
    match db.target? request.targetId with
    | none => some (.stmt [] [] (.insertEvent policyRevision fromStatus))
    | some target =>
      match db.targetGuardStatusTransition m.clock target request.toStatus with
      | .error e => some (.rollback (.finished (.error (classifyStatusUpdateFailure e))))
      | .ok () =>
        some (.stmt [.target request.targetId]
          [.setTargetStatus request.targetId target.status request.toStatus]
          (.insertEvent policyRevision fromStatus))
  | .insertEvent policyRevision fromStatus =>
    if fromStatus = request.toStatus then some (.stmt [] [] .commit)
    else
      some (.stmt []
        [.insertOutbox
          { eventId := m.fresh
            event := .stateChanged request.targetId (some fromStatus) request.toStatus
              policyRevision request.governing.correlationId }]
        .commit)
  | .commit => some (.commit (.finished (.ok ())))
  | .finished _ => none

end

end RatatoskrVault
