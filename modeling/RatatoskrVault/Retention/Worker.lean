import Mathlib.Data.List.Sort
import RatatoskrVault.Blobstore.Local
import RatatoskrVault.Lib.ReadCommitted
import RatatoskrVault.Schema.Guards

/-! `RetentionWorker::run_plan`, one statement or storage call at a time: the plan projection, the
move of the target to `deleting`, and for each stage the claim, the effect and its record. -/
namespace RatatoskrVault

open Lib

structure ReplicaSettings where
  keyPrefix : String
  maxObjectBytes : ℕ
  deriving DecidableEq

/-- What the worker is configured with. -/
structure RetentionWorkerSettings where
  crypto : Crypto
  leaseSeconds : ℕ
  replicas : Uuid → Option ReplicaSettings

/-- Everything outside the database the deletion stages act on. -/
structure Storage where
  blobs : LocalBlobStore
  mirrors : String → Bool
  remote : Uuid → String → Option Bytes

structure DeletionExecutionReplica where
  placementId : Uuid
  replicaTargetId : Uuid
  objectKey : String
  deriving DecidableEq

structure DeletionExecutionArtifact where
  artifactId : Uuid
  blob : BlobRef
  replicas : List DeletionExecutionReplica
  deriving DecidableEq

structure DeletionExecutionPlan where
  planId : Uuid
  targetId : Uuid
  snapshotId : Uuid
  tombstoneId : Option Uuid
  mirrorStoragePath : String
  status : PlanStatus
  artifacts : List DeletionExecutionArtifact
  deriving DecidableEq

/-- One unit of a plan that is claimed, executed and recorded. -/
inductive StageUnit
  | artifact (artifact : DeletionExecutionArtifact)
  | mirror
  | replica (artifact : DeletionExecutionArtifact) (stored : DeletionExecutionReplica)
  deriving DecidableEq

def StageUnit.stage : StageUnit → Stage
  | .artifact a => .artifact a.artifactId
  | .mirror => .mirror
  | .replica a stored => .replica a.artifactId stored.replicaTargetId stored.placementId

inductive Task
  | stage (unit : StageUnit)
  | advance
  | complete
  deriving DecidableEq

/-- What is left of `run_plan` once the target is in deletion, in order. -/
def DeletionExecutionPlan.tasks (plan : DeletionExecutionPlan) : List Task :=
  (if plan.status = .replicaDeleting then []
    else plan.artifacts.map (fun a => .stage (.artifact a)) ++
      (if plan.tombstoneId.isSome then [.stage .mirror] else []) ++ [.advance]) ++
  plan.artifacts.flatMap (fun a => a.replicas.map fun stored => .stage (.replica a stored)) ++
  [.complete]

inductive RetentionPlanOutcome
  | completed | deferred | failed
  deriving DecidableEq

/-- The plan row a claim locked. -/
structure StagePlan where
  targetId : Uuid
  snapshotId : Uuid
  status : PlanStatus
  automatic : Bool
  graceActive : Bool
  deriving DecidableEq

/-- A stage under way: its plan, its unit and the tasks after it. -/
structure Job where
  plan : DeletionExecutionPlan
  unit : StageUnit
  rest : List Task
  deriving DecidableEq

inductive ClaimLoc
  | load
  | refusal (row : StagePlan)
  | commitDeferred
  | identity (row : StagePlan)
  | advance (row : StagePlan) (identity : PhysicalIdentity)
  | abandonStage (row : StagePlan) (identity : PhysicalIdentity)
  | lock (row : StagePlan) (identity : PhysicalIdentity)
  | shared (row : StagePlan) (identity : PhysicalIdentity)
  | insertShared (row : StagePlan) (identity : PhysicalIdentity)
  | commitShared (identity : PhysicalIdentity)
  | abandonClaims (row : StagePlan) (identity : PhysicalIdentity)
  | insertClaim (row : StagePlan) (identity : PhysicalIdentity)
  | insertAttempt (row : StagePlan) (identity : PhysicalIdentity) (claimId : Uuid)
  | commitClaimed (identity : PhysicalIdentity) (claimId attemptId : Uuid)
  deriving DecidableEq

inductive RecordLoc
  | lock | attempt | claim | commit
  deriving DecidableEq

/-- The plan row a completion locked. -/
structure CompletionRow where
  planId : Uuid
  targetId : Uuid
  snapshotId : Uuid
  tombstoneId : Option Uuid
  deriving DecidableEq

inductive CompleteLoc
  | lock (planId : Uuid)
  | updatePlan (row : CompletionRow)
  | updateSnapshot (row : CompletionRow)
  | ready (row : CompletionRow) (tombstoneId : Uuid)
  | updateTombstone (row : CompletionRow) (tombstoneId : Uuid)
  | updateTarget (row : CompletionRow) (tombstoneId : Uuid)
  | commit (row : CompletionRow)
  deriving DecidableEq

inductive WorkerLoc
  | load (planId : Uuid)
  | loadArtifacts (plan : DeletionExecutionPlan)
  | loadReplicas (plan : DeletionExecutionPlan) (todo : List SnapshotArtifact)
  | gate (plan : DeletionExecutionPlan)
  | claim (job : Job) (at_ : ClaimLoc)
  | effect (job : Job) (identity : PhysicalIdentity) (claimId attemptId : Uuid)
  | record (job : Job) (identity : PhysicalIdentity) (claimId attemptId : Uuid)
      (succeeded : Bool) (at_ : RecordLoc)
  | advanceRead (plan : DeletionExecutionPlan) (rest : List Task)
  | advanceWrite (plan : DeletionExecutionPlan) (rest : List Task) (terminal : Bool)
  | complete (at_ : CompleteLoc)
  | finished (outcome : RetentionPlanOutcome)
  deriving DecidableEq

/-- Where the run continues with the tasks that are left. -/
def WorkerLoc.next (plan : DeletionExecutionPlan) : List Task → WorkerLoc
  | [] => .finished .completed
  | .stage unit :: rest => .claim { plan, unit, rest } .load
  | .advance :: rest => .advanceRead plan rest
  | .complete :: _ => .complete (.lock plan.planId)

namespace Db

variable (db : Db)

/-- `deletion_execution_plan` without its artifacts. -/
def executionPlan? (planId : Uuid) : Option DeletionExecutionPlan :=
  (db.plan? planId).bind fun plan =>
    (db.snapshot? plan.snapshotId).bind fun snapshot =>
      (db.mirrors.find? fun mirror => mirror.mirrorId == snapshot.mirrorId).map fun mirror =>
        { planId
          targetId := plan.targetId
          snapshotId := plan.snapshotId
          tombstoneId := plan.tombstoneId
          mirrorStoragePath := mirror.storagePath
          status := plan.status
          artifacts := [] }

def sortedArtifacts (snapshotId : Uuid) : List SnapshotArtifact :=
  (db.artifactsOf snapshotId).insertionSort fun a b => a.artifactId ≤ b.artifactId

def sortedPlacements (artifactId : Uuid) : List ReplicaPlacement :=
  (db.placements.filter fun p => p.artifactId == artifactId).insertionSort fun a b =>
    a.replicaTargetId < b.replicaTargetId ∨
      (a.replicaTargetId = b.replicaTargetId ∧ a.placementId ≤ b.placementId)

def executionArtifact (a : SnapshotArtifact) : DeletionExecutionArtifact :=
  { artifactId := a.artifactId
    blob :=
      { owner := a.blobOwner
        sha256 := a.sha256Hash
        mediaType := a.mediaType
        sizeBytes := a.sizeBytes }
    replicas := (db.sortedPlacements a.artifactId).map fun p =>
      { placementId := p.placementId
        replicaTargetId := p.replicaTargetId
        objectKey := p.objectKey } }

/-- `stage_identity`: the physical object of a unit of the plan's snapshot. -/
def stageIdentity (snapshotId : Uuid) : Stage → Option PhysicalIdentity
  | .artifact artifactId =>
    (db.artifacts.find? fun a => a.artifactId == artifactId && a.snapshotId == snapshotId).map
      fun a => .localDigest a.sha256Hash
  | .mirror =>
    (db.snapshot? snapshotId).bind fun snapshot =>
      (db.mirrors.find? fun mirror => mirror.mirrorId == snapshot.mirrorId).map fun mirror =>
        .mirrorPath mirror.storagePath
  | .replica artifactId replicaTargetId placementId =>
    (db.placements.find? fun p =>
      p.placementId == placementId && p.artifactId == artifactId &&
        p.replicaTargetId == replicaTargetId &&
        (db.artifactsOf snapshotId).any fun a => a.artifactId == artifactId).map
      fun p => .replicaKey replicaTargetId p.objectKey

def snapshotIsRetained (snapshotId : Uuid) : Bool :=
  db.snapshots.any fun s => s.snapshotId == snapshotId && s.status != .deleted

/-- `identity_is_shared`: another snapshot that is not deleted holds the same object. -/
def identityIsShared (snapshotId : Uuid) : Stage → Bool
  | .artifact artifactId =>
    db.artifacts.any fun selected =>
      selected.artifactId == artifactId && selected.snapshotId == snapshotId &&
        db.artifacts.any fun retained =>
          retained.sha256Hash == selected.sha256Hash &&
            retained.artifactId != selected.artifactId &&
            retained.snapshotId != snapshotId && db.snapshotIsRetained retained.snapshotId
  | .mirror => false
  | .replica _ _ placementId =>
    db.placements.any fun selected =>
      selected.placementId == placementId &&
        db.placements.any fun retained =>
          retained.replicaTargetId == selected.replicaTargetId &&
            retained.objectKey == selected.objectKey &&
            retained.placementId != selected.placementId &&
            db.artifacts.any fun a =>
              a.artifactId == retained.artifactId && a.snapshotId != snapshotId &&
                db.snapshotIsRetained a.snapshotId

def nextOrdinal (planId : Uuid) : ℕ :=
  (db.attempts.filter fun stage => stage.planId == planId).foldl
    (fun top stage => max top (stage.ordinal + 1)) 0

def expiredStages (clock : Time) (planId : Uuid) (stage : Stage) : List StageAttempt :=
  db.attempts.filter fun a =>
    a.planId == planId && a.stage == stage && a.outcome == .running &&
      decide (a.leaseExpiresAt ≤ clock)

def expiredClaims (clock : Time) (identity : PhysicalIdentity) : List PhysicalObjectClaim :=
  db.claims.filter fun c =>
    c.identity == identity && c.outcome == .running && decide (c.leaseExpiresAt ≤ clock)

def hasRunningStage (planId : Uuid) (stage : Stage) : Bool :=
  db.attempts.any fun a => a.planId == planId && a.stage == stage && a.outcome == .running

def hasRunningClaim (identity : PhysicalIdentity) : Bool :=
  db.claims.any fun c => c.identity == identity && c.outcome == .running

end Db

section

variable (settings : RetentionWorkerSettings)

/-- A refused claim or statement: the transaction is dropped and `run_plan` reports `failed`. -/
def failClaim : Option (Action Storage Lock Write WorkerLoc) :=
  some (.rollback (.finished .failed))

def claimDeletionStage (job : Job) (m : Moment) (db : Db) :
    ClaimLoc → Option (Action Storage Lock Write WorkerLoc)
  | .load =>
    if ¬ (1 ≤ settings.leaseSeconds ∧ settings.leaseSeconds ≤ 86400) then failClaim
    else
      match db.plan? job.plan.planId with
      | none => failClaim
      | some plan =>
        if (db.snapshot? plan.snapshotId).isNone then failClaim
        else
          some (.stmt [.plan plan.planId, .snapshot plan.snapshotId] []
            (.claim job (.refusal
              { targetId := plan.targetId
                snapshotId := plan.snapshotId
                status := plan.status
                automatic := plan.automatic
                graceActive := decide (m.clock < plan.notBefore) })))
  | .refusal row =>
    if row.graceActive || (row.automatic && db.snapshotIsPinned row.snapshotId) then
      some (.stmt [] [] (.claim job .commitDeferred))
    else some (.stmt [] [] (.claim job (.identity row)))
  | .commitDeferred => some (.commit (.finished .deferred))
  | .identity row =>
    match db.stageIdentity row.snapshotId job.unit.stage with
    | none => failClaim
    | some identity => some (.stmt [] [] (.claim job (.advance row identity)))
  | .advance row identity =>
    match job.unit with
    | .replica _ _ =>
      if row.status = .replicaDeleting then
        some (.stmt [] [] (.claim job (.abandonStage row identity)))
      else failClaim
    | _ =>
      if row.status = .planned then
        some (.stmt [] [.setPlanStatus job.plan.planId .planned .localDeleting]
          (.claim job (.abandonStage row identity)))
      else if row.status = .localDeleting then
        some (.stmt [] [] (.claim job (.abandonStage row identity)))
      else failClaim
  | .abandonStage row identity =>
    let expired := db.expiredStages m.clock job.plan.planId job.unit.stage
    some (.stmt (expired.map fun a => .attempt a.attemptId)
      (expired.map fun a => .finishAttempt a.attemptId .abandoned)
      (.claim job (.lock row identity)))
  | .lock row identity =>
    some (.stmt [.identity identity] [] (.claim job (.shared row identity)))
  | .shared row identity =>
    if db.identityIsShared row.snapshotId job.unit.stage then
      some (.stmt [] [] (.claim job (.insertShared row identity)))
    else some (.stmt [] [] (.claim job (.abandonClaims row identity)))
  | .insertShared _ identity =>
    let attempt : StageAttempt :=
      { attemptId := m.fresh
        planId := job.plan.planId
        stage := job.unit.stage
        claimId := none
        ordinal := db.nextOrdinal job.plan.planId
        outcome := .sharedReferenceRetained
        leaseExpiresAt := m.now }
    match db.guardDeletionStageInsert m.clock attempt with
    | .error _ => failClaim
    | .ok () => some (.stmt [] [.insertAttempt attempt] (.claim job (.commitShared identity)))
  | .commitShared _ => some (.commit (WorkerLoc.next job.plan job.rest))
  | .abandonClaims row identity =>
    let expired := db.expiredClaims m.clock identity
    some (.stmt (expired.map fun c => .claim c.claimId)
      (expired.map fun c => .finishClaim c.claimId .abandoned)
      (.claim job (.insertClaim row identity)))
  | .insertClaim row identity =>
    if db.hasRunningClaim identity then failClaim
    else
      some (.stmt []
        [.insertClaim
          { claimId := m.fresh
            planId := job.plan.planId
            identity
            leaseExpiresAt := m.now + settings.leaseSeconds
            outcome := .running }]
        (.claim job (.insertAttempt row identity m.fresh)))
  | .insertAttempt _ identity claimId =>
    let attempt : StageAttempt :=
      { attemptId := m.fresh
        planId := job.plan.planId
        stage := job.unit.stage
        claimId := some claimId
        ordinal := db.nextOrdinal job.plan.planId
        outcome := .running
        leaseExpiresAt := m.now + settings.leaseSeconds }
    match db.guardDeletionStageInsert m.clock attempt with
    | .error _ => failClaim
    | .ok () =>
      if db.hasRunningStage job.plan.planId job.unit.stage then failClaim
      else
        some (.stmt [] [.insertAttempt attempt]
          (.claim job (.commitClaimed identity claimId m.fresh)))
  | .commitClaimed identity claimId attemptId =>
    some (.commit (.effect job identity claimId attemptId))

def objectKey (keyPrefix : String) (reference : BlobRef) : String :=
  let digest := hexDigest reference.sha256
  let key := "sha256/" ++ (digest.take 2).toString ++ "/" ++ digest
  if keyPrefix.isEmpty then key else keyPrefix ++ "/" ++ key

/-- `ReplicaStore::delete_verified`: the object is read before it is removed, and success means a
later read found it absent. -/
def deleteVerifiedReplica (replica : ReplicaSettings) (storage : Storage) (reference : BlobRef)
    (stored : DeletionExecutionReplica) (io : IoResult) : Storage × Bool :=
  if ¬ LocalBlobStore.validateReference reference ∨
      replica.maxObjectBytes < reference.sizeBytes ∨
      stored.objectKey ≠ objectKey replica.keyPrefix reference then (storage, false)
  else
    match io, storage.remote stored.replicaTargetId stored.objectKey with
    | .failedBefore, _ => (storage, false)
    | _, none => (storage, true)
    | io, some bytes =>
      if bytes.length = reference.sizeBytes ∧ settings.crypto.sha256 bytes = reference.sha256 then
        ({ storage with
            remote := Function.update storage.remote stored.replicaTargetId
              (Function.update (storage.remote stored.replicaTargetId) stored.objectKey none) },
          io == .ok)
      else (storage, false)

/-- The storage call of a claimed stage and whether it reported success. -/
def deletionEffect (job : Job) (storage : Storage) (io : IoResult) : Storage × Bool :=
  match job.unit with
  | .artifact a =>
    let (blobs, result) := storage.blobs.deleteVerifiedBlob settings.crypto a.blob io
    ({ storage with blobs }, result.isOk)
  | .mirror =>
    match io with
    | .failedBefore => (storage, false)
    | io =>
      ({ storage with
          mirrors := Function.update storage.mirrors job.plan.mirrorStoragePath false },
        io == .ok)
  | .replica a stored =>
    match settings.replicas stored.replicaTargetId with
    | none => (storage, false)
    | some replica => deleteVerifiedReplica settings replica storage a.blob stored io

/-- `record_deletion_stage_success` and `record_deletion_stage_failure`. -/
def recordDeletionStage (job : Job) (identity : PhysicalIdentity) (claimId attemptId : Uuid)
    (succeeded : Bool) (db : Db) : RecordLoc → Option (Action Storage Lock Write WorkerLoc)
  | .lock =>
    match db.attempts.find? fun a =>
      a.attemptId == attemptId && a.claimId == some claimId && a.outcome == .running with
    | none => failClaim
    | some attempt =>
      some (.stmt [.attempt attemptId, .plan attempt.planId] []
        (.record job identity claimId attemptId succeeded .attempt))
  | .attempt =>
    some (.stmt [] [.finishAttempt attemptId (if succeeded then .succeeded else .failed)]
      (.record job identity claimId attemptId succeeded .claim))
  | .claim =>
    some (.stmt [.claim claimId]
      [.finishClaim claimId (if succeeded then .completed else .abandoned)]
      (.record job identity claimId attemptId succeeded .commit))
  | .commit =>
    some (.commit (if succeeded then WorkerLoc.next job.plan job.rest else .finished .failed))

/-- `complete_deletion_plan` with `complete_target_if_ready`. -/
def completeDeletionPlan (m : Moment) (db : Db) :
    CompleteLoc → Option (Action Storage Lock Write WorkerLoc)
  | .lock planId =>
    match db.plan? planId with
    | none => failClaim
    | some plan =>
      some (.stmt [.plan planId] []
        (.complete (.updatePlan
          { planId
            targetId := plan.targetId
            snapshotId := plan.snapshotId
            tombstoneId := plan.tombstoneId })))
  | .updatePlan row =>
    match db.plan? row.planId with
    | none => failClaim
    | some plan =>
      if plan.status ≠ .replicaDeleting then failClaim
      else
        match db.guardDeletionPlanUpdate plan .completed with
        | .error _ => failClaim
        | .ok () =>
          some (.stmt [] [.setPlanStatus row.planId .replicaDeleting .completed]
            (.complete (.updateSnapshot row)))
  | .updateSnapshot row =>
    some (.stmt [.snapshot row.snapshotId] [.setSnapshotDeleted row.snapshotId]
      (.complete (match row.tombstoneId with
        | none => .commit row
        | some tombstoneId => .ready row tombstoneId)))
  | .ready row tombstoneId =>
    if (db.plansUnder tombstoneId).any fun p => p.status != .completed then
      some (.stmt [] [] (.complete (.commit row)))
    else some (.stmt [] [] (.complete (.updateTombstone row tombstoneId)))
  | .updateTombstone row tombstoneId =>
    match db.tombstone? tombstoneId with
    | none => some (.stmt [] [] (.complete (.updateTarget row tombstoneId)))
    | some tombstone =>
      match Db.guardTombstoneClose tombstone none (some m.now) with
      | .error _ => failClaim
      | .ok () =>
        some (.stmt [.tombstone tombstoneId] [.completeTombstone tombstoneId m.now]
          (.complete (.updateTarget row tombstoneId)))
  | .updateTarget row _ =>
    match db.target? row.targetId with
    | none => some (.stmt [] [] (.complete (.commit row)))
    | some target =>
      if target.status ≠ .deleting then some (.stmt [] [] (.complete (.commit row)))
      else
        match db.targetGuardStatusTransition m.clock target .deleted with
        | .error _ => failClaim
        | .ok () =>
          some (.stmt [.target row.targetId] [.setTargetStatus row.targetId .deleting .deleted]
            (.complete (.commit row)))
  | .commit _ => some (.commit (.finished .completed))

def runPlan (m : Moment) (db : Db) (storage : Storage) (io : IoResult) :
    WorkerLoc → Option (Action Storage Lock Write WorkerLoc)
  | .load planId =>
    match db.executionPlan? planId with
    | none => failClaim
    | some plan => some (.auto [] [] (.loadArtifacts plan))
  | .loadArtifacts plan =>
    some (.auto [] [] (.loadReplicas plan (db.sortedArtifacts plan.snapshotId)))
  | .loadReplicas plan (a :: todo) =>
    some (.auto [] []
      (.loadReplicas { plan with artifacts := plan.artifacts ++ [db.executionArtifact a] } todo))
  | .loadReplicas plan [] =>
    if plan.status = .completed then some (.auto [] [] (.finished .completed))
    else if plan.tombstoneId.isSome ∧ plan.status = .planned then some (.auto [] [] (.gate plan))
    else some (.auto [] [] (WorkerLoc.next plan plan.tasks))
  | .gate plan =>
    match db.target? plan.targetId with
    | none => some (.auto [] [] (WorkerLoc.next plan plan.tasks))
    | some target =>
      match db.targetGuardStatusTransition m.clock target .deleting with
      | .error _ => some (.auto [] [] (.finished .failed))
      | .ok () =>
        some (.auto [.target plan.targetId]
          [.setTargetStatus plan.targetId target.status .deleting]
          (WorkerLoc.next plan plan.tasks))
  | .claim job at_ => claimDeletionStage settings job m db at_
  | .effect job identity claimId attemptId =>
    let (storage', succeeded) := deletionEffect settings job storage io
    some (.call storage' (.record job identity claimId attemptId succeeded .lock))
  | .record job identity claimId attemptId succeeded at_ =>
    recordDeletionStage job identity claimId attemptId succeeded db at_
  | .advanceRead plan rest =>
    match db.plan? plan.planId with
    | none => failClaim
    | some row => some (.auto [] [] (.advanceWrite plan rest (db.localStagesTerminal row)))
  | .advanceWrite plan rest terminal =>
    match db.plan? plan.planId with
    | none => failClaim
    | some row =>
      if row.status = .localDeleting ∧ terminal then
        some (.auto [.plan plan.planId]
          [.setPlanStatus plan.planId .localDeleting .replicaDeleting]
          (WorkerLoc.next plan rest))
      else failClaim
  | .complete at_ => completeDeletionPlan m db at_
  | .finished _ => none

end

end RatatoskrVault
