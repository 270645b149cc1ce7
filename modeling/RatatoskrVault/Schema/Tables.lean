import RatatoskrVault.Core.Snapshot
import RatatoskrVault.Core.Retention
import RatatoskrVault.Lib.Table

/-! The tables of `git_vault` and the row writes its statements make. Timestamps that nothing
reads are left out. -/
namespace RatatoskrVault

inductive TargetKind
  | repository | wiki
  deriving DecidableEq

structure Target where
  targetId : Uuid
  provider : String
  externalRepositoryId : String
  targetKind : TargetKind := .repository
  parentTargetId : Option Uuid := none
  status : TargetStatus
  pinned : Bool := false
  deriving DecidableEq

/-- A text column takes every character but one. -/
def isStorable (text : String) : Bool := !text.toList.contains (Char.ofNat 0)

/-- The row constraints of a repository in `targets`. -/
def Target.allowed (row : Target) : Bool :=
  row.provider == "github" &&
    decide (1 ≤ row.externalRepositoryId.length ∧ row.externalRepositoryId.length ≤ 255) &&
    isStorable row.externalRepositoryId

structure Revision where
  targetId : Uuid
  policyRevision : ℕ
  preservationLevel : PreservationLevel
  pinned : Bool
  includeWiki : Bool
  includeReleases : Bool
  includeIssues : Bool
  offsiteRequired : Bool
  correlationId : String
  source : Option String
  deriving DecidableEq

/-- The row constraints of `desired_state_revisions`. -/
def Revision.allowed (row : Revision) : Bool :=
  decide (0 < row.policyRevision) &&
    decide (1 ≤ row.correlationId.length ∧ row.correlationId.length ≤ 256) &&
    isStorable row.correlationId &&
    row.source.all fun source =>
      decide (1 ≤ source.length ∧ source.length ≤ 64) && isStorable source

structure InboxRow where
  source : String
  messageId : Uuid
  deriving DecidableEq

/-- The row constraints of `inbox`. -/
def InboxRow.allowed (row : InboxRow) : Bool :=
  decide (1 ≤ row.source.length ∧ row.source.length ≤ 64) && isStorable row.source

inductive PolicyCommandOutcome
  | accepted | rejected
  deriving DecidableEq

/-- The payload of an acknowledgement event; `causation` is the command it answers. -/
structure PolicyAcknowledged where
  acknowledgedPolicyVersion : ℕ
  outcome : PolicyCommandOutcome
  reasons : List String
  lastAppliedPolicyVersion : ℕ
  causation : Uuid
  deriving DecidableEq

inductive OutboxEvent
  | stateChanged (targetId : Uuid) (fromStatus : Option TargetStatus) (toStatus : TargetStatus)
      (policyRevision : ℕ) (correlationId : String)
  | policyAcknowledged (payload : PolicyAcknowledged)
  | verificationFailed (snapshotId : Uuid) (failureClass : Option String)
  | restoreFailed (snapshotId : Uuid) (failureClass : Option String)
  deriving DecidableEq

structure OutboxRow where
  eventId : Uuid
  event : OutboxEvent
  deriving DecidableEq

structure PolicyCommand where
  commandId : Uuid
  policyVersion : ℕ
  outcome : PolicyCommandOutcome
  rejectionCode : Option String
  acknowledgementId : Uuid
  deriving DecidableEq

inductive MirrorStatus
  | absent | initializing | ready | degraded | quarantined
  deriving DecidableEq

inductive FsckResult
  | unknown | ok | failed
  deriving DecidableEq

structure Mirror where
  mirrorId : Uuid
  targetId : Uuid
  status : MirrorStatus
  storagePath : String
  fsckResult : FsckResult
  deriving DecidableEq

inductive MirrorRunOutcome
  | succeeded | quotaRefused | interrupted | integrityFailed | failed
  deriving DecidableEq

structure MirrorLifecycleRun where
  runId : Uuid
  targetId : Uuid
  outcome : MirrorRunOutcome
  deriving DecidableEq

structure MirrorQuotaReservation where
  runId : Uuid
  targetId : Uuid
  reservedBytes : ℕ
  deriving DecidableEq

inductive SnapshotStatus
  | building | built | verifying | verified | offsiteUploading | offsiteVerified
  | restoreTesting | restorable | failed | quarantined | expired | deleted
  deriving DecidableEq

structure Snapshot where
  snapshotId : Uuid
  targetId : Uuid
  mirrorId : Uuid
  mirrorLifecycleRunId : Uuid
  parentSnapshotId : Option Uuid
  status : SnapshotStatus
  refsHash : Digest
  includesLfs : Bool
  createdAt : Time
  deriving DecidableEq

inductive ArtifactKind
  | gitBundle | manifest | lfsObject
  deriving DecidableEq

structure SnapshotArtifact where
  artifactId : Uuid
  snapshotId : Uuid
  kind : ArtifactKind
  sha256Hash : Digest
  blobOwner : String
  mediaType : String
  sizeBytes : ℕ
  deriving DecidableEq

structure ManifestRow where
  snapshotId : Uuid
  manifestHash : Digest
  blobOwner : String
  mediaType : String
  sizeBytes : ℕ
  deriving DecidableEq

structure SnapshotPin where
  pinId : Uuid
  snapshotId : Uuid
  source : PinSource
  sourceReference : String
  revokedAt : Option Time
  deriving DecidableEq

inductive RetentionEvaluationMode
  | scheduled | quotaPressure
  deriving DecidableEq

inductive RetentionEvaluationOutcome
  | selected | noCandidates | allocationRefused
  deriving DecidableEq

inductive RetentionCandidateClassification
  | eligibleOrdinary | eligibleInactiveTarget | protectedPinned | protectedAgeFloor
  | protectedKeepLastRestorable | graceActive
  deriving DecidableEq

/-- A candidate as it is recorded; its ordinal is its place in the evaluation. -/
structure RetentionCandidateEvidence where
  snapshotId : Uuid
  classification : RetentionCandidateClassification
  pinSources : List PinSource
  targetInactive : Bool
  estimatedBytes : ℕ
  deletionNotBefore : Option Time
  deriving DecidableEq

/-- A row of `retention_evaluations` with its rows of `retention_candidates`. -/
structure RetentionEvaluation where
  evaluationId : Uuid
  targetId : Uuid
  policyId : Uuid
  mode : RetentionEvaluationMode
  policySnapshot : RetentionPolicy
  requiredBytes : Option ℕ
  outcome : RetentionEvaluationOutcome
  correlationId : Uuid
  evaluatedAt : Time
  candidates : List RetentionCandidateEvidence
  deriving DecidableEq

structure Tombstone where
  tombstoneId : Uuid
  targetId : Uuid
  governingPolicyRevision : ℕ
  recordedAt : Time
  notBefore : Time
  cancelledAt : Option Time := none
  completedAt : Option Time := none
  deriving DecidableEq

def Tombstone.isActive (tombstone : Tombstone) : Bool :=
  tombstone.cancelledAt.isNone && tombstone.completedAt.isNone

inductive PlanStatus
  | planned | localDeleting | replicaDeleting | completed | cancelled
  deriving DecidableEq

namespace PlanStatus

/-- The moves the plan trigger allows. -/
def isLegal : PlanStatus → PlanStatus → Bool
  | planned, localDeleting => true
  | planned, cancelled => true
  | localDeleting, replicaDeleting => true
  | replicaDeleting, completed => true
  | _, _ => false

def isOpen (status : PlanStatus) : Bool := status != completed && status != cancelled

/-- Physical deletion is authorized or done. -/
def hasStarted (status : PlanStatus) : Bool := status != planned && status != cancelled

end PlanStatus

structure DeletionPlan where
  planId : Uuid
  evaluationId : Uuid
  targetId : Uuid
  snapshotId : Uuid
  tombstoneId : Option Uuid
  automatic : Bool
  tombstonedAt : Time
  notBefore : Time
  estimatedBytes : ℕ
  status : PlanStatus
  correlationId : Uuid
  deriving DecidableEq

/-- One physical object a deletion stage may remove. -/
inductive PhysicalIdentity
  | localDigest (digest : Digest)
  | mirrorPath (path : String)
  | replicaKey (replicaTargetId : Uuid) (objectKey : String)
  deriving DecidableEq

inductive ClaimOutcome
  | running | completed | abandoned
  deriving DecidableEq

structure PhysicalObjectClaim where
  claimId : Uuid
  planId : Uuid
  identity : PhysicalIdentity
  leaseExpiresAt : Time
  outcome : ClaimOutcome
  deriving DecidableEq

/-- The unit of one stage; its stage key within a plan is determined by it. -/
inductive Stage
  | artifact (artifactId : Uuid)
  | mirror
  | replica (artifactId replicaTargetId placementId : Uuid)
  deriving DecidableEq

inductive StageOutcome
  | running | succeeded | failed | abandoned | sharedReferenceRetained | refused
  deriving DecidableEq

/-- Outcomes that count as terminal evidence for a stage. -/
def StageOutcome.isTerminal (outcome : StageOutcome) : Bool :=
  outcome == succeeded || outcome == sharedReferenceRetained

structure StageAttempt where
  attemptId : Uuid
  planId : Uuid
  stage : Stage
  claimId : Option Uuid
  ordinal : ℕ
  outcome : StageOutcome
  leaseExpiresAt : Time
  deriving DecidableEq

structure ReplicaPlacement where
  placementId : Uuid
  artifactId : Uuid
  replicaTargetId : Uuid
  objectKey : String
  sha256Hash : Digest
  sizeBytes : ℕ
  deriving DecidableEq

structure Db where
  targets : List Target := []
  revisions : List Revision := []
  inbox : List InboxRow := []
  outbox : List OutboxRow := []
  commands : List PolicyCommand := []
  mirrors : List Mirror := []
  mirrorRuns : List MirrorLifecycleRun := []
  reservations : List MirrorQuotaReservation := []
  snapshots : List Snapshot := []
  artifacts : List SnapshotArtifact := []
  manifests : List ManifestRow := []
  pins : List SnapshotPin := []
  evaluations : List RetentionEvaluation := []
  tombstones : List Tombstone := []
  plans : List DeletionPlan := []
  claims : List PhysicalObjectClaim := []
  attempts : List StageAttempt := []
  placements : List ReplicaPlacement := []

/-- A row written by one statement. An update of a status names the status it replaces: the row
is locked from the statement to the commit, so it still has that status when it is replayed. -/
inductive Write
  | insertTarget (row : Target)
  | setTargetStatus (targetId : Uuid) (fromStatus toStatus : TargetStatus)
  | insertRevision (row : Revision)
  | insertInbox (row : InboxRow)
  | insertOutbox (row : OutboxRow)
  | insertCommand (row : PolicyCommand)
  | insertMirror (row : Mirror)
  | setMirror (targetId : Uuid) (status : MirrorStatus) (fsckResult : FsckResult)
  | insertMirrorRun (row : MirrorLifecycleRun)
  | insertReservation (row : MirrorQuotaReservation)
  | releaseReservation (runId : Uuid)
  | insertSnapshot (row : Snapshot)
  | setSnapshotDeleted (snapshotId : Uuid)
  | insertArtifact (row : SnapshotArtifact)
  | insertManifest (row : ManifestRow)
  | insertPin (row : SnapshotPin)
  | revokePin (pinId : Uuid) (at_ : Time)
  | insertEvaluation (row : RetentionEvaluation)
  | insertTombstone (row : Tombstone)
  | cancelTombstone (tombstoneId : Uuid) (at_ : Time)
  | completeTombstone (tombstoneId : Uuid) (at_ : Time)
  | insertPlan (row : DeletionPlan)
  | setPlanStatus (planId : Uuid) (fromStatus toStatus : PlanStatus)
  | insertClaim (row : PhysicalObjectClaim)
  | finishClaim (claimId : Uuid) (outcome : ClaimOutcome)
  | insertAttempt (row : StageAttempt)
  | finishAttempt (attemptId : Uuid) (outcome : StageOutcome)

/-- What a statement can wait for: a row, a key of a unique index, or the advisory lock of a
physical identity or of the quota sums. -/
inductive Lock
  | target (targetId : Uuid)
  | tombstone (tombstoneId : Uuid)
  | plan (planId : Uuid)
  | snapshot (snapshotId : Uuid)
  | attempt (attemptId : Uuid)
  | claim (claimId : Uuid)
  | pin (pinId : Uuid)
  | identity (identity : PhysicalIdentity)
  | repositoryKey (provider externalRepositoryId : String)
  | revisionKey (targetId : Uuid) (policyRevision : ℕ)
  | inboxKey (source : String) (messageId : Uuid)
  | commandKey (commandId : Uuid)
  | acceptedVersionKey (policyVersion : ℕ)
  | quota
  deriving DecidableEq

open Lib (updateWhere)

def Db.apply (db : Db) : Write → Db
  | .insertTarget row => { db with targets := db.targets ++ [row] }
  | .setTargetStatus targetId fromStatus toStatus =>
    { db with
      targets := updateWhere (fun t => t.targetId == targetId && t.status == fromStatus)
        (fun t => { t with status := toStatus }) db.targets }
  | .insertRevision row => { db with revisions := db.revisions ++ [row] }
  | .insertInbox row => { db with inbox := db.inbox ++ [row] }
  | .insertOutbox row => { db with outbox := db.outbox ++ [row] }
  | .insertCommand row => { db with commands := db.commands ++ [row] }
  | .insertMirror row => { db with mirrors := db.mirrors ++ [row] }
  | .setMirror targetId status fsckResult =>
    { db with
      mirrors := updateWhere (fun mirror => mirror.targetId == targetId)
        (fun mirror => { mirror with status, fsckResult }) db.mirrors }
  | .insertMirrorRun row => { db with mirrorRuns := db.mirrorRuns ++ [row] }
  | .insertReservation row => { db with reservations := db.reservations ++ [row] }
  | .releaseReservation runId =>
    { db with reservations := db.reservations.filter fun r => r.runId != runId }
  | .insertSnapshot row => { db with snapshots := db.snapshots ++ [row] }
  | .setSnapshotDeleted snapshotId =>
    { db with
      snapshots := updateWhere (fun s => s.snapshotId == snapshotId)
        (fun s => { s with status := .deleted }) db.snapshots }
  | .insertArtifact row => { db with artifacts := db.artifacts ++ [row] }
  | .insertManifest row => { db with manifests := db.manifests ++ [row] }
  | .insertPin row => { db with pins := db.pins ++ [row] }
  | .revokePin pinId at_ =>
    { db with
      pins := updateWhere (fun p => p.pinId == pinId && p.revokedAt.isNone)
        (fun p => { p with revokedAt := some at_ }) db.pins }
  | .insertEvaluation row => { db with evaluations := db.evaluations ++ [row] }
  | .insertTombstone row => { db with tombstones := db.tombstones ++ [row] }
  | .cancelTombstone tombstoneId at_ =>
    { db with
      tombstones := updateWhere (fun t => t.tombstoneId == tombstoneId && t.isActive)
        (fun t => { t with cancelledAt := some at_ }) db.tombstones }
  | .completeTombstone tombstoneId at_ =>
    { db with
      tombstones := updateWhere (fun t => t.tombstoneId == tombstoneId && t.isActive)
        (fun t => { t with completedAt := some at_ }) db.tombstones }
  | .insertPlan row => { db with plans := db.plans ++ [row] }
  | .setPlanStatus planId fromStatus toStatus =>
    { db with
      plans := updateWhere (fun p => p.planId == planId && p.status == fromStatus)
        (fun p => { p with status := toStatus }) db.plans }
  | .insertClaim row => { db with claims := db.claims ++ [row] }
  | .finishClaim claimId outcome =>
    { db with
      claims := updateWhere (fun c => c.claimId == claimId && c.outcome == .running)
        (fun c => { c with outcome }) db.claims }
  | .insertAttempt row => { db with attempts := db.attempts ++ [row] }
  | .finishAttempt attemptId outcome =>
    { db with
      attempts := updateWhere (fun a => a.attemptId == attemptId && a.outcome == .running)
        (fun a => { a with outcome }) db.attempts }

def Db.applyAll (db : Db) (writes : List Write) : Db := writes.foldl Db.apply db

end RatatoskrVault
