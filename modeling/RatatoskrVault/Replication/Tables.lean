import RatatoskrVault.Retention.System

/-! The off-host tables of `git_vault` beside the catalogue the other modules write: named targets,
transfer attempts, the freshness of placements, and the evidence of verifications and drills. -/
namespace RatatoskrVault

open Lib (updateWhere)

structure ReplicaTarget where
  replicaTargetId : Uuid
  name : String
  endpointOrigin : String
  bucket : String
  keyPrefix : String
  required : Bool
  enabled : Bool
  deriving DecidableEq

/-- Where the objects of a target are. -/
structure RemoteLocation where
  endpointOrigin : String
  bucket : String
  deriving DecidableEq

def ReplicaTarget.location (target : ReplicaTarget) : RemoteLocation :=
  { endpointOrigin := target.endpointOrigin, bucket := target.bucket }

inductive ReplicationOutcome
  | running | succeeded | failed | abandoned
  deriving DecidableEq

structure ReplicationAttempt where
  attemptId : Uuid
  artifactId : Uuid
  replicaTargetId : Uuid
  outcome : ReplicationOutcome
  leaseExpiresAt : Time
  deriving DecidableEq

/-- The columns of a placement row that deletion does not read. -/
structure PlacementVerification where
  placementId : Uuid
  lastVerifiedAt : Time
  lastAttemptId : Uuid
  deriving DecidableEq

/-- A row of `integrity_checks` or of `restore_drills`. -/
structure EvidenceRow where
  snapshotId : Uuid
  passed : Bool
  finishedAt : Time
  deriving DecidableEq

structure Catalog where
  vault : Db
  replicaTargets : List ReplicaTarget := []
  replicationAttempts : List ReplicationAttempt := []
  verifications : List PlacementVerification := []
  integrityChecks : List EvidenceRow := []
  restoreDrills : List EvidenceRow := []

namespace Replication

/-- A row written by one statement; `placeReplica` and `observeTarget` are the two upserts. -/
inductive Write
  | vault (write : RatatoskrVault.Write)
  | insertAttempt (row : ReplicationAttempt)
  | finishAttempt (attemptId : Uuid) (outcome : ReplicationOutcome)
  | placeReplica (row : ReplicaPlacement) (attemptId : Uuid) (at_ : Time)
  | observeTarget (row : ReplicaTarget)
  | insertIntegrityCheck (row : EvidenceRow)
  | insertRestoreDrill (row : EvidenceRow)

inductive Lock
  | vault (lock : RatatoskrVault.Lock)
  | attempt (attemptId : Uuid)
  /-- The unique index of running attempts. -/
  | unitKey (artifactId replicaTargetId : Uuid)
  | placementKey (artifactId replicaTargetId : Uuid)
  | targetName (name : String)
  deriving DecidableEq

end Replication

namespace Catalog

variable (c : Catalog)

def replicaTarget? (replicaTargetId : Uuid) : Option ReplicaTarget :=
  c.replicaTargets.find? fun row => row.replicaTargetId == replicaTargetId

/-- The placement of an artifact at a target, of which there is at most one. -/
def placement? (artifactId replicaTargetId : Uuid) : Option ReplicaPlacement :=
  c.vault.placements.find? fun p =>
    p.artifactId == artifactId && p.replicaTargetId == replicaTargetId

def lastVerifiedAt? (placementId : Uuid) : Option Time :=
  (c.verifications.find? fun row => row.placementId == placementId).map (·.lastVerifiedAt)

/-- `insert … on conflict (artifact_id, replica_target_id) do update` of a placement. -/
def placeReplica (row : ReplicaPlacement) (attemptId : Uuid) (at_ : Time) : Catalog :=
  match c.placement? row.artifactId row.replicaTargetId with
  | none =>
    { c with
      vault := { c.vault with placements := c.vault.placements ++ [row] }
      verifications := c.verifications ++
        [{ placementId := row.placementId, lastVerifiedAt := at_, lastAttemptId := attemptId }] }
  | some placed =>
    { c with
      vault := { c.vault with
        placements := updateWhere
          (fun p => p.artifactId == row.artifactId && p.replicaTargetId == row.replicaTargetId)
          (fun p => { p with
            objectKey := row.objectKey, sha256Hash := row.sha256Hash, sizeBytes := row.sizeBytes })
          c.vault.placements }
      verifications := updateWhere (fun v => v.placementId == placed.placementId)
        (fun v => { v with lastVerifiedAt := at_, lastAttemptId := attemptId }) c.verifications }

/-- `insert … on conflict (name) do update` of a target: the row keeps its identity. -/
def observeTarget (row : ReplicaTarget) : Catalog :=
  if c.replicaTargets.any fun known => known.name == row.name then
    { c with
      replicaTargets := updateWhere (fun known => known.name == row.name)
        (fun known => { row with replicaTargetId := known.replicaTargetId }) c.replicaTargets }
  else { c with replicaTargets := c.replicaTargets ++ [row] }

def apply : Replication.Write → Catalog
  | .vault write => { c with vault := c.vault.apply write }
  | .insertAttempt row => { c with replicationAttempts := c.replicationAttempts ++ [row] }
  | .finishAttempt attemptId outcome =>
    { c with
      replicationAttempts := updateWhere
        (fun a => a.attemptId == attemptId && a.outcome == .running)
        (fun a => { a with outcome }) c.replicationAttempts }
  | .placeReplica row attemptId at_ => c.placeReplica row attemptId at_
  | .observeTarget row => c.observeTarget row
  | .insertIntegrityCheck row => { c with integrityChecks := c.integrityChecks ++ [row] }
  | .insertRestoreDrill row => { c with restoreDrills := c.restoreDrills ++ [row] }

def applyAll (writes : List Replication.Write) : Catalog := writes.foldl Catalog.apply c

/-- A plan that has been started and has not completed holds the artifacts of its snapshot. -/
def isDeleting (snapshotId : Uuid) : Bool :=
  c.vault.plans.any fun plan =>
    plan.snapshotId == snapshotId &&
      (plan.status == .localDeleting || plan.status == .replicaDeleting)

end Catalog

def SnapshotArtifact.reference (a : SnapshotArtifact) : BlobRef :=
  { owner := a.blobOwner
    sha256 := a.sha256Hash
    mediaType := a.mediaType
    sizeBytes := a.sizeBytes }

end RatatoskrVault
