import Mathlib.Data.Prod.Lex
import Mathlib.Data.List.Dedup
import RatatoskrVault.Replication.System
import RatatoskrVault.Verification.Schedule

/-! The work queues over the catalogue: artifacts due for replication at a target, and snapshots due
for verification or a restore drill. -/
namespace RatatoskrVault

/-- One artifact still due for upload or re-verification at a target. -/
structure DueReplicationUnit where
  snapshotId : Uuid
  artifactId : Uuid
  replicaTargetId : Uuid
  blob : BlobRef
  objectKey : Option String
  lastVerifiedAt : Option Time
  deriving DecidableEq

namespace Catalog

variable (c : Catalog)

/-- The placement is absent or was verified before the cutoff. -/
def isStale (verifiedBefore : Time) : Option ReplicaPlacement → Bool
  | none => true
  | some p => (c.lastVerifiedAt? p.placementId).all fun at_ => decide (at_ < verifiedBefore)

/-- The unit of an artifact, with the time its snapshot was created. -/
def replicationUnit (replicaTargetId : Uuid) (s : Snapshot) (a : SnapshotArtifact) :
    Time × DueReplicationUnit :=
  let placed := c.placement? a.artifactId replicaTargetId
  (s.createdAt,
    { snapshotId := s.snapshotId
      artifactId := a.artifactId
      replicaTargetId
      blob := a.reference
      objectKey := placed.map (·.objectKey)
      lastVerifiedAt := placed.bind fun p => c.lastVerifiedAt? p.placementId })

/-- The order of the queue: absent placements first, then the longest unverified. -/
def dueBefore (x y : Time × DueReplicationUnit) : Bool :=
  let freshness : Option Time → ℕ := fun at_ => (at_.map (· + 1)).getD 0
  decide (toLex (freshness x.2.lastVerifiedAt, toLex (x.1, x.2.artifactId))
    ≤ toLex (freshness y.2.lastVerifiedAt, toLex (y.1, y.2.artifactId)))

def dueReplicationUnits (replicaTargetId : Uuid) (verifiedBefore : Time) (limit : ℕ) :
    Option (List DueReplicationUnit) :=
  if limit = 0 ∨ i64Max < verifiedBefore then none
  else
    let enabled := (c.replicaTarget? replicaTargetId).any (·.enabled)
    let due := c.vault.artifacts.flatMap fun a =>
      ((c.vault.snapshots.filter fun s => s.snapshotId == a.snapshotId).filter fun _ =>
        enabled && c.isStale verifiedBefore (c.placement? a.artifactId replicaTargetId) &&
          !c.isDeleting a.snapshotId).map fun s => c.replicationUnit replicaTargetId s a
    some (((due.mergeSort dueBefore).take limit).map (·.2))

/-- The latest success among the evidence of a snapshot. -/
def latestPassed (rows : List EvidenceRow) (snapshotId : Uuid) : Option Time :=
  ((rows.filter fun row => row.snapshotId == snapshotId && row.passed).map (·.finishedAt)).max?

/-- One record for each snapshot and size of a Git bundle of it. -/
def verificationScheduleRecords : List ScheduleCandidate :=
  let bundles := c.vault.snapshots.flatMap fun s =>
    (c.vault.artifacts.filter fun a =>
      a.snapshotId == s.snapshotId && a.kind == .gitBundle).map fun a =>
        (s.snapshotId, a.sizeBytes)
  (bundles.dedup.mergeSort fun x y => decide (x.1 ≤ y.1)).map fun (snapshotId, sizeBytes) =>
    { snapshotId
      bundleSizeBytes := sizeBytes
      lastVerifiedAt := latestPassed c.integrityChecks snapshotId
      lastDrilledAt := latestPassed c.restoreDrills snapshotId }

end Catalog

def Catalog.planDue (c : Catalog) (now : ℕ) (policy : VerificationPolicy) : Option SchedulePlan :=
  planDueSnapshots now policy c.verificationScheduleRecords

end RatatoskrVault
