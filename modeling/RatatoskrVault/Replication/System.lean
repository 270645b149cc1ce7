import RatatoskrVault.Replication.Worker

/-! The off-host system: replication units beside everything the retention system runs, over one
catalogue, one local store and the buckets of the configured targets. Target observations and the
evidence of verification passes are single steps. -/
namespace RatatoskrVault.Replication

open Lib

structure Settings where
  retention : Retention.Settings
  replication : ReplicationWorkerSettings

inductive Proc
  | retention (proc : Retention.Proc)
  | runUnit (unit : ReplicationUnit)
  deriving DecidableEq

inductive Loc
  | retention (loc : Retention.Loc)
  | unit (at_ : UnitLoc)
  deriving DecidableEq

def Loc.isIdle : Loc → Bool
  | .retention loc => loc.isIdle
  | .unit (.finished _) => true
  | .unit _ => false

def start : Proc → Loc
  | .retention proc => .retention (Retention.start proc)
  | .runUnit unit => .unit (.abandonExpired unit)

inductive Op
  | retention (op : Retention.Op)
  | observeReplicaTarget (observation : ReplicaTarget)
  | recordVerification (snapshotId : Uuid) (passed : Bool)
  | recordRestoreDrill (snapshotId : Uuid) (passed : Bool)
  deriving DecidableEq

def startsWith (text start : String) : Bool := start.toList.isPrefixOf text.toList

/-- The origin is the loopback host, with or without a port. -/
def isLoopback (origin host : String) : Bool :=
  origin == host || startsWith origin (host ++ ":")

def validateTarget (observation : ReplicaTarget) : Bool :=
  let origin := observation.endpointOrigin
  let keyPrefix := observation.keyPrefix
  let loopback :=
    isLoopback origin "http://localhost" || isLoopback origin "http://127.0.0.1" ||
      isLoopback origin "http://[::1]"
  !observation.name.isEmpty && decide (observation.name.utf8ByteSize ≤ 63) &&
    (startsWith origin "https://" || loopback) &&
    !(origin.toList.any fun c => c == '@' || c == '?' || c == '#') &&
    !observation.bucket.isEmpty && decide (observation.bucket.utf8ByteSize ≤ 255) &&
    decide (keyPrefix.utf8ByteSize ≤ 255) &&
    keyPrefix.toList.head? != some '/' && keyPrefix.toList.getLast? != some '/' &&
    (keyPrefix.toList.splitOn '/').all fun part => part != ['.', '.']

def operate (c : Catalog) (m : Moment) : Op → Option (List Lock × List Write)
  | .retention op =>
    (Retention.operate c.vault m op).map fun (locks, writes) =>
      (locks.map .vault, writes.map .vault)
  | .observeReplicaTarget observation =>
    if validateTarget observation then
      some ([.targetName observation.name], [.observeTarget observation])
    else none
  | .recordVerification snapshotId passed =>
    if (c.vault.snapshot? snapshotId).isSome then
      some ([], [.insertIntegrityCheck { snapshotId, passed, finishedAt := m.now }])
    else none
  | .recordRestoreDrill snapshotId passed =>
    if (c.vault.snapshot? snapshotId).isSome then
      some ([], [.insertRestoreDrill { snapshotId, passed, finishedAt := m.now }])
    else none

/-- The remote object a target shows under a key. -/
def remoteObject (c : Catalog) (world : World) (replicaTargetId : Uuid) (key : String) :
    Option RemoteObject :=
  (c.replicaTarget? replicaTargetId).bind fun target => world.objects target.location key

/-- The storage of the retention system: a target shows what is at its location now. -/
def World.storage (c : Catalog) (world : World) : Storage :=
  { blobs := world.blobs
    mirrors := world.mirrors
    remote := fun replicaTargetId key => (remoteObject c world replicaTargetId key).map (·.bytes) }

/-- A call of the retention system took the objects away that a target does not show any more. -/
def World.after (c : Catalog) (world : World) (storage : Storage) : World :=
  { blobs := storage.blobs
    mirrors := storage.mirrors
    objects := fun location key =>
      if c.replicaTargets.any fun target =>
          target.location == location &&
            ((world.storage c).remote target.replicaTargetId key).isSome &&
            (storage.remote target.replicaTargetId key).isNone then none
      else world.objects location key }

/-- The retention system with the clients of the current configuration. -/
def Settings.current (settings : Settings) (c : Catalog) : Retention.Settings :=
  { settings.retention with
    worker := { settings.retention.worker with
      replicas := fun replicaTargetId =>
        (c.store? settings.replication replicaTargetId).bind fun store =>
          if validKeyPrefix store.keyPrefix then
            some { keyPrefix := store.keyPrefix, maxObjectBytes := store.maxObjectBytes }
          else none } }

def act (settings : Settings) (loc : Loc) (m : Moment) (c : Catalog) (world : World)
    (io : IoResult) : Option (Action World Lock Write Loc) :=
  match loc with
  | .retention loc =>
    (Retention.act (settings.current c) loc m c.vault (world.storage c) io).map
      (Action.lift .vault .vault (world.after c) .retention)
  | .unit at_ =>
    (runUnit settings.retention.worker.crypto settings.replication m c world io at_).map
      (Action.map .unit)

abbrev machine (settings : Settings) : Machine Catalog World Lock Write Loc IoResult Proc Op :=
  { apply := Catalog.apply
    act := act settings
    start
    isIdle := Loc.isIdle
    aborted := .retention .idle
    op := fun o m c _ => operate c m o }

abbrev State := Lib.State Catalog World Lock Write Loc
abbrev Label := Lib.Label IoResult Proc Op

/-- All sessions idle, with no lock held. -/
def initial (c : Catalog) (world : World) (clock fresh : ℕ) : State :=
  { db := c, world, clock, fresh, held := []
    session := fun _ => { loc := .retention .idle, log := [], began := none } }

namespace Sample

/-! One replica target, and one snapshot with a bundle and a plan for its deletion. -/

def target : ReplicaTarget :=
  { replicaTargetId := 20, name := "offsite", endpointOrigin := "https://s3.example", bucket := "b"
    keyPrefix := "", required := false, enabled := true }

def settings : Settings :=
  { retention := Retention.Sample.settings
    replication := { leaseSeconds := 60, maxObjectBytes := fun _ => some 1000 } }

def snapshot (snapshotId : Uuid) : Snapshot :=
  { snapshotId, targetId := 1, mirrorId := 2, mirrorLifecycleRunId := 3, parentSnapshotId := none
    status := .built, refsHash := 0, includesLfs := false, createdAt := 0 }

def bundle (artifactId snapshotId : Uuid) : SnapshotArtifact :=
  { artifactId, snapshotId, kind := .gitBundle, sha256Hash := Retention.Sample.sha256 [10]
    blobOwner := owner, mediaType := "application/vnd.git.bundle", sizeBytes := 1 }

def plan (planId snapshotId : Uuid) : DeletionPlan :=
  { planId, evaluationId := 0, targetId := 1, snapshotId, tombstoneId := none, automatic := true
    tombstonedAt := 0, notBefore := 1, estimatedBytes := 0, status := .planned
    correlationId := 0 }

def planned : Catalog :=
  { vault :=
      { targets :=
          [{ targetId := 1, provider := "github", externalRepositoryId := "r", status := .healthy }]
        mirrors :=
          [{ mirrorId := 2, targetId := 1, status := .ready, storagePath := "m"
             fsckResult := .ok }]
        snapshots := [snapshot 4]
        artifacts := [bundle 6 4]
        plans := [plan 8 4] }
    replicaTargets := [target] }

/-- The bundle is stored, and nothing has been uploaded yet. -/
def world : World :=
  { blobs :=
      { maxBytes := 1000
        files := fun digest => if digest = Retention.Sample.sha256 [10] then some [10] else none }
    mirrors := fun _ => true
    objects := fun _ _ => none }

def unit (artifactId : Uuid) : ReplicationUnit :=
  { artifactId, replicaTargetId := 20, blob := (bundle artifactId 4).reference }

end Sample

end RatatoskrVault.Replication
