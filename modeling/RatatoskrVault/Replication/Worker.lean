import RatatoskrVault.Replication.Tables

/-! `ReplicationWorker::run_unit`, one statement or remote request at a time: the claim, the upload
with the re-reads around it, and the record of the verified placement. Admission permits, metrics
and the lease owner, which only repeats the attempt, are left out. -/
namespace RatatoskrVault

open Lib

/-- An object of a bucket, and the artifacts whose units have written it. -/
structure RemoteObject where
  bytes : Bytes
  writers : List Uuid
  deriving DecidableEq

namespace Replication

/-- Everything outside the database that replication and deletion act on. -/
structure World where
  blobs : LocalBlobStore
  mirrors : String → Bool
  objects : RemoteLocation → String → Option RemoteObject

def World.put (world : World) (location : RemoteLocation) (key : String) (artifactId : Uuid)
    (bytes : Bytes) : World :=
  let writers := ((world.objects location key).map (·.writers)).getD []
  { world with
    objects := Function.update world.objects location
      (Function.update (world.objects location) key
        (some { bytes, writers := artifactId :: writers })) }

end Replication

/-- One configured target and the client for it. -/
structure ReplicaStore where
  location : RemoteLocation
  keyPrefix : String
  maxObjectBytes : ℕ
  deriving DecidableEq

inductive ReplicaError
  | invalidInput | sourceIo | remote | notFound | timeout | digestMismatch
  | remoteChecksumMismatch | remoteTruncated | remoteOversized | remoteStillPresent
  | sizeLimitExceeded | cancelled
  deriving DecidableEq

def trimSlashes (text : String) : String :=
  let isSlash : Char → Bool := fun c => c == '/'
  String.ofList (((text.toList.dropWhile isSlash).reverse.dropWhile isSlash).reverse)

/-- No component of the prefix is empty or relative. -/
def validKeyPrefix (keyPrefix : String) : Bool :=
  keyPrefix.isEmpty ||
    (keyPrefix.toList.splitOn '/').all fun part => part != [] && part != ['.'] && part != ['.', '.']

namespace ReplicaStore

variable (cx : Crypto) (store : ReplicaStore)

def validateReference (reference : BlobRef) : Bool :=
  reference.owner == owner && !reference.mediaType.isEmpty &&
    decide (reference.sizeBytes ≤ store.maxObjectBytes)

/-- The checked content-derived key of a reference. -/
def objectKey? (reference : BlobRef) : Option String :=
  if store.validateReference reference && validKeyPrefix store.keyPrefix then
    some (objectKey store.keyPrefix reference)
  else none

def verifyRemote (reference : BlobRef) : Option RemoteObject → Except ReplicaError Unit
  | none => .error .notFound
  | some object =>
    if reference.sizeBytes < object.bytes.length then .error .remoteOversized
    else if object.bytes.length < reference.sizeBytes then .error .remoteTruncated
    else if cx.sha256 object.bytes = reference.sha256 then .ok ()
    else .error .remoteChecksumMismatch

/-- The local bytes an upload sends. -/
def sourceBytes (reference : BlobRef) : Option Bytes → Except ReplicaError Bytes
  | none => .error .sourceIo
  | some bytes =>
    if store.maxObjectBytes < bytes.length then .error .invalidInput
    else if bytes.length ≠ reference.sizeBytes then .error .digestMismatch
    else if cx.sha256 bytes = reference.sha256 then .ok bytes
    else .error .digestMismatch

end ReplicaStore

theorem verifyRemote_ok_iff {cx : Crypto} {reference : BlobRef} {object : RemoteObject} :
    ReplicaStore.verifyRemote cx reference (some object) = .ok () ↔
      object.bytes.length = reference.sizeBytes ∧ cx.sha256 object.bytes = reference.sha256 := by
  unfold ReplicaStore.verifyRemote
  simp only
  split_ifs with hlong hshort hdigest
  · simp only [false_iff]
    omega
  · simp only [false_iff]
    omega
  · simp only [true_iff]
    exact ⟨by omega, hdigest⟩
  · simp only [false_iff]
    exact fun h => hdigest h.2

structure ReplicationUnit where
  artifactId : Uuid
  replicaTargetId : Uuid
  blob : BlobRef
  deriving DecidableEq

inductive ReplicationUnitOutcome
  | verified | failed
  deriving DecidableEq

structure ReplicationWorkerSettings where
  leaseSeconds : ℕ
  /-- The size limit of a configured target. -/
  maxObjectBytes : Uuid → Option ℕ

/-- A unit whose claim has been committed. -/
structure Transfer where
  unit : ReplicationUnit
  store : ReplicaStore
  attemptId : Uuid
  deriving DecidableEq

inductive UnitLoc
  | abandonExpired (unit : ReplicationUnit)
  | claimRead (unit : ReplicationUnit) (store : ReplicaStore)
  | claimInsert (unit : ReplicationUnit) (store : ReplicaStore) (key : String) (leases : List Time)
  | claimCommit (transfer : Transfer)
  | resolve (transfer : Transfer)
  | verifyExisting (transfer : Transfer)
  | upload (transfer : Transfer) (key : String)
  | verifyUploaded (transfer : Transfer) (key : String)
  | recordFailure (transfer : Transfer)
  | recordAttempt (transfer : Transfer) (key : String)
  | recordPlacement (transfer : Transfer) (key : String)
  | recordCommit (transfer : Transfer) (key : String)
  | finished (outcome : ReplicationUnitOutcome)
  deriving DecidableEq

namespace Catalog

variable (c : Catalog)

/-- The client of a target as it is configured now. -/
def store? (settings : ReplicationWorkerSettings) (replicaTargetId : Uuid) : Option ReplicaStore :=
  (c.replicaTarget? replicaTargetId).bind fun target =>
    (settings.maxObjectBytes replicaTargetId).map fun maxObjectBytes =>
      { location := target.location
        keyPrefix := trimSlashes target.keyPrefix
        maxObjectBytes }

def expiredAttempts (now : Time) (artifactId replicaTargetId : Uuid) : List ReplicationAttempt :=
  c.replicationAttempts.filter fun a =>
    a.artifactId == artifactId && a.replicaTargetId == replicaTargetId && a.outcome == .running &&
      decide (a.leaseExpiresAt ≤ now)

def hasRunningAttempt (artifactId replicaTargetId : Uuid) : Bool :=
  c.replicationAttempts.any fun a =>
    a.artifactId == artifactId && a.replicaTargetId == replicaTargetId && a.outcome == .running

/-- The key a claim computes, when the unit exists, its target is enabled and no plan that is being
executed holds its snapshot. -/
def claimKey? (artifactId replicaTargetId : Uuid) : Option String :=
  (c.vault.artifacts.find? fun a => a.artifactId == artifactId).bind fun a =>
    (c.replicaTarget? replicaTargetId).bind fun target =>
      if target.enabled && !c.isDeleting a.snapshotId then
        some (objectKey target.keyPrefix a.reference)
      else none

def replicaKeyLeases (replicaTargetId : Uuid) (key : String) : List Time :=
  (c.vault.claims.filter fun claim =>
    claim.identity == .replicaKey replicaTargetId key && claim.outcome == .running).map
      (·.leaseExpiresAt)

/-- The artifact of a live attempt whose identity matches the verified bytes. -/
def verifiedUnit? (now : Time) (attemptId : Uuid) (blob : BlobRef) : Option ReplicationAttempt :=
  c.replicationAttempts.find? fun attempt =>
    attempt.attemptId == attemptId && attempt.outcome == .running &&
      decide (now < attempt.leaseExpiresAt) &&
      c.vault.artifacts.any fun a =>
        a.artifactId == attempt.artifactId && a.sha256Hash == blob.sha256 &&
          a.sizeBytes == blob.sizeBytes

end Catalog

section

variable (cx : Crypto) (settings : ReplicationWorkerSettings)

/-- A refused claim or record: the transaction, if any, is dropped. -/
def failUnit : Option (Action Replication.World Replication.Lock Replication.Write UnitLoc) :=
  some (.rollback (.finished .failed))

def runUnit (m : Moment) (c : Catalog) (world : Replication.World) (io : IoResult) :
    UnitLoc → Option (Action Replication.World Replication.Lock Replication.Write UnitLoc)
  | .abandonExpired unit =>
    match c.store? settings unit.replicaTargetId with
    | none => failUnit
    | some store =>
      if settings.leaseSeconds = 0 then failUnit
      else
        let expired := c.expiredAttempts m.now unit.artifactId unit.replicaTargetId
        some (.stmt (expired.map fun a => .attempt a.attemptId)
          (expired.map fun a => .finishAttempt a.attemptId .abandoned) (.claimRead unit store))
  | .claimRead unit store =>
    -- the inserting statement reads before it waits for the lock of the identity
    match c.claimKey? unit.artifactId unit.replicaTargetId with
    | none => failUnit
    | some key =>
      some (.stmt [] [] (.claimInsert unit store key
        (c.replicaKeyLeases unit.replicaTargetId key)))
  | .claimInsert unit store key leases =>
    if leases.any fun lease => decide (m.clock < lease) then failUnit
    else if c.hasRunningAttempt unit.artifactId unit.replicaTargetId then failUnit
    else
      some (.stmt
        [.vault (.identity (.replicaKey unit.replicaTargetId key)),
          .unitKey unit.artifactId unit.replicaTargetId]
        [.insertAttempt
          { attemptId := m.fresh
            artifactId := unit.artifactId
            replicaTargetId := unit.replicaTargetId
            outcome := .running
            leaseExpiresAt := m.now + settings.leaseSeconds }]
        (.claimCommit { unit, store, attemptId := m.fresh }))
  | .claimCommit transfer => some (.commit (.resolve transfer))
  | .resolve transfer =>
    if LocalBlobStore.validateReference transfer.unit.blob &&
        (world.blobs.files transfer.unit.blob.sha256).isSome && io == .ok then
      some (.call world (.verifyExisting transfer))
    else some (.call world (.recordFailure transfer))
  | .verifyExisting transfer =>
    match transfer.store.objectKey? transfer.unit.blob with
    | none => some (.call world (.recordFailure transfer))
    | some key =>
      match io, ReplicaStore.verifyRemote cx transfer.unit.blob
          (world.objects transfer.store.location key) with
      | .ok, .ok () => some (.call world (.recordAttempt transfer key))
      | .ok, .error .notFound => some (.call world (.upload transfer key))
      | _, _ => some (.call world (.recordFailure transfer))
  | .upload transfer key =>
    match transfer.store.sourceBytes cx transfer.unit.blob
        (world.blobs.files transfer.unit.blob.sha256), io with
    | .error _, _ => some (.call world (.recordFailure transfer))
    | .ok _, .failedBefore => some (.call world (.recordFailure transfer))
    | .ok bytes, io =>
      some (.call (world.put transfer.store.location key transfer.unit.artifactId bytes)
        (if io = .ok then .verifyUploaded transfer key else .recordFailure transfer))
  | .verifyUploaded transfer key =>
    match io, ReplicaStore.verifyRemote cx transfer.unit.blob
        (world.objects transfer.store.location key) with
    | .ok, .ok () => some (.call world (.recordAttempt transfer key))
    | _, _ => some (.call world (.recordFailure transfer))
  | .recordFailure transfer =>
    some (.auto [.attempt transfer.attemptId] [.finishAttempt transfer.attemptId .failed]
      (.finished .failed))
  | .recordAttempt transfer key =>
    let blob := transfer.unit.blob
    if blob.owner ≠ owner ∨ key.isEmpty ∨ i64Max < blob.sizeBytes then failUnit
    else
      match c.verifiedUnit? m.now transfer.attemptId blob with
      | none => failUnit
      | some _ =>
        some (.stmt [.attempt transfer.attemptId]
          [.finishAttempt transfer.attemptId .succeeded] (.recordPlacement transfer key))
  | .recordPlacement transfer key =>
    -- the finished attempt was inserted for this unit
    let unit := transfer.unit
    some (.stmt [.placementKey unit.artifactId unit.replicaTargetId]
      [.placeReplica
        { placementId := m.fresh
          artifactId := unit.artifactId
          replicaTargetId := unit.replicaTargetId
          objectKey := key
          sha256Hash := unit.blob.sha256
          sizeBytes := unit.blob.sizeBytes }
        transfer.attemptId m.now]
      (.recordCommit transfer key))
  | .recordCommit _ _ => some (.commit (.finished .verified))
  | .finished _ => none

end

end RatatoskrVault
