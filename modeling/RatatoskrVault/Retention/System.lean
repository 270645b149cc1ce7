import RatatoskrVault.Persistence.Transition
import RatatoskrVault.Retention.Capture

/-! The retention system: workers, captures and desired-state transitions as concurrent sessions
over one database and one storage, with plan creation and pins as single steps. -/
namespace RatatoskrVault.Retention

open Lib

structure Settings where
  worker : RetentionWorkerSettings
  capture : SnapshotSettings

inductive Proc
  | runPlan (planId : Uuid)
  | completePlan (planId : Uuid)
  | capture (request : CaptureRequest)
  | transition (request : TransitionRequest)
  deriving DecidableEq

inductive Loc
  | idle
  | worker (at_ : WorkerLoc)
  | capture (at_ : CaptureLoc)
  | transition (request : TransitionRequest) (at_ : TransitionLoc)
  deriving DecidableEq

/-- The session has nothing left to do. -/
def Loc.isIdle : Loc → Bool
  | .idle => true
  | .worker (.finished _) => true
  | .capture (.finished _) => true
  | .transition _ (.finished _) => true
  | _ => false

def start : Proc → Loc
  | .runPlan planId => .worker (.load planId)
  | .completePlan planId => .worker (.complete (.lock planId))
  | .capture request =>
    .capture (.publishLfs request [] (match request.lfs with
      | none => []
      | some (_, files) => files))
  | .transition request => .transition request .begin

structure DeletionPlanRequest where
  evaluationId : Uuid
  targetId : Uuid
  snapshotId : Uuid
  tombstoneId : Option Uuid
  automatic : Bool
  tombstonedAt : Time
  notBefore : Time
  estimatedBytes : ℕ
  correlationId : Uuid
  deriving DecidableEq

/-- Operations that take effect in one transaction no other operation here can divide: each holds
its snapshot row from its first statement to its commit. -/
inductive Op
  | createDeletionPlan (request : DeletionPlanRequest)
  | pinSnapshot (snapshotId : Uuid) (source : PinSource) (sourceReference : String)
  | revokeSnapshotPin (pinId : Uuid)
  deriving DecidableEq

variable (db : Db)

def validateDeletionPlanRequest (request : DeletionPlanRequest) : Bool :=
  decide (request.tombstonedAt ≤ i64Max ∧ request.notBefore ≤ i64Max ∧
    request.estimatedBytes ≤ i64Max ∧ request.tombstonedAt < request.notBefore)

/-- The foreign keys of the plan row and the index of one open plan for each snapshot. -/
def planAllowed (request : DeletionPlanRequest) : Bool :=
  (db.evaluations.any fun e => e.evaluationId == request.evaluationId) &&
    (db.target? request.targetId).isSome &&
    (request.tombstoneId.all fun id => (db.tombstone? id).isSome) &&
    !(db.plans.any fun p => p.snapshotId == request.snapshotId && p.status.isOpen)

/-- `create_deletion_plan`; the reference to a tombstone waits for a cancellation under way. -/
def createDeletionPlan (m : Moment) (request : DeletionPlanRequest) :
    Option (List Lock × List Write) :=
  if ¬ validateDeletionPlanRequest request then none
  else if ¬ db.snapshots.any fun s =>
      s.snapshotId == request.snapshotId && s.targetId == request.targetId then none
  else if request.automatic && db.snapshotIsPinned request.snapshotId then
    some ([.snapshot request.snapshotId], [])
  else if ¬ planAllowed db request then none
  else
    some (.snapshot request.snapshotId :: request.tombstoneId.toList.map .tombstone,
      [.insertPlan
        { planId := m.fresh
          evaluationId := request.evaluationId
          targetId := request.targetId
          snapshotId := request.snapshotId
          tombstoneId := request.tombstoneId
          automatic := request.automatic
          tombstonedAt := request.tombstonedAt
          notBefore := request.notBefore
          estimatedBytes := request.estimatedBytes
          status := .planned
          correlationId := request.correlationId }])

def operate (m : Moment) : Op → Option (List Lock × List Write)
  | .createDeletionPlan request => createDeletionPlan db m request
  | .pinSnapshot snapshotId source sourceReference =>
    if ¬ (1 ≤ sourceReference.utf8ByteSize ∧ sourceReference.utf8ByteSize ≤ 255) then none
    else if (db.snapshot? snapshotId).isNone then none
    else if db.pins.any fun pin =>
        pin.snapshotId == snapshotId && pin.source == source &&
          pin.sourceReference == sourceReference && pin.revokedAt.isNone then
      some ([.snapshot snapshotId], [])
    else
      some ([.snapshot snapshotId],
        [.insertPin
          { pinId := m.fresh, snapshotId, source, sourceReference, revokedAt := none }])
  | .revokeSnapshotPin pinId =>
    match db.pins.find? fun pin => pin.pinId == pinId && pin.revokedAt.isNone with
    | none => none
    | some pin => some ([.pin pinId, .snapshot pin.snapshotId], [.revokePin pinId m.now])

def act (settings : Settings) (loc : Loc) (m : Moment) (db : Db) (storage : Storage)
    (io : IoResult) : Option (Action Storage Lock Write Loc) :=
  match loc with
  | .idle => none
  | .worker at_ => (runPlan settings.worker m db storage io at_).map (Action.map .worker)
  | .capture at_ =>
    (captureSnapshot settings.worker.crypto settings.capture m db storage io at_).map
      (Action.map .capture)
  | .transition request at_ =>
    (applyTransition request m db at_).map (Action.map (.transition request))

abbrev machine (settings : Settings) : Machine Db Storage Lock Write Loc IoResult Proc Op :=
  { apply := Db.apply
    act := act settings
    start
    isIdle := Loc.isIdle
    aborted := .idle
    op := fun o m db _ => operate db m o }

abbrev State := Lib.State Db Storage Lock Write Loc
abbrev Label := Lib.Label IoResult Proc Op

/-- All sessions idle, with no lock held. -/
def initial (db : Db) (storage : Storage) (clock fresh : ℕ) : State :=
  { db, world := storage, clock, fresh, held := []
    session := fun _ => { loc := .idle, log := [], began := none } }

namespace Sample

/-! A small configuration for concrete runs: digests are the numbers the bytes spell. -/

def sha256 (bytes : Bytes) : Digest :=
  BitVec.ofNat 256 (bytes.foldl (fun n byte => 256 * n + byte.toNat) 1)

def bundleRef (bytes : Bytes) : BlobRef :=
  { owner, sha256 := sha256 bytes, mediaType := "application/vnd.git.bundle"
    sizeBytes := bytes.length }

def manifestRef (bytes : Bytes) : BlobRef :=
  { owner, sha256 := sha256 bytes, mediaType := "application/json", sizeBytes := bytes.length }

/-- The manifest of a bundle without refs, signed by the sample key. -/
def manifest (bundle : Bytes) (parentManifest : Option BlobRef) : SnapshotManifest :=
  { schemaVersion := 1
    refs := []
    generatorVersion := "1"
    createdAt := "t"
    parentManifest
    bundles := [bundleRef bundle]
    lfs := none
    refSetSha256 := sha256 []
    signingKeyId := "k"
    signature := "s" }

/-- A first manifest is encoded as `[1]` and its successor as `[2]`. -/
def crypto : Crypto :=
  { sha256
    encode := fun m => if m.parentManifest.isNone then [1] else [2]
    decode := fun bytes =>
      if bytes = [1] then some (manifest [10] none)
      else if bytes = [2] then some (manifest [20] (some (manifestRef [1])))
      else none
    sign := fun _ => "s"
    verifies := fun _ _ signature => signature == "s" }

def settings : Settings :=
  { worker := { crypto, leaseSeconds := 60, replicas := fun _ => none }
    capture := { maxBytes := 1000, signer := { keyId := "k" }, generatorVersion := "1" } }

def storage : Storage :=
  { blobs := { maxBytes := 1000, files := fun _ => none }
    mirrors := fun _ => true
    remote := fun _ _ => none }

def governing (policyRevision : ℕ) (preservationLevel : PreservationLevel) : ValidatedDelivery :=
  { preservationLevel, pinned := none, includeWiki := none, includeReleases := none
    includeIssues := none, offsiteRequired := none, correlationId := "c"
    policyRevision := some policyRevision }

/-- An evaluation under which the snapshots of a target are eligible. -/
def evaluation (evaluationId targetId : Uuid) (snapshotIds : List Uuid) : RetentionEvaluation :=
  { evaluationId
    targetId
    policyId := 0
    mode := .scheduled
    policySnapshot := { keepLastRestorable := 1, minimumAgeSeconds := 0, graceSeconds := 1 }
    requiredBytes := none
    outcome := .selected
    correlationId := 0
    evaluatedAt := 0
    candidates := snapshotIds.map fun snapshotId =>
      { snapshotId, classification := .eligibleOrdinary, pinSources := []
        targetInactive := false, estimatedBytes := 0, deletionNotBefore := none } }

/-- A healthy target with two snapshots of its mirror. -/
def twoSnapshots : Db :=
  let snapshot (snapshotId : Uuid) : Snapshot :=
    { snapshotId, targetId := 1, mirrorId := 2, mirrorLifecycleRunId := 3, parentSnapshotId := none
      status := .built, refsHash := 0, includesLfs := false, createdAt := 0 }
  { targets :=
      [{ targetId := 1, provider := "github", externalRepositoryId := "r", status := .healthy }]
    mirrors :=
      [{ mirrorId := 2, targetId := 1, status := .ready, storagePath := "m", fsckResult := .ok }]
    snapshots := [snapshot 4, snapshot 5]
    artifacts :=
      [{ artifactId := 6, snapshotId := 4, kind := .gitBundle, sha256Hash := sha256 [10]
         blobOwner := owner, mediaType := "application/vnd.git.bundle", sizeBytes := 1 }]
    evaluations := [evaluation 0 1 [4, 5]] }

def planRequest (snapshotId tombstoneId : Uuid) (automatic : Bool) : DeletionPlanRequest :=
  { evaluationId := 0, targetId := 1, snapshotId, tombstoneId := some tombstoneId, automatic
    tombstonedAt := 0, notBefore := 1, estimatedBytes := 0, correlationId := 0 }

def exclude (policyRevision : ℕ) : Proc :=
  .transition { targetId := 1, toStatus := .excluded, governing := governing policyRevision .none }

end Sample

end RatatoskrVault.Retention
