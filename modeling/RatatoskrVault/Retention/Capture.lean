import RatatoskrVault.Retention.Worker

/-! `SnapshotLifecycle::snapshot`, one statement or storage call at a time: source selection,
publication of bundle and manifest, and the append-only record. Objects of Git LFS are published
by the collector before the capture that names them. -/
namespace RatatoskrVault

open Lib

structure SnapshotSettings where
  maxBytes : ℕ
  signer : ManifestSigningKey
  generatorVersion : String

structure SnapshotSource where
  targetId : Uuid
  mirrorId : Uuid
  mirrorLifecycleRunId : Uuid
  deriving DecidableEq

/-- One capture: its source, what Git produced from the mirror, and the collected LFS files with
the version of the tool. -/
structure CaptureRequest where
  source : SnapshotSource
  bundle : Bytes
  refs : List RefEvidence
  createdAt : String
  lfs : Option (String × List Bytes)
  deriving DecidableEq

structure SnapshotParent where
  snapshotId : Uuid
  manifest : BlobRef
  deriving DecidableEq

/-- What `record_built_snapshot` persists. -/
structure BuiltSnapshot where
  source : SnapshotSource
  parentSnapshotId : Option Uuid
  bundle : BlobRef
  manifest : BlobRef
  evidence : SnapshotManifest
  deriving DecidableEq

inductive CaptureLoc
  | publishLfs (request : CaptureRequest) (objects : List BlobRef) (todo : List Bytes)
  | selectSource (request : CaptureRequest) (objects : List BlobRef)
  | selectParent (request : CaptureRequest) (objects : List BlobRef)
  | publishBundle (request : CaptureRequest) (objects : List BlobRef)
      (parent : Option SnapshotParent)
  | publishManifest (request : CaptureRequest) (objects : List BlobRef)
      (parent : Option SnapshotParent) (bundle : BlobRef)
  | recordSource (built : BuiltSnapshot)
  | recordParent (built : BuiltSnapshot)
  | insertSnapshot (built : BuiltSnapshot)
  | artifactStart (built : BuiltSnapshot) (snapshotId : Uuid)
      (todo : List (ArtifactKind × BlobRef))
  | artifactLock (built : BuiltSnapshot) (snapshotId : Uuid) (kind : ArtifactKind)
      (reference : BlobRef) (todo : List (ArtifactKind × BlobRef)) (leases : List Time)
  | insertManifest (built : BuiltSnapshot) (snapshotId : Uuid)
  | commit (built : BuiltSnapshot) (snapshotId : Uuid)
  | finished (result : Option Uuid)
  deriving DecidableEq

namespace Db

variable (db : Db)

def healthySource (source : SnapshotSource) : Bool :=
  db.mirrors.any fun mirror =>
    mirror.mirrorId == source.mirrorId && mirror.targetId == source.targetId &&
      mirror.status == .ready && mirror.fsckResult == .ok &&
      db.mirrorRuns.any fun run =>
        run.targetId == mirror.targetId && run.runId == source.mirrorLifecycleRunId &&
          run.outcome == .succeeded

/-- Later of two snapshots in the order `snapshot_parent` reads. -/
def laterSnapshot (a b : Snapshot) : Snapshot :=
  if a.createdAt < b.createdAt ∨ (a.createdAt = b.createdAt ∧ a.snapshotId < b.snapshotId) then b
  else a

/-- The newest snapshot of the mirror that has a manifest row. -/
def snapshotParent? (source : SnapshotSource) : Option SnapshotParent :=
  let candidates := db.snapshots.filter fun s =>
    s.targetId == source.targetId && s.mirrorId == source.mirrorId &&
      db.manifests.any fun row => row.snapshotId == s.snapshotId
  match candidates with
  | [] => none
  | first :: rest =>
    let newest := rest.foldl laterSnapshot first
    (db.manifests.find? fun row => row.snapshotId == newest.snapshotId).map fun row =>
      { snapshotId := newest.snapshotId
        manifest :=
          { owner := row.blobOwner
            sha256 := row.manifestHash
            mediaType := row.mediaType
            sizeBytes := row.sizeBytes } }

def parentPresent (source : SnapshotSource) : Option Uuid → Bool
  | none => true
  | some parentId =>
    db.snapshots.any fun s =>
      s.snapshotId == parentId && s.targetId == source.targetId && s.mirrorId == source.mirrorId

/-- The leases of the running claims on a digest. -/
def runningLeases (digest : Digest) : List Time :=
  (db.claims.filter fun c =>
    c.identity == .localDigest digest && c.outcome == .running).map fun c => c.leaseExpiresAt

end Db

def checkedSize (sizeBytes : ℕ) : Bool := decide (0 < sizeBytes ∧ sizeBytes ≤ i64Max)

/-- The evidence the collector hands over for the files it published. -/
def lfsEvidence (cx : Crypto) (request : CaptureRequest) (objects : List BlobRef) :
    Option LfsEvidence :=
  request.lfs.map fun (toolVersion, _) =>
    let objects := (objects.map fun blob => { oid := blob.sha256, blob }).mergeSort
      fun left right => decide (left.oid ≤ right.oid)
    { toolVersion
      objects
      totalBytes := saturatingTotal objects
      aggregateSha256 := canonicalLfsDigest cx objects }

/-- The artifact rows of a built snapshot, in insertion order. -/
def BuiltSnapshot.artifacts (built : BuiltSnapshot) : List (ArtifactKind × BlobRef) :=
  (.gitBundle, built.bundle) :: (.manifest, built.manifest) ::
    match built.evidence.lfs with
    | none => []
    | some lfs => lfs.objects.map fun object => (.lfsObject, object.blob)

section

variable (cx : Crypto) (settings : SnapshotSettings)

def failCapture : Option (Action Storage Lock Write CaptureLoc) :=
  some (.rollback (.finished none))

/-- A publication and whether the file system reported it as done. -/
def publish (storage : Storage) (reference : BlobRef) (bytes : Bytes) (io : IoResult) :
    Storage × Bool :=
  match io, storage.blobs.publishFile cx reference bytes with
  | .failedBefore, _ => (storage, false)
  | _, .error _ => (storage, false)
  | io, .ok blobs => ({ storage with blobs }, io == .ok)

def captureSnapshot (m : Moment) (db : Db) (storage : Storage) (io : IoResult) :
    CaptureLoc → Option (Action Storage Lock Write CaptureLoc)
  | .publishLfs request objects (bytes :: todo) =>
    match storage.blobs.referenceForFile cx bytes "application/octet-stream" with
    | .error _ => failCapture
    | .ok reference =>
      let (storage', done) := publish cx storage reference bytes io
      some (.call storage'
        (if done then .publishLfs request (objects ++ [reference]) todo else .finished none))
  | .publishLfs request objects [] => some (.auto [] [] (.selectSource request objects))
  | .selectSource request objects =>
    if db.healthySource request.source then some (.auto [] [] (.selectParent request objects))
    else failCapture
  | .selectParent request objects =>
    some (.auto [] [] (.publishBundle request objects (db.snapshotParent? request.source)))
  | .publishBundle request objects parent =>
    if request.bundle.length = 0 ∨ settings.maxBytes < request.bundle.length then failCapture
    else
      match storage.blobs.referenceForFile cx request.bundle "application/vnd.git.bundle" with
      | .error _ => failCapture
      | .ok bundle =>
        let (storage', done) := publish cx storage bundle request.bundle io
        some (.call storage'
          (if done then .publishManifest request objects parent bundle else .finished none))
  | .publishManifest request objects parent bundle =>
    match SnapshotManifest.new cx settings.generatorVersion request.refs [bundle]
        (parent.map (·.manifest)) request.createdAt (lfsEvidence cx request objects)
        settings.signer with
    | .error _ => failCapture
    | .ok evidence =>
      match storage.blobs.referenceForFile cx (cx.encode evidence) "application/json" with
      | .error _ => failCapture
      | .ok manifest =>
        let (storage', done) := publish cx storage manifest (cx.encode evidence) io
        let built : BuiltSnapshot :=
          { source := request.source
            parentSnapshotId := parent.map (·.snapshotId)
            bundle
            manifest
            evidence }
        some (.call storage' (if done then .recordSource built else .finished none))
  | .recordSource built =>
    if checkedSize built.bundle.sizeBytes ∧ checkedSize built.manifest.sizeBytes ∧
        db.healthySource built.source then
      some (.stmt [] [] (.recordParent built))
    else failCapture
  | .recordParent built =>
    if db.parentPresent built.source built.parentSnapshotId then
      some (.stmt [] [] (.insertSnapshot built))
    else failCapture
  | .insertSnapshot built =>
    some (.stmt []
      [.insertSnapshot
        { snapshotId := m.fresh
          targetId := built.source.targetId
          mirrorId := built.source.mirrorId
          mirrorLifecycleRunId := built.source.mirrorLifecycleRunId
          parentSnapshotId := built.parentSnapshotId
          status := .built
          refsHash := built.evidence.refSetSha256
          includesLfs := built.evidence.lfs.isSome
          createdAt := m.now }]
      (.artifactStart built m.fresh built.artifacts))
  | .artifactStart built snapshotId ((kind, reference) :: todo) =>
    if checkedSize reference.sizeBytes then
      some (.stmt [] [] (.artifactLock built snapshotId kind reference todo
        (db.runningLeases reference.sha256)))
    else failCapture
  | .artifactStart built snapshotId [] =>
    some (.stmt [] [] (.insertManifest built snapshotId))
  | .artifactLock built snapshotId kind reference todo leases =>
    if leases.any fun lease => decide (m.clock < lease) then failCapture
    else
      some (.stmt [.identity (.localDigest reference.sha256)]
        [.insertArtifact
          { artifactId := m.fresh
            snapshotId
            kind
            sha256Hash := reference.sha256
            blobOwner := reference.owner
            mediaType := reference.mediaType
            sizeBytes := reference.sizeBytes }]
        (.artifactStart built snapshotId todo))
  | .insertManifest built snapshotId =>
    some (.stmt []
      [.insertManifest
        { snapshotId
          manifestHash := built.manifest.sha256
          blobOwner := built.manifest.owner
          mediaType := built.manifest.mediaType
          sizeBytes := built.manifest.sizeBytes }]
      (.commit built snapshotId))
  | .commit _ snapshotId => some (.commit (.finished (some snapshotId)))
  | .finished _ => none

end

end RatatoskrVault
