import RatatoskrVault.Retention.System

/-! Everything one step of a capture can do, by kind of step. -/
namespace RatatoskrVault

open Lib

section

variable (m : Moment) (db : Db)

/-- The statements of `record_built_snapshot`. -/
inductive CaptureStmt : CaptureLoc → List Lock → List Write → CaptureLoc → Prop
  | recordSource {built : BuiltSnapshot} (hsource : db.healthySource built.source = true) :
      CaptureStmt (.recordSource built) [] [] (.recordParent built)
  | recordParent {built : BuiltSnapshot}
      (hparent : db.parentPresent built.source built.parentSnapshotId = true) :
      CaptureStmt (.recordParent built) [] [] (.insertSnapshot built)
  | insertSnapshot {built : BuiltSnapshot} {row : Snapshot} (hid : row.snapshotId = m.fresh)
      (htarget : row.targetId = built.source.targetId)
      (hmirror : row.mirrorId = built.source.mirrorId)
      (hparent : row.parentSnapshotId = built.parentSnapshotId) (hstatus : row.status = .built)
      (hrefs : row.refsHash = built.evidence.refSetSha256)
      (hlfs : row.includesLfs = built.evidence.lfs.isSome) :
      CaptureStmt (.insertSnapshot built) [] [.insertSnapshot row]
        (.artifactStart built m.fresh built.artifacts)
  | artifactStart {built : BuiltSnapshot} {snapshotId : Uuid} {kind : ArtifactKind}
      {reference : BlobRef} {todo : List (ArtifactKind × BlobRef)} :
      CaptureStmt (.artifactStart built snapshotId ((kind, reference) :: todo)) [] []
        (.artifactLock built snapshotId kind reference todo (db.runningLeases reference.sha256))
  | artifactsDone {built : BuiltSnapshot} {snapshotId : Uuid} :
      CaptureStmt (.artifactStart built snapshotId []) [] [] (.insertManifest built snapshotId)
  | artifactLock {built : BuiltSnapshot} {snapshotId : Uuid} {kind : ArtifactKind}
      {reference : BlobRef} {todo : List (ArtifactKind × BlobRef)} {leases : List Time}
      (hleases : ∀ lease ∈ leases, lease ≤ m.clock) :
      CaptureStmt (.artifactLock built snapshotId kind reference todo leases)
        [.identity (.localDigest reference.sha256)]
        [.insertArtifact
          { artifactId := m.fresh
            snapshotId
            kind
            sha256Hash := reference.sha256
            blobOwner := reference.owner
            mediaType := reference.mediaType
            sizeBytes := reference.sizeBytes }]
        (.artifactStart built snapshotId todo)
  | insertManifest {built : BuiltSnapshot} {snapshotId : Uuid} :
      CaptureStmt (.insertManifest built snapshotId) []
        [.insertManifest
          { snapshotId
            manifestHash := built.manifest.sha256
            blobOwner := built.manifest.owner
            mediaType := built.manifest.mediaType
            sizeBytes := built.manifest.sizeBytes }]
        (.commit built snapshotId)

/-- The reads before the record. -/
inductive CaptureAuto : CaptureLoc → CaptureLoc → Prop
  | collected {request : CaptureRequest} {objects : List BlobRef} :
      CaptureAuto (.publishLfs request objects []) (.selectSource request objects)
  | selectSource {request : CaptureRequest} {objects : List BlobRef}
      (hsource : db.healthySource request.source = true) :
      CaptureAuto (.selectSource request objects) (.selectParent request objects)
  | selectParent {request : CaptureRequest} {objects : List BlobRef} :
      CaptureAuto (.selectParent request objects)
        (.publishBundle request objects (db.snapshotParent? request.source))

end

section

variable (cx : Crypto) (settings : SnapshotSettings) (storage : Storage) (io : IoResult)

/-- The publications: what is published and where the capture continues if it is done. -/
inductive CapturePublish : CaptureLoc → BlobRef → Bytes → CaptureLoc → Prop
  | lfs {request : CaptureRequest} {objects : List BlobRef} {bytes : Bytes} {todo : List Bytes}
      {reference : BlobRef}
      (href : storage.blobs.referenceForFile cx bytes "application/octet-stream" = .ok reference) :
      CapturePublish (.publishLfs request objects (bytes :: todo)) reference bytes
        (.publishLfs request (objects ++ [reference]) todo)
  | bundle {request : CaptureRequest} {objects : List BlobRef} {parent : Option SnapshotParent}
      {bundle : BlobRef} (href : storage.blobs.referenceForFile cx request.bundle
        "application/vnd.git.bundle" = .ok bundle) :
      CapturePublish (.publishBundle request objects parent) bundle request.bundle
        (.publishManifest request objects parent bundle)
  | manifest {request : CaptureRequest} {objects : List BlobRef} {parent : Option SnapshotParent}
      {bundle manifest : BlobRef} {evidence : SnapshotManifest}
      (hevidence : SnapshotManifest.new cx settings.generatorVersion request.refs [bundle]
        (parent.map (·.manifest)) request.createdAt (lfsEvidence cx request objects)
        settings.signer = .ok evidence)
      (href : storage.blobs.referenceForFile cx (cx.encode evidence) "application/json"
        = .ok manifest) :
      CapturePublish (.publishManifest request objects parent bundle) manifest (cx.encode evidence)
        (.recordSource
          { source := request.source
            parentSnapshotId := parent.map (·.snapshotId)
            bundle
            manifest
            evidence })

end

variable {cx : Crypto} {settings : SnapshotSettings} {m : Moment} {db : Db}
  {storage storage' : Storage} {io : IoResult} {at_ next : CaptureLoc} {locks : List Lock}
  {writes : List Write}

theorem captureSnapshot_stmt
    (h : captureSnapshot cx settings m db storage io at_ = some (.stmt locks writes next)) :
    CaptureStmt m db at_ locks writes next := by
  cases at_ with
  | publishLfs request objects todo =>
    cases todo with
    | nil => cases h
    | cons bytes todo => simp only [captureSnapshot, failCapture] at h; split at h <;> cases h
  | selectSource request objects =>
    simp only [captureSnapshot, failCapture] at h
    split_ifs at h <;> cases h
  | selectParent request objects => cases h
  | publishBundle request objects parent =>
    simp only [captureSnapshot, failCapture] at h
    split_ifs at h
    · cases h
    · split at h <;> cases h
  | publishManifest request objects parent bundle =>
    simp only [captureSnapshot, failCapture] at h
    split at h
    · cases h
    · split at h <;> cases h
  | recordSource built =>
    simp only [captureSnapshot, failCapture] at h
    split_ifs at h with hrecorded
    · cases h; exact .recordSource hrecorded.2.2
    · cases h
  | recordParent built =>
    simp only [captureSnapshot, failCapture] at h
    split_ifs at h with hparent
    · cases h; exact .recordParent hparent
    · cases h
  | insertSnapshot built => cases h; exact .insertSnapshot rfl rfl rfl rfl rfl rfl rfl
  | artifactStart built snapshotId todo =>
    cases todo with
    | nil => cases h; exact .artifactsDone
    | cons entry todo =>
      obtain ⟨kind, reference⟩ := entry
      simp only [captureSnapshot, failCapture] at h
      split_ifs at h
      · cases h; exact .artifactStart
      · cases h
  | artifactLock built snapshotId kind reference todo leases =>
    simp only [captureSnapshot, failCapture] at h
    split_ifs at h with hleases
    · cases h
    · cases h
      refine .artifactLock fun lease hlease => ?_
      simp only [List.any_eq_true, decide_eq_true_eq, not_exists, not_and, Nat.not_lt] at hleases
      exact hleases lease hlease
  | insertManifest built snapshotId => cases h; exact .insertManifest
  | commit built snapshotId => cases h
  | finished result => cases h

theorem captureSnapshot_auto
    (h : captureSnapshot cx settings m db storage io at_ = some (.auto locks writes next)) :
    locks = [] ∧ writes = [] ∧ CaptureAuto db at_ next := by
  cases at_ with
  | publishLfs request objects todo =>
    cases todo with
    | nil => cases h; exact ⟨rfl, rfl, .collected⟩
    | cons bytes todo => simp only [captureSnapshot, failCapture] at h; split at h <;> cases h
  | selectSource request objects =>
    simp only [captureSnapshot, failCapture] at h
    split_ifs at h with hsource
    · cases h; exact ⟨rfl, rfl, .selectSource hsource⟩
    · cases h
  | selectParent request objects => cases h; exact ⟨rfl, rfl, .selectParent⟩
  | artifactStart built snapshotId todo =>
    cases todo with
    | nil => cases h
    | cons entry todo => simp only [captureSnapshot, failCapture] at h; split_ifs at h <;> cases h
  | _ =>
    simp only [captureSnapshot, failCapture] at h
    (repeat' split at h) <;> cases h

theorem captureSnapshot_commit
    (h : captureSnapshot cx settings m db storage io at_ = some (.commit next)) :
    ∃ built snapshotId, at_ = .commit built snapshotId ∧ next = .finished (some snapshotId) := by
  cases at_ with
  | commit built snapshotId => cases h; exact ⟨built, snapshotId, rfl, rfl⟩
  | publishLfs request objects todo =>
    cases todo with
    | nil => cases h
    | cons bytes todo => simp only [captureSnapshot, failCapture] at h; split at h <;> cases h
  | artifactStart built snapshotId todo =>
    cases todo with
    | nil => cases h
    | cons entry todo => simp only [captureSnapshot, failCapture] at h; split_ifs at h <;> cases h
  | _ =>
    simp only [captureSnapshot, failCapture] at h
    (repeat' split at h) <;> cases h

theorem captureSnapshot_rollback
    (h : captureSnapshot cx settings m db storage io at_ = some (.rollback next)) :
    next = .finished none := by
  cases at_ with
  | publishLfs request objects todo =>
    cases todo with
    | nil => cases h
    | cons bytes todo => simp only [captureSnapshot, failCapture] at h; split at h <;> cases h; rfl
  | artifactStart built snapshotId todo =>
    cases todo with
    | nil => cases h
    | cons entry todo =>
      simp only [captureSnapshot, failCapture] at h
      split_ifs at h <;> cases h
      rfl
  | _ =>
    simp only [captureSnapshot, failCapture] at h
    (repeat' split at h) <;> cases h <;> rfl

/-- A storage call of a capture publishes one file; the capture goes on if it is done. -/
theorem captureSnapshot_call
    (h : captureSnapshot cx settings m db storage io at_ = some (.call storage' next)) :
    ∃ reference bytes n, CapturePublish cx settings storage at_ reference bytes n ∧
      storage' = (publish cx storage reference bytes io).1 ∧
      next = if (publish cx storage reference bytes io).2 then n else .finished none := by
  cases at_ with
  | publishLfs request objects todo =>
    cases todo with
    | nil => cases h
    | cons bytes todo =>
      simp only [captureSnapshot, failCapture] at h
      split at h
      · cases h
      · rename_i reference href
        cases h
        exact ⟨reference, bytes, _, .lfs href, rfl, rfl⟩
  | publishBundle request objects parent =>
    simp only [captureSnapshot, failCapture] at h
    split_ifs at h
    · cases h
    · split at h
      · cases h
      · rename_i bundle href
        cases h
        exact ⟨bundle, request.bundle, _, .bundle href, rfl, rfl⟩
  | publishManifest request objects parent bundle =>
    simp only [captureSnapshot, failCapture] at h
    split at h
    · cases h
    · rename_i evidence hevidence
      split at h
      · cases h
      · rename_i manifest href
        cases h
        exact ⟨manifest, cx.encode evidence, _, .manifest hevidence href, rfl, rfl⟩
  | artifactStart built snapshotId todo =>
    cases todo with
    | nil => cases h
    | cons entry todo => simp only [captureSnapshot, failCapture] at h; split_ifs at h <;> cases h
  | _ =>
    simp only [captureSnapshot, failCapture] at h
    (repeat' split at h) <;> cases h

end RatatoskrVault
