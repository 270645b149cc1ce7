import Mathlib.Algebra.Order.BigOperators.Group.List
import RatatoskrVault.Core.ManifestSigning
import RatatoskrVault.Lib.Sums
import RatatoskrVault.Verification.Durable

/-! The evidence of a Git LFS collection is checked by three readers: the manifest that signs it,
the row of the collection, and the rows of the snapshot. They agree except on evidence that only
one side refuses. -/
namespace RatatoskrVault.Manifest

open Lib

inductive CollectorOutcome
  | complete | absent | incomplete | failed
  deriving DecidableEq

/-- A row of `collector_runs` of the collector `git_lfs`. -/
structure CollectorRun where
  collectorRunId : Uuid
  targetId : Uuid
  outcome : CollectorOutcome
  mirrorLifecycleRunId : Uuid
  toolVersion : Option String
  objectCount : ℕ
  totalBytes : ℕ
  aggregateHash : Option Digest
  failureClass : Option String
  deriving DecidableEq

/-- The row constraints of a Git LFS collection. -/
def CollectorRun.allowed (row : CollectorRun) : Bool :=
  (match row.outcome with
    | .complete => row.failureClass.isNone
    | .absent => false
    | .incomplete | .failed => row.failureClass.isSome) &&
    row.toolVersion.isSome && (row.outcome != .complete || row.aggregateHash.isSome) &&
    row.toolVersion.all isStorable && row.failureClass.all isStorable

inductive LfsCollectionTerminal
  | complete (evidence : LfsEvidence)
  | failed (failureClass : String)

/-- A row of `lfs_snapshot_objects`. -/
structure LfsSnapshotObject where
  snapshotId : Uuid
  artifactId : Uuid
  oid : String
  sha256Hash : Digest
  sizeBytes : ℕ
  deriving DecidableEq

def LfsSnapshotObject.allowed (row : LfsSnapshotObject) : Bool :=
  row.oid.toList.length == 64 && row.oid.toList.all isHex

/-- The row constraints of `snapshot_artifacts`. -/
def artifactAllowed (row : SnapshotArtifact) : Bool :=
  row.blobOwner == owner &&
    decide (1 ≤ row.mediaType.length ∧ row.mediaType.length ≤ 255) && decide (0 < row.sizeBytes)

/-- The row constraints of `manifests`. -/
def manifestAllowed (row : ManifestRow) : Bool :=
  row.blobOwner == owner && row.mediaType == "application/json" && decide (0 < row.sizeBytes)

/-- What one built snapshot appends. -/
structure BuiltRows where
  snapshot : Snapshot
  artifacts : List SnapshotArtifact
  lfsObjects : List LfsSnapshotObject
  manifest : Option ManifestRow

section

variable {KeyPair : Type} (primitives : Primitives KeyPair) (overflowChecks : Bool) (db : Db)

/-- `sum::<u64>()` over the sizes of the objects; no result where it panics. -/
def iteratorTotal (objects : List LfsObjectEvidence) : Option ℕ :=
  machineSum u64Max overflowChecks 0 (objects.map (·.blob.sizeBytes))

/-- The check of the aggregates that both records make; the total is not computed where the digest
differs. -/
def aggregatesAgree (evidence : LfsEvidence) : Option Bool :=
  if evidence.aggregateSha256 ≠ canonicalLfsDigest primitives evidence.objects then some false
  else (iteratorTotal overflowChecks evidence.objects).map fun total =>
    evidence.totalBytes == total

def insertCollectorRun (row : CollectorRun) : Except VaultError CollectorRun :=
  if row.allowed && (db.target? row.targetId).isSome &&
      db.mirrorRuns.any fun run => run.runId == row.mirrorLifecycleRunId then
    .ok row
  else .error .storageFailed

/-- No result is a panic. -/
def recordLfsCollection (collectorRunId targetId mirrorLifecycleRunId : Uuid) :
    LfsCollectionTerminal → Option (Except VaultError CollectorRun)
  | .complete evidence =>
    match aggregatesAgree primitives overflowChecks evidence with
    | none => none
    | some false => some (.error (.invalidDelivery "lfs_collection_evidence"))
    | some true =>
      if i64Max < evidence.objects.length ∨ i64Max < evidence.totalBytes then
        some (.error (.invalidDelivery "lfs_collection_evidence"))
      else
        match decodeDigest evidence.aggregateSha256 with
        | none => some (.error (.invalidDelivery "lfs_collection_evidence"))
        | some aggregateHash =>
          some (insertCollectorRun db
            { collectorRunId
              targetId
              outcome := .complete
              mirrorLifecycleRunId
              toolVersion := some evidence.toolVersion
              objectCount := evidence.objects.length
              totalBytes := evidence.totalBytes
              aggregateHash := some aggregateHash
              failureClass := none })
  | .failed failureClass =>
    if failureClass = "" ∨ 64 < failureClass.utf8ByteSize then
      some (.error (.invalidDelivery "lfs_failure_class"))
    else
      some (insertCollectorRun db
        { collectorRunId
          targetId
          outcome := .failed
          mirrorLifecycleRunId
          toolVersion := some "unknown"
          objectCount := 0
          totalBytes := 0
          aggregateHash := none
          failureClass := some failureClass })

/-- `decode_digest` of a snapshot's texts. -/
def snapshotDigest (hex : String) : Except VaultError Digest :=
  match decodeDigest hex with
  | none => .error (.invalidDelivery "snapshot_digest")
  | some digest => .ok digest

def checkedSize (sizeBytes : ℕ) : Except VaultError ℕ :=
  if i64Max < sizeBytes then .error .storageFailed
  else if 0 < sizeBytes then .ok sizeBytes
  else .error (.invalidDelivery "snapshot_blob_ref")

def validateBlobRef (reference : BlobRef) : Except VaultError Unit :=
  if reference.owner ≠ owner ∨ reference.mediaType = "" then
    .error (.invalidDelivery "snapshot_blob_ref")
  else do
    let _ ← snapshotDigest reference.sha256
    let _ ← checkedSize reference.sizeBytes
    .ok ()

def validateLfsEvidence (lfs : Option LfsEvidence) : Option (Except VaultError Unit) :=
  match lfs with
  | none => some (.ok ())
  | some evidence =>
    (aggregatesAgree primitives overflowChecks evidence).map fun agree =>
      if agree then .ok () else .error (.invalidDelivery "snapshot_lfs_object")

/-- A deletion works on the digest, and its lease has not run out. -/
def claimed (clock : Time) (digest : Digest) : Bool :=
  (db.runningLeases digest).any fun lease => decide (clock < lease)

def insertArtifact (clock : Time) (row : SnapshotArtifact) : Except VaultError SnapshotArtifact :=
  if !claimed db clock row.sha256Hash && artifactAllowed row then .ok row
  else .error .storageFailed

variable (fresh : ℕ → Uuid) (clock : ℕ → Time)

/-- The artifact of a reference, as the next of the rows; ids and times are those of its own
statement. -/
def nextArtifact (rows : BuiltRows) (kind : ArtifactKind) (reference : BlobRef) (hash : Digest)
    (size : ℕ) : Except VaultError SnapshotArtifact :=
  insertArtifact db (clock rows.artifacts.length)
    { artifactId := fresh rows.artifacts.length
      snapshotId := rows.snapshot.snapshotId
      kind
      sha256Hash := hash
      blobOwner := reference.owner
      mediaType := reference.mediaType
      sizeBytes := size }

def BuiltRows.withArtifact (rows : BuiltRows) (artifact : SnapshotArtifact) : BuiltRows :=
  { rows with artifacts := rows.artifacts ++ [artifact] }

/-- The primary key is the snapshot with the id of the object. -/
def insertLfsObject (rows : BuiltRows) (row : LfsSnapshotObject) : Except VaultError BuiltRows :=
  if row.allowed && !rows.lfsObjects.any fun known => known.oid == row.oid then
    .ok { rows with lfsObjects := rows.lfsObjects ++ [row] }
  else .error .storageFailed

def insertLfsArtifacts : BuiltRows → List LfsObjectEvidence → Except VaultError BuiltRows
  | rows, [] => .ok rows
  | rows, object :: rest => do
    validateBlobRef object.blob
    if object.oid ≠ object.blob.sha256 ∨ object.blob.mediaType ≠ "application/octet-stream" then
      .error (.invalidDelivery "snapshot_lfs_object")
    else do
      let hash ← snapshotDigest object.blob.sha256
      let size ← checkedSize object.blob.sizeBytes
      let artifact ← nextArtifact db fresh clock rows .lfsObject object.blob hash size
      let rows ← insertLfsObject (rows.withArtifact artifact)
        { snapshotId := rows.snapshot.snapshotId
          artifactId := artifact.artifactId
          oid := object.oid
          sha256Hash := hash
          sizeBytes := size }
      insertLfsArtifacts rows rest

def insertManifest (rows : BuiltRows) (row : ManifestRow) : Except VaultError BuiltRows :=
  if manifestAllowed row then .ok { rows with manifest := some row } else .error .storageFailed

/-- The transaction of a built snapshot, after every check of its texts and sizes. -/
def insertBuiltSnapshot (snapshotId : Uuid) (now : Time) (source : SnapshotSource)
    (parentSnapshotId : Option Uuid) (bundle manifest : BlobRef)
    (bundleHash manifestHash refsHash : Digest) (lfs : Option LfsEvidence)
    (bundleSize manifestSize : ℕ) : Except VaultError BuiltRows :=
  if db.healthySource source = false then .error (.invalidDelivery "snapshot_source")
  else if db.parentPresent source parentSnapshotId = false then
    .error (.invalidDelivery "parent_snapshot_id")
  else do
    let rows : BuiltRows :=
      { snapshot :=
          { snapshotId
            targetId := source.targetId
            mirrorId := source.mirrorId
            mirrorLifecycleRunId := source.mirrorLifecycleRunId
            parentSnapshotId
            status := .built
            refsHash
            includesLfs := lfs.isSome
            createdAt := now }
        artifacts := []
        lfsObjects := []
        manifest := none }
    let bundleArtifact ← nextArtifact db fresh clock rows .gitBundle bundle bundleHash bundleSize
    let rows := rows.withArtifact bundleArtifact
    let manifestArtifact ←
      nextArtifact db fresh clock rows .manifest manifest manifestHash manifestSize
    let rows := rows.withArtifact manifestArtifact
    let rows ← insertLfsArtifacts db fresh clock rows ((lfs.map (·.objects)).getD [])
    insertManifest rows
      { snapshotId
        manifestHash
        blobOwner := manifest.owner
        mediaType := manifest.mediaType
        sizeBytes := manifestSize }

/-- What is checked of the references before the evidence. -/
def checkReferences (bundle manifest : BlobRef) (refsHash : String) :
    Except VaultError (Digest × Digest × Digest) := do
  let bundleHash ← snapshotDigest bundle.sha256
  let manifestHash ← snapshotDigest manifest.sha256
  let refsHash ← snapshotDigest refsHash
  validateBlobRef bundle
  validateBlobRef manifest
  if bundle.mediaType ≠ "application/vnd.git.bundle" ∨ manifest.mediaType ≠ "application/json" then
    .error (.invalidDelivery "snapshot_blob_ref")
  else .ok (bundleHash, manifestHash, refsHash)

def recordBuiltSnapshot (snapshotId : Uuid) (now : Time) (source : SnapshotSource)
    (parentSnapshotId : Option Uuid) (bundle manifest : BlobRef) (refsHash : String)
    (lfs : Option LfsEvidence) : Option (Except VaultError BuiltRows) :=
  match checkReferences bundle manifest refsHash with
  | .error e => some (.error e)
  | .ok (bundleHash, manifestHash, refsHash) =>
    match validateLfsEvidence primitives overflowChecks lfs with
    | none => none
    | some (.error e) => some (.error e)
    | some (.ok ()) => some do
      let bundleSize ← checkedSize bundle.sizeBytes
      let manifestSize ← checkedSize manifest.sizeBytes
      insertBuiltSnapshot db fresh clock snapshotId now source parentSnapshotId bundle manifest
        bundleHash manifestHash refsHash lfs bundleSize manifestSize

end

section

variable {KeyPair : Type} {primitives : Primitives KeyPair} {overflowChecks : Bool} {db : Db}
  {evidence : LfsEvidence} {objects : List LfsObjectEvidence} {reference : BlobRef}
  {fresh : ℕ → Uuid} {clock : ℕ → Time} {rows : BuiltRows}

theorem hexValue?_isSome (c : Char) : (hexValue? c).isSome = isHex c := by
  unfold hexValue? isHex
  rw [← Bool.decide_and, ← Bool.decide_and, ← Bool.decide_or]
  by_cases hdigit : '0' ≤ c ∧ c ≤ '9'
  · rw [if_pos hdigit, Option.isSome_some]
    exact (decide_eq_true (Or.inl hdigit)).symm
  · rw [if_neg hdigit]
    by_cases hletter : 'a' ≤ c ∧ c ≤ 'f'
    · rw [if_pos hletter, Option.isSome_some]
      exact (decide_eq_true (Or.inr hletter)).symm
    · rw [if_neg hletter, Option.isSome_none]
      exact (decide_eq_false (not_or.mpr ⟨hdigit, hletter⟩)).symm

theorem mapM_hexValue?_isSome (digits : List Char) :
    (digits.mapM hexValue?).isSome = digits.all isHex := by
  induction digits with
  | nil => rfl
  | cons c digits ih =>
    rw [List.mapM_cons, List.all_cons, ← hexValue?_isSome, ← ih]
    cases hexValue? c with
    | none => rfl
    | some value =>
      cases digits.mapM hexValue? with
      | none => rfl
      | some values => rfl

theorem decodeDigest_isSome_iff {hex : String} : (decodeDigest hex).isSome = true ↔
    hex.toList.length = 64 ∧ ∀ c ∈ hex.toList, isHex c = true := by
  unfold decodeDigest
  by_cases hlength : hex.toList.length = 64
  · rw [if_pos hlength, Option.isSome_map, mapM_hexValue?_isSome, List.all_eq_true]
    exact ⟨fun h => ⟨hlength, h⟩, fun h => h.2⟩
  · rw [if_neg hlength]
    exact ⟨fun h => by simp at h, fun h => absurd h.1 hlength⟩

theorem saturatingTotal_eq (objects : List LfsObjectEvidence) :
    saturatingTotal objects = min (objects.map (·.blob.sizeBytes)).sum u64Max := by
  have hfold : saturatingTotal objects
      = saturatingSum u64Max 0 (objects.map (·.blob.sizeBytes)) := by
    unfold saturatingTotal saturatingSum
    rw [List.foldl_map]
  rw [hfold, saturatingSum_eq (Nat.zero_le _), Nat.zero_add]

/-- What the records ask of the aggregates. -/
def Aggregated (primitives : Primitives KeyPair) (overflowChecks : Bool) (evidence : LfsEvidence) :
    Prop :=
  evidence.aggregateSha256 = canonicalLfsDigest primitives evidence.objects ∧
    evidence.totalBytes = (evidence.objects.map (·.blob.sizeBytes)).sum % (u64Max + 1) ∧
    (overflowChecks = true → (evidence.objects.map (·.blob.sizeBytes)).sum ≤ u64Max)

theorem aggregatesAgree_eq_true : aggregatesAgree primitives overflowChecks evidence = some true ↔
    Aggregated primitives overflowChecks evidence := by
  unfold aggregatesAgree Aggregated
  by_cases haggregate :
      evidence.aggregateSha256 = canonicalLfsDigest primitives evidence.objects
  · rw [if_neg (not_not.mpr haggregate), iteratorTotal, machineSum_eq (Nat.zero_le _),
      Nat.zero_add]
    by_cases hfits : (evidence.objects.map (·.blob.sizeBytes)).sum ≤ u64Max
    · rw [if_pos hfits, Nat.mod_eq_of_lt (Nat.lt_succ_iff.mpr hfits), Option.map_some,
        Option.some.injEq, beq_iff_eq]
      exact ⟨fun h => ⟨haggregate, h, fun _ => hfits⟩, fun h => h.2.1⟩
    · rw [if_neg hfits]
      cases overflowChecks with
      | true =>
        rw [if_pos rfl, Option.map_none]
        exact ⟨fun h => (nomatch h), fun h => absurd (h.2.2 rfl) hfits⟩
      | false =>
        rw [if_neg Bool.false_ne_true, Option.map_some, Option.some.injEq, beq_iff_eq]
        exact ⟨fun h => ⟨haggregate, h, fun hchecks => nomatch hchecks⟩, fun h => h.2.1⟩
  · simp [haggregate]

theorem snapshotDigest_eq_ok {hex : String} {digest : Digest} :
    snapshotDigest hex = .ok digest ↔ decodeDigest hex = some digest := by
  unfold snapshotDigest
  cases decodeDigest hex with
  | none => simp
  | some found => simp

theorem checkedSize_eq_ok {sizeBytes size : ℕ} :
    checkedSize sizeBytes = .ok size ↔ size = sizeBytes ∧ 0 < sizeBytes ∧ sizeBytes ≤ i64Max := by
  unfold checkedSize
  by_cases hlarge : i64Max < sizeBytes
  · rw [if_pos hlarge]
    exact ⟨fun h => (nomatch h), fun h => absurd h.2.2 (Nat.not_le.mpr hlarge)⟩
  · rw [if_neg hlarge]
    by_cases hzero : 0 < sizeBytes
    · rw [if_pos hzero, Except.ok.injEq]
      exact ⟨fun h => ⟨h.symm, hzero, Nat.not_lt.mp hlarge⟩, fun h => h.1.symm⟩
    · rw [if_neg hzero]
      exact ⟨fun h => (nomatch h), fun h => absurd h.2.1 hzero⟩

/-- What the snapshot asks of a reference. -/
def StorableRef (reference : BlobRef) : Prop :=
  reference.owner = owner ∧ reference.mediaType ≠ "" ∧
    (decodeDigest reference.sha256).isSome = true ∧
    0 < reference.sizeBytes ∧ reference.sizeBytes ≤ i64Max

theorem bind_eq_ok {ε α β : Type} {step : Except ε α} {next : α → Except ε β} {result : β} :
    (step >>= next) = .ok result ↔ ∃ a, step = .ok a ∧ next a = .ok result := by
  cases step with
  | error e => exact ⟨fun h => (nomatch h), fun ⟨_, h, _⟩ => (nomatch h)⟩
  | ok a =>
    exact ⟨fun h => ⟨a, rfl, h⟩, fun ⟨_, h, hnext⟩ => Except.ok.inj h ▸ hnext⟩

theorem ite_error_eq_ok {ε α : Type} {c : Prop} [Decidable c] {e : ε} {rest : Except ε α} {a : α} :
    (if c then .error e else rest) = .ok a ↔ ¬c ∧ rest = .ok a := by
  by_cases hc : c
  · simp [hc]
  · simp [hc]

theorem validateBlobRef_eq_ok {u : Unit} :
    validateBlobRef reference = .ok u ↔ StorableRef reference := by
  unfold validateBlobRef StorableRef
  simp only [ite_error_eq_ok, bind_eq_ok, snapshotDigest_eq_ok, checkedSize_eq_ok, not_or,
    not_not, Option.isSome_iff_exists, exists_and_right, and_assoc, ne_eq]
  tauto

/-- Statement by statement, whether each digest is free of deletions. -/
def Unclaimed (db : Db) (clock : ℕ → Time) (n : ℕ) (digests : List String) : Prop :=
  ∀ i hex, digests[i]? = some hex → ∀ digest, decodeDigest hex = some digest →
    claimed db (clock (n + i)) digest = false

theorem unclaimed_cons {n : ℕ} {hex : String} {digests : List String} :
    Unclaimed db clock n (hex :: digests) ↔
      (∀ digest, decodeDigest hex = some digest → claimed db (clock n) digest = false) ∧
        Unclaimed db clock (n + 1) digests := by
  constructor
  · intro h
    refine ⟨fun digest hdigest => h 0 hex rfl digest hdigest, fun i other hother => ?_⟩
    have hnext := h (i + 1) other hother
    rwa [Nat.add_comm i 1, ← Nat.add_assoc] at hnext
  · rintro ⟨hfirst, hrest⟩ i other hother
    cases i with
    | zero =>
      obtain rfl : hex = other := Option.some.inj hother
      exact hfirst
    | succ i =>
      have hnext := hrest i other hother
      rwa [Nat.add_assoc, Nat.add_comm 1 i] at hnext

theorem nextArtifact_eq_ok {kind : ArtifactKind} {hash : Digest} {size : ℕ}
    {artifact : SnapshotArtifact} :
    nextArtifact db fresh clock rows kind reference hash size = .ok artifact ↔
      claimed db (clock rows.artifacts.length) hash = false ∧
        reference.owner = owner ∧ (1 ≤ reference.mediaType.length ∧
          reference.mediaType.length ≤ 255) ∧ 0 < size ∧
        artifact =
          { artifactId := fresh rows.artifacts.length
            snapshotId := rows.snapshot.snapshotId
            kind
            sha256Hash := hash
            blobOwner := reference.owner
            mediaType := reference.mediaType
            sizeBytes := size } := by
  unfold nextArtifact insertArtifact artifactAllowed
  split
  · rename_i h
    simp only [Bool.and_eq_true, Bool.not_eq_true', beq_iff_eq, decide_eq_true_eq] at h
    rw [Except.ok.injEq]
    exact ⟨fun heq => ⟨h.1, h.2.1.1, h.2.1.2, h.2.2, heq.symm⟩, fun heq => heq.2.2.2.2.symm⟩
  · rename_i h
    refine ⟨fun heq => (nomatch heq), fun heq => absurd ?_ h⟩
    simp only [Bool.and_eq_true, Bool.not_eq_true', beq_iff_eq, decide_eq_true_eq]
    exact ⟨heq.1, ⟨heq.2.1, heq.2.2.1⟩, heq.2.2.2.1⟩

/-- An object that is stored as it was collected, with a size that a column takes. -/
def StorableObject (object : LfsObjectEvidence) : Prop :=
  Collected object ∧ 0 < object.blob.sizeBytes ∧ object.blob.sizeBytes ≤ i64Max

theorem storableObject_iff {object : LfsObjectEvidence} : StorableObject object ↔
    StorableRef object.blob ∧ object.oid = object.blob.sha256 ∧
      object.blob.mediaType = "application/octet-stream" := by
  unfold StorableObject Collected StorableRef
  rw [decodeDigest_isSome_iff]
  constructor
  · rintro ⟨⟨hoid, hlength, hhex, howner, hmedia⟩, hsize⟩
    rw [hoid] at hlength hhex
    have hnonempty : object.blob.mediaType ≠ "" := by
      rw [hmedia]
      decide
    exact ⟨⟨howner, hnonempty, ⟨hlength, hhex⟩, hsize⟩, hoid, hmedia⟩
  · rintro ⟨⟨howner, -, ⟨hlength, hhex⟩, hsize⟩, hoid, hmedia⟩
    rw [← hoid] at hlength hhex
    exact ⟨⟨hoid, hlength, hhex, howner, hmedia⟩, hsize⟩

theorem insertLfsObject_eq_ok {row : LfsSnapshotObject} {rows' : BuiltRows} :
    insertLfsObject rows row = .ok rows' ↔
      (row.oid.toList.length = 64 ∧ ∀ c ∈ row.oid.toList, isHex c = true) ∧
        (∀ known ∈ rows.lfsObjects, known.oid ≠ row.oid) ∧
        rows' = { rows with lfsObjects := rows.lfsObjects ++ [row] } := by
  unfold insertLfsObject LfsSnapshotObject.allowed
  split
  · rename_i h
    simp only [Bool.and_eq_true, beq_iff_eq, List.all_eq_true, Bool.not_eq_true',
      List.any_eq_false] at h
    rw [Except.ok.injEq]
    exact ⟨fun heq => ⟨h.1, h.2, heq.symm⟩, fun heq => heq.2.2.symm⟩
  · rename_i h
    refine ⟨fun heq => (nomatch heq), fun heq => absurd ?_ h⟩
    simp only [Bool.and_eq_true, beq_iff_eq, List.all_eq_true, Bool.not_eq_true',
      List.any_eq_false]
    exact ⟨heq.1, heq.2.1⟩

/-- The rows with one object more. -/
def BuiltRows.withObject (fresh : ℕ → Uuid) (rows : BuiltRows) (object : LfsObjectEvidence)
    (hash : Digest) : BuiltRows :=
  { rows with
    artifacts := rows.artifacts ++
      [{ artifactId := fresh rows.artifacts.length
         snapshotId := rows.snapshot.snapshotId
         kind := .lfsObject
         sha256Hash := hash
         blobOwner := object.blob.owner
         mediaType := object.blob.mediaType
         sizeBytes := object.blob.sizeBytes }]
    lfsObjects := rows.lfsObjects ++
      [{ snapshotId := rows.snapshot.snapshotId
         artifactId := fresh rows.artifacts.length
         oid := object.oid
         sha256Hash := hash
         sizeBytes := object.blob.sizeBytes }] }

/-- One object is appended exactly if it can be stored, is none of those appended before, and no
deletion works on it. -/
theorem insertLfsArtifacts_cons {object : LfsObjectEvidence} {rest : List LfsObjectEvidence}
    {rows' : BuiltRows} :
    insertLfsArtifacts db fresh clock rows (object :: rest) = .ok rows' ↔
      StorableObject object ∧ (∀ known ∈ rows.lfsObjects, known.oid ≠ object.oid) ∧
        ∃ hash, decodeDigest object.oid = some hash ∧
          claimed db (clock rows.artifacts.length) hash = false ∧
          insertLfsArtifacts db fresh clock (rows.withObject fresh object hash) rest
            = .ok rows' := by
  rw [insertLfsArtifacts, storableObject_iff]
  simp only [bind_eq_ok, ite_error_eq_ok, validateBlobRef_eq_ok, snapshotDigest_eq_ok,
    checkedSize_eq_ok, nextArtifact_eq_ok, insertLfsObject_eq_ok, not_or, not_not, ne_eq]
  constructor
  · rintro ⟨-, hstorable, ⟨hoid, hmedia⟩, hash, hhash, size, ⟨rfl, -⟩, artifact,
      ⟨hunclaimed, -, -, -, rfl⟩, -, ⟨-, hknown, rfl⟩, hrest⟩
    rw [← hoid] at hhash
    exact ⟨⟨hstorable, hoid, hmedia⟩, hknown, hash, hhash, hunclaimed, hrest⟩
  · rintro ⟨⟨hstorable, hoid, hmedia⟩, hknown, hash, hhash, hunclaimed, hrest⟩
    have hdigits := decodeDigest_isSome_iff.mp (Option.isSome_iff_exists.mpr ⟨hash, hhash⟩)
    have hlength : 1 ≤ object.blob.mediaType.length ∧ object.blob.mediaType.length ≤ 255 := by
      rw [hmedia]
      decide
    rw [hoid] at hhash
    exact ⟨(), hstorable, ⟨hoid, hmedia⟩, hash, hhash, _, ⟨rfl, hstorable.2.2.2⟩, _,
      ⟨hunclaimed, hstorable.1, hlength, hstorable.2.2.2.1, rfl⟩, _, ⟨hdigits, hknown, rfl⟩, hrest⟩

theorem insertLfsArtifacts_isOk :
    (∃ rows', insertLfsArtifacts db fresh clock rows objects = .ok rows') ↔
      (∀ object ∈ objects, StorableObject object) ∧ (objects.map (·.oid)).Nodup ∧
        (∀ object ∈ objects, ∀ known ∈ rows.lfsObjects, known.oid ≠ object.oid) ∧
        Unclaimed db clock rows.artifacts.length (objects.map (·.oid)) := by
  induction objects generalizing rows with
  | nil =>
    refine ⟨fun _ => ⟨by simp, List.nodup_nil, by simp, fun i hex h => ?_⟩, fun _ => ⟨rows, rfl⟩⟩
    simp at h
  | cons object rest ih =>
    simp only [insertLfsArtifacts_cons, List.map_cons, unclaimed_cons, List.forall_mem_cons,
      List.nodup_cons]
    constructor
    · rintro ⟨rows', hobject, hknown, hash, hhash, hunclaimed, hrest⟩
      obtain ⟨hstorable, hnodup, hothers, hfree⟩ := ih.mp ⟨rows', hrest⟩
      simp only [BuiltRows.withObject, List.mem_append, List.mem_singleton, List.length_append,
        List.length_singleton] at hothers hfree
      refine ⟨⟨hobject, hstorable⟩, ⟨fun hmem => ?_, hnodup⟩,
        ⟨hknown, fun other hother known hmem => hothers other hother known (Or.inl hmem)⟩,
        fun digest hdigest => ?_, hfree⟩
      · obtain ⟨other, hother, hsame⟩ := List.mem_map.mp hmem
        exact hothers other hother _ (Or.inr rfl) hsame.symm
      · obtain rfl : hash = digest := Option.some.inj (hhash.symm.trans hdigest)
        exact hunclaimed
    · rintro ⟨⟨hobject, hstorable⟩, ⟨hnew, hnodup⟩, ⟨hknown, hothers⟩, hclaim, hfree⟩
      obtain ⟨hash, hhash⟩ := Option.isSome_iff_exists.mp
        (decodeDigest_isSome_iff.mpr ⟨hobject.1.2.1, hobject.1.2.2.1⟩)
      have hrest : ∃ rows', insertLfsArtifacts db fresh clock (rows.withObject fresh object hash)
          rest = .ok rows' := by
        refine ih.mpr ⟨hstorable, hnodup, fun other hother known hmem => ?_, ?_⟩
        · rcases List.mem_append.mp hmem with hmem | hmem
          · exact hothers other hother known hmem
          · rw [List.mem_singleton.mp hmem]
            rintro heq
            exact hnew (List.mem_map.mpr ⟨other, hother, heq.symm⟩)
        · simpa [BuiltRows.withObject] using hfree
      obtain ⟨rows', hrest⟩ := hrest
      exact ⟨rows', hobject, hknown, hash, hhash, hclaim hash hhash, hrest⟩

end

/-- One capture that is recorded: the mirror run it observed, its references, and the ids and times
of the statements. -/
structure Recording where
  collectorRunId : Uuid
  snapshotId : Uuid
  now : Time
  source : SnapshotSource
  parentSnapshotId : Option Uuid
  bundle : BlobRef
  manifest : BlobRef
  refsHash : String
  fresh : ℕ → Uuid
  clock : ℕ → Time

namespace Recording

variable {KeyPair : Type} (primitives : Primitives KeyPair) (overflowChecks : Bool) (db : Db)
  (recording : Recording) (evidence : LfsEvidence)

def lfsCollection : Option (Except VaultError CollectorRun) :=
  recordLfsCollection primitives overflowChecks db recording.collectorRunId
    recording.source.targetId recording.source.mirrorLifecycleRunId (.complete evidence)

def builtSnapshot : Option (Except VaultError BuiltRows) :=
  recordBuiltSnapshot primitives overflowChecks db recording.fresh recording.clock
    recording.snapshotId recording.now recording.source recording.parentSnapshotId recording.bundle
    recording.manifest recording.refsHash (some evidence)

/-- A healthy source, and valid references to the bundle and to the manifest. -/
structure Ready : Prop where
  source : db.healthySource recording.source = true
  target : (db.target? recording.source.targetId).isSome = true
  parent : db.parentPresent recording.source recording.parentSnapshotId = true
  references : ∃ digests,
    checkReferences recording.bundle recording.manifest recording.refsHash = .ok digests

/-- Every digest that the snapshot names, in the order of its artifacts. -/
def digests : List String :=
  recording.bundle.sha256 :: recording.manifest.sha256 :: evidence.objects.map (·.oid)

section

variable {primitives overflowChecks db recording evidence}

theorem aggregate_isSome (h : Aggregated primitives overflowChecks evidence) :
    (decodeDigest evidence.aggregateSha256).isSome = true := by
  rw [h.1]
  exact decodeDigest_hexDigest _

theorem insertCollectorRun_isOk {row : CollectorRun} :
    (∃ run, insertCollectorRun db row = .ok run) ↔ row.allowed = true ∧
      (db.target? row.targetId).isSome = true ∧
      ∃ run ∈ db.mirrorRuns, run.runId = row.mirrorLifecycleRunId := by
  have hguard : (row.allowed && (db.target? row.targetId).isSome &&
      db.mirrorRuns.any fun run => run.runId == row.mirrorLifecycleRunId) = true ↔
        row.allowed = true ∧ (db.target? row.targetId).isSome = true ∧
          ∃ run ∈ db.mirrorRuns, run.runId = row.mirrorLifecycleRunId := by
    simp only [Bool.and_eq_true, List.any_eq_true, beq_iff_eq, and_assoc]
  unfold insertCollectorRun
  rw [← hguard]
  split
  · rename_i h
    exact ⟨fun _ => h, fun _ => ⟨row, rfl⟩⟩
  · rename_i h
    exact ⟨fun ⟨_, hrun⟩ => (nomatch hrun), fun hallowed => absurd hallowed h⟩

theorem exists_run_of_healthy {source : SnapshotSource} (h : db.healthySource source = true) :
    ∃ run ∈ db.mirrorRuns, run.runId = source.mirrorLifecycleRunId := by
  unfold Db.healthySource at h
  obtain ⟨mirror, -, hmirror⟩ := List.any_eq_true.mp h
  simp only [Bool.and_eq_true, List.any_eq_true, beq_iff_eq] at hmirror
  obtain ⟨run, hrun, ⟨-, hid⟩, -⟩ := hmirror.2
  exact ⟨run, hrun, hid⟩

theorem lfsCollection_isOk (h : recording.Ready db) :
    (∃ run, recording.lfsCollection primitives overflowChecks db evidence = some (.ok run)) ↔
      Aggregated primitives overflowChecks evidence ∧ evidence.objects.length ≤ i64Max ∧
        evidence.totalBytes ≤ i64Max ∧ isStorable evidence.toolVersion = true := by
  rw [← aggregatesAgree_eq_true]
  simp only [lfsCollection, recordLfsCollection]
  cases haggregates : aggregatesAgree primitives overflowChecks evidence with
  | none => simp
  | some agree =>
    cases agree with
    | false => simp
    | true =>
      have haggregated := aggregatesAgree_eq_true.mp haggregates
      by_cases hlarge : i64Max < evidence.objects.length ∨ i64Max < evidence.totalBytes
      · simp only [if_pos hlarge]
        constructor
        · rintro ⟨_, hrun⟩
          simp at hrun
        · rintro ⟨-, hcount, hbytes, -⟩
          omega
      · obtain ⟨hash, hhash⟩ := Option.isSome_iff_exists.mp (aggregate_isSome haggregated)
        simp only [if_neg hlarge, hhash, Option.some.injEq, insertCollectorRun_isOk, h.target,
          exists_run_of_healthy h.source, true_and, and_true, CollectorRun.allowed]
        simp [Nat.not_lt.mp (not_or.mp hlarge).1, Nat.not_lt.mp (not_or.mp hlarge).2]

theorem insertBuiltSnapshot_isOk {snapshotId : Uuid} {now : Time} {source : SnapshotSource}
    {parentSnapshotId : Option Uuid} {bundle manifest : BlobRef}
    {bundleHash manifestHash refsHash : Digest} {fresh : ℕ → Uuid} {clock : ℕ → Time}
    (hsource : db.healthySource source = true)
    (hparent : db.parentPresent source parentSnapshotId = true)
    (hbundle : StorableRef bundle) (hmanifest : StorableRef manifest)
    (hbundleMedia : bundle.mediaType = "application/vnd.git.bundle")
    (hmanifestMedia : manifest.mediaType = "application/json") :
    (∃ rows, insertBuiltSnapshot db fresh clock snapshotId now source parentSnapshotId bundle
        manifest bundleHash manifestHash refsHash (some evidence) bundle.sizeBytes
        manifest.sizeBytes = .ok rows) ↔
      claimed db (clock 0) bundleHash = false ∧ claimed db (clock 1) manifestHash = false ∧
        (∀ object ∈ evidence.objects, StorableObject object) ∧
        (evidence.objects.map (·.oid)).Nodup ∧
        Unclaimed db clock 2 (evidence.objects.map (·.oid)) := by
  have hbundleLength : 1 ≤ bundle.mediaType.length ∧ bundle.mediaType.length ≤ 255 := by
    rw [hbundleMedia]
    decide
  have hmanifestLength : 1 ≤ manifest.mediaType.length ∧ manifest.mediaType.length ≤ 255 := by
    rw [hmanifestMedia]
    decide
  simp only [insertBuiltSnapshot, hsource, hparent, Bool.true_eq_false, if_false, bind_eq_ok,
    nextArtifact_eq_ok, Option.map_some, Option.getD_some]
  constructor
  · rintro ⟨rows, _, ⟨hbundleFree, -, -, -, rfl⟩, _, ⟨hmanifestFree, -, -, -, rfl⟩, rows', hobjects,
      -⟩
    obtain ⟨hstorable, hnodup, -, hfree⟩ := insertLfsArtifacts_isOk.mp ⟨rows', hobjects⟩
    exact ⟨hbundleFree, hmanifestFree, hstorable, hnodup, hfree⟩
  · rintro ⟨hbundleFree, hmanifestFree, hstorable, hnodup, hfree⟩
    -- both references are appended first, and no object
    have hobjects : ∀ rows : BuiltRows, rows.artifacts.length = 2 → rows.lfsObjects = [] →
        ∃ rows', insertLfsArtifacts db fresh clock rows evidence.objects = .ok rows' := by
      intro rows hlength hnone
      refine insertLfsArtifacts_isOk.mpr ⟨hstorable, hnodup, ?_, hlength ▸ hfree⟩
      rw [hnone]
      exact fun _ _ known hknown => absurd hknown List.not_mem_nil
    have hallowed : manifestAllowed ⟨snapshotId, manifestHash, manifest.owner, manifest.mediaType,
        manifest.sizeBytes⟩ = true := by
      simp [manifestAllowed, hmanifest.1, hmanifestMedia, hmanifest.2.2.2.1]
    exact ⟨_, _, ⟨hbundleFree, hbundle.1, hbundleLength, hbundle.2.2.2.1, rfl⟩, _,
      ⟨hmanifestFree, hmanifest.1, hmanifestLength, hmanifest.2.2.2.1, rfl⟩, _,
      (hobjects _ rfl rfl).choose_spec, if_pos hallowed⟩

theorem builtSnapshot_isOk (h : recording.Ready db) :
    (∃ rows, recording.builtSnapshot primitives overflowChecks db evidence = some (.ok rows)) ↔
      Aggregated primitives overflowChecks evidence ∧
        (∀ object ∈ evidence.objects, StorableObject object) ∧
        (evidence.objects.map (·.oid)).Nodup ∧
        Unclaimed db recording.clock 0 (recording.digests evidence) := by
  rw [← aggregatesAgree_eq_true]
  obtain ⟨⟨_, _, refsHash⟩, hreferences⟩ := h.references
  have hchecks := hreferences
  simp only [checkReferences, bind_eq_ok, ite_error_eq_ok, snapshotDigest_eq_ok,
    validateBlobRef_eq_ok, Except.ok.injEq, Prod.mk.injEq, not_or, not_not, ne_eq] at hchecks
  obtain ⟨bundleHash, hbundleHash, manifestHash, hmanifestHash, _, -, -, hbundle, -, hmanifest, ⟨hbundleMedia,
    hmanifestMedia⟩, rfl, rfl, rfl⟩ := hchecks
  simp only [builtSnapshot, recordBuiltSnapshot, hreferences, validateLfsEvidence]
  cases haggregates : aggregatesAgree primitives overflowChecks evidence with
  | none => simp
  | some agree =>
    cases agree with
    | false => simp
    | true =>
      have hsizes : ∀ {reference : BlobRef} {size : ℕ}, StorableRef reference →
          (checkedSize reference.sizeBytes = .ok size ↔ size = reference.sizeBytes) :=
        fun h => checkedSize_eq_ok.trans ⟨fun hsize => hsize.1, fun hsize => ⟨hsize, h.2.2.2⟩⟩
      simp only [Option.map_some, if_true, Option.some.injEq, bind_eq_ok, hsizes hbundle,
        hsizes hmanifest, exists_eq_left, true_and, digests, unclaimed_cons, hbundleHash,
        hmanifestHash, forall_eq']
      rw [insertBuiltSnapshot_isOk h.source h.parent hbundle hmanifest hbundleMedia hmanifestMedia]
      tauto

end

end Recording

section

variable {KeyPair : Type} (primitives : Primitives KeyPair) (overflowChecks : Bool) (db : Db)
  (recording : Recording) (evidence : LfsEvidence)

/-- Both records take the evidence. -/
def Recorded : Prop :=
  (∃ run, recording.lfsCollection primitives overflowChecks db evidence = some (.ok run)) ∧
    ∃ rows, recording.builtSnapshot primitives overflowChecks db evidence = some (.ok rows)

/-- The sum of the sizes as a number. -/
def totalSize : ℕ := (evidence.objects.map (·.blob.sizeBytes)).sum

/-- What the records ask of evidence, of the texts and sizes and of the deletions under way. -/
structure Recordable : Prop where
  aggregated : Aggregated primitives overflowChecks evidence
  objects : ∀ object ∈ evidence.objects, StorableObject object
  distinct : (evidence.objects.map (·.oid)).Nodup
  counts : evidence.objects.length ≤ i64Max ∧ evidence.totalBytes ≤ i64Max
  toolVersion : isStorable evidence.toolVersion = true
  unclaimed : Unclaimed db recording.clock 0 (recording.digests evidence)

/-- Evidence that a manifest takes and a record does not. -/
def RecordsRefuse : Prop :=
  validLfs primitives evidence = true ∧
    ((∃ object ∈ evidence.objects, object.blob.sizeBytes = 0) ∨ i64Max < totalSize evidence ∨
      isStorable evidence.toolVersion = false ∨
      ¬ Unclaimed db recording.clock 0 (recording.digests evidence))

/-- Evidence that both records take and no manifest does. -/
def ManifestRefuses : Prop :=
  Recordable primitives overflowChecks db recording evidence ∧
    (evidence.toolVersion = "" ∨ ¬ (evidence.objects.map (·.oid)).IsChain (· < ·) ∨
      u64Max < totalSize evidence)

/-- The three readers of the evidence agree; no sum overflows on the way, and the totals are the
same. -/
structure ValidatorsAgree (build : Option LfsEvidence → Except ManifestError SnapshotManifest) :
    Prop where
  recorded : ∀ manifest, build (some evidence) = .ok manifest →
    Recorded primitives overflowChecks db recording evidence ∧ totalSize evidence ≤ u64Max
  manifested : Recorded primitives overflowChecks db recording evidence →
    ∃ manifest, build (some evidence) = .ok manifest
  totals : ((∃ manifest, build (some evidence) = .ok manifest) ∨
      Recorded primitives overflowChecks db recording evidence) →
    iteratorTotal overflowChecks evidence.objects = some (saturatingTotal evidence.objects)

end

section

variable {KeyPair : Type} {primitives : Primitives KeyPair} {overflowChecks : Bool} {db : Db}
  {recording : Recording} {evidence : LfsEvidence}

theorem recorded_iff (h : recording.Ready db) :
    Recorded primitives overflowChecks db recording evidence ↔
      Recordable primitives overflowChecks db recording evidence := by
  unfold Recorded
  rw [Recording.lfsCollection_isOk h, Recording.builtSnapshot_isOk h]
  constructor
  · rintro ⟨⟨haggregated, hcount, hbytes, hversion⟩, -, hobjects, hdistinct, hunclaimed⟩
    exact ⟨haggregated, hobjects, hdistinct, ⟨hcount, hbytes⟩, hversion, hunclaimed⟩
  · rintro ⟨haggregated, hobjects, hdistinct, ⟨hcount, hbytes⟩, hversion, hunclaimed⟩
    exact ⟨⟨haggregated, hcount, hbytes, hversion⟩, haggregated, hobjects, hdistinct, hunclaimed⟩

theorem validLfs_iff : validLfs primitives evidence = true ↔
    evidence.toolVersion ≠ "" ∧ evidence.totalBytes = min (totalSize evidence) u64Max ∧
      evidence.aggregateSha256 = canonicalLfsDigest primitives evidence.objects ∧
      (∀ object ∈ evidence.objects, Collected object) ∧
      (evidence.objects.map (·.oid)).IsChain (· < ·) := by
  unfold validLfs totalSize
  rw [← saturatingTotal_eq]
  simp only [Bool.and_eq_true, beq_iff_eq, validLfsObjects_iff, Option.toList_none,
    List.nil_append, Bool.not_eq_true', ← Bool.not_eq_true, String.isEmpty_iff, ne_eq, and_assoc]

theorem totals_of_fits (h : totalSize evidence ≤ u64Max) :
    iteratorTotal overflowChecks evidence.objects = some (saturatingTotal evidence.objects) := by
  unfold totalSize at h
  rw [iteratorTotal, machineSum_of_le h, saturatingTotal_eq, Nat.min_eq_left h]

theorem u64_of_i64 {n : ℕ} (h : n ≤ i64Max) : n ≤ u64Max :=
  h.trans (by decide)

variable (overflowChecks) in
/-- Evidence of a manifest that no record refuses meets every demand of the records. -/
theorem recordable_of_valid (hvalid : validLfs primitives evidence = true)
    (h : ¬ RecordsRefuse primitives db recording evidence) :
    Recordable primitives overflowChecks db recording evidence ∧
      totalSize evidence ≤ i64Max := by
  have hno := not_and.mp h hvalid
  push Not at hno
  obtain ⟨hsizes, htotal, hversion, hunclaimed⟩ := hno
  obtain ⟨-, hbytes, haggregate, hcollected, hchain⟩ := validLfs_iff.mp hvalid
  have hfits := u64_of_i64 htotal
  rw [Nat.min_eq_left hfits] at hbytes
  have hpositive : ∀ object ∈ evidence.objects, 0 < object.blob.sizeBytes :=
    fun object hobject => Nat.pos_of_ne_zero (hsizes object hobject)
  have hlength : evidence.objects.length ≤ totalSize evidence := by
    have hcount := List.length_le_sum_of_one_le (evidence.objects.map (·.blob.sizeBytes)) (by
      intro size hsize
      obtain ⟨object, hobject, rfl⟩ := List.mem_map.mp hsize
      exact hpositive object hobject)
    rwa [List.length_map] at hcount
  refine ⟨⟨⟨haggregate, ?_, fun _ => hfits⟩, fun object hobject => ?_, ?_, ⟨?_, ?_⟩, ?_, hunclaimed⟩,
    htotal⟩
  · rw [hbytes]
    exact (Nat.mod_eq_of_lt (Nat.lt_succ_iff.mpr hfits)).symm
  · have hsize : object.blob.sizeBytes ≤ totalSize evidence :=
      List.le_sum_of_mem (List.mem_map_of_mem hobject)
    exact ⟨hcollected object hobject, hpositive object hobject, hsize.trans htotal⟩
  · exact (List.isChain_iff_pairwise.mp hchain).imp fun hlt => ne_of_lt hlt
  · exact hlength.trans htotal
  · exact hbytes ▸ htotal
  · simpa using hversion

/-- Evidence that the records take is a manifest's, unless it is one that no manifest takes. -/
theorem valid_of_recordable (hrecordable : Recordable primitives overflowChecks db recording evidence)
    (h : ¬ ManifestRefuses primitives overflowChecks db recording evidence) :
    validLfs primitives evidence = true ∧ totalSize evidence ≤ u64Max := by
  have hno := not_and.mp h hrecordable
  push Not at hno
  obtain ⟨hversion, hchain, hfits⟩ := hno
  obtain ⟨haggregate, hbytes, -⟩ := hrecordable.aggregated
  have htotal : evidence.totalBytes = totalSize evidence :=
    hbytes.trans (Nat.mod_eq_of_lt (Nat.lt_succ_iff.mpr hfits))
  refine ⟨validLfs_iff.mpr ⟨hversion, ?_, haggregate, fun object hobject => ?_, hchain⟩, hfits⟩
  · rw [htotal, Nat.min_eq_left hfits]
  · exact (hrecordable.objects object hobject).1

theorem not_recordable_of_refused (hrefused : RecordsRefuse primitives db recording evidence) :
    ¬ Recordable primitives overflowChecks db recording evidence := by
  intro h
  obtain ⟨hvalid, ⟨object, hobject, hzero⟩ | hlarge | hversion | hclaimed⟩ := hrefused
  · exact absurd hzero (Nat.ne_of_gt (h.objects object hobject).2.1)
  · have hbytes := (validLfs_iff.mp hvalid).2.1
    have hbound := h.counts.2
    have hmax : i64Max < u64Max := by decide
    omega
  · exact absurd h.toolVersion (by simp [hversion])
  · exact hclaimed h.unclaimed

theorem not_valid_of_refused
    (hrefused : ManifestRefuses primitives overflowChecks db recording evidence) :
    validLfs primitives evidence ≠ true := by
  intro hvalid
  obtain ⟨hversion, hbytes, -, -, hchain⟩ := validLfs_iff.mp hvalid
  obtain ⟨hrecordable, hempty | hunordered | hlarge⟩ := hrefused
  · exact hversion hempty
  · exact hunordered hchain
  · have hbound := hrecordable.counts.2
    have hmax : i64Max < u64Max := by decide
    omega

end

/-- The validators agree exactly on the evidence that is of neither kind. -/
theorem validators_agree_iff {KeyPair : Type} (primitives : Primitives KeyPair)
    (hsound : primitives.Sound) (overflowChecks : Bool) (db : Db) (recording : Recording)
    (hready : recording.Ready db) (evidence : LfsEvidence) (generatorVersion createdAt : String)
    (refs : List RefEvidence) (bundles : List BlobRef) (parentManifest : Option BlobRef)
    (signer : KeyPair) :
    ValidatorsAgree primitives overflowChecks db recording evidence (fun lfs =>
        SnapshotManifest.new primitives generatorVersion refs bundles parentManifest createdAt lfs
          signer) ↔
      ¬ RecordsRefuse primitives db recording evidence ∧
        ¬ ManifestRefuses primitives overflowChecks db recording evidence := by
  have hbuild : (∃ manifest, SnapshotManifest.new primitives generatorVersion refs bundles
      parentManifest createdAt (some evidence) signer = .ok manifest) ↔
        validLfs primitives evidence = true := by
    rw [exists_new hsound]
    simp
  constructor
  · intro h
    constructor
    · intro hrefused
      obtain ⟨manifest, hmanifest⟩ := hbuild.mpr hrefused.1
      have hrecorded := (h.recorded manifest hmanifest).1
      exact not_recordable_of_refused hrefused ((recorded_iff hready).mp hrecorded)
    · intro hrefused
      have hmanifest := h.manifested ((recorded_iff hready).mpr hrefused.1)
      exact not_valid_of_refused hrefused (hbuild.mp hmanifest)
  · rintro ⟨hrecords, hmanifest⟩
    have hvalid : Recorded primitives overflowChecks db recording evidence →
        validLfs primitives evidence = true := fun hrecorded =>
      (valid_of_recordable ((recorded_iff hready).mp hrecorded) hmanifest).1
    have hfits : validLfs primitives evidence = true → totalSize evidence ≤ u64Max :=
      fun hvalid => u64_of_i64 (recordable_of_valid overflowChecks hvalid hrecords).2
    refine ⟨fun manifest hbuilt => ?_, fun hrecorded => hbuild.mpr (hvalid hrecorded),
      fun haccepted => totals_of_fits (hfits ?_)⟩
    · have haccepted := hbuild.mp ⟨manifest, hbuilt⟩
      have hrecordable := (recordable_of_valid overflowChecks haccepted hrecords).1
      exact ⟨(recorded_iff hready).mpr hrecordable, hfits haccepted⟩
    · rcases haccepted with hbuilt | hrecorded
      · exact hbuild.mp hbuilt
      · exact hvalid hrecorded

namespace Sample

/-- A healthy mirror with one successful run. -/
def mirrored : Db :=
  { targets :=
      [{ targetId := 1
         provider := "github"
         externalRepositoryId := "42"
         status := .healthy }]
    mirrors :=
      [{ mirrorId := 2
         targetId := 1
         status := .ready
         storagePath := "mirrors/01/1.git"
         fsckResult := .ok }]
    mirrorRuns := [{ runId := 3, targetId := 1, outcome := .succeeded }] }

def recording : Recording :=
  { collectorRunId := 10
    snapshotId := 11
    now := 100
    source := { targetId := 1, mirrorId := 2, mirrorLifecycleRunId := 3 }
    parentSnapshotId := none
    bundle := blob "application/vnd.git.bundle" '3' 42
    manifest := blob "application/json" '6' 900
    refsHash := String.ofList (List.replicate 64 '7')
    fresh := fun i => 12 + i
    clock := fun _ => 100 }

def collected (objects : List LfsObjectEvidence) : LfsEvidence :=
  LfsEvidence.new vault "git-lfs/3.7.0" objects

theorem recording_ready : recording.Ready mirrored := by
  constructor
  · decide
  · decide
  · rfl
  · have hisSome : (checkReferences recording.bundle recording.manifest
        recording.refsHash).toOption.isSome = true := by
      decide +kernel
    cases hdigests : checkReferences recording.bundle recording.manifest recording.refsHash with
    | error e =>
      rw [hdigests] at hisSome
      cases hisSome
    | ok digests => exact ⟨digests, rfl⟩

theorem unclaimed_mirrored (clock : ℕ → Time) (n : ℕ) (digests : List String) :
    Unclaimed mirrored clock n digests :=
  fun _ _ _ _ _ => rfl

end Sample

open Sample in
theorem validators_agree_iff_two_objects :
    ValidatorsAgree vault true mirrored recording (collected [object '5' 7, object '4' 5])
      (fun lfs => SnapshotManifest.new vault "0.1.0" [] [] none "2026-08-26T00:00:00Z" lfs ()) := by
  have hvalid : validLfs vault (collected [object '5' 7, object '4' 5]) = true := by
    refine (validLfs_new (by decide +kernel)).mpr ⟨by decide, ?_⟩
    simpa using ⟨collected_object (by decide) 7, collected_object (by decide) 5⟩
  have htotal : totalSize (collected [object '5' 7, object '4' 5]) = 12 := by decide +kernel
  refine (validators_agree_iff vault vault_sound true mirrored recording recording_ready
    (collected [object '5' 7, object '4' 5]) "0.1.0" "2026-08-26T00:00:00Z" [] [] none ()).mpr
    ⟨?_, ?_⟩
  · rintro ⟨-, ⟨object, hobject, hzero⟩ | hlarge | hversion | hclaimed⟩
    · revert hzero
      have hall : ∀ object ∈ (collected [Sample.object '5' 7, Sample.object '4' 5]).objects,
          object.blob.sizeBytes ≠ 0 := by
        decide +kernel
      exact hall object hobject
    · rw [htotal] at hlarge
      revert hlarge
      decide
    · revert hversion
      decide +kernel
    · exact hclaimed (unclaimed_mirrored _ _ _)
  · rintro ⟨-, hempty | hunordered | hlarge⟩
    · revert hempty
      decide
    · exact hunordered (validLfs_iff.mp hvalid).2.2.2.2
    · rw [htotal] at hlarge
      revert hlarge
      decide

open Sample in
/-- An empty file is signed in a manifest, and its snapshot cannot be recorded. -/
theorem empty_object_is_not_recorded :
    recording.Ready mirrored ∧
      ¬ ValidatorsAgree vault true mirrored recording (collected [object '4' 0]) (fun lfs =>
        SnapshotManifest.new vault "0.1.0" [] [] none "2026-08-26T00:00:00Z" lfs ()) := by
  refine ⟨recording_ready, fun h => ?_⟩
  have hvalid : validLfs vault (collected [object '4' 0]) = true := by
    refine (validLfs_new (by decide +kernel)).mpr ⟨by decide, ?_⟩
    simpa using collected_object (by decide) 0
  obtain ⟨manifest, hmanifest⟩ : ∃ manifest, SnapshotManifest.new vault "0.1.0" [] [] none
      "2026-08-26T00:00:00Z" (some (collected [object '4' 0])) () = .ok manifest := by
    refine (exists_new vault_sound).mpr ?_
    rintro _ ⟨⟩
    exact hvalid
  have hrecordable := (recorded_iff recording_ready).mp (h.recorded manifest hmanifest).1
  refine not_recordable_of_refused ⟨hvalid, Or.inl ⟨object '4' 0, ?_, rfl⟩⟩ hrecordable
  decide +kernel

end RatatoskrVault.Manifest
