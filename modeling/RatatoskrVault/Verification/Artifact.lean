import RatatoskrVault.Blobstore.Local

/-! `ArtifactVerifier::verify`: the manifest of a snapshot, its signed parent chain, and every
artifact the manifest names, re-read from the local store. Identifiers and times of a report are
left out. -/
namespace RatatoskrVault

inductive ReportOutcome
  | passed | failed
  deriving DecidableEq

inductive VerificationFailure
  | hashMismatch | manifestInvalid | bundleInvalid | isolationFailed | refMismatch
  | replicaUnavailable | lfsInvalid
  deriving DecidableEq

structure StageReport where
  stage : String
  passed : Bool
  deriving DecidableEq

structure VerificationReport where
  snapshotId : Uuid
  manifest : BlobRef
  outcome : ReportOutcome
  failure : Option VerificationFailure
  stages : List StageReport
  checkedArtifacts : List BlobRef
  expectedRefCount : ℕ
  expectedRefSetSha256 : String
  expectedLfsObjectCount : Option ℕ
  expectedLfsBytes : Option ℕ
  expectedLfsAggregateSha256 : Option String
  deriving DecidableEq

/-- The artifacts a manifest names. -/
def SnapshotManifest.contents (evidence : SnapshotManifest) : List BlobRef :=
  evidence.bundles ++ (evidence.lfs.map fun lfs => lfs.objects.map (·.blob)).getD []

structure ArtifactVerifier where
  store : LocalBlobStore
  trustedKeys : List ManifestVerificationKey
  maxChainDepth : ℕ

/-- The checks made so far, and the failure of the last one. -/
structure ArtifactChecks where
  checked : List BlobRef
  stages : List StageReport
  failure : Option VerificationFailure

namespace ArtifactVerifier

variable (cx : Crypto) (verifier : ArtifactVerifier)

def loadManifest (reference : BlobRef) : Except ManifestError SnapshotManifest :=
  match verifier.store.verify cx reference, verifier.store.files reference.sha256 with
  | .error _, _ => .error .missingManifest
  | .ok (), none => .error .missingManifest
  | .ok (), some bytes =>
    match cx.decode bytes with
    | none => .error .serialization
    | some manifest => .ok manifest

def blobPasses (reference : BlobRef) : Bool := (verifier.store.verify cx reference).isOk

/-- One `record_blob_check` for each reference, up to the first that fails. -/
def recordChecks (stage : String) (failure : VerificationFailure) :
    List BlobRef → ArtifactChecks → ArtifactChecks
  | [], checks => checks
  | reference :: rest, checks =>
    let passed := verifier.blobPasses cx reference
    let checks :=
      { checks with
        checked := checks.checked ++ [reference]
        stages := checks.stages ++ [{ stage, passed }] }
    if passed then recordChecks stage failure rest checks
    else { checks with failure := some failure }

def recordArtifactChecks (evidence : SnapshotManifest) (stages : List StageReport) :
    ArtifactChecks :=
  let bundles := verifier.recordChecks cx "bundle_hash" .hashMismatch evidence.bundles
    { checked := [], stages, failure := none }
  match bundles.failure, evidence.lfs with
  | none, some lfs =>
    verifier.recordChecks cx "lfs_object_hash" .lfsInvalid (lfs.objects.map (·.blob)) bundles
  | _, _ => bundles

/-- `verify_manifest_chain` from a manifest of the store. -/
def chain (manifest : BlobRef) : Except ManifestError (List BlobRef) :=
  verifyManifestChain cx manifest verifier.trustedKeys verifier.maxChainDepth
    (verifier.loadManifest cx)

def terminalVerificationReport (snapshotId : Uuid) (manifest : BlobRef)
    (stages : List StageReport) (checkedArtifacts : List BlobRef)
    (evidence : Option SnapshotManifest) (failure : VerificationFailure) : VerificationReport :=
  { snapshotId
    manifest
    outcome := .failed
    failure := some failure
    stages
    checkedArtifacts
    expectedRefCount := (evidence.map fun value => value.refs.length).getD 0
    expectedRefSetSha256 :=
      hexDigest ((evidence.map fun value => value.refSetSha256).getD (canonicalRefDigest cx []))
    expectedLfsObjectCount := (evidence.bind (·.lfs)).map fun lfs => lfs.objects.length
    expectedLfsBytes := (evidence.bind (·.lfs)).map fun lfs => lfs.totalBytes
    expectedLfsAggregateSha256 :=
      (evidence.bind (·.lfs)).map fun lfs => hexDigest lfs.aggregateSha256 }

def verify (snapshotId : Uuid) (manifest : BlobRef) : VerificationReport :=
  let passed := verifier.blobPasses cx manifest
  let stages : List StageReport := [{ stage := "manifest_hash", passed }]
  if !passed then
    terminalVerificationReport cx snapshotId manifest stages [] none .hashMismatch
  else
    match verifier.loadManifest cx manifest with
    | .error _ => terminalVerificationReport cx snapshotId manifest stages [] none .manifestInvalid
    | .ok evidence =>
      let chain := verifier.chain cx manifest
      let stages := stages ++ [{ stage := "manifest_chain", passed := chain.isOk }]
      match chain with
      | .error _ =>
        terminalVerificationReport cx snapshotId manifest stages [] (some evidence)
          .manifestInvalid
      | .ok _ =>
        let checks := verifier.recordArtifactChecks cx evidence stages
        match checks.failure with
        | some failure =>
          terminalVerificationReport cx snapshotId manifest checks.stages checks.checked
            (some evidence) failure
        | none =>
          { snapshotId
            manifest
            outcome := .passed
            failure := none
            stages := checks.stages
            checkedArtifacts := checks.checked
            expectedRefCount := evidence.refs.length
            expectedRefSetSha256 := hexDigest evidence.refSetSha256
            expectedLfsObjectCount := evidence.lfs.map fun lfs => lfs.objects.length
            expectedLfsBytes := evidence.lfs.map fun lfs => lfs.totalBytes
            expectedLfsAggregateSha256 :=
              evidence.lfs.map fun lfs => hexDigest lfs.aggregateSha256 }

def passes (snapshotId : Uuid) (manifest : BlobRef) : Bool :=
  (verifier.verify cx snapshotId manifest).outcome == .passed

variable {cx verifier}

theorem blobPasses_of_loadManifest {reference : BlobRef} {evidence : SnapshotManifest}
    (h : verifier.loadManifest cx reference = .ok evidence) :
    verifier.blobPasses cx reference = true := by
  unfold loadManifest at h
  unfold blobPasses
  cases hverify : verifier.store.verify cx reference with
  | error e => rw [hverify] at h; cases h
  | ok _ => rfl

/-- A manifest is loaded from a file with the digest it is referenced by. -/
theorem file_of_loadManifest {reference : BlobRef} {evidence : SnapshotManifest}
    (h : verifier.loadManifest cx reference = .ok evidence) :
    ∃ bytes, verifier.store.files reference.sha256 = some bytes ∧
      cx.sha256 bytes = reference.sha256 ∧ cx.decode bytes = some evidence := by
  unfold loadManifest at h
  cases hverify : verifier.store.verify cx reference with
  | error e => rw [hverify] at h; cases h
  | ok _ =>
    cases hfile : verifier.store.files reference.sha256 with
    | none => rw [hverify, hfile] at h; cases h
    | some bytes =>
      rw [hverify, hfile] at h
      simp only at h
      refine ⟨bytes, rfl, verifier.store.sha256_of_verify cx hfile hverify, ?_⟩
      cases hdecode : cx.decode bytes with
      | none => rw [hdecode] at h; cases h
      | some manifest => rw [hdecode] at h; cases h; rfl

theorem recordChecks_failure (stage : String) (failure : VerificationFailure)
    (references : List BlobRef) {checks : ArtifactChecks} (hchecks : checks.failure = none) :
    (verifier.recordChecks cx stage failure references checks).failure = none ↔
      ∀ reference ∈ references, verifier.blobPasses cx reference = true := by
  induction references generalizing checks with
  | nil => simpa [recordChecks] using hchecks
  | cons reference rest ih =>
    simp only [recordChecks]
    split_ifs with hpassed
    · refine (ih ?_).trans ?_
      · exact hchecks
      · simp [hpassed]
    · simp [hpassed]

theorem recordArtifactChecks_failure (evidence : SnapshotManifest) (stages : List StageReport) :
    (verifier.recordArtifactChecks cx evidence stages).failure = none ↔
      ∀ reference ∈ evidence.contents, verifier.blobPasses cx reference = true := by
  have hbundles : (verifier.recordChecks cx "bundle_hash" .hashMismatch evidence.bundles
      { checked := [], stages, failure := none }).failure = none ↔
      ∀ reference ∈ evidence.bundles, verifier.blobPasses cx reference = true :=
    recordChecks_failure _ _ _ rfl
  unfold recordArtifactChecks SnapshotManifest.contents
  simp only [List.mem_append, or_imp, forall_and]
  cases hfailure : (verifier.recordChecks cx "bundle_hash" .hashMismatch evidence.bundles
      { checked := [], stages, failure := none }).failure with
  | none =>
    have hpassed := hbundles.mp hfailure
    cases hlfs : evidence.lfs with
    | none => simpa [hfailure] using hpassed
    | some lfs =>
      simp only [Option.map_some, Option.getD_some]
      rw [recordChecks_failure _ _ _ hfailure]
      exact ⟨fun h => ⟨hpassed, h⟩, fun h => h.2⟩
  | some failure =>
    have hnot : ¬ ∀ reference ∈ evidence.bundles, verifier.blobPasses cx reference = true :=
      fun hall => by
        rw [hbundles.mpr hall] at hfailure
        cases hfailure
    simp only [hfailure, reduceCtorEq, false_iff]
    exact fun h => hnot h.1

theorem recordChecks_checked (stage : String) (failure : VerificationFailure)
    (references : List BlobRef) {checks : ArtifactChecks}
    (h : ∀ reference ∈ references, verifier.blobPasses cx reference = true) :
    (verifier.recordChecks cx stage failure references checks).checked
      = checks.checked ++ references := by
  induction references generalizing checks with
  | nil => simp [recordChecks]
  | cons reference rest ih =>
    simp only [recordChecks, h reference (List.mem_cons_self ..), if_true]
    rw [ih fun other hmem => h other (List.mem_cons_of_mem _ hmem)]
    simp

/-- Where every check passes, all that the manifest names has been checked. -/
theorem recordArtifactChecks_checked {evidence : SnapshotManifest} {stages : List StageReport}
    (h : (verifier.recordArtifactChecks cx evidence stages).failure = none) :
    (verifier.recordArtifactChecks cx evidence stages).checked = evidence.contents := by
  have hall := (recordArtifactChecks_failure evidence stages).mp h
  have hbundles : ∀ reference ∈ evidence.bundles, verifier.blobPasses cx reference = true :=
    fun reference hmem => hall reference (List.mem_append_left _ hmem)
  have hfailure : (verifier.recordChecks cx "bundle_hash" .hashMismatch evidence.bundles
      { checked := [], stages, failure := none }).failure = none :=
    (recordChecks_failure "bundle_hash" .hashMismatch evidence.bundles rfl).mpr hbundles
  have hchecked : (verifier.recordChecks cx "bundle_hash" .hashMismatch evidence.bundles
      { checked := [], stages, failure := none }).checked = [] ++ evidence.bundles :=
    recordChecks_checked "bundle_hash" .hashMismatch evidence.bundles hbundles
  unfold recordArtifactChecks SnapshotManifest.contents
  simp only [hfailure]
  cases hlfs : evidence.lfs with
  | none => simpa using hchecked
  | some lfs =>
    simp only [Option.map_some, Option.getD_some]
    rw [recordChecks_checked _ _ _ fun reference hmem => ?_, hchecked, List.nil_append]
    refine hall reference (List.mem_append_right _ ?_)
    rw [hlfs]
    exact hmem

/-- The report of a snapshot that passes, with what it has checked. -/
theorem passed_report {snapshotId : Uuid} {manifest : BlobRef}
    (h : (verifier.verify cx snapshotId manifest).outcome = .passed) :
    (verifier.verify cx snapshotId manifest).manifest = manifest ∧
      ∃ evidence, verifier.loadManifest cx manifest = .ok evidence ∧
        (verifier.verify cx snapshotId manifest).checkedArtifacts = evidence.contents ∧
        ∀ reference ∈ evidence.contents, verifier.blobPasses cx reference = true := by
  unfold verify at h ⊢
  simp only at h ⊢
  split_ifs at h ⊢ with hpasses
  · cases h
  split at h
  · cases h
  rename_i evidence hload
  split at h
  · cases h
  rename_i references hchain
  split at h
  · cases h
  rename_i hfailure
  rw [hchain] at hfailure
  simp only [hload, hchain]
  exact ⟨trivial, evidence, rfl, recordArtifactChecks_checked hfailure,
    (recordArtifactChecks_failure evidence _).mp hfailure⟩

/-- A snapshot passes when its manifest, the chain of its parents and all it names are stored. -/
theorem passes_iff {snapshotId : Uuid} {manifest : BlobRef} :
    verifier.passes cx snapshotId manifest = true ↔
      ∃ evidence references, verifier.loadManifest cx manifest = .ok evidence ∧
        verifier.chain cx manifest = .ok references ∧
        ∀ reference ∈ evidence.contents, verifier.blobPasses cx reference = true := by
  unfold passes verify
  rw [beq_iff_eq]
  cases hload : verifier.loadManifest cx manifest with
  | error e =>
    simp only [reduceCtorEq, false_and, exists_const]
    split_ifs <;> simp [terminalVerificationReport]
  | ok evidence =>
    simp only [blobPasses_of_loadManifest hload, Bool.not_true, Bool.false_eq_true, if_false,
      Except.ok.injEq]
    cases hchain : verifier.chain cx manifest with
    | error e => simp [terminalVerificationReport]
    | ok references =>
      simp only [Except.ok.injEq]
      generalize hstages : ([{ stage := "manifest_hash", passed := true }] ++
        [{ stage := "manifest_chain", passed := (Except.ok references : Except ManifestError
          (List BlobRef)).isOk }] : List StageReport) = stages
      have hfailure : (verifier.recordArtifactChecks cx evidence stages).failure = none ↔
          ∀ reference ∈ evidence.contents, verifier.blobPasses cx reference = true :=
        recordArtifactChecks_failure evidence stages
      cases hresult : (verifier.recordArtifactChecks cx evidence stages).failure with
      | none => simpa [hresult] using hfailure.mp hresult
      | some failure =>
        rw [hresult] at hfailure
        simpa [terminalVerificationReport] using hfailure

/-- A snapshot that passes still passes in a store that has kept the files it rests on. -/
theorem passes_of_agree (verifier : ArtifactVerifier) {verifier' : ArtifactVerifier}
    {snapshotId : Uuid} {manifest : BlobRef}
    (hkeys : verifier'.trustedKeys = verifier.trustedKeys)
    (hdepth : verifier'.maxChainDepth = verifier.maxChainDepth)
    (hmax : verifier'.store.maxBytes = verifier.store.maxBytes)
    (hfiles : ∀ evidence references, verifier.loadManifest cx manifest = .ok evidence →
      verifier.chain cx manifest = .ok references → ∀ reference ∈ references ++ evidence.contents,
      verifier'.store.files reference.sha256 = verifier.store.files reference.sha256)
    (h : verifier.passes cx snapshotId manifest = true) :
    verifier'.passes cx snapshotId manifest = true := by
  obtain ⟨evidence, references, hevidence, hchain, hcontents⟩ := passes_iff.mp h
  have hfile := hfiles evidence references hevidence hchain
  have hload : ∀ reference ∈ references,
      verifier'.loadManifest cx reference = verifier.loadManifest cx reference := by
    intro reference hmem
    have hsame := hfile reference (List.mem_append_left _ hmem)
    unfold loadManifest
    rw [LocalBlobStore.verify_congr cx hmax hsame, hsame]
  have hhead : manifest ∈ references := (mem_of_verifyManifestChainFrom hchain).2
  refine passes_iff.mpr ⟨evidence, references, ?_, ?_, fun reference hmem => ?_⟩
  · rw [hload manifest hhead]
    exact hevidence
  · unfold chain verifyManifestChain
    rw [hkeys, hdepth]
    exact verifyManifestChainFrom_congr hchain hload
  · have hsame := hfile reference (List.mem_append_right _ hmem)
    unfold blobPasses
    rw [LocalBlobStore.verify_congr cx hmax hsame]
    exact hcontents reference hmem

end ArtifactVerifier

end RatatoskrVault
