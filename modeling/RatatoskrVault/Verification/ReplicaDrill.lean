import RatatoskrVault.Replication.Worker
import RatatoskrVault.Verification.Durable

/-! `RestoreDrill::run_from_replica`: the bytes a verification has checked are fetched from one
replica into a store of the drill, and the drill runs on that store. -/
namespace RatatoskrVault

/-- What goes wrong outside the replica's content while one object is acquired. -/
structure AcquireFault where
  download : Option ReplicaError := none
  published : Bool := true
  deriving DecidableEq

/-- What an acquisition is told by the scratch directory and the transport. -/
structure AcquireInput where
  rootCreated : Bool
  storeCreated : Bool
  faults : List AcquireFault
  deriving DecidableEq

/-- `ReplicaStore::download_verified`, over the objects of the bucket. -/
def ReplicaStore.downloadVerified (cx : Crypto) (replica : ReplicaStore)
    (objects : String → Option RemoteObject) (reference : BlobRef) (fault : Option ReplicaError) :
    Except ReplicaError Bytes :=
  match replica.objectKey? reference, fault with
  | none, _ => .error .invalidInput
  | some _, some e => .error e
  | some key, none =>
    match objects key with
    | none => .error .notFound
    | some object =>
      match ReplicaStore.verifyRemote cx reference (some object) with
      | .error e => .error e
      | .ok () => .ok object.bytes

def ReplicaError.asFailure : ReplicaError → VerificationFailure
  | .digestMismatch | .remoteChecksumMismatch | .remoteTruncated | .remoteOversized
  | .sizeLimitExceeded => .hashMismatch
  | .invalidInput | .sourceIo | .remote | .remoteStillPresent | .notFound | .timeout
  | .cancelled => .replicaUnavailable

namespace RestoreDrill

/-- What a drill needs of a verified snapshot. -/
def required (verification : VerificationReport) : List BlobRef :=
  verification.manifest :: verification.checkedArtifacts

/-- The size limit of the store a drill downloads into. -/
def downloadLimit (verification : VerificationReport) : ℕ :=
  max ((required verification).foldl (fun limit reference => max limit reference.sizeBytes) 0) 1

section

variable (cx : Crypto) (replica : ReplicaStore) (objects : String → Option RemoteObject)

/-- Each object is downloaded and published, up to the first that fails. -/
def acquire : List BlobRef → List AcquireFault → LocalBlobStore →
    Except VerificationFailure LocalBlobStore
  | [], _, store => .ok store
  | reference :: rest, faults, store =>
    let fault := faults.head?.getD {}
    match replica.downloadVerified cx objects reference fault.download with
    | .error e => .error e.asFailure
    | .ok bytes =>
      match store.publishFile cx reference bytes, fault.published with
      | .ok store', true => acquire rest faults.tail store'
      | _, _ => .error .hashMismatch

def acquisitionFailure (failure : VerificationFailure) : DrillResult :=
  .error (fail [{ stage := "replica_acquire", passed := false }] failure)

/-- The same end, behind the stage that acquired the bytes. -/
def afterAcquisition : DrillResult → DrillResult
  | .ok (stages, refs, lfs) =>
    .ok ({ stage := "replica_acquire", passed := true } :: stages, refs, lfs)
  | .error e =>
    .error { e with stages := { stage := "replica_acquire", passed := true } :: e.stages }

/-- The bundle Git is given. -/
def operand (store : LocalBlobStore) (verification : VerificationReport) : Option Bytes :=
  match loadManifest cx store verification.manifest with
  | .error _ => none
  | .ok evidence => evidence.bundles.head?.bind fun bundle => store.files bundle.sha256

/-- A drill in which the results of Git are a function of the bundle it is given. -/
def executeOn (git : Option Bytes → DrillInput) (store : LocalBlobStore)
    (verification : VerificationReport) : DrillResult :=
  execute cx store verification (git (operand cx store verification))

def executeFromReplica (git : Option Bytes → DrillInput) (verification : VerificationReport)
    (input : AcquireInput) : DrillResult :=
  if ¬ input.rootCreated ∨ ¬ input.storeCreated then acquisitionFailure .isolationFailed
  else
    match acquire cx replica objects (required verification) input.faults
        { maxBytes := downloadLimit verification, files := fun _ => none } with
    | .error failure => acquisitionFailure failure
    | .ok downloaded => afterAcquisition (executeOn cx git downloaded verification)

/-- One drill from a replica. -/
def runFromReplica (git : Option Bytes → DrillInput) (verification : VerificationReport)
    (replicaTargetId : Uuid) (input : AcquireInput) (drillId : Uuid) (durationMillis : ℕ) :
    RestoreDrillReport :=
  buildDrillReport cx drillId verification (.replica replicaTargetId) durationMillis
    (executeFromReplica cx replica objects git verification input)

end

/-- An object that does not hold the referenced bytes: it is absent, short, long or altered. -/
def Damaged (cx : Crypto) (reference : BlobRef) : Option RemoteObject → Prop
  | none => True
  | some object => object.bytes.length ≠ reference.sizeBytes ∨
    cx.sha256 object.bytes ≠ reference.sha256

section

variable {cx : Crypto} {replica : ReplicaStore} {objects : String → Option RemoteObject}
  {store store' held : LocalBlobStore} {reference : BlobRef} {bytes : Bytes}
  {verification : VerificationReport} {references : List BlobRef} {faults : List AcquireFault}

/-- What is downloaded is the object under the derived key, and holds the referenced bytes. -/
theorem downloadVerified_ok {fault : Option ReplicaError}
    (h : replica.downloadVerified cx objects reference fault = .ok bytes) :
    ∃ key object, replica.objectKey? reference = some key ∧ objects key = some object ∧
      object.bytes = bytes ∧ bytes.length = reference.sizeBytes ∧
      cx.sha256 bytes = reference.sha256 := by
  unfold ReplicaStore.downloadVerified at h
  split at h
  · cases h
  · cases h
  · rename_i key hkey
    split at h
    · cases h
    · rename_i object hobject
      split at h
      · cases h
      · rename_i hverified
        cases h
        exact ⟨key, object, hkey, hobject, rfl, verifyRemote_ok_iff.mp hverified⟩

theorem downloadVerified_of_object {key : String} {object : RemoteObject}
    (hkey : replica.objectKey? reference = some key) (hobject : objects key = some object)
    (hlength : object.bytes.length = reference.sizeBytes)
    (hdigest : cx.sha256 object.bytes = reference.sha256) :
    replica.downloadVerified cx objects reference none = .ok object.bytes := by
  unfold ReplicaStore.downloadVerified
  simp only [hkey, hobject, verifyRemote_ok_iff.mpr ⟨hlength, hdigest⟩]

/-- A damaged object ends the acquisition. -/
theorem acquire_damaged (hmem : reference ∈ references)
    (hdamaged : ∀ key, replica.objectKey? reference = some key →
      Damaged cx reference (objects key)) :
    ∃ failure, acquire cx replica objects references faults store = .error failure := by
  induction references generalizing faults store with
  | nil => cases hmem
  | cons head rest ih =>
    unfold acquire
    simp only
    split
    · exact ⟨_, rfl⟩
    · rename_i bytes hdownload
      split
      · rcases List.mem_cons.mp hmem with rfl | hrest
        · obtain ⟨key, object, hkey, hobject, rfl, hlength, hdigest⟩ :=
            downloadVerified_ok hdownload
          have hbad := hdamaged key hkey
          rw [hobject] at hbad
          rcases hbad with hsize | hsha
          · exact absurd hlength hsize
          · exact absurd hdigest hsha
        · exact ih hrest
      · exact ⟨_, rfl⟩

/-- Every file of a store is one of the local store. -/
def Within (store held : LocalBlobStore) : Prop :=
  ∀ digest bytes, store.files digest = some bytes → held.files digest = some bytes

theorem publishFile_within (hwithin : Within store held)
    (hfile : held.files reference.sha256 = some bytes)
    (hvalid : LocalBlobStore.validateReference reference = true)
    (hlength : bytes.length = reference.sizeBytes) (hlimit : bytes.length ≤ store.maxBytes)
    (hdigest : cx.sha256 bytes = reference.sha256) :
    ∃ store', store.publishFile cx reference bytes = .ok store' ∧ Within store' held ∧
      store'.maxBytes = store.maxBytes ∧ store'.files reference.sha256 = some bytes ∧
      ∀ digest, store.files digest ≠ none → store'.files digest = store.files digest := by
  unfold LocalBlobStore.publishFile
  simp only [hvalid, hlength, hdigest, Bool.not_true, Bool.false_eq_true, if_false, bne_self_eq_false]
  rw [if_neg (by omega)]
  cases hstored : store.files reference.sha256 with
  | none =>
    refine ⟨_, rfl, fun digest found hfound => ?_, rfl, by simp, fun digest hpresent => ?_⟩
    · by_cases hsame : digest = reference.sha256
      · subst hsame
        simp only [Function.update_self, Option.some.injEq] at hfound
        rw [← hfound]
        exact hfile
      · have hold : store.files digest = some found :=
          (Function.update_of_ne hsame _ _).symm.trans hfound
        exact hwithin digest found hold
    · have hne : digest ≠ reference.sha256 := by
        rintro rfl
        exact hpresent hstored
      exact Function.update_of_ne hne _ _
  | some existing =>
    have hexisting : existing = bytes :=
      Option.some.inj ((hwithin _ _ hstored).symm.trans hfile)
    subst hexisting
    simp only [hlength, hdigest, bne_self_eq_false, Bool.false_eq_true, if_false, BEq.rfl, if_true]
    exact ⟨store, rfl, hwithin, rfl, hstored, fun _ _ => rfl⟩

/-- The object of a reference at the replica is its file in the local store. -/
structure Mirrored (cx : Crypto) (replica : ReplicaStore) (objects : String → Option RemoteObject)
    (held : LocalBlobStore) (reference : BlobRef) : Prop where
  verified : held.verify cx reference = .ok ()
  object : ∃ key object, replica.objectKey? reference = some key ∧ objects key = some object ∧
    held.files reference.sha256 = some object.bytes

/-- An acquisition without faults copies what it is asked for from the local store. -/
theorem acquire_mirrored (hclean : ∀ fault ∈ faults, fault = {}) (hwithin : Within store held)
    (h : ∀ reference ∈ references, Mirrored cx replica objects held reference ∧
      reference.sizeBytes ≤ store.maxBytes) :
    ∃ store', acquire cx replica objects references faults store = .ok store' ∧
      store'.maxBytes = store.maxBytes ∧
      (∀ digest, store.files digest ≠ none → store'.files digest = store.files digest) ∧
      ∀ reference ∈ references, store'.files reference.sha256 = held.files reference.sha256 := by
  induction references generalizing faults store with
  | nil => exact ⟨store, rfl, rfl, fun _ _ => rfl, fun _ hmem => absurd hmem List.not_mem_nil⟩
  | cons head rest ih =>
    obtain ⟨hmirrored, hlimit⟩ := h head (List.mem_cons_self ..)
    obtain ⟨key, object, hkey, hobject, hfile⟩ := hmirrored.object
    obtain ⟨hvalid, bytes, hbytes, hlength, -, hdigest⟩ :=
      (held.verify_ok_iff cx).mp hmirrored.verified
    obtain rfl : object.bytes = bytes := Option.some.inj (hfile.symm.trans hbytes)
    have hdownload := downloadVerified_of_object hkey hobject hlength hdigest
    obtain ⟨next, hpublish, hwithin', hmax, hself, hkeeps⟩ :=
      publishFile_within hwithin hfile hvalid hlength (hlength ▸ hlimit) hdigest
    have hfault : faults.head?.getD {} = {} := by
      cases faults with
      | nil => rfl
      | cons fault faults => exact hclean fault (List.mem_cons_self ..)
    obtain ⟨store', hrest, hmax', hkeeps', hfiles⟩ := ih
      (fun fault (hmem : fault ∈ faults.tail) => hclean fault (List.mem_of_mem_tail hmem)) hwithin'
      (fun reference hmem => by
        rw [hmax]
        exact h reference (List.mem_cons_of_mem _ hmem))
    refine ⟨store', ?_, hmax'.trans hmax, fun digest hpresent => ?_, fun reference hmem => ?_⟩
    · unfold acquire
      simp only [hfault, hdownload, hpublish]
      exact hrest
    · have hnext := hkeeps digest hpresent
      rw [← hnext] at hpresent
      exact (hkeeps' digest hpresent).trans hnext
    · rcases List.mem_cons.mp hmem with rfl | hmem
      · have hpresent : next.files reference.sha256 ≠ none := by
          rw [hself]
          exact Option.some_ne_none _
        rw [hkeeps' _ hpresent, hself, hfile]
      · exact hfiles reference hmem

theorem writeObjects_congr {lfsObjects : List LfsObjectEvidence} {writes : List LfsWrite}
    (h : ∀ object ∈ lfsObjects, store'.verify cx object.blob = store.verify cx object.blob) :
    writeObjects cx store' lfsObjects writes = writeObjects cx store lfsObjects writes := by
  induction lfsObjects generalizing writes with
  | nil => rfl
  | cons object rest ih =>
    have hrest : writeObjects cx store' rest writes.tail = writeObjects cx store rest writes.tail :=
      ih fun other hmem => h other (List.mem_cons_of_mem _ hmem)
    unfold writeObjects
    rw [h object (List.mem_cons_self ..), hrest]

/-- A drill reads the manifest, its first bundle and the LFS objects it names. -/
theorem executeOn_congr {git : Option Bytes → DrillInput}
    (hload : loadManifest cx store' verification.manifest
      = loadManifest cx store verification.manifest)
    (hcontents : ∀ evidence, loadManifest cx store verification.manifest = .ok evidence →
      ∀ reference ∈ evidence.contents, store'.verify cx reference = store.verify cx reference ∧
        store'.files reference.sha256 = store.files reference.sha256) :
    executeOn cx git store' verification = executeOn cx git store verification := by
  have hoperand : operand cx store' verification = operand cx store verification := by
    unfold operand
    rw [hload]
    cases hmanifest : loadManifest cx store verification.manifest with
    | error failure => rfl
    | ok evidence =>
      simp only
      cases hhead : evidence.bundles.head? with
      | none => rfl
      | some bundle =>
        have hmem : bundle ∈ evidence.contents :=
          List.mem_append_left _ (List.mem_of_mem_head? (by rw [hhead]; rfl))
        exact (hcontents evidence hmanifest bundle hmem).2
  unfold executeOn
  rw [hoperand]
  generalize git (operand cx store verification) = input
  unfold execute
  rw [hload]
  cases hmanifest : loadManifest cx store verification.manifest with
  | error failure => rfl
  | ok evidence =>
    have hlfs : ∀ (writes : List LfsWrite) (stages : List StageReport),
        materializeLfs cx store' evidence.lfs writes stages
          = materializeLfs cx store evidence.lfs writes stages := by
      intro writes stages
      unfold materializeLfs
      cases hfound : evidence.lfs with
      | none => rfl
      | some lfs =>
        have hwrite : writeObjects cx store' lfs.objects writes
            = writeObjects cx store lfs.objects writes := by
          refine writeObjects_congr fun object hmem => (hcontents evidence hmanifest _ ?_).1
          refine List.mem_append_right _ ?_
          rw [hfound]
          exact List.mem_map_of_mem hmem
        simp only [hwrite]
    have hcompare : ∀ (observed : List RefEvidence) (stages : List StageReport),
        compareRefs cx store' evidence input observed stages
          = compareRefs cx store evidence input observed stages := by
      intro observed stages
      unfold compareRefs
      simp only [hlfs]
    simp only [hcompare]
    cases hhead : evidence.bundles.head? with
    | none => rfl
    | some bundle =>
      have hmem : bundle ∈ evidence.contents :=
        List.mem_append_left _ (List.mem_of_mem_head? (by rw [hhead]; rfl))
      simp only [(hcontents evidence hmanifest bundle hmem).1]

/-- Two reports of drills that show the same of one snapshot. -/
structure SameEvidence (report report' : RestoreDrillReport) : Prop where
  outcome : report.outcome = report'.outcome
  failure : report.failure = report'.failure
  refs : report.expectedRefCount = report'.expectedRefCount ∧
    report.observedRefCount = report'.observedRefCount ∧
    report.expectedRefSetSha256 = report'.expectedRefSetSha256 ∧
    report.observedRefSetSha256 = report'.observedRefSetSha256
  lfs : report.lfsRestored = report'.lfsRestored ∧
    report.expectedLfsObjectCount = report'.expectedLfsObjectCount ∧
    report.observedLfsObjectCount = report'.observedLfsObjectCount ∧
    report.expectedLfsBytes = report'.expectedLfsBytes ∧
    report.observedLfsBytes = report'.observedLfsBytes ∧
    report.expectedLfsAggregateSha256 = report'.expectedLfsAggregateSha256 ∧
    report.observedLfsAggregateSha256 = report'.observedLfsAggregateSha256

theorem sameEvidence_afterAcquisition {result : DrillResult} {drillId drillId' : Uuid}
    {source source' : RestoreSource} {durationMillis durationMillis' : ℕ} :
    SameEvidence
        (buildDrillReport cx drillId verification source durationMillis (afterAcquisition result))
        (buildDrillReport cx drillId' verification source' durationMillis' result) ∧
      (buildDrillReport cx drillId verification source durationMillis
        (afterAcquisition result)).stages
        = { stage := "replica_acquire", passed := true } ::
          (buildDrillReport cx drillId' verification source' durationMillis' result).stages := by
  cases result <;>
    exact ⟨⟨rfl, rfl, ⟨rfl, rfl, rfl, rfl⟩, ⟨rfl, rfl, rfl, rfl, rfl, rfl, rfl⟩⟩, rfl⟩

theorem le_downloadLimit (hmem : reference ∈ required verification) :
    reference.sizeBytes ≤ downloadLimit verification := by
  have hfold : ∀ (references : List BlobRef) (limit : ℕ),
      limit ≤ references.foldl (fun limit reference => max limit reference.sizeBytes) limit ∧
      ∀ reference ∈ references, reference.sizeBytes
        ≤ references.foldl (fun limit reference => max limit reference.sizeBytes) limit := by
    intro references
    induction references with
    | nil => exact fun limit => ⟨Nat.le_refl _, fun _ hmem => absurd hmem List.not_mem_nil⟩
    | cons head rest ih =>
      intro limit
      obtain ⟨hlimit, hrest⟩ := ih (max limit head.sizeBytes)
      refine ⟨Nat.le_trans (Nat.le_max_left _ _) hlimit, fun reference hmem => ?_⟩
      rcases List.mem_cons.mp hmem with rfl | hmem
      · exact Nat.le_trans (Nat.le_max_right _ _) hlimit
      · exact hrest reference hmem
  exact Nat.le_trans ((hfold _ 0).2 reference hmem) (Nat.le_max_left _ _)

/-- A drill on a store that holds all that is required ends as on the local store. -/
theorem executeOn_downloaded {verifier : ArtifactVerifier} {snapshotId : Uuid} {manifest : BlobRef}
    {git : Option Bytes → DrillInput} {downloaded : LocalBlobStore}
    (hpassed : (verifier.verify cx snapshotId manifest).outcome = .passed)
    (hmax : downloaded.maxBytes = downloadLimit (verifier.verify cx snapshotId manifest))
    (hfiles : ∀ reference ∈ required (verifier.verify cx snapshotId manifest),
      downloaded.files reference.sha256 = verifier.store.files reference.sha256)
    (hverified : ∀ reference ∈ required (verifier.verify cx snapshotId manifest),
      verifier.store.verify cx reference = .ok ()) :
    executeOn cx git downloaded (verifier.verify cx snapshotId manifest)
      = executeOn cx git verifier.store (verifier.verify cx snapshotId manifest) := by
  obtain ⟨hmanifest, evidence, hload, hchecked, -⟩ := ArtifactVerifier.passed_report hpassed
  have hsame : ∀ reference ∈ required (verifier.verify cx snapshotId manifest),
      downloaded.verify cx reference = verifier.store.verify cx reference := by
    intro reference hmem
    have hheld := hverified reference hmem
    obtain ⟨hvalid, bytes, hbytes, hlength, -, hdigest⟩ :=
      (verifier.store.verify_ok_iff cx).mp hheld
    rw [hheld]
    refine (downloaded.verify_ok_iff cx).mpr ⟨hvalid, bytes, ?_, hlength, ?_, hdigest⟩
    · rw [hfiles reference hmem]
      exact hbytes
    · rw [hmax, hlength]
      exact le_downloadLimit hmem
  have hhead : (verifier.verify cx snapshotId manifest).manifest
      ∈ required (verifier.verify cx snapshotId manifest) := List.mem_cons_self ..
  refine executeOn_congr ?_ fun found hfound reference hmem => ?_
  · unfold loadManifest
    rw [hsame _ hhead, hfiles _ hhead]
  · -- the manifest the drill loads is the one the verification has read
    have hevidence : found = evidence := by
      obtain ⟨bytes, hbytes, -, hdecode⟩ := ArtifactVerifier.file_of_loadManifest hload
      rw [hmanifest] at hfound
      unfold loadManifest at hfound
      rw [hmanifest] at hhead
      simp only [hverified _ hhead, hbytes, hdecode] at hfound
      exact (Except.ok.inj hfound).symm
    rw [hevidence] at hmem
    have hrequired : reference ∈ required (verifier.verify cx snapshotId manifest) := by
      unfold required
      rw [hchecked]
      exact List.mem_cons_of_mem _ hmem
    exact ⟨hsame reference hrequired, hfiles reference hrequired⟩

/-- The objects under the derived keys are the blobs of the local store. -/
def HoldsLocalBlobs (replica : ReplicaStore) (objects : String → Option RemoteObject)
    (store : LocalBlobStore) (verification : VerificationReport) : Prop :=
  ∀ reference ∈ required verification,
    (objects (objectKey replica.keyPrefix reference)).map (·.bytes) = store.files reference.sha256

/-- The replica takes references of these sizes, under keys it can address. -/
def Admits (replica : ReplicaStore) (verification : VerificationReport) : Prop :=
  ∀ reference ∈ required verification, (replica.objectKey? reference).isSome = true

/-- Every part of the acquisition outside the replica's content goes well. -/
structure Faultless (input : AcquireInput) : Prop where
  rootCreated : input.rootCreated = true
  storeCreated : input.storeCreated = true
  faults : ∀ fault ∈ input.faults, fault = {}

theorem objectKey_of_objectKey? {key : String} (h : replica.objectKey? reference = some key) :
    key = objectKey replica.keyPrefix reference := by
  unfold ReplicaStore.objectKey? at h
  split_ifs at h
  exact (Option.some.inj h).symm

theorem verified_of_passed {verifier : ArtifactVerifier} {snapshotId : Uuid} {manifest : BlobRef}
    (hpassed : (verifier.verify cx snapshotId manifest).outcome = .passed)
    (hmem : reference ∈ required (verifier.verify cx snapshotId manifest)) :
    verifier.store.verify cx reference = .ok () := by
  obtain ⟨hmanifest, evidence, hload, hchecked, hall⟩ := ArtifactVerifier.passed_report hpassed
  have hpasses : verifier.blobPasses cx reference = true := by
    unfold required at hmem
    rw [hmanifest, hchecked] at hmem
    rcases List.mem_cons.mp hmem with rfl | hmem
    · exact ArtifactVerifier.blobPasses_of_loadManifest hload
    · exact hall reference hmem
  unfold ArtifactVerifier.blobPasses at hpasses
  cases hverify : verifier.store.verify cx reference with
  | ok value => rfl
  | error e =>
    rw [hverify] at hpasses
    cases hpasses

section

variable {verifier : ArtifactVerifier} {snapshotId : Uuid} {manifest : BlobRef}
  {git : Option Bytes → DrillInput} {replicaTargetId drillId drillId' : Uuid}
  {durationMillis durationMillis' : ℕ} {input : AcquireInput}

theorem executeFromReplica_mirrored
    (hpassed : (verifier.verify cx snapshotId manifest).outcome = .passed)
    (hholds : HoldsLocalBlobs replica objects verifier.store
      (verifier.verify cx snapshotId manifest))
    (hadmits : Admits replica (verifier.verify cx snapshotId manifest))
    (hfaultless : Faultless input) :
    executeFromReplica cx replica objects git (verifier.verify cx snapshotId manifest) input
      = afterAcquisition (executeOn cx git verifier.store
          (verifier.verify cx snapshotId manifest)) := by
  have hmirrored : ∀ reference ∈ required (verifier.verify cx snapshotId manifest),
      Mirrored cx replica objects verifier.store reference ∧
        reference.sizeBytes ≤ downloadLimit (verifier.verify cx snapshotId manifest) := by
    intro reference hmem
    have hverified := verified_of_passed hpassed hmem
    obtain ⟨key, hkey⟩ := Option.isSome_iff_exists.mp (hadmits reference hmem)
    obtain ⟨-, bytes, hbytes, -⟩ := (verifier.store.verify_ok_iff cx).mp hverified
    have hheld := hholds reference hmem
    rw [← objectKey_of_objectKey? hkey, hbytes] at hheld
    obtain ⟨object, hobject, hsame⟩ := Option.map_eq_some_iff.mp hheld
    refine ⟨⟨hverified, key, object, hkey, hobject, ?_⟩, le_downloadLimit hmem⟩
    rw [hsame]
    exact hbytes
  have hwithin : Within { maxBytes := downloadLimit (verifier.verify cx snapshotId manifest)
                          files := fun _ => none } verifier.store :=
    fun _ _ hfile => by cases hfile
  obtain ⟨downloaded, hacquire, hmax, -, hfiles⟩ :=
    acquire_mirrored hfaultless.faults hwithin hmirrored
  unfold executeFromReplica
  rw [if_neg (by simp [hfaultless.rootCreated, hfaultless.storeCreated]), hacquire]
  simp only
  rw [executeOn_downloaded hpassed hmax hfiles fun reference hmem => verified_of_passed hpassed hmem]

theorem executeFromReplica_damaged
    (hdamaged : ∃ reference ∈ required verification,
      Damaged cx reference (objects (objectKey replica.keyPrefix reference))) :
    ∃ failure, executeFromReplica cx replica objects git verification input
      = acquisitionFailure failure := by
  obtain ⟨reference, hmem, hbad⟩ := hdamaged
  unfold executeFromReplica
  split_ifs
  · exact ⟨_, rfl⟩
  · have hkeyed : ∀ key, replica.objectKey? reference = some key →
        Damaged cx reference (objects key) := by
      intro key hkey
      rw [objectKey_of_objectKey? hkey]
      exact hbad
    have hfails : ∃ failure, acquire cx replica objects (required verification) input.faults
        { maxBytes := downloadLimit verification, files := fun _ => none } = .error failure :=
      acquire_damaged hmem hkeyed
    obtain ⟨failure, hfailure⟩ := hfails
    rw [hfailure]
    exact ⟨failure, rfl⟩

/-- A drill from a replica that holds the local blobs, and admits them, is the local drill behind
its acquisition; a damaged object ends the drill before Git. -/
theorem replica_drill_is_local_drill
    (hpassed : (verifier.verify cx snapshotId manifest).outcome = .passed) :
    (HoldsLocalBlobs replica objects verifier.store (verifier.verify cx snapshotId manifest) →
      Admits replica (verifier.verify cx snapshotId manifest) → Faultless input →
      SameEvidence
        (runFromReplica cx replica objects git (verifier.verify cx snapshotId manifest)
          replicaTargetId input drillId durationMillis)
        (run cx verifier.store (verifier.verify cx snapshotId manifest)
          (git (operand cx verifier.store (verifier.verify cx snapshotId manifest))) drillId'
          durationMillis') ∧
      (runFromReplica cx replica objects git (verifier.verify cx snapshotId manifest)
          replicaTargetId input drillId durationMillis).stages
        = { stage := "replica_acquire", passed := true } ::
          (run cx verifier.store (verifier.verify cx snapshotId manifest)
            (git (operand cx verifier.store (verifier.verify cx snapshotId manifest))) drillId'
            durationMillis').stages) ∧
    ((∃ reference ∈ required (verifier.verify cx snapshotId manifest),
        Damaged cx reference (objects (objectKey replica.keyPrefix reference))) →
      (runFromReplica cx replica objects git (verifier.verify cx snapshotId manifest)
          replicaTargetId input drillId durationMillis).outcome = .failed ∧
      (runFromReplica cx replica objects git (verifier.verify cx snapshotId manifest)
          replicaTargetId input drillId durationMillis).stages
        = [{ stage := "replica_acquire", passed := false }]) := by
  constructor
  · intro hholds hadmits hfaultless
    unfold runFromReplica
    rw [executeFromReplica_mirrored hpassed hholds hadmits hfaultless]
    exact sameEvidence_afterAcquisition
  · intro hdamaged
    have hfails : ∃ failure, executeFromReplica cx replica objects git
        (verifier.verify cx snapshotId manifest) input = acquisitionFailure failure :=
      executeFromReplica_damaged hdamaged
    obtain ⟨failure, hfailure⟩ := hfails
    unfold runFromReplica
    rw [hfailure]
    exact ⟨rfl, rfl⟩

end

end

namespace ReplicaSample

open Retention.Sample (sha256 bundleRef manifestRef manifest)

/-! A snapshot whose bundle has two bytes, and a replica that holds its blobs. -/

def crypto : Crypto :=
  { Retention.Sample.crypto with
    decode := fun bytes =>
      if bytes = [5] then some (manifest [10, 11] none) else Retention.Sample.crypto.decode bytes }

def store : LocalBlobStore :=
  { maxBytes := 1000
    files := fun digest => [[5], [10, 11]].find? fun bytes => sha256 bytes = digest }

def verifier : ArtifactVerifier :=
  { store, trustedKeys := [{ keyId := "k", publicKey := [] }], maxChainDepth := 8 }

def replica (maxObjectBytes : ℕ) : ReplicaStore :=
  { location := { endpointOrigin := "https://s3.example", bucket := "b" }, keyPrefix := ""
    maxObjectBytes }

def objects (key : String) : Option RemoteObject :=
  ([[5], [10, 11]].find? fun bytes => objectKey "" (bundleRef bytes) = key).map fun bytes =>
    { bytes, writers := [] }

def git (_ : Option Bytes) : DrillInput :=
  { scratchCreated := true, bundleConfined := true
    init := .exited { exitCode := 0, lines := some [] }
    bundleVerify := .exited { exitCode := 0, lines := some [] }
    fetch := .exited { exitCode := 0, lines := some [] }
    fsck := .exited { exitCode := 0, lines := some [] }
    showRef := .exited { exitCode := 0, lines := some [] }
    lfsWrites := [] }

def input : AcquireInput := { rootCreated := true, storeCreated := true, faults := [] }

theorem input_faultless : Faultless input :=
  ⟨rfl, rfl, fun _ hmem => absurd hmem List.not_mem_nil⟩

theorem verified : (verifier.verify crypto 4 (manifestRef [5])).outcome = .passed := by
  decide +kernel

theorem holdsLocalBlobs (maxObjectBytes : ℕ) :
    HoldsLocalBlobs (replica maxObjectBytes) objects verifier.store
      (verifier.verify crypto 4 (manifestRef [5])) := by
  change ∀ reference ∈ required (verifier.verify crypto 4 (manifestRef [5])),
    (objects (objectKey "" reference)).map (·.bytes) = store.files reference.sha256
  decide +kernel

theorem admits : Admits (replica 1000) (verifier.verify crypto 4 (manifestRef [5])) := by
  unfold Admits
  decide +kernel

end ReplicaSample

open Retention.Sample (manifestRef) in
theorem replica_drill_is_local_drill_sample :
    SameEvidence
      (runFromReplica ReplicaSample.crypto (ReplicaSample.replica 1000) ReplicaSample.objects
        ReplicaSample.git (ReplicaSample.verifier.verify ReplicaSample.crypto 4 (manifestRef [5]))
        20 ReplicaSample.input 7 5)
      (run ReplicaSample.crypto ReplicaSample.verifier.store
        (ReplicaSample.verifier.verify ReplicaSample.crypto 4 (manifestRef [5]))
        (ReplicaSample.git none) 8 6) :=
  ((replica_drill_is_local_drill ReplicaSample.verified).1
    (ReplicaSample.holdsLocalBlobs 1000) ReplicaSample.admits ReplicaSample.input_faultless).1

open Retention.Sample (manifestRef) in
/-- A replica with a lower size limit refuses a drill that passes on the same local blobs. -/
theorem lower_limit_refuses_drill :
    (ReplicaSample.verifier.verify ReplicaSample.crypto 4 (manifestRef [5])).outcome = .passed ∧
      HoldsLocalBlobs (ReplicaSample.replica 1) ReplicaSample.objects ReplicaSample.verifier.store
        (ReplicaSample.verifier.verify ReplicaSample.crypto 4 (manifestRef [5])) ∧
      Faultless ReplicaSample.input ∧
      (run ReplicaSample.crypto ReplicaSample.verifier.store
        (ReplicaSample.verifier.verify ReplicaSample.crypto 4 (manifestRef [5]))
        (ReplicaSample.git none) 8 6).outcome = .passed ∧
      (runFromReplica ReplicaSample.crypto (ReplicaSample.replica 1) ReplicaSample.objects
        ReplicaSample.git (ReplicaSample.verifier.verify ReplicaSample.crypto 4 (manifestRef [5]))
        20 ReplicaSample.input 7 5).outcome = .failed := by
  refine ⟨ReplicaSample.verified, ReplicaSample.holdsLocalBlobs 1, ReplicaSample.input_faultless, ?_,
    ?_⟩
  · decide +kernel
  · decide +kernel

end RestoreDrill

end RatatoskrVault
