import RatatoskrVault.Lib.Sequential
import RatatoskrVault.Retention.Locks
import RatatoskrVault.Schema.Evolution
import RatatoskrVault.Verification.Artifact
import Mathlib.Data.Set.Function

/-! Retention and the verification of the snapshots it keeps: which plans leave every other
snapshot verifiable, for captures and plans executed one after another. -/
namespace RatatoskrVault

open Lib

def ManifestRow.reference (row : ManifestRow) : BlobRef :=
  { owner := row.blobOwner
    sha256 := row.manifestHash
    mediaType := row.mediaType
    sizeBytes := row.sizeBytes }

def Db.manifest? (db : Db) (snapshotId : Uuid) : Option ManifestRow :=
  db.manifests.find? fun row => row.snapshotId == snapshotId

namespace Retention

/-- The configuration of the verifier. -/
structure VerifierSettings where
  trustedKeys : List ManifestVerificationKey
  maxChainDepth : ℕ

def VerifierSettings.on (v : VerifierSettings) (storage : Storage) : ArtifactVerifier :=
  { store := storage.blobs, trustedKeys := v.trustedKeys, maxChainDepth := v.maxChainDepth }

/-- The snapshot has a manifest and `ArtifactVerifier::verify` of it passes. -/
def Verifies (cx : Crypto) (v : VerifierSettings) (db : Db) (storage : Storage)
    (snapshotId : Uuid) : Prop :=
  ∃ row, db.manifest? snapshotId = some row ∧
    (v.on storage).passes cx snapshotId row.reference = true

/-- The blobs and manifests that occur in a run. -/
structure Occurring where
  blobs : Set Bytes
  manifests : Set SnapshotManifest

/-- SHA-256 tells the occurring blobs apart, and the codec reads the occurring manifests back. -/
structure Occurring.Faithful (occurring : Occurring) (cx : Crypto) : Prop where
  injective : Set.InjOn cx.sha256 occurring.blobs
  decode_encode : ∀ manifest ∈ occurring.manifests, cx.decode (cx.encode manifest) = some manifest

/-- What a capture publishes is among the occurring blobs and manifests. -/
def Publishes (settings : Settings) (occurring : Occurring) (s : State) : Label → Prop
  | .exec i _ => ∀ at_ reference bytes n, (s.session i).loc = .capture at_ →
      CapturePublish settings.worker.crypto settings.capture s.world at_ reference bytes n →
      bytes ∈ occurring.blobs ∧
        ∀ built, n = .recordSource built → built.evidence ∈ occurring.manifests
  | _ => True

/-- Captures and executions of plans one after another; plans and pins are made in between. -/
def Consecutive (settings : Settings) (occurring : Occurring) (s : State) (label : Label) : Prop :=
  (machine settings).Alone s label ∧ Publishes settings occurring s label ∧
    match label with
    | .start _ (.capture _) => True
    | .start _ (.runPlan _) => True
    | .start _ _ => False
    | _ => True

/-- The steps of one execution. -/
def OfSession (i : ℕ) (_ : State) : Label → Prop
  | .exec j _ => j = i
  | .abort j => j = i
  | .tick _ => True
  | _ => False

/-- A plan is executed only when no artifact it would remove, one that no other undeleted snapshot
holds, is a manifest on the parent chain of another undeleted snapshot. -/
def ChainsSpared (settings : Settings) (v : VerifierSettings) (s : State) : Label → Prop
  | .start _ (.runPlan planId) => ∀ plan, s.db.plan? planId = some plan →
      ∀ a ∈ s.db.artifacts, a.snapshotId = plan.snapshotId →
      s.db.identityIsShared plan.snapshotId (.artifact a.artifactId) = false →
      ∀ snapshotId row references, snapshotId ≠ plan.snapshotId →
      s.db.snapshotIsRetained snapshotId = true → s.db.manifest? snapshotId = some row →
      (v.on s.world).chain settings.worker.crypto row.reference = .ok references →
      ∀ reference ∈ references, reference.sha256 ≠ a.sha256Hash
  | _ => True

/-- An undeleted snapshot that verifies before a plan of another snapshot is executed verifies
throughout the execution and after it. -/
def RetentionKeepsSnapshots (ok : State → Label → Prop) (settings : Settings)
    (v : VerifierSettings) (s₀ : State) : Prop :=
  ∀ s i planId plan s₁ s', Reach (machine settings).step ok s₀ s →
    ok s (.start i (.runPlan planId)) → s.db.plan? planId = some plan →
    (machine settings).step s (.start i (.runPlan planId)) = some s₁ →
    Reach (machine settings).step (OfSession i) s₁ s' →
    ∀ snapshotId, snapshotId ≠ plan.snapshotId → s.db.snapshotIsRetained snapshotId = true →
      Verifies settings.worker.crypto v s.db s.world snapshotId →
      Verifies settings.worker.crypto v s'.db s'.world snapshotId

section

variable (cx : Crypto) (occurring : Occurring)

/-- Everything the manifest of the row names is an artifact of the row's snapshot. -/
def Covered (db : Db) (row : ManifestRow) : Prop :=
  ∃ evidence ∈ occurring.manifests, cx.encode evidence ∈ occurring.blobs ∧
    cx.sha256 (cx.encode evidence) = row.manifestHash ∧
    ∀ reference ∈ evidence.contents, ∃ a ∈ db.artifacts,
      a.snapshotId = row.snapshotId ∧ a.sha256Hash = reference.sha256

/-- A catalogue whose artifacts have their own ids and cover its manifests, and a store of
occurring blobs. -/
structure Catalogued (db : Db) (storage : Storage) (fresh : ℕ) : Prop where
  artifacts_nodup : (db.artifacts.map (·.artifactId)).Nodup
  artifact_ids : ∀ a ∈ db.artifacts, a.artifactId < fresh
  covered : ∀ row ∈ db.manifests, Covered cx occurring db row
  stored : ∀ digest bytes, storage.blobs.files digest = some bytes → bytes ∈ occurring.blobs

end

namespace Chains

section Record

variable (cx : Crypto) (occurring : Occurring)

/-- What a capture hands to `record_built_snapshot`. -/
structure BuiltOk (built : BuiltSnapshot) : Prop where
  occurs : built.evidence ∈ occurring.manifests
  encoded : cx.encode built.evidence ∈ occurring.blobs
  digest : cx.sha256 (cx.encode built.evidence) = built.manifest.sha256
  contents : ∀ reference ∈ built.evidence.contents, ∃ entry ∈ built.artifacts, entry.2 = reference

/-- The artifacts of the built snapshot are inserted, except for those still to do. -/
def Inserted (db : Db) (built : BuiltSnapshot) (snapshotId : Uuid)
    (todo : List (ArtifactKind × BlobRef)) : Prop :=
  ∀ entry ∈ built.artifacts, entry ∈ todo ∨
    ∃ a ∈ db.artifacts, a.snapshotId = snapshotId ∧ a.sha256Hash = entry.2.sha256

/-- `db` is the catalogue as the capture sees it. -/
def CaptureOk (db : Db) : CaptureLoc → Prop
  | .recordSource built => BuiltOk cx occurring built
  | .recordParent built => BuiltOk cx occurring built
  | .insertSnapshot built => BuiltOk cx occurring built
  | .artifactStart built snapshotId todo =>
      BuiltOk cx occurring built ∧ Inserted db built snapshotId todo
  | .artifactLock built snapshotId kind reference todo _ =>
      BuiltOk cx occurring built ∧ Inserted db built snapshotId ((kind, reference) :: todo)
  | .insertManifest built snapshotId =>
      BuiltOk cx occurring built ∧ Inserted db built snapshotId []
  | _ => True

def LocOk (db : Db) : Loc → Prop
  | .capture at_ => CaptureOk cx occurring db at_
  | .transition _ _ => False
  | _ => True

def SessionOk (db : Db) (storage : Storage) (fresh : ℕ) (log : List Write) (loc : Loc) : Prop :=
  loc.isIdle = false →
    Catalogued cx occurring (db.applyAll log) storage fresh ∧ LocOk cx occurring (db.applyAll log) loc

end Record

section Captures

variable {cx : Crypto} {occurring : Occurring} {db db' : Db} {storage storage' : Storage}
  {fresh fresh' : ℕ} {m : Moment} {locks : List Lock} {writes : List Write}

theorem catalogued_congr (h : Catalogued cx occurring db storage fresh)
    (hartifacts : db'.artifacts = db.artifacts) (hmanifests : db'.manifests = db.manifests)
    (hfresh : fresh ≤ fresh')
    (hstored : ∀ digest bytes, storage'.blobs.files digest = some bytes →
      bytes ∈ occurring.blobs) :
    Catalogued cx occurring db' storage' fresh' := by
  refine ⟨?_, fun a ha => ?_, fun row hrow => ?_, hstored⟩
  · rw [hartifacts]
    exact h.artifacts_nodup
  · rw [hartifacts] at ha
    exact Nat.lt_of_lt_of_le (h.artifact_ids a ha) hfresh
  · rw [hmanifests] at hrow
    unfold Covered
    rw [hartifacts]
    exact h.covered row hrow

theorem catalogued_mono (h : Catalogued cx occurring db storage fresh) (hfresh : fresh ≤ fresh') :
    Catalogued cx occurring db storage fresh' :=
  catalogued_congr h rfl rfl hfresh h.stored

/-- The insertion of an artifact under a fresh id. -/
theorem catalogued_insertArtifact {row : SnapshotArtifact}
    (h : Catalogued cx occurring db storage fresh) (hid : row.artifactId = fresh) :
    Catalogued cx occurring (db.apply (.insertArtifact row)) storage (fresh + 1) := by
  have hnot : row.artifactId ∉ db.artifacts.map (·.artifactId) := by
    intro hmem
    obtain ⟨a, ha, heq⟩ := List.mem_map.mp hmem
    have hlt := h.artifact_ids a ha
    rw [heq, hid] at hlt
    exact Nat.lt_irrefl _ hlt
  refine ⟨?_, fun a ha => ?_, fun mrow hmrow => ?_, h.stored⟩
  · simp only [Db.apply, List.map_append, List.map_cons, List.map_nil]
    exact List.Nodup.append h.artifacts_nodup (List.nodup_singleton _)
      (by simpa [List.disjoint_singleton] using hnot)
  · rcases List.mem_append.mp ha with hold | hnew
    · exact Nat.lt_succ_of_lt (h.artifact_ids a hold)
    · rw [List.mem_singleton.mp hnew, hid]
      exact Nat.lt_succ_self _
  · obtain ⟨evidence, hoccurs, hencoded, hdigest, hcontents⟩ := h.covered mrow hmrow
    refine ⟨evidence, hoccurs, hencoded, hdigest, fun reference href => ?_⟩
    obtain ⟨a, ha, hprop⟩ := hcontents reference href
    exact ⟨a, List.mem_append_left _ ha, hprop⟩

/-- A manifest row is inserted once all artifacts of its snapshot are. -/
theorem catalogued_insertManifest {row : ManifestRow} {built : BuiltSnapshot}
    (h : Catalogued cx occurring db storage fresh) (hbuilt : BuiltOk cx occurring built)
    (hinserted : Inserted db built row.snapshotId [])
    (hdigest : row.manifestHash = built.manifest.sha256) :
    Catalogued cx occurring (db.apply (.insertManifest row)) storage (fresh + 1) := by
  refine ⟨h.artifacts_nodup, fun a ha => Nat.lt_succ_of_lt (h.artifact_ids a ha),
    fun mrow hmrow => ?_, h.stored⟩
  rcases List.mem_append.mp hmrow with hold | hnew
  · exact h.covered mrow hold
  · rw [List.mem_singleton.mp hnew]
    refine ⟨built.evidence, hbuilt.occurs, hbuilt.encoded, hbuilt.digest.trans hdigest.symm,
      fun reference href => ?_⟩
    obtain ⟨entry, hentry, rfl⟩ := hbuilt.contents reference href
    exact (hinserted entry hentry).resolve_left List.not_mem_nil

theorem capture_stmt {at_ n : CaptureLoc} (hfresh : m.fresh = fresh)
    (h : Catalogued cx occurring db storage fresh) (hat : CaptureOk cx occurring db at_)
    (hstmt : CaptureStmt m db at_ locks writes n) :
    Catalogued cx occurring (db.applyAll writes) storage (fresh + 1) ∧
      CaptureOk cx occurring (db.applyAll writes) n := by
  have hmono := catalogued_mono h (Nat.le_succ fresh)
  cases hstmt with
  | recordSource => exact ⟨hmono, hat⟩
  | recordParent => exact ⟨hmono, hat⟩
  | insertSnapshot =>
    exact ⟨catalogued_congr h rfl rfl (Nat.le_succ _) h.stored, hat,
      fun entry hentry => Or.inl hentry⟩
  | artifactStart => exact ⟨hmono, hat⟩
  | artifactsDone => exact ⟨hmono, hat⟩
  | @artifactLock built snapshotId kind reference todo leases hleases =>
    obtain ⟨hbuilt, hinserted⟩ := hat
    refine ⟨catalogued_insertArtifact h hfresh, hbuilt, fun entry hentry => ?_⟩
    rcases hinserted entry hentry with htodo | ⟨a, ha, hprop⟩
    · rcases List.mem_cons.mp htodo with rfl | hrest
      · exact Or.inr ⟨_, List.mem_append_right _ (List.mem_singleton_self _), rfl, rfl⟩
      · exact Or.inl hrest
    · exact Or.inr ⟨a, List.mem_append_left _ ha, hprop⟩
  | insertManifest =>
    obtain ⟨hbuilt, hinserted⟩ := hat
    exact ⟨catalogued_insertManifest h hbuilt hinserted rfl, trivial⟩

/-- A published manifest is recorded with everything it names. -/
theorem builtOk_of_publish {settings : SnapshotSettings} {at_ : CaptureLoc} {reference : BlobRef}
    {bytes : Bytes} {built : BuiltSnapshot}
    (hpublish : CapturePublish cx settings storage at_ reference bytes (.recordSource built))
    (hblob : bytes ∈ occurring.blobs) (hmanifest : built.evidence ∈ occurring.manifests) :
    BuiltOk cx occurring built := by
  cases hpublish with
  | @manifest request objects parent bundle manifest evidence hevidence href =>
    obtain ⟨-, hbundles, -⟩ := SnapshotManifest.new_spec hevidence
    refine ⟨hmanifest, hblob, ?_, fun reference hmem => ?_⟩
    · unfold LocalBlobStore.referenceForFile at href
      split_ifs at href
      cases href
      rfl
    · unfold SnapshotManifest.contents at hmem
      unfold BuiltSnapshot.artifacts
      simp only [hbundles] at hmem ⊢
      cases hlfs : evidence.lfs with
      | none =>
        rw [hlfs] at hmem
        have hbundle : reference = bundle := by simpa using hmem
        exact ⟨_, List.mem_cons_self .., hbundle.symm⟩
      | some lfs =>
        rw [hlfs] at hmem
        simp only [Option.map_some, Option.getD_some, List.cons_append, List.nil_append,
          List.mem_cons, List.mem_map] at hmem
        rcases hmem with rfl | ⟨object, hobject, rfl⟩
        · exact ⟨_, List.mem_cons_self .., rfl⟩
        · exact ⟨(.lfsObject, object.blob),
            List.mem_cons_of_mem _ (List.mem_cons_of_mem _ (List.mem_map.mpr ⟨object, hobject, rfl⟩)),
            rfl⟩

/-- A publication stores nothing but the published bytes. -/
theorem stored_publish (cx : Crypto) (reference : BlobRef) {bytes : Bytes} (io : IoResult)
    (h : ∀ digest stored, storage.blobs.files digest = some stored → stored ∈ occurring.blobs)
    (hblob : bytes ∈ occurring.blobs) : ∀ digest stored,
    (publish cx storage reference bytes io).1.blobs.files digest = some stored →
      stored ∈ occurring.blobs := by
  unfold publish
  split
  · exact h
  · exact h
  · rename_i blobs _ hpublished
    intro digest stored hstored
    obtain ⟨-, -, ⟨found, hfound, hcase⟩, hother⟩ := storage.blobs.publishFile_spec cx hpublished
    by_cases heq : digest = reference.sha256
    · have hsame : found = stored := by
        rw [heq] at hstored
        exact Option.some.inj (hfound.symm.trans hstored)
      rcases hcase with hbytes | hold
      · rw [← hsame, hbytes]
        exact hblob
      · rw [← hsame]
        exact h _ _ hold
    · exact h digest stored ((hother digest heq).symm.trans hstored)

/-- A deletion stage stores nothing. -/
theorem stored_deletionEffect (worker : RetentionWorkerSettings) (job : Job) (io : IoResult)
    (h : ∀ digest stored, storage.blobs.files digest = some stored → stored ∈ occurring.blobs) :
    ∀ digest stored, (deletionEffect worker job storage io).1.blobs.files digest = some stored →
      stored ∈ occurring.blobs := by
  intro digest stored hstored
  refine h digest stored ?_
  by_cases hunit : ∃ e, job.unit = .artifact e ∧ digest = e.blob.sha256
  · obtain ⟨e, hunit, rfl⟩ := hunit
    unfold deletionEffect at hstored
    rw [hunit] at hstored
    obtain ⟨-, hown, -⟩ := storage.blobs.deleteVerifiedBlob_spec worker.crypto e.blob io
    rcases hown with hnone | hsame
    · exact absurd (hnone.symm.trans hstored) (by simp)
    · exact hsame.symm.trans hstored
  · rw [files_of_deletionEffect worker job storage io digest fun e he hd => hunit ⟨e, he, hd⟩]
      at hstored
    exact hstored

end Captures

section Reached

variable {settings : Settings} {occurring : Occurring}

/-- Writes that touch neither artifacts nor manifests. -/
def Untouched : Write → Prop
  | .insertArtifact _ => False
  | .insertManifest _ => False
  | _ => True

theorem untouched_applyAll (db : Db) {writes : List Write} (h : ∀ w ∈ writes, Untouched w) :
    (db.applyAll writes).artifacts = db.artifacts ∧
      (db.applyAll writes).manifests = db.manifests := by
  refine foldl_invariant (I := fun d : Db => d.artifacts = db.artifacts ∧
    d.manifests = db.manifests) (fun d w hw hd => ?_) ⟨rfl, rfl⟩
  have hkind := h w hw
  cases w with
  | insertArtifact row => exact hkind.elim
  | insertManifest row => exact hkind.elim
  | _ => exact hd

theorem catalogued_untouched {cx : Crypto} {db : Db} {storage : Storage} {fresh fresh' : ℕ}
    {writes : List Write} (h : Catalogued cx occurring db storage fresh) (hle : fresh ≤ fresh')
    (hwrites : ∀ w ∈ writes, Untouched w) :
    Catalogued cx occurring (db.applyAll writes) storage fresh' := by
  obtain ⟨hartifacts, hmanifests⟩ := untouched_applyAll db hwrites
  exact catalogued_congr h hartifacts hmanifests hle h.stored

theorem untouched_worker_stmt {m : Moment} {db : Db} {at_ n : WorkerLoc} {locks : List Lock}
    {writes : List Write} (h : WorkerStmt m db at_ locks writes n) :
    ∀ w ∈ writes, Untouched w := by
  cases h with
  | abandonStage =>
    intro w hw
    obtain ⟨a, -, rfl⟩ := List.mem_map.mp hw
    trivial
  | abandonClaims =>
    intro w hw
    obtain ⟨c, -, rfl⟩ := List.mem_map.mp hw
    trivial
  | _ => simp [Untouched]

theorem untouched_operate {m : Moment} {db : Db} {o : Op} {locks : List Lock}
    {writes : List Write} (h : operate db m o = some (locks, writes)) :
    ∀ w ∈ writes, Untouched w := by
  cases o with
  | createDeletionPlan request =>
    simp only [operate, createDeletionPlan] at h
    split_ifs at h <;> cases h <;> simp [Untouched]
  | pinSnapshot snapshotId source sourceReference =>
    simp only [operate] at h
    split_ifs at h <;> cases h <;> simp [Untouched]
  | revokeSnapshotPin pinId =>
    simp only [operate] at h
    split at h <;> cases h
    simp [Untouched]

def Inv (settings : Settings) (occurring : Occurring) : State → Prop :=
  Machine.Serial (Catalogued settings.worker.crypto occurring)
    (SessionOk settings.worker.crypto occurring)

theorem sessionOk_rest {db : Db} {storage : Storage} {fresh : ℕ} {loc : Loc} {cx : Crypto}
    (h : Catalogued cx occurring db storage fresh) (hloc : LocOk cx occurring db loc) :
    SessionOk cx occurring db storage fresh [] loc :=
  fun _ => ⟨h, hloc⟩

theorem sessionOk_idle {db : Db} {storage : Storage} {fresh : ℕ} {log : List Write} {loc : Loc}
    {cx : Crypto} (h : loc.isIdle = true) : SessionOk cx occurring db storage fresh log loc := by
  intro hbusy
  rw [h] at hbusy
  cases hbusy

theorem captureOk_auto {cx : Crypto} {db view : Db} {at_ n : CaptureLoc}
    (h : CaptureAuto view at_ n) : CaptureOk cx occurring db n := by
  cases h <;> trivial

theorem inv_step :
    ∀ s l s', Inv settings occurring s → Consecutive settings occurring s l →
      (machine settings).step s l = some s' → Inv settings occurring s' := by
  refine Machine.Serial.step (fun _ _ hok => hok.1) (fun _ _ _ _ _ hidle => sessionOk_idle hidle)
    rfl ?_ ?_ ?_ ?_ ?_ ?_ ?_
  · intro s i proc hG hok
    cases proc with
    | capture request => exact sessionOk_rest hG trivial
    | runPlan planId => exact sessionOk_rest hG trivial
    | _ => exact hok.2.2.elim
  · intro s i io locks writes next hG _ hS hact
    change act settings (s.session i).loc (s.moment i) _ s.world io = _ at hact
    obtain ⟨hview, hloc⟩ := hS (busy_of_act hact)
    refine ⟨catalogued_mono hG (Nat.le_succ _), fun _ => ?_⟩
    rw [Db.applyAll_append]
    cases hcase : (s.session i).loc with
    | idle => rw [hcase] at hact; cases hact
    | worker at_ =>
      rw [hcase] at hact
      obtain ⟨n, rfl, hstmt⟩ := act_worker_stmt hact
      exact ⟨catalogued_untouched hview (Nat.le_succ _) (untouched_worker_stmt hstmt), trivial⟩
    | capture at_ =>
      rw [hcase] at hact hloc
      obtain ⟨n, rfl, hstmt⟩ := act_capture_stmt hact
      exact capture_stmt rfl hview hloc hstmt
    | transition request at_ => rw [hcase] at hloc; exact hloc.elim
  · intro s i io locks writes next hG _ hS hact
    change act settings (s.session i).loc (s.moment i) _ s.world io = _ at hact
    obtain ⟨-, hloc⟩ := hS (busy_of_act hact)
    cases hcase : (s.session i).loc with
    | idle => rw [hcase] at hact; cases hact
    | worker at_ =>
      rw [hcase] at hact
      obtain ⟨n, rfl, hauto⟩ := act_worker_auto hact
      have hG' := catalogued_untouched hG (Nat.le_succ _)
        (show ∀ w ∈ writes, Untouched w by cases hauto <;> simp [Untouched])
      exact ⟨hG', sessionOk_rest hG' trivial⟩
    | capture at_ =>
      rw [hcase] at hact
      obtain ⟨n, rfl, -, rfl, hauto⟩ := act_capture_auto hact
      have hG' := catalogued_mono hG (Nat.le_succ _)
      exact ⟨hG', sessionOk_rest hG' (captureOk_auto hauto)⟩
    | transition request at_ => rw [hcase] at hloc; exact hloc.elim
  · intro s i io next hG _ hS hact
    change act settings (s.session i).loc (s.moment i) _ s.world io = _ at hact
    obtain ⟨hview, hloc⟩ := hS (busy_of_act hact)
    refine ⟨hview, sessionOk_rest hview ?_⟩
    cases hcase : (s.session i).loc with
    | idle => rw [hcase] at hact; cases hact
    | worker at_ =>
      rw [hcase] at hact
      obtain ⟨n, rfl, -⟩ := act_worker_commit hact
      trivial
    | capture at_ =>
      rw [hcase] at hact
      obtain ⟨_, _, -, rfl⟩ := act_capture_commit hact
      trivial
    | transition request at_ => rw [hcase] at hloc; exact hloc.elim
  · intro s i io next hG _ hS hact
    change act settings (s.session i).loc (s.moment i) _ s.world io = _ at hact
    obtain ⟨-, hloc⟩ := hS (busy_of_act hact)
    cases hcase : (s.session i).loc with
    | idle => rw [hcase] at hact; cases hact
    | worker at_ =>
      rw [hcase] at hact
      obtain rfl := act_worker_rollback hact
      exact sessionOk_rest hG trivial
    | capture at_ =>
      rw [hcase] at hact
      obtain rfl := act_capture_rollback hact
      exact sessionOk_rest hG trivial
    | transition request at_ => rw [hcase] at hloc; exact hloc.elim
  · intro s i io world next hG hok hS hact
    change act settings (s.session i).loc (s.moment i) _ s.world io = _ at hact
    obtain ⟨-, hloc⟩ := hS (busy_of_act hact)
    cases hcase : (s.session i).loc with
    | idle => rw [hcase] at hact; cases hact
    | worker at_ =>
      rw [hcase] at hact
      obtain ⟨job, object, claimId, attemptId, rfl, rfl, rfl⟩ := act_worker_call hact
      have hG' := catalogued_congr hG rfl rfl (Nat.le_succ s.fresh)
        (stored_deletionEffect settings.worker job io hG.stored)
      exact ⟨hG', sessionOk_rest hG' trivial⟩
    | capture at_ =>
      rw [hcase] at hact
      obtain ⟨reference, bytes, n, hpublish, rfl, rfl⟩ := act_capture_call hact
      obtain ⟨hblob, hmanifest⟩ := hok.2.1 at_ reference bytes n hcase hpublish
      have hG' := catalogued_congr hG rfl rfl (Nat.le_succ s.fresh)
        (stored_publish settings.worker.crypto reference io hG.stored hblob)
      refine ⟨hG', sessionOk_rest hG' ?_⟩
      split_ifs
      · cases hpublish with
        | manifest hevidence href =>
          exact builtOk_of_publish (.manifest hevidence href) hblob (hmanifest _ rfl)
        | _ => trivial
      · trivial
    | transition request at_ => rw [hcase] at hloc; exact hloc.elim
  · intro s o locks writes hG _ hop
    exact catalogued_untouched hG (Nat.le_succ _) (untouched_operate hop)

end Reached

section Execution

variable (db₀ : Db) (planId owner : Uuid)

/-- A digest the plan may remove: one of its snapshot that no other undeleted snapshot holds. -/
def Removable (digest : Digest) : Prop :=
  ∃ a ∈ db₀.artifacts, a.snapshotId = owner ∧ a.sha256Hash = digest ∧
    db₀.identityIsShared owner (.artifact a.artifactId) = false

/-- The catalogue differs from `db₀` in nothing that verification or a sharing check of the
plan reads. -/
structure Alike (db : Db) : Prop where
  artifacts : db.artifacts = db₀.artifacts
  manifests : db.manifests = db₀.manifests
  retained : ∀ id, id ≠ owner → db.snapshotIsRetained id = db₀.snapshotIsRetained id
  plan : ∀ p, db.plan? planId = some p → p.snapshotId = owner

/-- The unit is a projected row. -/
def UnitOk : StageUnit → Prop
  | .artifact e => ∃ a ∈ db₀.artifacts, a.artifactId = e.artifactId ∧ a.sha256Hash = e.blob.sha256
  | _ => True

def Own (unit : StageUnit) : Prop :=
  ∀ e, unit = .artifact e → ∃ a ∈ db₀.artifacts, a.artifactId = e.artifactId ∧
    a.snapshotId = owner ∧ a.sha256Hash = e.blob.sha256

def Removing (unit : StageUnit) : Prop :=
  ∀ e, unit = .artifact e → Removable db₀ owner e.blob.sha256

def ClaimOk (job : Job) : ClaimLoc → Prop
  | .refusal row => row.snapshotId = owner
  | .identity row => row.snapshotId = owner
  | .advance row _ => row.snapshotId = owner ∧ Own db₀ owner job.unit
  | .abandonStage row _ => row.snapshotId = owner ∧ Own db₀ owner job.unit
  | .lock row _ => row.snapshotId = owner ∧ Own db₀ owner job.unit
  | .shared row _ => row.snapshotId = owner ∧ Own db₀ owner job.unit
  | .abandonClaims _ _ => Removing db₀ owner job.unit
  | .insertClaim _ _ => Removing db₀ owner job.unit
  | .insertAttempt _ _ _ => Removing db₀ owner job.unit
  | .commitClaimed _ _ _ => Removing db₀ owner job.unit
  | _ => True

/-- The execution of the plan `planId` of the snapshot `owner`. -/
def WorkerOk : WorkerLoc → Prop
  | .load id => id = planId
  | .loadArtifacts plan => plan.planId = planId
  | .loadReplicas plan _ => plan.planId = planId
  | .gate plan => plan.planId = planId
  | .claim job at_ => job.plan.planId = planId ∧ ClaimOk db₀ owner job at_
  | .effect job _ _ _ => job.plan.planId = planId ∧ Removing db₀ owner job.unit
  | .record job _ _ _ _ _ => job.plan.planId = planId
  | .advanceRead plan _ => plan.planId = planId
  | .advanceWrite plan _ _ => plan.planId = planId
  | .complete (.lock id) => id = planId
  | .complete (.updatePlan row) => row.snapshotId = owner
  | .complete (.updateSnapshot row) => row.snapshotId = owner
  | _ => True

/-- The writes of the execution. -/
def WriteOk : Write → Prop
  | .setSnapshotDeleted id => id = owner
  | .insertSnapshot _ => False
  | .insertArtifact _ => False
  | .insertManifest _ => False
  | .insertPlan _ => False
  | _ => True

variable {db₀ planId owner} {db : Db} {m : Moment} {locks : List Lock} {writes log : List Write}

theorem alike_apply {w : Write} (h : Alike db₀ planId owner db) (hw : WriteOk owner w) :
    Alike db₀ planId owner (db.apply w) := by
  cases w with
  | insertSnapshot row => exact hw.elim
  | insertArtifact row => exact hw.elim
  | insertManifest row => exact hw.elim
  | insertPlan row => exact hw.elim
  | setSnapshotDeleted id =>
    obtain rfl : id = owner := hw
    refine ⟨h.artifacts, h.manifests, fun id' hne => ?_, h.plan⟩
    rw [← h.retained id' hne]
    simp only [Db.snapshotIsRetained, Db.apply, updateWhere, List.any_map]
    congr 1
    funext t
    by_cases hid : t.snapshotId = id
    · simp [hid, hne.symm]
    · simp [hid]
  | setPlanStatus id f t =>
    refine ⟨h.artifacts, h.manifests, h.retained, fun p hp => ?_⟩
    have hfind := find?_updateWhere (t := db.plans)
      (p := fun q : DeletionPlan => q.planId == id && q.status == f)
      (f := fun q => { q with status := t }) (q := fun q => q.planId == planId) (fun _ => rfl)
    have hp' : (db.plan? planId).map (fun q => if q.planId == id && q.status == f
        then { q with status := t } else q) = some p := hfind.symm.trans hp
    obtain ⟨q, hq, rfl⟩ := Option.map_eq_some_iff.mp hp'
    split_ifs
    · exact h.plan q hq
    · exact h.plan q hq
  | _ => exact ⟨h.artifacts, h.manifests, h.retained, h.plan⟩

theorem alike_applyAll (h : Alike db₀ planId owner db) (hw : ∀ w ∈ writes, WriteOk owner w) :
    Alike db₀ planId owner (db.applyAll writes) :=
  foldl_invariant (I := Alike db₀ planId owner) (fun _ w hmem hd => alike_apply hd (hw w hmem)) h

/-- The sharing check of the plan finds what it would have found in `db₀`. -/
theorem identityIsShared_alike (h : Alike db₀ planId owner db) (artifactId : Uuid) :
    db.identityIsShared owner (.artifact artifactId)
      = db₀.identityIsShared owner (.artifact artifactId) := by
  unfold Db.identityIsShared
  simp only [h.artifacts]
  congr 1
  funext selected
  congr 2
  funext retained
  by_cases hid : retained.snapshotId = owner
  · simp [hid]
  · rw [h.retained _ hid]

theorem own_of_stageIdentity (hnodup : (db₀.artifacts.map (·.artifactId)).Nodup)
    (h : Alike db₀ planId owner db) {unit : StageUnit} (hunit : UnitOk db₀ unit)
    {object : PhysicalIdentity} (hid : db.stageIdentity owner unit.stage = some object) :
    Own db₀ owner unit := by
  intro e he
  subst he
  obtain ⟨a, ha, hartifact, hdigest⟩ := hunit
  obtain ⟨a', hfind, -⟩ := Option.map_eq_some_iff.mp hid
  have hmem : a' ∈ db₀.artifacts := h.artifacts ▸ List.mem_of_find?_eq_some hfind
  have hprop := List.find?_some hfind
  simp only [Bool.and_eq_true, beq_iff_eq] at hprop
  have hsame : a' = a :=
    List.inj_on_of_nodup_map hnodup hmem ha (hprop.1.trans hartifact.symm)
  exact ⟨a', hmem, hprop.1, hprop.2, hsame ▸ hdigest⟩

theorem removing_of_notShared (h : Alike db₀ planId owner db) {unit : StageUnit}
    (hown : Own db₀ owner unit) (hshared : db.identityIsShared owner unit.stage = false) :
    Removing db₀ owner unit := by
  intro e he
  subst he
  obtain ⟨a, ha, hartifact, hsnapshot, hdigest⟩ := hown e rfl
  refine ⟨a, ha, hsnapshot, hdigest, ?_⟩
  rw [hartifact, ← identityIsShared_alike h]
  exact hshared

theorem worker_stmt {at_ n : WorkerLoc} (hnodup : (db₀.artifacts.map (·.artifactId)).Nodup)
    (h : Alike db₀ planId owner (db.applyAll log)) (hcarries : at_.Carries (UnitOk db₀) (· ∈ db₀.artifacts))
    (hat : WorkerOk db₀ planId owner at_)
    (hstmt : WorkerStmt m (db.applyAll log) at_ locks writes n) :
    WorkerOk db₀ planId owner n ∧ ∀ w ∈ writes, WriteOk owner w := by
  cases hstmt with
  | @claimLoad job plan hplan =>
    obtain ⟨hid, -⟩ := hat
    rw [hid] at hplan
    exact ⟨⟨hid, h.plan plan hplan⟩, by simp⟩
  | refuse => exact ⟨⟨hat.1, trivial⟩, by simp⟩
  | accept => exact ⟨hat, by simp⟩
  | @identity job row object hidentity =>
    obtain ⟨hid, hrow⟩ := hat
    have hrow' : row.snapshotId = owner := hrow
    rw [hrow'] at hidentity
    exact ⟨⟨hid, hrow, own_of_stageIdentity hnodup h hcarries.1 hidentity⟩, by simp⟩
  | advancePlanned => exact ⟨hat, by simp [WriteOk]⟩
  | advanceStarted => exact ⟨hat, by simp⟩
  | abandonStage =>
    refine ⟨hat, fun w hw => ?_⟩
    obtain ⟨a, -, rfl⟩ := List.mem_map.mp hw
    trivial
  | lockIdentity => exact ⟨hat, by simp⟩
  | shared => exact ⟨⟨hat.1, trivial⟩, by simp⟩
  | @notShared job row object hshared =>
    obtain ⟨hid, hrow, hown⟩ := hat
    rw [hrow] at hshared
    exact ⟨⟨hid, removing_of_notShared h hown hshared⟩, by simp⟩
  | insertShared => exact ⟨⟨hat.1, trivial⟩, by simp [WriteOk]⟩
  | abandonClaims =>
    refine ⟨hat, fun w hw => ?_⟩
    obtain ⟨c, -, rfl⟩ := List.mem_map.mp hw
    trivial
  | insertClaim => exact ⟨hat, by simp [WriteOk]⟩
  | insertAttempt => exact ⟨hat, by simp [WriteOk]⟩
  | recordLock => exact ⟨hat, by simp⟩
  | recordAttempt => exact ⟨hat, by simp [WriteOk]⟩
  | recordClaim => exact ⟨hat, by simp [WriteOk]⟩
  | @completeLock id plan hplan =>
    obtain rfl : id = planId := hat
    exact ⟨h.plan plan hplan, by simp⟩
  | completePlan => exact ⟨hat, by simp [WriteOk]⟩
  | @completeSnapshot row =>
    have hrow : row.snapshotId = owner := hat
    exact ⟨trivial, by simp [WriteOk, hrow]⟩
  | @completeSnapshotUnder row =>
    have hrow : row.snapshotId = owner := hat
    exact ⟨trivial, by simp [WriteOk, hrow]⟩
  | _ => exact ⟨trivial, by simp [WriteOk]⟩

theorem workerOk_next {plan : DeletionExecutionPlan} {tasks : List Task}
    (h : plan.planId = planId) : WorkerOk db₀ planId owner (WorkerLoc.next plan tasks) := by
  match tasks with
  | [] => trivial
  | .stage unit :: rest => exact ⟨h, trivial⟩
  | .advance :: rest => exact h
  | .complete :: rest => exact h

theorem worker_auto {view : Db} {at_ n : WorkerLoc} (hat : WorkerOk db₀ planId owner at_)
    (hauto : WorkerAuto m view at_ locks writes n) :
    WorkerOk db₀ planId owner n ∧ ∀ w ∈ writes, WriteOk owner w := by
  cases hauto with
  | @load id plan hplan =>
    unfold Db.executionPlan? at hplan
    simp only [Option.bind_eq_some_iff, Option.map_eq_some_iff] at hplan
    obtain ⟨_, _, _, _, _, _, rfl⟩ := hplan
    exact ⟨hat, by simp⟩
  | loadArtifacts => exact ⟨hat, by simp⟩
  | loadReplicas => exact ⟨hat, by simp⟩
  | completed => exact ⟨trivial, by simp⟩
  | toGate => exact ⟨hat, by simp⟩
  | ungated => exact ⟨workerOk_next hat, by simp⟩
  | gateMissing => exact ⟨workerOk_next hat, by simp⟩
  | gateRefused => exact ⟨trivial, by simp⟩
  | gate => exact ⟨workerOk_next hat, by simp [WriteOk]⟩
  | advanceRead => exact ⟨hat, by simp⟩
  | advanceWrite => exact ⟨workerOk_next hat, by simp [WriteOk]⟩

theorem worker_commit {at_ n : WorkerLoc} (hat : WorkerOk db₀ planId owner at_)
    (hcommit : WorkerCommit at_ n) : WorkerOk db₀ planId owner n := by
  cases hcommit with
  | shared => exact workerOk_next hat.1
  | claimed => exact hat
  | recorded => exact workerOk_next hat
  | _ => trivial

/-- Where the session that executes the plan may stand. -/
def LocExecuting (db₀ : Db) (planId owner : Uuid) : Loc → Prop
  | .idle => True
  | .worker at_ =>
      at_.Carries (UnitOk db₀) (· ∈ db₀.artifacts) ∧ WorkerOk db₀ planId owner at_
  | _ => False

/-- Session `i` executes the plan since the catalogue was `db₀` and the storage `storage₀`. -/
structure Executing (db₀ : Db) (storage₀ : Storage) (planId owner : Uuid) (i : ℕ) (y : State) :
    Prop where
  alike : Alike db₀ planId owner y.db
  log : ∀ w ∈ (y.session i).log, WriteOk owner w
  files : ∀ digest, y.world.blobs.files digest = storage₀.blobs.files digest ∨
    Removable db₀ owner digest
  maxBytes : y.world.blobs.maxBytes = storage₀.blobs.maxBytes
  loc : LocExecuting db₀ planId owner (y.session i).loc

variable {storage₀ : Storage} {settings : Settings} {i : ℕ}

theorem unitOk_executionArtifact (view : Db) {a : SnapshotArtifact} (ha : a ∈ db₀.artifacts) :
    (view.executionArtifact a).Meets (UnitOk db₀) :=
  ⟨⟨a, ha, rfl, rfl⟩, fun _ _ => trivial⟩

/-- The step of the session has left the storage alone. -/
theorem executing_moved {y y' : State} {log : List Write} {began : Option ℕ} {loc : Loc}
    (h : Executing db₀ storage₀ planId owner i y)
    (hsession : y'.session i = ⟨loc, log, began⟩) (hworld : y'.world = y.world)
    (halike : Alike db₀ planId owner y'.db) (hlog : ∀ w ∈ log, WriteOk owner w)
    (hloc : LocExecuting db₀ planId owner loc) : Executing db₀ storage₀ planId owner i y' := by
  refine ⟨halike, ?_, ?_, ?_, ?_⟩
  · rw [hsession]
    exact hlog
  · rw [hworld]
    exact h.files
  · rw [hworld]
    exact h.maxBytes
  · rw [hsession]
    exact hloc

theorem executing_step (hnodup : (db₀.artifacts.map (·.artifactId)).Nodup) :
    ∀ y l y', Executing db₀ storage₀ planId owner i y → OfSession i y l →
      (machine settings).step y l = some y' → Executing db₀ storage₀ planId owner i y' := by
  refine Machine.step_induction ?_ ?_ ?_ ?_ ?_ ?_ ?_ ?_ ?_
  · intro y j proc _ hok _
    exact hok.elim
  · intro y j io locks writes next h hok hact _
    obtain rfl : j = i := hok
    change act settings (y.session j).loc (y.moment j) _ y.world io = _ at hact
    have hloc := h.loc
    cases hcase : (y.session j).loc with
    | worker at_ =>
      rw [hcase] at hact hloc
      obtain ⟨n, rfl, hstmt⟩ := act_worker_stmt hact
      obtain ⟨hn, hwrites⟩ :=
        worker_stmt hnodup (alike_applyAll h.alike h.log) hloc.1 hloc.2 hstmt
      refine executing_moved h State.setSession_session_self rfl h.alike (fun w hw => ?_)
        ⟨hstmt.carries hloc.1, hn⟩
      rcases List.mem_append.mp hw with hold | hnew
      · exact h.log w hold
      · exact hwrites w hnew
    | idle => rw [hcase] at hact; cases hact
    | _ => rw [hcase] at hloc; exact hloc.elim
  · intro y j io locks writes next h hok hact _
    obtain rfl : j = i := hok
    change act settings (y.session j).loc (y.moment j) _ y.world io = _ at hact
    have hloc := h.loc
    cases hcase : (y.session j).loc with
    | worker at_ =>
      rw [hcase] at hact hloc
      obtain ⟨n, rfl, hauto⟩ := act_worker_auto hact
      have hview := alike_applyAll h.alike h.log
      obtain ⟨hn, hwrites⟩ := worker_auto hloc.2 hauto
      have hcarries := hauto.carries trivial (fun a ha => hview.artifacts ▸ ha)
        (fun a ha => unitOk_executionArtifact _ ha) hloc.1
      exact executing_moved h State.setSession_session_self rfl
        (alike_applyAll h.alike hwrites) (by simp) ⟨hcarries, hn⟩
    | idle => rw [hcase] at hact; cases hact
    | _ => rw [hcase] at hloc; exact hloc.elim
  · intro y j io next h hok hact
    obtain rfl : j = i := hok
    change act settings (y.session j).loc (y.moment j) _ y.world io = _ at hact
    have hloc := h.loc
    cases hcase : (y.session j).loc with
    | worker at_ =>
      rw [hcase] at hact hloc
      obtain ⟨n, rfl, hcommit⟩ := act_worker_commit hact
      exact executing_moved h State.setSession_session_self rfl
        (alike_applyAll h.alike h.log) (by simp)
        ⟨hcommit.carries hloc.1, worker_commit hloc.2 hcommit⟩
    | idle => rw [hcase] at hact; cases hact
    | _ => rw [hcase] at hloc; exact hloc.elim
  · intro y j io next h hok hact
    obtain rfl : j = i := hok
    change act settings (y.session j).loc (y.moment j) _ y.world io = _ at hact
    have hloc := h.loc
    cases hcase : (y.session j).loc with
    | worker at_ =>
      rw [hcase] at hact
      obtain rfl := act_worker_rollback hact
      exact executing_moved h State.setSession_session_self rfl h.alike (by simp)
        ⟨trivial, trivial⟩
    | idle => rw [hcase] at hact; cases hact
    | _ => rw [hcase] at hloc; exact hloc.elim
  · intro y j io world next h hok hact
    obtain rfl : j = i := hok
    change act settings (y.session j).loc (y.moment j) _ y.world io = _ at hact
    have hloc := h.loc
    cases hcase : (y.session j).loc with
    | worker at_ =>
      rw [hcase] at hact hloc
      obtain ⟨job, object, claimId, attemptId, rfl, rfl, rfl⟩ := act_worker_call hact
      obtain ⟨hcarries, hid, hremoving⟩ := hloc
      have hself : ((Machine.afterCall y j (deletionEffect settings.worker job y.world io).1
          (.worker (.record job object claimId attemptId
            (deletionEffect settings.worker job y.world io).2 .lock))).session j) =
          ⟨.worker (.record job object claimId attemptId
            (deletionEffect settings.worker job y.world io).2 .lock), [], none⟩ :=
        State.setSession_session_self
      refine ⟨h.alike, ?_, fun digest => ?_, ?_, ?_⟩
      · rw [hself]
        simp
      · -- the effect touches the blob of its own stage only
        by_cases hdigest : ∃ e, job.unit = .artifact e ∧ digest = e.blob.sha256
        · obtain ⟨e, he, rfl⟩ := hdigest
          exact Or.inr (hremoving e he)
        · have hfiles := files_of_deletionEffect settings.worker job y.world io digest
            (fun e he heq => hdigest ⟨e, he, heq⟩)
          exact (h.files digest).imp_left hfiles.trans
      · exact (maxBytes_of_deletionEffect settings.worker job y.world io).trans h.maxBytes
      · rw [hself]
        exact ⟨hcarries, hid⟩
    | idle => rw [hcase] at hact; cases hact
    | _ => rw [hcase] at hloc; exact hloc.elim
  · intro y j h hok
    obtain rfl : j = i := hok
    exact executing_moved h State.setSession_session_self rfl h.alike (by simp) trivial
  · intro y o locks writes _ hok _ _
    exact hok.elim
  · intro y n h _
    exact ⟨h.alike, h.log, h.files, h.maxBytes, h.loc⟩

end Execution

section Kept

variable {settings : Settings} {v : VerifierSettings} {occurring : Occurring} {db₀ : Db}
  {storage₀ : Storage} {fresh : ℕ} {planId owner snapshotId : Uuid} {row : ManifestRow}
  {evidence : SnapshotManifest} {reference : BlobRef}

/-- What a stored manifest names is among the artifacts of its snapshot. -/
theorem exists_artifact_of_loadManifest {cx : Crypto} (hfaithful : occurring.Faithful cx)
    (h : Catalogued cx occurring db₀ storage₀ fresh) (hrow : row ∈ db₀.manifests)
    (hload : (v.on storage₀).loadManifest cx row.reference = .ok evidence)
    (hmem : reference ∈ evidence.contents) :
    ∃ a ∈ db₀.artifacts, a.snapshotId = row.snapshotId ∧ a.sha256Hash = reference.sha256 := by
  obtain ⟨bytes, hfile, hsha, hdecode⟩ := ArtifactVerifier.file_of_loadManifest hload
  obtain ⟨evidence', hoccurs, hencoded, hdigest, hcontents⟩ := h.covered row hrow
  have hbytes : bytes = cx.encode evidence' :=
    hfaithful.injective (h.stored _ _ hfile) hencoded (hsha.trans hdigest.symm)
  rw [hbytes, hfaithful.decode_encode evidence' hoccurs] at hdecode
  obtain rfl := Option.some.inj hdecode
  exact hcontents reference hmem

/-- An artifact of another undeleted snapshot is not removed. -/
theorem not_removable_of_artifact (hnodup : (db₀.artifacts.map (·.artifactId)).Nodup)
    {a : SnapshotArtifact} (ha : a ∈ db₀.artifacts) (hne : a.snapshotId ≠ owner)
    (hretained : db₀.snapshotIsRetained a.snapshotId = true) :
    ¬ Removable db₀ owner a.sha256Hash := by
  rintro ⟨selected, hselected, hsnapshot, hdigest, hshared⟩
  have hid : a.artifactId ≠ selected.artifactId := by
    intro hid
    have hsame : a = selected := List.inj_on_of_nodup_map hnodup ha hselected hid
    exact hne (hsame ▸ hsnapshot)
  have hfound : db₀.identityIsShared owner (.artifact selected.artifactId) = true := by
    unfold Db.identityIsShared
    simp only [List.any_eq_true, Bool.and_eq_true, beq_iff_eq, bne_iff_ne]
    exact ⟨selected, hselected, ⟨rfl, hsnapshot⟩, a, ha, ⟨⟨hdigest.symm, hid⟩, hne⟩, hretained⟩
  rw [hfound] at hshared
  cases hshared

/-- The plan leaves the files of the snapshot in place, so its verification comes out the same. -/
theorem verifies_kept (hfaithful : occurring.Faithful settings.worker.crypto)
    (h : Catalogued settings.worker.crypto occurring db₀ storage₀ fresh)
    (hspared : ∀ row references, db₀.manifest? snapshotId = some row →
      (v.on storage₀).chain settings.worker.crypto row.reference = .ok references →
      ∀ reference ∈ references, ¬ Removable db₀ owner reference.sha256)
    (hne : snapshotId ≠ owner) (hretained : db₀.snapshotIsRetained snapshotId = true)
    {i : ℕ} {y : State} (hy : Executing db₀ storage₀ planId owner i y)
    (hverifies : Verifies settings.worker.crypto v db₀ storage₀ snapshotId) :
    Verifies settings.worker.crypto v y.db y.world snapshotId := by
  obtain ⟨row, hfind, hpasses⟩ := hverifies
  have hrow : row ∈ db₀.manifests := List.mem_of_find?_eq_some hfind
  have hsnapshot : row.snapshotId = snapshotId := by
    have hfound := List.find?_some hfind
    exact beq_iff_eq.mp hfound
  have hfind' : y.db.manifest? snapshotId = some row := by
    unfold Db.manifest?
    rw [hy.alike.manifests]
    exact hfind
  refine ⟨row, hfind', ?_⟩
  refine ArtifactVerifier.passes_of_agree (v.on storage₀) rfl rfl hy.maxBytes ?_ hpasses
  intro evidence references hload hchain reference hmem
  refine (hy.files reference.sha256).resolve_right ?_
  rcases List.mem_append.mp hmem with hlink | hcontent
  · exact hspared row references hfind hchain reference hlink
  · obtain ⟨a, ha, hown, hdigest⟩ :=
      exists_artifact_of_loadManifest hfaithful h hrow hload hcontent
    have hid : a.snapshotId = snapshotId := hown.trans hsnapshot
    rw [← hdigest]
    exact not_removable_of_artifact h.artifacts_nodup ha (hid ▸ hne) (hid ▸ hretained)

end Kept


end Chains

section

variable {settings : Settings} {v : VerifierSettings} {occurring : Occurring} {db : Db}
  {storage : Storage} {fresh : ℕ}

theorem retention_keeps_snapshots (hfaithful : occurring.Faithful settings.worker.crypto)
    (h : Catalogued settings.worker.crypto occurring db storage fresh) (clock : ℕ) :
    RetentionKeepsSnapshots
      (fun s label => Consecutive settings occurring s label ∧ ChainsSpared settings v s label)
      settings v (initial db storage clock fresh) := by
  intro s i planId plan s₁ s' hreach hok hplan hstep hexec snapshotId hne hretained hverifies
  have hinv : Chains.Inv settings occurring s := by
    refine Reach.invariant ⟨h, fun _ => Chains.sessionOk_idle rfl⟩ ?_ hreach
    exact fun s label s' hs hlabel => Chains.inv_step s label s' hs hlabel.1
  have hcat : Catalogued settings.worker.crypto occurring s.db s.world s.fresh := hinv.shared
  obtain rfl : s₁ = (machine settings).afterStart s i (.runPlan planId) := by
    simp only [Machine.step] at hstep
    split_ifs at hstep
    exact (Option.some.inj hstep).symm
  have hstart : Chains.Executing s.db s.world planId plan.snapshotId i
      ((machine settings).afterStart s i (.runPlan planId)) := by
    have hself : ((machine settings).afterStart s i (.runPlan planId)).session i
        = ⟨.worker (.load planId), [], none⟩ := State.setSession_session_self
    refine ⟨⟨rfl, rfl, fun _ _ => rfl, fun p hp => ?_⟩, ?_, fun _ => Or.inl rfl, rfl, ?_⟩
    · rw [Option.some.inj (hp.symm.trans hplan)]
    · rw [hself]
      simp
    · rw [hself]
      exact ⟨trivial, rfl⟩
  have hy : Chains.Executing s.db s.world planId plan.snapshotId i s' :=
    Reach.invariant hstart (Chains.executing_step hcat.artifacts_nodup) hexec
  refine Chains.verifies_kept hfaithful hcat ?_ hne hretained hy hverifies
  rintro row references hrow hchain reference hmem ⟨a, ha, hown, hdigest, hshared⟩
  exact hok.2 plan hplan a ha hown hshared snapshotId row references hne hretained hrow hchain
    reference hmem hdigest.symm

end

namespace Sample

/-- A mirror without snapshots. -/
def mirrored : Db :=
  { targets :=
      [{ targetId := 1, provider := "github", externalRepositoryId := "r", status := .healthy }]
    mirrors :=
      [{ mirrorId := 2, targetId := 1, status := .ready, storagePath := "m", fsckResult := .ok }]
    mirrorRuns := [{ runId := 3, targetId := 1, outcome := .succeeded }]
    evaluations := [evaluation 0 1 []] }

def captureOf (bundle : Bytes) : CaptureRequest :=
  { source := { targetId := 1, mirrorId := 2, mirrorLifecycleRunId := 3 }
    bundle
    refs := []
    createdAt := "t"
    lfs := none }

def verifier : VerifierSettings :=
  { trustedKeys := [{ keyId := "k", publicKey := [] }], maxChainDepth := 8 }

def blobs : List Bytes := [[10], [1], [20], [2]]

def manifests : List SnapshotManifest :=
  [manifest [10] none, manifest [20] (some (manifestRef [1]))]

def occurring : Occurring :=
  { blobs := { bytes | bytes ∈ blobs }, manifests := { manifest | manifest ∈ manifests } }

theorem occurring_faithful : occurring.Faithful crypto := by
  refine ⟨fun a ha b hb heq => ?_, fun manifest hmem => ?_⟩
  · have hall : ∀ a ∈ blobs, ∀ b ∈ blobs, sha256 a = sha256 b → a = b := by decide +kernel
    exact hall a ha b hb heq
  · have hall : ∀ m ∈ manifests, crypto.decode (crypto.encode m) = some m := by decide +kernel
    exact hall manifest hmem

theorem catalogued_mirrored : Catalogued crypto occurring mirrored storage 100 := by
  refine ⟨by decide, ?_, ?_, ?_⟩
  · intro a ha
    cases ha
  · intro row hrow
    cases hrow
  · intro digest bytes hstored
    cases hstored

/-- Whether what the step publishes is listed. -/
def publishes (s : State) : Label → Bool
  | .exec i _ =>
    match (s.session i).loc with
    | .capture (.publishLfs _ _ (bytes :: _)) => blobs.contains bytes
    | .capture (.publishBundle request _ _) => blobs.contains request.bundle
    | .capture (.publishManifest request objects parent bundle) =>
      match SnapshotManifest.new settings.worker.crypto settings.capture.generatorVersion
          request.refs [bundle] (parent.map (·.manifest)) request.createdAt
          (lfsEvidence settings.worker.crypto request objects) settings.capture.signer with
      | .error _ => true
      | .ok evidence =>
        blobs.contains (settings.worker.crypto.encode evidence) && manifests.contains evidence
    | _ => true
  | _ => true

theorem publishes_of_check (s : State) (label : Label) (h : publishes s label = true) :
    Publishes settings occurring s label := by
  cases label with
  | exec i io =>
    intro at_ reference bytes n hloc hpublish
    unfold publishes at h
    simp only [hloc] at h
    cases hpublish with
    | lfs href => exact ⟨List.contains_iff_mem.mp h, by simp⟩
    | bundle href => exact ⟨List.contains_iff_mem.mp h, by simp⟩
    | manifest hevidence href =>
      simp only [hevidence, Bool.and_eq_true] at h
      refine ⟨List.contains_iff_mem.mp h.1, fun built hbuilt => ?_⟩
      obtain rfl := CaptureLoc.recordSource.inj hbuilt
      exact List.contains_iff_mem.mp h.2
  | _ => trivial

/-- Two captures and a plan for the first of them. -/
def captured : List Label :=
  [.start 0 (.capture (captureOf [10]))] ++ List.replicate 15 (.exec 0 .ok) ++
    [.tick 1, .start 0 (.capture (captureOf [20]))] ++ List.replicate 15 (.exec 0 .ok) ++
    [.op (.createDeletionPlan
        { evaluationId := 0, targetId := 1, snapshotId := 107, tombstoneId := none
          automatic := false, tombstonedAt := 0, notBefore := 1, estimatedBytes := 0
          correlationId := 0 }),
      .tick 1]

def passes (s : State) (snapshotId : Uuid) : Bool :=
  (s.db.manifest? snapshotId).any fun row =>
    (verifier.on s.world).passes crypto snapshotId row.reference

theorem verifies_iff_passes (s : State) (snapshotId : Uuid) :
    Verifies crypto verifier s.db s.world snapshotId ↔ passes s snapshotId = true := by
  unfold Verifies passes
  rw [Option.any_eq_true]

theorem along_captured : Along (machine settings).step (Consecutive settings occurring)
    (initial mirrored storage 10 100) (captured ++ [.start 0 (.runPlan 128)]) := by
  have halone : Along (machine settings).step (machine settings).Alone
      (initial mirrored storage 10 100) (captured ++ [.start 0 (.runPlan 128)]) :=
    Machine.along_alone (n := 1) (fun _ _ => rfl) (by decide) (by decide +kernel)
  have hpublishes : Along (machine settings).step (Publishes settings occurring)
      (initial mirrored storage 10 100) (captured ++ [.start 0 (.runPlan 128)]) :=
    along_of_meets publishes_of_check (by decide +kernel)
  exact halone.and (hpublishes.and (along_of_forall (by simp [captured]) _))

end Sample

/-- The plan of the first snapshot removes the manifest that the second one names as parent. -/
theorem parent_manifest_removed :
    Sample.occurring.Faithful Sample.settings.worker.crypto ∧
      ¬ RetentionKeepsSnapshots (Consecutive Sample.settings Sample.occurring) Sample.settings
        Sample.verifier (initial Sample.mirrored Sample.storage 10 100) := by
  refine ⟨Sample.occurring_faithful, fun h => ?_⟩
  obtain ⟨s, hrun, hs⟩ : ∃ s, run (machine Sample.settings).step
      (initial Sample.mirrored Sample.storage 10 100) Sample.captured = some s ∧
      ((s.db.plan? 128).any (fun plan => plan.snapshotId == 107) &&
        s.db.snapshotIsRetained 121 && Sample.passes s 121 &&
        (run (machine Sample.settings).step s
          (.start 0 (.runPlan 128) :: List.replicate 43 (.exec 0 .ok))).any
            fun s' => !Sample.passes s' 121) = true :=
    exists_of_run_any (by decide +kernel)
  simp only [Bool.and_eq_true, Option.any_eq_true, beq_iff_eq] at hs
  obtain ⟨⟨⟨⟨plan, hplan, hsnapshot⟩, hretained⟩, hpasses⟩, s', hrun', hfails⟩ := hs
  obtain ⟨s₁, hstart, hexec⟩ := Option.bind_eq_some_iff.mp hrun'
  have hreach := Reach.of_run hrun Sample.along_captured.take
  have hok := (Sample.along_captured.drop hrun).1
  have hexecuted : Reach (machine Sample.settings).step (OfSession 0) s₁ s' :=
    Reach.of_run hexec (along_of_forall (by simp [OfSession]) _)
  have hkept := h s 0 128 plan s₁ s' hreach hok hplan hstart hexecuted 121 (by rw [hsnapshot]; decide)
    hretained ((Sample.verifies_iff_passes s 121).mpr hpasses)
  have hpasses' := (Sample.verifies_iff_passes s' 121).mp hkept
  rw [hpasses'] at hfails
  cases hfails

theorem retention_keeps_snapshots_mirrored :
    Sample.occurring.Faithful Sample.settings.worker.crypto ∧
      Catalogued Sample.settings.worker.crypto Sample.occurring Sample.mirrored Sample.storage 100 ∧
      RetentionKeepsSnapshots
        (fun s label => Consecutive Sample.settings Sample.occurring s label ∧
          ChainsSpared Sample.settings Sample.verifier s label)
        Sample.settings Sample.verifier (initial Sample.mirrored Sample.storage 10 100) :=
  ⟨Sample.occurring_faithful, Sample.catalogued_mirrored,
    retention_keeps_snapshots Sample.occurring_faithful Sample.catalogued_mirrored 10⟩

end Retention

end RatatoskrVault
