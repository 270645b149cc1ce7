import RatatoskrVault.Replication.Aligned
import RatatoskrVault.Retention.Bytes

/-! Placements beside deletions of the same objects: a row is true of its object unless the object
is taken away between the check of a unit and its record. -/
namespace RatatoskrVault

open Lib

/-- What a unit that has verified its object is about to record. -/
def UnitLoc.recording? : UnitLoc → Option (Transfer × String)
  | .recordAttempt transfer key => some (transfer, key)
  | .recordPlacement transfer key => some (transfer, key)
  | .recordCommit transfer key => some (transfer, key)
  | _ => none

/-- The job of a worker that has looked up what its stage removes. -/
def WorkerLoc.identified? : WorkerLoc → Option (Job × PhysicalIdentity)
  | .claim job (.advance _ identity) => some (job, identity)
  | .claim job (.abandonStage _ identity) => some (job, identity)
  | .claim job (.lock _ identity) => some (job, identity)
  | .claim job (.shared _ identity) => some (job, identity)
  | .claim job (.abandonClaims _ identity) => some (job, identity)
  | .claim job (.insertClaim _ identity) => some (job, identity)
  | .claim job (.insertAttempt _ identity _) => some (job, identity)
  | .claim job (.commitClaimed identity _ _) => some (job, identity)
  | .effect job identity _ _ => some (job, identity)
  | _ => none

/-- The object is of the size and the digest a reference gives. -/
def RemoteObject.Holds (cx : Crypto) (object : RemoteObject) (blob : BlobRef) : Prop :=
  object.bytes.length = blob.sizeBytes ∧ cx.sha256 object.bytes = blob.sha256

namespace Replication

def Loc.removing? : Loc → Option PhysicalIdentity
  | .retention at_ => at_.removing?
  | _ => none

/-- The object a row names is there, with the digest and the size of the row. -/
def Truthful (cx : Crypto) (c : Catalog) (world : World) (p : ReplicaPlacement) : Prop :=
  ∃ object, remoteObject c world p.replicaTargetId p.objectKey = some object ∧
    object.bytes.length = p.sizeBytes ∧ cx.sha256 object.bytes = p.sha256Hash

section

variable (settings : Settings) (c₀ : Catalog)

/-- The deletion of the snapshot the placement belongs to has started. -/
def GivenUp (c : Catalog) (p : ReplicaPlacement) : Prop :=
  ∃ a ∈ c₀.vault.artifacts, a.artifactId = p.artifactId ∧ DeletionStarted c.vault a.snapshotId

/-- The row says of the object what its artifact says of the content. -/
def RecordedFor (p : ReplicaPlacement) : Prop :=
  ∃ a ∈ c₀.vault.artifacts, a.artifactId = p.artifactId ∧ p.sha256Hash = a.sha256Hash ∧
    p.sizeBytes = a.sizeBytes ∧ ∃ keyPrefix, p.objectKey = objectKey keyPrefix a.reference

structure Shown (c : Catalog) (world : World) : Prop where
  recorded : ∀ p ∈ c.vault.placements, RecordedFor c₀ p
  truthful : ∀ p ∈ c.vault.placements, ¬ GivenUp c₀ c p →
    Truthful settings.retention.worker.crypto c world p

/-- A unit has found its content under a key derived from it; the object may be gone again. -/
structure Verified (world : World) (transfer : Transfer) (key : String) : Prop where
  artifact : OfArtifact c₀ transfer.unit.artifactId transfer.unit.blob
  derived : ∃ keyPrefix, key = objectKey keyPrefix transfer.unit.blob
  holds : ∀ object, world.objects transfer.store.location key = some object →
    object.Holds settings.retention.worker.crypto transfer.unit.blob

/-- What a session knows of the object it has verified or is about to remove. -/
structure Knows (c : Catalog) (world : World) (loc : Loc) : Prop where
  verified : ∀ at_ transfer key, loc = .unit at_ → at_.recording? = some (transfer, key) →
    Verified settings c₀ world transfer key
  named : ∀ at_ job identity e stored, loc = .retention (.worker at_) →
    at_.identified? = some (job, identity) → job.unit = .replica e stored →
    ∃ key, identity = .replicaKey stored.replicaTargetId key ∧
      (key = stored.objectKey ∨ Current settings c₀ stored.replicaTargetId e.blob key)
  clear : ∀ at_ job identity e stored, loc = .retention (.worker at_) →
    at_.identified? = some (job, identity) → at_.removing? = some identity →
    job.unit = .replica e stored →
    Current settings c₀ stored.replicaTargetId e.blob stored.objectKey →
    ∀ p ∈ c.vault.placements, p.replicaTargetId = stored.replicaTargetId →
      p.objectKey = stored.objectKey → GivenUp c₀ c p

/-- The steps of others write contents under the keys derived from them, and record nothing a
session is about to remove. -/
structure Sparing (e e' : Shared Catalog World) (loc : Loc) : Prop where
  grown : e.db.vault.Grown e'.db.vault
  objects : ∀ location key object, e'.world.objects location key = some object →
    e.world.objects location key = some object ∨
      ∃ a ∈ c₀.vault.artifacts, (∃ keyPrefix, key = objectKey keyPrefix a.reference) ∧
        object.Holds settings.retention.worker.crypto a.reference
  placements : ∀ p ∈ e'.db.vault.placements, p ∈ e.db.vault.placements ∨ GivenUp c₀ e'.db p ∨
    loc.removing? ≠ some (.replicaKey p.replicaTargetId p.objectKey)

end

section

variable {settings : Settings} {c₀ c c' : Catalog} {world world' : World} {loc : Loc}
  {e e' : Shared Catalog World} {p : ReplicaPlacement} {transfer : Transfer} {key : String}

/-- A digest of the catalogue stands for contents of one size. -/
def SizesAgree (c₀ : Catalog) : Prop :=
  ∀ a ∈ c₀.vault.artifacts, ∀ a' ∈ c₀.vault.artifacts, a.sha256Hash = a'.sha256Hash →
    a.sizeBytes = a'.sizeBytes

section Mono

theorem GivenUp.mono (h : GivenUp c₀ c p) (hgrown : c.vault.Grown c'.vault) :
    GivenUp c₀ c' p := by
  obtain ⟨a, ha, hid, hstarted⟩ := h
  exact ⟨a, ha, hid, hgrown.started _ hstarted⟩

theorem Current.unique {replicaTargetId : Uuid} {blob : BlobRef} {key key' : String}
    (h : Current settings c₀ replicaTargetId blob key)
    (h' : Current settings c₀ replicaTargetId blob key') : key = key' := by
  obtain ⟨store, hstore, rfl⟩ := h
  obtain ⟨store', hstore', rfl⟩ := h'
  rw [Option.some.inj (hstore.symm.trans hstore')]

/-- Two keys of contents of the catalogue agree only for contents of one digest and size. -/
theorem Holds.of_key (hsizes : SizesAgree c₀) {cx : Crypto} {object : RemoteObject}
    {a a' : SnapshotArtifact} (ha : a ∈ c₀.vault.artifacts) (ha' : a' ∈ c₀.vault.artifacts)
    {keyPrefix keyPrefix' : String}
    (hkey : objectKey keyPrefix a.reference = objectKey keyPrefix' a'.reference)
    (h : object.Holds cx a.reference) : object.Holds cx a'.reference := by
  have hdigest : a.sha256Hash = a'.sha256Hash := sha256_eq_of_objectKey hkey
  have hsize : a.sizeBytes = a'.sizeBytes := hsizes a ha a' ha' hdigest
  exact ⟨h.1.trans hsize, h.2.trans hdigest⟩

theorem Verified.mono (hsizes : SizesAgree c₀) (h : Verified settings c₀ e.world transfer key)
    (hsparing : Sparing settings c₀ e e' loc) :
    Verified settings c₀ e'.world transfer key := by
  refine ⟨h.artifact, h.derived, fun object hobject => ?_⟩
  rcases hsparing.objects _ _ _ hobject with hsame | ⟨a, ha, ⟨keyPrefix, hkey⟩, hholds⟩
  · exact h.holds object hsame
  · obtain ⟨a', ha', -, hreference⟩ := h.artifact
    obtain ⟨keyPrefix', hkey'⟩ := h.derived
    rw [← hreference] at hkey' ⊢
    exact Holds.of_key hsizes ha ha' (hkey.symm.trans hkey') hholds

theorem Knows.mono (hsizes : SizesAgree c₀) (h : Knows settings c₀ e.db e.world loc)
    (hsparing : Sparing settings c₀ e e' loc) : Knows settings c₀ e'.db e'.world loc := by
  refine ⟨fun at_ transfer key hloc hrecording => ?_, h.named,
    fun at_ job identity en stored hloc hidentified hremoving hunit hcurrent p hp htarget hkey => ?_⟩
  · exact (h.verified at_ transfer key hloc hrecording).mono hsizes hsparing
  · rcases hsparing.placements p hp with hold | hgiven | hother
    · exact (h.clear at_ job identity en stored hloc hidentified hremoving hunit hcurrent p hold
        htarget hkey).mono hsparing.grown
    · exact hgiven
    · obtain ⟨key, rfl, hnamed⟩ := h.named at_ job identity en stored hloc hidentified hunit
      have hsame : key = stored.objectKey := hnamed.elim id fun hcur => hcur.unique hcurrent
      rw [hloc, htarget, hkey, ← hsame] at hother
      exact absurd hremoving hother

theorem remoteObject_congr (htargets : c'.replicaTargets = c.replicaTargets) :
    remoteObject c' world = remoteObject c world := by
  funext replicaTargetId key
  unfold remoteObject Catalog.replicaTarget?
  rw [htargets]

/-- Deletions that begin, beside placements and objects that stay, leave the rest true. -/
theorem Shown.mono (h : Shown settings c₀ c world) (hgrown : c.vault.Grown c'.vault)
    (hplacements : c'.vault.placements = c.vault.placements)
    (htargets : c'.replicaTargets = c.replicaTargets) : Shown settings c₀ c' world := by
  refine ⟨fun p hp => h.recorded p (hplacements ▸ hp), fun p hp hgiven => ?_⟩
  obtain ⟨object, hobject, hholds⟩ := h.truthful p (hplacements ▸ hp) fun hold =>
    hgiven (hold.mono hgrown)
  exact ⟨object, by rw [remoteObject_congr htargets]; exact hobject, hholds⟩

end Mono

section Worker

variable {m : Moment} {view : Db} {ls : List RatatoskrVault.Lock}
  {ws : List RatatoskrVault.Write} {at_ n : WorkerLoc}

theorem Knows.of_unit {u : UnitLoc} (h : ∀ transfer key, u.recording? = some (transfer, key) →
    Verified settings c₀ world transfer key) : Knows settings c₀ c world (.unit u) where
  verified at_ transfer key hloc hrecording := by
    cases hloc
    exact h transfer key hrecording
  named _ _ _ _ _ hloc := by cases hloc
  clear _ _ _ _ _ hloc := by cases hloc

theorem Knows.of_worker
    (hnamed : ∀ job identity e stored, at_.identified? = some (job, identity) →
      job.unit = .replica e stored → ∃ key, identity = .replicaKey stored.replicaTargetId key ∧
        (key = stored.objectKey ∨ Current settings c₀ stored.replicaTargetId e.blob key))
    (hclear : ∀ job identity e stored, at_.identified? = some (job, identity) →
      at_.removing? = some identity → job.unit = .replica e stored →
      Current settings c₀ stored.replicaTargetId e.blob stored.objectKey →
      ∀ p ∈ c.vault.placements, p.replicaTargetId = stored.replicaTargetId →
        p.objectKey = stored.objectKey → GivenUp c₀ c p) :
    Knows settings c₀ c world (.retention (.worker at_)) where
  verified _ _ _ hloc := by cases hloc
  named at_ job identity e stored hloc := by
    cases hloc
    exact hnamed job identity e stored
  clear at_ job identity e stored hloc := by
    cases hloc
    exact hclear job identity e stored

/-- Captures and transitions have to do with no object of a target. -/
theorem Knows.of_other {at_ : Retention.Loc} (h : ∀ n, at_ ≠ .worker n) :
    Knows settings c₀ c world (.retention at_) where
  verified _ _ _ hloc := by cases hloc
  named n _ _ _ _ hloc := by
    cases hloc
    exact absurd rfl (h n)
  clear n _ _ _ _ hloc := by
    cases hloc
    exact absurd rfl (h n)

theorem Knows.idle : Knows settings c₀ c world (.retention .idle) :=
  .of_other fun _ hn => by cases hn

/-- Nothing has been looked up yet. -/
theorem Knows.of_unidentified (h : at_.identified? = none) :
    Knows settings c₀ c world (.retention (.worker at_)) :=
  .of_worker (fun _ _ _ _ hid => by rw [h] at hid; cases hid)
    fun _ _ _ _ hid => by rw [h] at hid; cases hid

/-- The next place of the same stage. -/
theorem Knows.of_same (h : Knows settings c₀ c world (.retention (.worker at_)))
    (hidentified : n.identified? = at_.identified?)
    (hremoving : n.removing? = none ∨ n.removing? = at_.removing?) :
    Knows settings c₀ c world (.retention (.worker n)) := by
  refine .of_worker (fun job identity e stored hid => ?_) fun job identity e stored hid hrem => ?_
  · exact h.named at_ job identity e stored rfl (hidentified ▸ hid)
  · rcases hremoving with hnone | hsame
    · rw [hnone] at hrem
      cases hrem
    · exact h.clear at_ job identity e stored rfl (hidentified ▸ hid) (hsame ▸ hrem)

theorem unidentified_next {plan : DeletionExecutionPlan} {tasks : List Task} :
    (WorkerLoc.next plan tasks).identified? = none := by
  match tasks with
  | [] => rfl
  | .stage unit :: rest => rfl
  | .advance :: rest => rfl
  | .complete :: rest => rfl

/-- The identity of a replica stage is the key of its placement. -/
theorem named_of_stageIdentity (hplaces : IsKey ReplicaPlacement.place c.vault.placements)
    (hplacements : view.placements = c.vault.placements) {job : Job} {snapshotId : Uuid}
    {identity : PhysicalIdentity} {e : DeletionExecutionArtifact}
    {stored : DeletionExecutionReplica} (hunit : job.unit = .replica e stored)
    (hprojected : Projected settings c₀ c job.unit)
    (h : view.stageIdentity snapshotId job.unit.stage = some identity) :
    ∃ key, identity = .replicaKey stored.replicaTargetId key ∧
      (key = stored.objectKey ∨ Current settings c₀ stored.replicaTargetId e.blob key) := by
  rw [hunit] at h hprojected
  obtain ⟨q, hq, rfl⟩ := Option.map_eq_some_iff.mp h
  have hsel := List.find?_some hq
  simp only [Bool.and_eq_true, beq_iff_eq] at hsel
  obtain ⟨-, p, hp, -, hplace, hkey⟩ := hprojected
  have hmem : q ∈ c.vault.placements := hplacements ▸ List.mem_of_find?_eq_some hq
  have hqplace : q.place = (e.artifactId, stored.replicaTargetId) :=
    Prod.ext hsel.1.1.2 hsel.1.2
  obtain rfl : q = p := hplaces q hmem p hp (hqplace.trans hplace.symm)
  exact ⟨q.objectKey, rfl, hkey⟩

/-- What holds the object of a placement that is not shared has been given up. -/
theorem givenUp_of_notShared
    (hartifacts : view.artifacts = c₀.vault.artifacts)
    (hplacements : view.placements = c.vault.placements)
    (hids : ∀ p ∈ c.vault.placements, ∀ q ∈ c.vault.placements,
      p.placementId = q.placementId → p = q)
    (howned : ∀ p ∈ c.vault.placements, RecordedFor c₀ p)
    (hmarked : ∀ a ∈ c₀.vault.artifacts, view.snapshotIsRetained a.snapshotId = false →
      DeletionStarted c.vault a.snapshotId)
    {job : Job} {snapshotId : Uuid} {e : DeletionExecutionArtifact}
    {stored : DeletionExecutionReplica} (hunit : job.unit = .replica e stored)
    (hprojected : Projected settings c₀ c job.unit) (hgoing : Going c₀ c job.unit snapshotId)
    (hshared : view.identityIsShared snapshotId job.unit.stage = false)
    (hcurrent : Current settings c₀ stored.replicaTargetId e.blob stored.objectKey)
    {p : ReplicaPlacement} (hp : p ∈ c.vault.placements)
    (htarget : p.replicaTargetId = stored.replicaTargetId)
    (hpkey : p.objectKey = stored.objectKey) : GivenUp c₀ c p := by
  obtain ⟨hstarted, a₀, ha₀, hid₀, hsnapshot₀⟩ := hgoing e stored hunit
  rw [hunit] at hshared hprojected
  obtain ⟨-, q, hq, hqid, hqplace, hqkey⟩ := hprojected
  obtain ⟨hqartifact, hqtarget⟩ := Prod.mk.inj hqplace
  have hsame : q.objectKey = stored.objectKey := hqkey.elim id fun hcur => hcur.unique hcurrent
  obtain ⟨a, ha, hid, -⟩ := howned p hp
  by_cases hself : p.placementId = q.placementId
  · obtain rfl := hids p hp q hq hself
    exact ⟨a₀, ha₀, hid₀.trans hqartifact.symm, hsnapshot₀ ▸ hstarted⟩
  · by_cases hsnapshot : a.snapshotId = snapshotId
    · exact ⟨a, ha, hid, hsnapshot ▸ hstarted⟩
    · refine ⟨a, ha, hid, hmarked a ha ?_⟩
      by_contra hretained
      rw [Bool.not_eq_false] at hretained
      have htrue : view.identityIsShared snapshotId (StageUnit.replica e stored).stage = true := by
        refine List.any_eq_true.mpr ⟨q, hplacements ▸ hq, ?_⟩
        simp only [Bool.and_eq_true, beq_iff_eq]
        refine ⟨hqid, List.any_eq_true.mpr ⟨p, hplacements ▸ hp, ?_⟩⟩
        simp only [Bool.and_eq_true, beq_iff_eq, bne_iff_ne]
        refine ⟨⟨⟨htarget.trans hqtarget.symm, hpkey.trans hsame.symm⟩, hself⟩,
          List.any_eq_true.mpr ⟨a, hartifacts ▸ ha, ?_⟩⟩
        simp only [Bool.and_eq_true, beq_iff_eq, bne_iff_ne]
        exact ⟨⟨hid, hsnapshot⟩, hretained⟩
      rw [htrue] at hshared
      cases hshared

/-- A statement of a worker, which sees the placements and artifacts as they are. -/
theorem Knows.worker
    (hplaces : IsKey ReplicaPlacement.place c.vault.placements)
    (hartifacts : view.artifacts = c₀.vault.artifacts)
    (hplacements : view.placements = c.vault.placements)
    (hids : ∀ p ∈ c.vault.placements, ∀ q ∈ c.vault.placements,
      p.placementId = q.placementId → p = q)
    (howned : ∀ p ∈ c.vault.placements, RecordedFor c₀ p)
    (hmarked : ∀ a ∈ c₀.vault.artifacts, view.snapshotIsRetained a.snapshotId = false →
      DeletionStarted c.vault a.snapshotId)
    (haligned : WorkerAligned settings c₀ c at_)
    (h : Knows settings c₀ c world (.retention (.worker at_)))
    (hstmt : WorkerStmt m view at_ ls ws n) :
    Knows settings c₀ c world (.retention (.worker n)) := by
  cases hstmt with
  | @identity job row identity hidentity =>
    refine .of_worker (fun job identity e stored hid hunit => ?_) fun _ _ _ _ _ hrem => by cases hrem
    cases hid
    exact named_of_stageIdentity hplaces hplacements hunit haligned.carries.1 hidentity
  | @notShared job row identity hshared =>
    refine .of_worker (fun job identity e stored hid hunit => ?_)
      fun job identity e stored hid hrem hunit hcurrent p hp htarget hpkey => ?_
    · exact h.named _ job identity e stored rfl hid hunit
    · cases hid
      exact givenUp_of_notShared hartifacts hplacements hids howned hmarked hunit
        haligned.carries.1 haligned.authorised hshared hcurrent hp htarget hpkey
  | advancePlanned => exact h.of_same rfl (Or.inl rfl)
  | advanceStarted => exact h.of_same rfl (Or.inl rfl)
  | abandonStage => exact h.of_same rfl (Or.inl rfl)
  | lockIdentity => exact h.of_same rfl (Or.inl rfl)
  | abandonClaims => exact h.of_same rfl (Or.inr rfl)
  | insertClaim => exact h.of_same rfl (Or.inr rfl)
  | insertAttempt => exact h.of_same rfl (Or.inr rfl)
  | _ => exact .of_unidentified rfl

theorem Knows.workerCommit (h : Knows settings c₀ c world (.retention (.worker at_)))
    (hcommit : WorkerCommit at_ n) : Knows settings c₀ c world (.retention (.worker n)) := by
  cases hcommit with
  | claimed => exact h.of_same rfl (Or.inr rfl)
  | shared => exact .of_unidentified unidentified_next
  | recorded => exact .of_unidentified unidentified_next
  | _ => exact .of_unidentified rfl

end Worker

section Objects

variable {cx : Crypto} {at_ n : UnitLoc} {bytes : Bytes}

/-- Objects that stay, or are replaced by the content of their key, leave placements true. -/
theorem Shown.objects (hsizes : SizesAgree c₀) (h : Shown settings c₀ c world)
    (hobjects : ∀ p ∈ c.vault.placements, ¬ GivenUp c₀ c p → ∀ target,
      c.replicaTarget? p.replicaTargetId = some target →
      world'.objects target.location p.objectKey = world.objects target.location p.objectKey ∨
        ∃ object, world'.objects target.location p.objectKey = some object ∧
          ∃ a ∈ c₀.vault.artifacts, (∃ keyPrefix, p.objectKey = objectKey keyPrefix a.reference) ∧
            object.Holds settings.retention.worker.crypto a.reference) :
    Shown settings c₀ c world' := by
  refine ⟨h.recorded, fun p hp hgiven => ?_⟩
  obtain ⟨object, hobject, hsize, hdigest⟩ := h.truthful p hp hgiven
  obtain ⟨target, htarget, hfound⟩ := Option.bind_eq_some_iff.mp hobject
  rcases hobjects p hp hgiven target htarget with
    hsame | ⟨object', hobject', a, ha, ⟨keyPrefix, hkey⟩, hholds⟩
  · refine ⟨object, ?_, hsize, hdigest⟩
    unfold remoteObject
    rw [htarget, Option.bind_some, hsame]
    exact hfound
  · obtain ⟨a', ha', -, hsha, hbytes, keyPrefix', hkey'⟩ := h.recorded p hp
    have hholds' := Holds.of_key hsizes ha ha' (hkey.symm.trans hkey') hholds
    refine ⟨object', ?_, hholds'.1.trans hbytes.symm, hholds'.2.trans hsha.symm⟩
    unfold remoteObject
    rw [htarget, Option.bind_some]
    exact hobject'

end Objects

section Steps

variable {s : State} {i : ℕ} {io : IoResult} {next : Loc} {locks : List Lock} {writes : List Write}
  {job : Job} {identity : PhysicalIdentity} {claimId attemptId : Uuid}

theorem store_congr (htargets : c'.replicaTargets = c.replicaTargets)
    (settings : ReplicationWorkerSettings) (replicaTargetId : Uuid) :
    c'.store? settings replicaTargetId = c.store? settings replicaTargetId := by
  unfold Catalog.store? Catalog.replicaTarget?
  rw [htargets]

/-- A deletion stage takes away only what its session knows to be given up. -/
theorem Shown.effect (hsizes : SizesAgree c₀)
    (hlocations : ∀ t ∈ c₀.replicaTargets, ∀ t' ∈ c₀.replicaTargets, t.location = t'.location →
      t.replicaTargetId = t'.replicaTargetId)
    (htargets : c.replicaTargets = c₀.replicaTargets)
    (htargets' : c'.replicaTargets = c₀.replicaTargets)
    (hknows : Knows settings c₀ c world
      (.retention (.worker (.effect job identity claimId attemptId))))
    (h : Shown settings c₀ c world) :
    Shown settings c₀ c (world.after c'
      (deletionEffect (settings.current c').worker job (world.storage c') io).1) := by
  refine h.objects hsizes fun p hp hgiven target htarget => ?_
  left
  have hafter := @objects_after_effect settings c' world io job target.location p.objectKey
  rcases hafter with hsame |
    ⟨-, e, stored, store, hunit, hkey, ⟨target', hmem', hid', hlocation⟩, hstore, hderived⟩
  · exact hsame
  · have hid : target.replicaTargetId = p.replicaTargetId := by
      simpa using List.find?_some htarget
    have hmem : target ∈ c₀.replicaTargets := htargets ▸ List.mem_of_find?_eq_some htarget
    have hsame := hlocations target hmem target' (htargets' ▸ hmem') hlocation.symm
    have hstored : p.replicaTargetId = stored.replicaTargetId :=
      hid.symm.trans (hsame.trans hid')
    have hcurrent : Current settings c₀ stored.replicaTargetId e.blob stored.objectKey := by
      refine ⟨store, ?_, hkey.trans hderived⟩
      rw [← store_congr htargets']
      exact hstore
    exact absurd (hknows.clear _ job identity e stored rfl rfl rfl hunit hcurrent p hp hstored
      hkey.symm) hgiven

/-- What the steps here rely on, besides their own invariant. -/
structure Settled (settings : Settings) (c₀ : Catalog) (s : State) : Prop where
  ordered : Ordered s
  aligned : Aligned settings c₀ s
  tagged : ∃ g, placementTags.Agrees g s

end Steps

end

namespace Sample

/-- A second snapshot with the same bundle, which is stored and placed for the first one. -/
def shared : Catalog :=
  { planned with
    vault := { planned.vault with
      snapshots := [snapshot 4, snapshot 5]
      artifacts := [bundle 6 4, bundle 7 5]
      placements :=
        [{ placementId := 30, artifactId := 6, replicaTargetId := 20
           objectKey := objectKey "" (bundle 6 4).reference
           sha256Hash := Retention.Sample.sha256 [10], sizeBytes := 1 }] }
    verifications := [{ placementId := 30, lastVerifiedAt := 0, lastAttemptId := 29 }] }

def uploaded : World :=
  world.put target.location (objectKey "" (bundle 6 4).reference) 6 [10]

/-- The unit of the second snapshot finds the object and is about to record it. -/
def found : List Label :=
  .start 1 (.runUnit (unit 7)) :: List.replicate 6 (.exec 1 .ok)

/-- The plan of the first snapshot removes the object before the unit records it. -/
def removed : List Label :=
  found ++ .start 0 (.retention (.runPlan 8)) :: List.replicate 35 (.exec 0 .ok) ++
    List.replicate 3 (.exec 1 .ok)

end Sample

end Replication

end RatatoskrVault
