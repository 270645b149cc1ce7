import RatatoskrVault.Retention.Locks
import RatatoskrVault.Schema.Evolution

/-! Orphaned bytes: which interleavings of `run_plan` leave no stored object whose every
reference belongs to a deleted snapshot. -/
namespace RatatoskrVault

open Lib

/-- A row that names a stored object. -/
inductive Holder
  | artifact (artifactId : Uuid)
  | placement (placementId : Uuid)
  deriving DecidableEq

def Stage.holder? : Stage → Option Holder
  | .artifact artifactId => some (.artifact artifactId)
  | .mirror => none
  | .replica _ _ placementId => some (.placement placementId)

/-- The row names the object and belongs to the snapshot. -/
inductive Db.Holds (db : Db) : Holder → PhysicalIdentity → Uuid → Prop
  | artifact {a : SnapshotArtifact} (ha : a ∈ db.artifacts) :
      Db.Holds db (.artifact a.artifactId) (.localDigest a.sha256Hash) a.snapshotId
  | placement {p : ReplicaPlacement} {a : SnapshotArtifact} (hp : p ∈ db.placements)
      (ha : a ∈ db.artifacts) (hid : a.artifactId = p.artifactId) :
      Db.Holds db (.placement p.placementId) (.replicaKey p.replicaTargetId p.objectKey)
        a.snapshotId

/-- The row was left to another reference instead of having its object removed. -/
def Db.SharedEvidence (db : Db) (holder : Holder) : Prop :=
  ∃ a ∈ db.attempts, a.stage.holder? = some holder ∧ a.outcome = .sharedReferenceRetained

def Storage.Present (storage : Storage) : PhysicalIdentity → Prop
  | .localDigest digest => storage.blobs.files digest ≠ none
  | .mirrorPath path => storage.mirrors path = true
  | .replicaKey replicaTargetId objectKey => storage.remote replicaTargetId objectKey ≠ none

namespace Retention

/-- Runs of workers, beside plans being created and pins. -/
def OnlyRunPlans (_ : State) : Label → Prop
  | .start _ (.runPlan _) => True
  | .start _ _ => False
  | _ => True

/-- A sharing check that finds the object shared does so while some other undeleted snapshot
holds it through a row that has not itself been left to another reference. -/
def SharingBacked (s : State) : Label → Prop
  | .exec i _ => ∀ job row identity,
      (s.session i).loc = .worker (.claim job (.shared row identity)) →
      (s.db.applyAll (s.session i).log).identityIsShared row.snapshotId job.unit.stage = true →
      ∃ holder snapshotId, s.db.Holds holder identity snapshotId ∧ snapshotId ≠ row.snapshotId ∧
        s.db.snapshotIsRetained snapshotId = true ∧ ¬ s.db.SharedEvidence holder
  | label => OnlyRunPlans s label

/-- Keys and references of the catalogue, before any deletion has begun. -/
structure BeforeDeletion (db : Db) : Prop where
  artifacts_nodup : (db.artifacts.map (·.artifactId)).Nodup
  placements_nodup : (db.placements.map (·.placementId)).Nodup
  artifacts_snapshot : ∀ a ∈ db.artifacts, ∃ s ∈ db.snapshots, s.snapshotId = a.snapshotId
  placements_artifact : ∀ p ∈ db.placements, ∃ a ∈ db.artifacts, a.artifactId = p.artifactId
  snapshots_retained : ∀ s ∈ db.snapshots, s.status ≠ .deleted
  no_attempts : db.attempts = []

def IsDeleted (db : Db) (snapshotId : Uuid) : Prop :=
  ∀ s ∈ db.snapshots, s.snapshotId = snapshotId → s.status = .deleted

/-- An object all of whose references belong to deleted snapshots is absent. -/
structure NoOrphanedBytes (db : Db) (storage : Storage) : Prop where
  blobs : ∀ digest, (∃ a ∈ db.artifacts, a.sha256Hash = digest) →
    (∀ a ∈ db.artifacts, a.sha256Hash = digest → IsDeleted db a.snapshotId ∧
      ∃ p ∈ db.plans, p.snapshotId = a.snapshotId ∧ p.status = .completed) →
    storage.blobs.files digest = none
  replicas : ∀ replicaTargetId objectKey,
    (∃ p ∈ db.placements, p.replicaTargetId = replicaTargetId ∧ p.objectKey = objectKey) →
    (∀ p ∈ db.placements, p.replicaTargetId = replicaTargetId → p.objectKey = objectKey →
      ∀ a ∈ db.artifacts, a.artifactId = p.artifactId → IsDeleted db a.snapshotId) →
    storage.remote replicaTargetId objectKey = none

/-- In every run whose steps meet `ok`, no stored object is orphaned. -/
def NeverOrphaned (ok : State → Label → Prop) (settings : Settings) (s₀ : State) : Prop :=
  ∀ s, Reach (machine settings).step ok s₀ s → NoOrphanedBytes s.db s.world

namespace Orphans

variable {db₀ : Db} {holder holder' : Holder} {identity identity' : PhysicalIdentity}
  {snapshotId snapshotId' : Uuid}

theorem holds_unique (h₀ : BeforeDeletion db₀) (h : db₀.Holds holder identity snapshotId)
    (h' : db₀.Holds holder identity' snapshotId') :
    identity = identity' ∧ snapshotId = snapshotId' := by
  cases h with
  | @artifact a ha =>
    generalize hkey : Holder.artifact a.artifactId = key at h'
    cases h' with
    | @artifact a' ha' =>
      obtain rfl := List.inj_on_of_nodup_map h₀.artifacts_nodup ha ha' (Holder.artifact.inj hkey)
      exact ⟨rfl, rfl⟩
    | placement => cases hkey
  | @placement p a hp ha hid =>
    generalize hkey : Holder.placement p.placementId = key at h'
    cases h' with
    | artifact => cases hkey
    | @placement p' a' hp' ha' hid' =>
      obtain rfl := List.inj_on_of_nodup_map h₀.placements_nodup hp hp' (Holder.placement.inj hkey)
      obtain rfl := List.inj_on_of_nodup_map h₀.artifacts_nodup ha ha' (hid.trans hid'.symm)
      exact ⟨rfl, rfl⟩

/-- The object of every row of the stage is absent. -/
def Gone (db₀ : Db) (storage : Storage) (stage : Stage) : Prop :=
  ∀ holder identity snapshotId, stage.holder? = some holder →
    db₀.Holds holder identity snapshotId → ¬ storage.Present identity

/-- The row of an undeleted snapshot still answers for the object itself. -/
structure Vouched (db₀ db : Db) (holder : Holder) (identity : PhysicalIdentity)
    (snapshotId : Uuid) : Prop where
  holds : db₀.Holds holder identity snapshotId
  retained : db.snapshotIsRetained snapshotId = true
  unshared : ¬ db.SharedEvidence holder

/-- Another snapshot answers for the object as long as it is stored. -/
def Backed (db₀ db : Db) (storage : Storage) (identity : PhysicalIdentity) (snapshotId : Uuid) :
    Prop :=
  storage.Present identity → ∃ holder other, other ≠ snapshotId ∧
    Vouched db₀ db holder identity other

/-- Every row of the snapshot has terminal evidence. -/
def Covered (db₀ db : Db) (snapshotId : Uuid) : Prop :=
  ∀ holder identity, db₀.Holds holder identity snapshotId →
    ∃ a ∈ db.attempts, a.stage.holder? = some holder ∧ a.outcome.isTerminal = true

/-- The unit removes the object of its own row. -/
def UnitOk (db₀ : Db) : StageUnit → Prop
  | .artifact a =>
    ∃ snapshotId, db₀.Holds (.artifact a.artifactId) (.localDigest a.blob.sha256) snapshotId
  | .mirror => True
  | .replica _ stored => ∃ snapshotId, db₀.Holds (.placement stored.placementId)
      (.replicaKey stored.replicaTargetId stored.objectKey) snapshotId

section

variable (db₀ : Db) (f : Uuid → Stage) (fresh : ℕ) (db : Db) (storage : Storage)

/-- `f` gives every attempt id used so far the stage it was made for. -/
def Named (attemptId : Uuid) (stage : Stage) : Prop := attemptId < fresh ∧ f attemptId = stage

def WriteOk (loc : Loc) : Write → Prop
  | .insertArtifact _ => False
  | .insertAttempt a => Named f fresh a.attemptId a.stage ∧
      (a.outcome = .running ∨ a.outcome = .sharedReferenceRetained ∧
        ∃ job identity, loc = .worker (.claim job (.commitShared identity)) ∧
          a.stage = job.unit.stage)
  | .finishAttempt attemptId outcome => outcome ≠ .sharedReferenceRetained ∧
      (outcome = .succeeded → attemptId < fresh ∧ Gone db₀ storage (f attemptId))
  | .setSnapshotDeleted snapshotId => Covered db₀ db snapshotId
  | _ => True

def ClaimOk (job : Job) : ClaimLoc → Prop
  | .advance row object => ∀ holder, job.unit.stage.holder? = some holder →
      db₀.Holds holder object row.snapshotId
  | .abandonStage row object => ∀ holder, job.unit.stage.holder? = some holder →
      db₀.Holds holder object row.snapshotId
  | .lock row object => ∀ holder, job.unit.stage.holder? = some holder →
      db₀.Holds holder object row.snapshotId
  | .shared row object => ∀ holder, job.unit.stage.holder? = some holder →
      db₀.Holds holder object row.snapshotId
  | .insertShared row object => ∀ holder, job.unit.stage.holder? = some holder →
      db₀.Holds holder object row.snapshotId ∧ Backed db₀ db storage object row.snapshotId
  | .commitShared object => ∀ holder, job.unit.stage.holder? = some holder →
      ∃ snapshotId, db₀.Holds holder object snapshotId ∧ Backed db₀ db storage object snapshotId
  | .commitClaimed _ _ attemptId => Named f fresh attemptId job.unit.stage
  | _ => True

def CompleteOk : CompleteLoc → Prop
  | .updatePlan row => ∃ p, db.plan? row.planId = some p ∧ p.snapshotId = row.snapshotId
  | .updateSnapshot row => Covered db₀ db row.snapshotId
  | _ => True

def WorkerOk : WorkerLoc → Prop
  | .claim job at_ => ClaimOk db₀ f fresh db storage job at_
  | .effect job _ _ attemptId => Named f fresh attemptId job.unit.stage
  | .record job _ _ attemptId succeeded _ => Named f fresh attemptId job.unit.stage ∧
      (succeeded = true → Gone db₀ storage job.unit.stage)
  | .complete at_ => CompleteOk db₀ db at_
  | _ => True

def LocOk : Loc → Prop
  | .idle => True
  | .worker at_ => at_.Carries (UnitOk db₀) (· ∈ db₀.artifacts) ∧
      WorkerOk db₀ f fresh db storage at_
  | _ => False

/-- A completion that has written nothing yet. -/
def opening : Loc → Bool
  | .worker (.complete (.lock _)) => true
  | .worker (.complete (.updatePlan _)) => true
  | _ => false

structure SessionOk (σ : Session Write Loc) : Prop where
  loc : LocOk db₀ f fresh db storage σ.loc
  log : ∀ w ∈ σ.log, WriteOk db₀ f fresh db storage σ.loc w
  unwritten : opening σ.loc = true → σ.log = []

end

structure Inv (db₀ : Db) (f : Uuid → Stage) (s : State) : Prop where
  artifacts : s.db.artifacts = db₀.artifacts
  placements : s.db.placements = db₀.placements
  locked : Locked discipline s
  attempts : ∀ a ∈ s.db.attempts, Named f s.fresh a.attemptId a.stage
  succeeded : ∀ a ∈ s.db.attempts, a.outcome = .succeeded → Gone db₀ s.world a.stage
  vouched : ∀ identity, s.world.Present identity →
    (∃ holder snapshotId, db₀.Holds holder identity snapshotId) →
    ∃ holder snapshotId, Vouched db₀ s.db holder identity snapshotId
  sessions : ∀ i, SessionOk db₀ f s.fresh s.db s.world (s.session i)

section Storage

variable {settings : RetentionWorkerSettings} {storage : Storage} {io : IoResult} {job : Job}

/-- A deletion stage never stores anything. -/
theorem present_of_deletionEffect
    (h : (deletionEffect settings job storage io).1.Present identity) :
    storage.Present identity := by
  unfold deletionEffect at h
  cases hunit : job.unit with
  | artifact a =>
    rw [hunit] at h
    cases identity with
    | localDigest digest =>
      obtain ⟨hother, hown, -⟩ :=
        storage.blobs.deleteVerifiedBlob_spec settings.crypto a.blob io
      by_cases hd : digest = a.blob.sha256
      · subst hd
        rcases hown with hnone | hsame
        · exact absurd hnone h
        · intro hnone
          exact h (hsame.trans hnone)
      · intro hnone
        exact h ((hother digest hd).trans hnone)
    | mirrorPath path => exact h
    | replicaKey replicaTargetId objectKey => exact h
  | mirror =>
    rw [hunit] at h
    cases io with
    | failedBefore => exact h
    | ok =>
      cases identity with
      | mirrorPath path =>
        by_cases hp : path = job.plan.mirrorStoragePath
        · simp [Storage.Present, hp] at h
        · simpa [Storage.Present, hp] using h
      | _ => exact h
    | failedAfter =>
      cases identity with
      | mirrorPath path =>
        by_cases hp : path = job.plan.mirrorStoragePath
        · simp [Storage.Present, hp] at h
        · simpa [Storage.Present, hp] using h
      | _ => exact h
  | replica a stored =>
    rw [hunit] at h
    simp only at h
    split at h
    · exact h
    · unfold deleteVerifiedReplica at h
      split_ifs at h
      · exact h
      · split at h
        · exact h
        · exact h
        · split_ifs at h
          · cases identity with
            | replicaKey replicaTargetId objectKey =>
              by_cases ht : replicaTargetId = stored.replicaTargetId
              · subst ht
                by_cases hk : objectKey = stored.objectKey
                · simp [Storage.Present, hk] at h
                · simpa [Storage.Present, hk] using h
              · simpa [Storage.Present, ht] using h
            | _ => exact h
          · exact h

theorem absent_of_deleteVerifiedReplica {replica : ReplicaSettings} {reference : BlobRef}
    {stored : DeletionExecutionReplica}
    (h : (deleteVerifiedReplica settings replica storage reference stored io).2 = true) :
    ¬ (deleteVerifiedReplica settings replica storage reference stored io).1.Present
      (.replicaKey stored.replicaTargetId stored.objectKey) := by
  unfold deleteVerifiedReplica at h ⊢
  split_ifs at h ⊢
  cases hstored : storage.remote stored.replicaTargetId stored.objectKey with
  | none => cases io <;> simp_all [Storage.Present]
  | some bytes =>
    rw [hstored] at h
    cases io with
    | failedBefore => cases h
    | ok =>
      simp only at h ⊢
      split_ifs at h ⊢
      simp [Storage.Present]
    | failedAfter =>
      simp only at h
      split_ifs at h
      cases h

/-- A stage that reports success has removed the object of its row. -/
theorem gone_of_deletionEffect (h₀ : BeforeDeletion db₀) (hunit : UnitOk db₀ job.unit)
    (h : (deletionEffect settings job storage io).2 = true) :
    Gone db₀ (deletionEffect settings job storage io).1 job.unit.stage := by
  intro holder identity snapshotId hholder hholds
  cases hcase : job.unit with
  | artifact a =>
    rw [hcase] at hunit hholder
    obtain rfl : Holder.artifact a.artifactId = holder := Option.some.inj hholder
    obtain ⟨S, hS⟩ := hunit
    obtain ⟨rfl, -⟩ := holds_unique h₀ hholds hS
    simp only [deletionEffect, hcase] at h ⊢
    have hspec := (storage.blobs.deleteVerifiedBlob_spec settings.crypto a.blob io).2.2
    cases hresult : (storage.blobs.deleteVerifiedBlob settings.crypto a.blob io).2 with
    | error e => rw [hresult] at h; cases h
    | ok outcome => exact fun hpresent => hpresent (hspec outcome hresult)
  | mirror => rw [hcase] at hholder; cases hholder
  | replica a stored =>
    rw [hcase] at hunit hholder
    obtain rfl : Holder.placement stored.placementId = holder := Option.some.inj hholder
    obtain ⟨S, hS⟩ := hunit
    obtain ⟨rfl, -⟩ := holds_unique h₀ hholds hS
    simp only [deletionEffect, hcase] at h ⊢
    cases hreplica : settings.replicas stored.replicaTargetId with
    | none => rw [hreplica] at h; cases h
    | some replica =>
      rw [hreplica] at h
      simp only at h ⊢
      exact absent_of_deleteVerifiedReplica h

end Storage

theorem workerOk_next {f : Uuid → Stage} {fresh : ℕ} {db : Db} {storage : Storage}
    {plan : DeletionExecutionPlan} {tasks : List Task} :
    WorkerOk db₀ f fresh db storage (WorkerLoc.next plan tasks) := by
  match tasks with
  | [] => trivial
  | .stage unit :: rest => trivial
  | .advance :: rest => trivial
  | .complete :: rest => trivial

theorem meets_executionArtifact {db : Db} {a : SnapshotArtifact} (ha : a ∈ db₀.artifacts)
    (hplacements : db.placements = db₀.placements) :
    (db.executionArtifact a).Meets (UnitOk db₀) := by
  refine ⟨⟨a.snapshotId, .artifact ha⟩, fun stored hstored => ?_⟩
  simp only [Db.executionArtifact, Db.sortedPlacements, List.mem_map, List.mem_insertionSort,
    List.mem_filter, beq_iff_eq, hplacements] at hstored
  obtain ⟨p, ⟨hp, hid⟩, rfl⟩ := hstored
  exact ⟨a.snapshotId, .placement hp ha hid.symm⟩

section Frame

variable {f f' : Uuid → Stage} {fresh fresh' : ℕ} {db db' : Db} {storage storage' : Storage}

/-- What the other sessions' steps never undo. -/
structure Evolves (f : Uuid → Stage) (fresh : ℕ) (db : Db) (storage : Storage)
    (f' : Uuid → Stage) (fresh' : ℕ) (db' : Db) (storage' : Storage) : Prop where
  fresh_le : fresh ≤ fresh'
  names : ∀ id, id < fresh → f' id = f id
  storage : ∀ identity, storage'.Present identity → storage.Present identity
  attempts : ∀ a ∈ db.attempts, a.outcome ≠ .running → a ∈ db'.attempts
  plans : ∀ planId p, db.plan? planId = some p →
    ∃ p', db'.plan? planId = some p' ∧ p'.snapshotId = p.snapshotId

/-- The rows that answer for the objects a session has locked. -/
def KeepsVouched (db₀ db db' : Db) (storage' : Storage) (loc : Loc) : Prop :=
  ∀ identity, .identity identity ∈ loc.locks → storage'.Present identity →
    ∀ holder snapshotId, Vouched db₀ db holder identity snapshotId →
      Vouched db₀ db' holder identity snapshotId

theorem Evolves.named (h : Evolves f fresh db storage f' fresh' db' storage') {id : Uuid}
    {stage : Stage} (hn : Named f fresh id stage) : Named f' fresh' id stage :=
  ⟨Nat.lt_of_lt_of_le hn.1 h.fresh_le, (h.names id hn.1).trans hn.2⟩

theorem Evolves.gone (h : Evolves f fresh db storage f' fresh' db' storage') {stage : Stage}
    (hg : Gone db₀ storage stage) : Gone db₀ storage' stage :=
  fun holder identity snapshotId hholder hholds hpresent =>
    hg holder identity snapshotId hholder hholds (h.storage identity hpresent)

theorem Evolves.covered (h : Evolves f fresh db storage f' fresh' db' storage')
    (hc : Covered db₀ db snapshotId) : Covered db₀ db' snapshotId := by
  intro holder identity hholds
  obtain ⟨a, ha, hholder, hterminal⟩ := hc holder identity hholds
  refine ⟨a, h.attempts a ha fun hrunning => ?_, hholder, hterminal⟩
  rw [hrunning] at hterminal
  cases hterminal

theorem Evolves.backed (h : Evolves f fresh db storage f' fresh' db' storage')
    (hv : storage'.Present identity → ∀ holder snapshotId,
      Vouched db₀ db holder identity snapshotId → Vouched db₀ db' holder identity snapshotId)
    (hb : Backed db₀ db storage identity snapshotId) :
    Backed db₀ db' storage' identity snapshotId := by
  intro hpresent
  obtain ⟨holder, other, hne, hvouched⟩ := hb (h.storage identity hpresent)
  exact ⟨holder, other, hne, hv hpresent holder other hvouched⟩

theorem Evolves.writeOk (h : Evolves f fresh db storage f' fresh' db' storage') {loc : Loc}
    {w : Write} (hw : WriteOk db₀ f fresh db storage loc w) :
    WriteOk db₀ f' fresh' db' storage' loc w := by
  cases w with
  | insertAttempt a => exact ⟨h.named hw.1, hw.2⟩
  | finishAttempt id outcome =>
    refine ⟨hw.1, fun hsucceeded => ?_⟩
    obtain ⟨hid, hgone⟩ := hw.2 hsucceeded
    refine ⟨Nat.lt_of_lt_of_le hid h.fresh_le, ?_⟩
    rw [h.names id hid]
    exact h.gone hgone
  | setSnapshotDeleted id => exact h.covered hw
  | insertArtifact row => exact hw
  | _ => trivial

theorem Evolves.claimOk (h : Evolves f fresh db storage f' fresh' db' storage') {job : Job}
    {at_ : ClaimLoc} (hv : KeepsVouched db₀ db db' storage' (.worker (.claim job at_)))
    (hc : ClaimOk db₀ f fresh db storage job at_) : ClaimOk db₀ f' fresh' db' storage' job at_ := by
  cases at_ with
  | insertShared row object =>
    intro holder hholder
    refine ⟨(hc holder hholder).1, h.backed (hv object ?_) (hc holder hholder).2⟩
    simp [Loc.locks, WorkerLoc.locks, ClaimLoc.locks]
  | commitShared object =>
    intro holder hholder
    obtain ⟨snapshotId, hholds, hbacked⟩ := hc holder hholder
    refine ⟨snapshotId, hholds, h.backed (hv object ?_) hbacked⟩
    simp [Loc.locks, WorkerLoc.locks, ClaimLoc.locks]
  | commitClaimed object claimId attemptId => exact h.named hc
  | advance row object => exact hc
  | abandonStage row object => exact hc
  | lock row object => exact hc
  | shared row object => exact hc
  | _ => trivial

theorem Evolves.sessionOk (h : Evolves f fresh db storage f' fresh' db' storage')
    {σ : Session Write Loc} (hv : KeepsVouched db₀ db db' storage' σ.loc)
    (hσ : SessionOk db₀ f fresh db storage σ) : SessionOk db₀ f' fresh' db' storage' σ := by
  refine ⟨?_, fun w hw => h.writeOk (hσ.log w hw), hσ.unwritten⟩
  have hloc := hσ.loc
  cases hcase : σ.loc with
  | idle => trivial
  | capture at_ => rw [hcase] at hloc; exact hloc.elim
  | transition request at_ => rw [hcase] at hloc; exact hloc.elim
  | worker at_ =>
    rw [hcase] at hloc hv
    refine ⟨hloc.1, ?_⟩
    replace hloc := hloc.2
    cases at_ with
    | claim job loc => exact h.claimOk hv hloc
    | effect job object claimId attemptId => exact h.named hloc
    | record job object claimId attemptId succeeded loc =>
      exact ⟨h.named hloc.1, fun hs => h.gone (hloc.2 hs)⟩
    | complete loc =>
      cases loc with
      | updatePlan row =>
        obtain ⟨p, hp, hsnapshot⟩ := hloc
        obtain ⟨p', hp', hsame⟩ := h.plans row.planId p hp
        exact ⟨p', hp', hsame.trans hsnapshot⟩
      | updateSnapshot row => exact h.covered hloc
      | _ => trivial
    | _ => trivial

end Frame

section Statements

variable {f : Uuid → Stage} {fresh : ℕ} {db view : Db} {storage : Storage}

theorem holds_of_stageIdentity (hartifacts : view.artifacts = db₀.artifacts)
    (hplacements : view.placements = db₀.placements) {stage : Stage}
    (h : view.stageIdentity snapshotId stage = some identity) (hholder : stage.holder? = some holder) :
    db₀.Holds holder identity snapshotId := by
  cases stage with
  | artifact artifactId =>
    obtain rfl : Holder.artifact artifactId = holder := Option.some.inj hholder
    obtain ⟨a, hfind, rfl⟩ := Option.map_eq_some_iff.mp h
    have hmem := List.mem_of_find?_eq_some hfind
    have hprop := List.find?_some hfind
    simp only [Bool.and_eq_true, beq_iff_eq] at hprop
    obtain ⟨rfl, rfl⟩ := hprop
    exact .artifact (hartifacts ▸ hmem)
  | mirror => cases hholder
  | replica artifactId replicaTargetId placementId =>
    obtain rfl : Holder.placement placementId = holder := Option.some.inj hholder
    obtain ⟨p, hfind, rfl⟩ := Option.map_eq_some_iff.mp h
    have hmem := List.mem_of_find?_eq_some hfind
    have hprop := List.find?_some hfind
    simp only [Bool.and_eq_true, beq_iff_eq, List.any_eq_true, Db.artifactsOf,
      List.mem_filter] at hprop
    obtain ⟨⟨⟨rfl, hartifact⟩, rfl⟩, a, ⟨ha, rfl⟩, hid⟩ := hprop
    exact .placement (hplacements ▸ hmem) (hartifacts ▸ ha) (hid.trans hartifact.symm)

theorem covered_of_guard (hartifacts : db.artifacts = db₀.artifacts)
    (hplacements : db.placements = db₀.placements) {plan : DeletionPlan}
    (h : db.guardDeletionPlanUpdate plan .completed = .ok ()) :
    Covered db₀ db plan.snapshotId := by
  unfold Db.guardDeletionPlanUpdate at h
  split_ifs at h with hlegal hterminal
  simp only [true_and, not_not] at hterminal
  obtain ⟨hlocal, hreplicas, -⟩ := hterminal
  intro holder identity hholds
  generalize hS : plan.snapshotId = S at hholds
  cases hholds with
  | @artifact a ha =>
    have hmem : a ∈ db.artifactsOf plan.snapshotId :=
      List.mem_filter.mpr ⟨hartifacts ▸ ha, by simp [hS]⟩
    have hdone := List.all_eq_true.mp hlocal a hmem
    obtain ⟨stage, hstage, hprop⟩ := List.any_eq_true.mp hdone
    simp only [Bool.and_eq_true, beq_iff_eq] at hprop
    exact ⟨stage, hstage, by rw [hprop.1.2]; rfl, hprop.2⟩
  | @placement p a hp ha hid =>
    have hartifact : a ∈ db.artifactsOf plan.snapshotId :=
      List.mem_filter.mpr ⟨hartifacts ▸ ha, by simp [hS]⟩
    have hmem : p ∈ db.placementsOf plan.snapshotId :=
      List.mem_filter.mpr ⟨hplacements ▸ hp,
        List.any_eq_true.mpr ⟨a, hartifact, by simp [hid]⟩⟩
    have hdone := List.all_eq_true.mp hreplicas p hmem
    obtain ⟨stage, hstage, hprop⟩ := List.any_eq_true.mp hdone
    simp only [Bool.and_eq_true, beq_iff_eq] at hprop
    refine ⟨stage, hstage, ?_, hprop.2⟩
    have hunit := hprop.1.2
    split at hunit
    · rename_i hcase
      rw [hcase, ← beq_iff_eq.mp hunit]
      rfl
    · cases hunit

theorem artifacts_view {σ : Session Write Loc} (hσ : SessionOk db₀ f fresh db storage σ) :
    (db.applyAll σ.log).artifacts = db.artifacts := by
  refine foldl_invariant (I := fun d : Db => d.artifacts = db.artifacts) (fun d w hw hd => ?_) rfl
  have hok := hσ.log w hw
  cases w with
  | insertArtifact row => exact hok.elim
  | _ => exact hd

/-- Time passes: one more identifier is used up. -/
theorem evolves_names {f' : Uuid → Stage} (hf : ∀ id, id < fresh → f' id = f id) :
    Evolves f fresh db storage f' (fresh + 1) db storage :=
  ⟨Nat.le_succ fresh, hf, fun _ h => h, fun _ h _ => h, fun _ p h => ⟨p, h, rfl⟩⟩

/-- The log of a session that is not about to commit a shared stage stays in order. -/
theorem sessionOk_extend {f' : Uuid → Stage} {σ : Session Write Loc} {at_ n : WorkerLoc}
    {writes : List Write} {began : Option ℕ} (hσ : SessionOk db₀ f fresh db storage σ)
    (hloc : σ.loc = .worker at_) (hf : ∀ id, id < fresh → f' id = f id)
    (hnot : ∀ job object, at_ ≠ .claim job (.commitShared object))
    (hc : n.Carries (UnitOk db₀) (· ∈ db₀.artifacts))
    (hn : WorkerOk db₀ f' (fresh + 1) db storage n)
    (hw : ∀ w ∈ writes, WriteOk db₀ f' (fresh + 1) db storage (.worker n) w)
    (hopen : opening (.worker n) = true → σ.log ++ writes = []) :
    SessionOk db₀ f' (fresh + 1) db storage ⟨.worker n, σ.log ++ writes, began⟩ := by
  refine ⟨⟨hc, hn⟩, fun w hmem => ?_, hopen⟩
  rcases List.mem_append.mp hmem with hmem | hmem
  · have hold := (evolves_names hf).writeOk (hσ.log w hmem)
    cases w with
    | insertAttempt a =>
      refine ⟨hold.1, hold.2.imp_right fun ⟨_, job, object, hshared, _⟩ => ?_⟩
      exact absurd (Loc.worker.inj (hloc.symm.trans hshared)) (hnot job object)
    | _ => exact hold
  · exact hw w hmem

theorem sessionOk_stmt {m : Moment} (hm : m.fresh = fresh) {σ : Session Write Loc}
    {at_ n : WorkerLoc} {locks : List Lock} {writes : List Write} (began : Option ℕ)
    (hσ : SessionOk db₀ f fresh db storage σ) (hloc : σ.loc = .worker at_)
    (hartifacts : db.artifacts = db₀.artifacts) (hplacements : db.placements = db₀.placements)
    (hbacked : ∀ job row object, at_ = .claim job (.shared row object) →
      (db.applyAll σ.log).identityIsShared row.snapshotId job.unit.stage = true →
      Backed db₀ db storage object row.snapshotId)
    (hstmt : WorkerStmt m (db.applyAll σ.log) at_ locks writes n) :
    ∃ f', (∀ id, id < fresh → f' id = f id) ∧
      SessionOk db₀ f' (fresh + 1) db storage ⟨.worker n, σ.log ++ writes, began⟩ := by
  have hview : (db.applyAll σ.log).artifacts = db₀.artifacts :=
    (artifacts_view hσ).trans hartifacts
  have hviewP : (db.applyAll σ.log).placements = db₀.placements :=
    Db.applyAll_placements.trans hplacements
  obtain ⟨hcarries, hwork⟩ : at_.Carries (UnitOk db₀) (· ∈ db₀.artifacts) ∧
      WorkerOk db₀ f fresh db storage at_ := by
    have h := hσ.loc
    rwa [hloc] at h
  have hcarries' := hstmt.carries hcarries
  have hnamed : ∀ {id stage}, Named f fresh id stage → Named f (fresh + 1) id stage :=
    fun h => ⟨Nat.lt_succ_of_lt h.1, h.2⟩
  -- Every statement but an insertion of an attempt keeps the names of the attempts.
  have hkeep : (∀ job object, at_ ≠ .claim job (.commitShared object)) →
      WorkerOk db₀ f (fresh + 1) db storage n →
      (∀ w ∈ writes, WriteOk db₀ f (fresh + 1) db storage (.worker n) w) →
      (opening (.worker n) = true → σ.log ++ writes = []) →
      ∃ f', (∀ id, id < fresh → f' id = f id) ∧
        SessionOk db₀ f' (fresh + 1) db storage ⟨.worker n, σ.log ++ writes, began⟩ :=
    fun hnot hn hw hopen => ⟨f, fun _ _ => rfl, sessionOk_extend hσ hloc (fun _ _ => rfl)
      hnot hcarries' hn hw hopen⟩
  -- An inserted attempt is named by the identifier it consumes.
  have hinsert : ∀ job : Job, (∀ job object, at_ ≠ .claim job (.commitShared object)) →
      (∀ f' : Uuid → Stage, (∀ id, id < fresh → f' id = f id) → f' fresh = job.unit.stage →
        WorkerOk db₀ f' (fresh + 1) db storage n ∧
        ∀ w ∈ writes, WriteOk db₀ f' (fresh + 1) db storage (.worker n) w) →
      opening (.worker n) = false →
      ∃ f', (∀ id, id < fresh → f' id = f id) ∧
        SessionOk db₀ f' (fresh + 1) db storage ⟨.worker n, σ.log ++ writes, began⟩ := by
    intro job hnot hall hopen
    have hf : ∀ id, id < fresh → Function.update f fresh job.unit.stage id = f id :=
      fun id hid => Function.update_of_ne (Nat.ne_of_lt hid) _ _
    obtain ⟨hn, hw⟩ := hall _ hf (Function.update_self ..)
    exact ⟨_, hf, sessionOk_extend hσ hloc hf hnot hcarries' hn hw (by simp [hopen])⟩
  cases hstmt with
  | claimLoad => exact hkeep (by simp) trivial (by simp) (by simp [opening])
  | refuse => exact hkeep (by simp) trivial (by simp) (by simp [opening])
  | accept => exact hkeep (by simp) trivial (by simp) (by simp [opening])
  | identity hidentity =>
    exact hkeep (by simp) (fun holder hholder =>
      holds_of_stageIdentity hview hviewP hidentity hholder) (by simp) (by simp [opening])
  | advancePlanned => exact hkeep (by simp) hwork (by simp [WriteOk]) (by simp [opening])
  | advanceStarted => exact hkeep (by simp) hwork (by simp) (by simp [opening])
  | abandonStage =>
    refine hkeep (by simp) hwork (fun w hw => ?_) (by simp [opening])
    obtain ⟨a, -, rfl⟩ := List.mem_map.mp hw
    exact ⟨by simp, by simp⟩
  | lockIdentity => exact hkeep (by simp) hwork (by simp) (by simp [opening])
  | @shared job row object hshared =>
    exact hkeep (by simp) (fun holder hholder =>
      ⟨hwork holder hholder, hbacked job row object rfl hshared⟩) (by simp) (by simp [opening])
  | notShared => exact hkeep (by simp) trivial (by simp) (by simp [opening])
  | @insertShared job row object attempt hid hplan hstage houtcome hguard =>
    refine hinsert job (by simp) (fun f' _ hnew => ⟨fun holder hholder => ?_, ?_⟩) rfl
    · exact ⟨row.snapshotId, hwork holder hholder⟩
    · intro w hw
      obtain rfl := List.mem_singleton.mp hw
      refine ⟨⟨?_, ?_⟩, Or.inr ⟨houtcome, job, object, rfl, hstage⟩⟩
      · rw [hid, hm]; exact Nat.lt_succ_self fresh
      · rw [hid, hm, hnew, hstage]
  | abandonClaims =>
    refine hkeep (by simp) trivial (fun w hw => ?_) (by simp [opening])
    obtain ⟨c, -, rfl⟩ := List.mem_map.mp hw
    trivial
  | insertClaim => exact hkeep (by simp) trivial (by simp [WriteOk]) (by simp [opening])
  | @insertAttempt job row object claimId attempt hid hplan hstage houtcome hguard =>
    refine hinsert job (by simp) (fun f' _ hnew => ⟨⟨?_, ?_⟩, ?_⟩) rfl
    · rw [hm]; exact Nat.lt_succ_self fresh
    · rw [hm, hnew]
    · intro w hw
      obtain rfl := List.mem_singleton.mp hw
      refine ⟨⟨?_, ?_⟩, Or.inl houtcome⟩
      · rw [hid, hm]; exact Nat.lt_succ_self fresh
      · rw [hid, hm, hnew, hstage]
  | recordLock =>
    exact hkeep (by simp) ⟨hnamed hwork.1, hwork.2⟩ (by simp) (by simp [opening])
  | @recordAttempt job object claimId attemptId succeeded =>
    refine hkeep (by simp) ⟨hnamed hwork.1, hwork.2⟩ (fun w hw => ?_)
      (by simp [opening])
    obtain rfl := List.mem_singleton.mp hw
    refine ⟨by split_ifs <;> simp, fun hs => ?_⟩
    obtain ⟨⟨hid, hstage⟩, hgone⟩ := hwork
    refine ⟨Nat.lt_succ_of_lt hid, ?_⟩
    rw [hstage]
    refine hgone ?_
    by_contra hfalse
    simp [hfalse] at hs
  | recordClaim =>
    exact hkeep (by simp) ⟨hnamed hwork.1, hwork.2⟩ (by simp [WriteOk])
      (by simp [opening])
  | completeLock hplan =>
    have hlog : σ.log = [] := hσ.unwritten (by rw [hloc]; rfl)
    rw [hlog] at hplan
    exact hkeep (by simp) ⟨_, hplan, rfl⟩ (by simp) (by simp [hlog])
  | @completePlan row plan hplan hstatus hguard =>
    have hlog : σ.log = [] := hσ.unwritten (by rw [hloc]; rfl)
    rw [hlog] at hplan hguard
    obtain ⟨p, hp, hsnapshot⟩ := hwork
    obtain rfl : plan = p := Option.some.inj (hplan.symm.trans hp)
    have hcovered : Covered db₀ db row.snapshotId := by
      rw [← hsnapshot]
      exact covered_of_guard hartifacts hplacements hguard
    exact hkeep (by simp) hcovered (by simp [WriteOk]) (by simp [opening])
  | completeSnapshot =>
    exact hkeep (by simp) trivial (fun w hw => by
      obtain rfl := List.mem_singleton.mp hw
      exact hwork) (by simp [opening])
  | completeSnapshotUnder =>
    exact hkeep (by simp) trivial (fun w hw => by
      obtain rfl := List.mem_singleton.mp hw
      exact hwork) (by simp [opening])
  | incomplete => exact hkeep (by simp) trivial (by simp) (by simp [opening])
  | ready => exact hkeep (by simp) trivial (by simp) (by simp [opening])
  | tombstoneMissing => exact hkeep (by simp) trivial (by simp) (by simp [opening])
  | completeTombstone => exact hkeep (by simp) trivial (by simp [WriteOk]) (by simp [opening])
  | targetKept => exact hkeep (by simp) trivial (by simp) (by simp [opening])
  | completeTarget => exact hkeep (by simp) trivial (by simp [WriteOk]) (by simp [opening])

end Statements

section Steps

variable {settings : Settings} {f : Uuid → Stage} {s s' : State} {i : ℕ}

theorem Vouched.congr {db db' : Db} (h : Vouched db₀ db holder identity snapshotId)
    (hsnapshots : db'.snapshots = db.snapshots) (hattempts : db'.attempts = db.attempts) :
    Vouched db₀ db' holder identity snapshotId := by
  refine ⟨h.holds, ?_, ?_⟩
  · have hretained := h.retained
    unfold Db.snapshotIsRetained at hretained ⊢
    rwa [hsnapshots]
  · have hunshared := h.unshared
    unfold Db.SharedEvidence at hunshared ⊢
    rwa [hattempts]

/-- A step that records no evidence and deletes no snapshot. -/
theorem Inv.frame {f' : Uuid → Stage} (h : Inv db₀ f s) (hlocked : Locked discipline s')
    (hartifacts : s'.db.artifacts = s.db.artifacts)
    (hplacements : s'.db.placements = s.db.placements)
    (hattempts : s'.db.attempts = s.db.attempts) (hsnapshots : s'.db.snapshots = s.db.snapshots)
    (hevolves : Evolves f s.fresh s.db s.world f' s'.fresh s'.db s'.world)
    (hsessions : ∀ j, s'.session j = s.session j ∨
      SessionOk db₀ f' s'.fresh s'.db s'.world (s'.session j)) : Inv db₀ f' s' where
  artifacts := hartifacts.trans h.artifacts
  placements := hplacements.trans h.placements
  locked := hlocked
  attempts a ha := hevolves.named (h.attempts a (hattempts ▸ ha))
  succeeded a ha hs := hevolves.gone (h.succeeded a (hattempts ▸ ha) hs)
  vouched identity hpresent hholds := by
    obtain ⟨holder, snapshotId, hv⟩ :=
      h.vouched identity (hevolves.storage identity hpresent) hholds
    exact ⟨holder, snapshotId, hv.congr hsnapshots hattempts⟩
  sessions j := by
    rcases hsessions j with hsame | hok
    · rw [hsame]
      exact hevolves.sessionOk (fun _ _ _ _ _ hv => hv.congr hsnapshots hattempts) (h.sessions j)
    · exact hok

theorem evolves_same {db : Db} {storage : Storage} {fresh fresh' : ℕ} (hfresh : fresh ≤ fresh') :
    Evolves f fresh db storage f fresh' db storage :=
  ⟨hfresh, fun _ _ => rfl, fun _ h => h, fun _ h _ => h, fun _ p h => ⟨p, h, rfl⟩⟩

/-- A session ends its transaction and the database stays as it is. -/
theorem Inv.ended {σ : Session Write Loc} (h : Inv db₀ f s) (hlocked : Locked discipline s')
    (hdb : s'.db = s.db) (hworld : s'.world = s.world) (hfresh : s.fresh ≤ s'.fresh)
    (hsession : s'.session = (s.setSession i σ).session)
    (hok : SessionOk db₀ f s'.fresh s.db s.world σ) : Inv db₀ f s' := by
  refine h.frame hlocked (by rw [hdb]) (by rw [hdb]) (by rw [hdb]) (by rw [hdb])
    (by rw [hdb, hworld]; exact evolves_same hfresh) fun j => ?_
  rw [hsession, hdb, hworld]
  by_cases hji : j = i
  · subst hji
    rw [State.setSession_session_self]
    exact Or.inr hok
  · rw [State.setSession_session_of_ne hji]
    exact Or.inl rfl

/-- Writes that touch neither evidence nor snapshots. -/
def Quiet : Write → Prop
  | .setTargetStatus _ _ _ => True
  | .setPlanStatus _ _ _ => True
  | .insertPlan _ => True
  | .insertPin _ => True
  | .revokePin _ _ => True
  | _ => False

theorem quiet_applyAll (db : Db) {writes : List Write} (hq : ∀ w ∈ writes, Quiet w) :
    (db.applyAll writes).artifacts = db.artifacts ∧
      (db.applyAll writes).attempts = db.attempts ∧
      (db.applyAll writes).snapshots = db.snapshots := by
  refine foldl_invariant (I := fun d : Db => d.artifacts = db.artifacts ∧
    d.attempts = db.attempts ∧ d.snapshots = db.snapshots) (fun d w hw hd => ?_) ⟨rfl, rfl, rfl⟩
  have hkind := hq w hw
  cases w with
  | setTargetStatus => exact hd
  | setPlanStatus => exact hd
  | insertPlan => exact hd
  | insertPin => exact hd
  | revokePin => exact hd
  | _ => exact hkind.elim

theorem Inv.quiet {writes : List Write} (h : Inv db₀ f s) (hq : ∀ w ∈ writes, Quiet w)
    (hlocked : Locked discipline s') (hdb : s'.db = s.db.applyAll writes) (hworld : s'.world = s.world)
    (hfresh : s.fresh ≤ s'.fresh)
    (hsessions : ∀ j, s'.session j = s.session j ∨
      SessionOk db₀ f s'.fresh s'.db s'.world (s'.session j)) : Inv db₀ f s' := by
  obtain ⟨hartifacts, hattempts, hsnapshots⟩ := quiet_applyAll s.db hq
  refine h.frame hlocked (by rw [hdb, hartifacts]) (by rw [hdb, Db.applyAll_placements])
    (by rw [hdb, hattempts]) (by rw [hdb, hsnapshots]) ?_ hsessions
  rw [hdb, hworld]
  refine ⟨hfresh, fun _ _ => rfl, fun _ h => h, fun a ha _ => ?_, fun planId p hp => ?_⟩
  · rw [hattempts]
    exact ha
  · obtain ⟨p', hp', hsame⟩ := Db.plan?_applyAll writes hp
    exact ⟨p', hp', hsame.snapshotId⟩

theorem quiet_operate {m : Moment} {db : Db} {o : Op} {locks : List Lock} {writes : List Write}
    (h : operate db m o = some (locks, writes)) : ∀ w ∈ writes, Quiet w := by
  cases o with
  | createDeletionPlan request =>
    simp only [operate, createDeletionPlan] at h
    split_ifs at h <;> cases h <;> simp [Quiet]
  | pinSnapshot snapshotId source sourceReference =>
    simp only [operate] at h
    split_ifs at h <;> cases h <;> simp [Quiet]
  | revokeSnapshotPin pinId =>
    simp only [operate] at h
    split at h <;> cases h
    simp [Quiet]

theorem quiet_auto {m : Moment} {db : Db} {at_ n : WorkerLoc} {locks : List Lock}
    {writes : List Write} (h : WorkerAuto m db at_ locks writes n) : ∀ w ∈ writes, Quiet w := by
  cases h <;> simp [Quiet]

theorem workerOk_auto {m : Moment} {db view : Db} {storage : Storage} {fresh : ℕ}
    {at_ n : WorkerLoc} {locks : List Lock} {writes : List Write}
    (h : WorkerAuto m view at_ locks writes n) : WorkerOk db₀ f fresh db storage n := by
  cases h <;> first | trivial | exact workerOk_next

/-- A commit takes an answering row away only by leaving that very row to another. -/
theorem vouched_commit (h : Inv db₀ f s) (hpresent : s.world.Present identity)
    (hv : Vouched db₀ s.db holder identity snapshotId)
    (hnot : ∀ job object, (s.session i).loc = .worker (.claim job (.commitShared object)) →
      job.unit.stage.holder? ≠ some holder) :
    Vouched db₀ (s.db.applyAll (s.session i).log) holder identity snapshotId := by
  refine ⟨hv.holds, ?_, ?_⟩
  · obtain ⟨t, ht, hprop⟩ := List.any_eq_true.mp hv.retained
    refine List.any_eq_true.mpr ⟨t, Db.mem_snapshots_applyAll ht fun hdeleted => ?_, hprop⟩
    simp only [Bool.and_eq_true, beq_iff_eq] at hprop
    have hcovered : Covered db₀ s.db snapshotId := by
      have hw := (h.sessions i).log _ hdeleted
      rw [← hprop.1]
      exact hw
    obtain ⟨a, ha, hholder, hterminal⟩ := hcovered holder identity hv.holds
    simp only [StageOutcome.isTerminal, Bool.or_eq_true, beq_iff_eq] at hterminal
    rcases hterminal with hsucceeded | hshared
    · exact h.succeeded a ha hsucceeded holder identity snapshotId hholder hv.holds hpresent
    · exact hv.unshared ⟨a, ha, hholder, hshared⟩
  · rintro ⟨a', ha', hholder, hshared⟩
    obtain ⟨a, ha, -, -, hstage, houtcome⟩ := Db.of_mem_attempts_applyAll ha'
    rcases houtcome with hsame | hfinish
    · rcases ha with ha | ha
      · exact hv.unshared ⟨a, ha, hstage ▸ hholder, hsame ▸ hshared⟩
      · obtain ⟨-, hcase⟩ := (h.sessions i).log _ ha
        rcases hcase with hrunning | ⟨-, job, object, hloc, hunit⟩
        · rw [hsame, hrunning] at hshared
          cases hshared
        · exact hnot job object hloc (by rw [← hunit, ← hstage]; exact hholder)
    · exact ((h.sessions i).log _ hfinish).1 hshared

theorem named_commit (h : Inv db₀ f s) :
    ∀ a ∈ (s.db.applyAll (s.session i).log).attempts, Named f s.fresh a.attemptId a.stage := by
  intro a' ha'
  obtain ⟨a, ha, hid, -, hstage, -⟩ := Db.of_mem_attempts_applyAll ha'
  rw [hid, hstage]
  rcases ha with ha | ha
  · exact h.attempts a ha
  · exact ((h.sessions i).log _ ha).1

theorem succeeded_commit (h : Inv db₀ f s) :
    ∀ a ∈ (s.db.applyAll (s.session i).log).attempts, a.outcome = .succeeded →
      Gone db₀ s.world a.stage := by
  intro a' ha' hs
  obtain ⟨a, ha, -, -, hstage, houtcome⟩ := Db.of_mem_attempts_applyAll ha'
  have hname : Named f s.fresh a.attemptId a.stage := by
    rcases ha with ha | ha
    · exact h.attempts a ha
    · exact ((h.sessions i).log _ ha).1
  rcases houtcome with hsame | hfinish
  · rcases ha with ha | ha
    · rw [hstage]
      exact h.succeeded a ha (hsame ▸ hs)
    · rcases ((h.sessions i).log _ ha).2 with hrunning | ⟨hshared, -⟩
      · rw [hsame, hrunning] at hs
        cases hs
      · rw [hsame, hshared] at hs
        cases hs
  · rw [hstage, ← hname.2]
    exact (((h.sessions i).log _ hfinish).2 hs).2

theorem evolves_commit : Evolves f s.fresh s.db s.world f s.fresh
    (s.db.applyAll (s.session i).log) s.world := by
  refine ⟨Nat.le_refl _, fun _ _ => rfl, fun _ h => h,
    fun a ha hdone => Db.mem_attempts_applyAll ha hdone, fun planId p hp => ?_⟩
  obtain ⟨p', hp', hsame⟩ := Db.plan?_applyAll (s.session i).log hp
  exact ⟨p', hp', hsame.snapshotId⟩

theorem Inv.commit (h₀ : BeforeDeletion db₀) {at_ n : WorkerLoc} (h : Inv db₀ f s)
    (hloc : (s.session i).loc = .worker at_) (hcommit : WorkerCommit at_ n)
    (hlocked : Locked discipline ((machine settings).afterCommit s i (.worker n))) :
    Inv db₀ f ((machine settings).afterCommit s i (.worker n)) := by
  obtain ⟨hcarries, hwork⟩ : at_.Carries (UnitOk db₀) (· ∈ db₀.artifacts) ∧
      WorkerOk db₀ f s.fresh s.db s.world at_ := by
    have hok := (h.sessions i).loc
    rwa [hloc] at hok
  have hother : ∀ j, j ≠ i →
      ((machine settings).afterCommit s i (.worker n)).session j = s.session j :=
    fun j hji => State.setSession_session_of_ne hji
  have hdb : ((machine settings).afterCommit s i (.worker n)).db
      = s.db.applyAll (s.session i).log := rfl
  refine ⟨?_, ?_, hlocked, named_commit h, succeeded_commit h, fun identity hpresent hholds => ?_,
    fun j => ?_⟩
  · rw [hdb, artifacts_view (h.sessions i)]
    exact h.artifacts
  · rw [hdb, Db.applyAll_placements]
    exact h.placements
  · obtain ⟨holder, snapshotId, hv⟩ := h.vouched identity hpresent hholds
    by_cases hshared : ∃ job object, at_ = .claim job (.commitShared object) ∧
        job.unit.stage.holder? = some holder
    · -- The row left to another reference is answered for by that other reference.
      obtain ⟨job, object, rfl, hholder⟩ := hshared
      obtain ⟨S, hheld, hbacked⟩ := hwork holder hholder
      obtain ⟨rfl, rfl⟩ := holds_unique h₀ hv.holds hheld
      obtain ⟨holder', other, hne, hv'⟩ := hbacked hpresent
      refine ⟨holder', other, vouched_commit h hpresent hv' fun job' object' hloc' => ?_⟩
      obtain ⟨rfl, -⟩ : job = job' ∧ object' = object' := by
        have hsame := hloc.symm.trans hloc'
        simp only [Loc.worker.injEq, WorkerLoc.claim.injEq] at hsame
        exact ⟨hsame.1, rfl⟩
      rw [hholder]
      rintro heq
      obtain rfl := Option.some.inj heq
      exact hne (holds_unique h₀ hv'.holds hv.holds).2
    · refine ⟨holder, snapshotId, vouched_commit h hpresent hv fun job object hloc' hholder => ?_⟩
      exact hshared ⟨job, object, Loc.worker.inj (hloc.symm.trans hloc'), hholder⟩
  · by_cases hji : j = i
    · subst hji
      have hσ : ((machine settings).afterCommit s j (.worker n)).session j
          = ⟨.worker n, [], none⟩ := State.setSession_session_self
      rw [hσ]
      refine ⟨⟨hcommit.carries hcarries, ?_⟩, fun w hw => absurd hw List.not_mem_nil, fun _ => rfl⟩
      cases hcommit with
      | shared => exact workerOk_next
      | claimed => exact hwork
      | recorded => exact workerOk_next
      | _ => trivial
    · rw [hother j hji]
      refine evolves_commit.sessionOk (fun object hlock hpresent holder S hv => ?_) (h.sessions j)
      refine vouched_commit h hpresent hv fun job object' hloc' hholder => ?_
      -- Both sessions would hold the advisory lock of the object.
      have hat : at_ = .claim job (.commitShared object') :=
        Loc.worker.inj (hloc.symm.trans hloc')
      subst hat
      obtain ⟨S', hheld, -⟩ := hwork holder hholder
      obtain ⟨rfl, -⟩ := holds_unique h₀ hv.holds hheld
      have hmine : .identity object ∈ needs (s.session i).loc (s.session i).log := by
        rw [hloc']
        exact mem_needs_of_loc (by simp [Loc.locks, WorkerLoc.locks, ClaimLoc.locks])
      exact hji (h.locked.unique (mem_needs_of_loc hlock) hmine)

theorem backed_of_condition (h : Inv db₀ f s) {io : IoResult} {at_ : WorkerLoc}
    (hok : SharingBacked s (.exec i io)) (hloc : (s.session i).loc = .worker at_) :
    ∀ job row object, at_ = .claim job (.shared row object) →
      (s.db.applyAll (s.session i).log).identityIsShared row.snapshotId job.unit.stage = true →
      Backed db₀ s.db s.world object row.snapshotId := by
  intro job row object hat hshared _
  subst hat
  obtain ⟨holder, other, hholds, hne, hretained, hunshared⟩ := hok job row object hloc hshared
  refine ⟨holder, other, hne, ?_, hretained, hunshared⟩
  cases hholds with
  | artifact ha => exact .artifact (h.artifacts ▸ ha)
  | placement hp ha hid => exact .placement (h.placements ▸ hp) (h.artifacts ▸ ha) hid

/-- Only workers take steps. -/
theorem worker_of_act {m : Moment} {view : Db} {storage : Storage} {io : IoResult}
    {a : Action Storage Lock Write Loc} (h : Inv db₀ f s)
    (hact : act settings (s.session i).loc m view storage io = some a) :
    ∃ at_, (s.session i).loc = .worker at_ ∧
      at_.Carries (UnitOk db₀) (· ∈ db₀.artifacts) ∧ WorkerOk db₀ f s.fresh s.db s.world at_ := by
  have hloc := (h.sessions i).loc
  cases hcase : (s.session i).loc with
  | idle => rw [hcase] at hact; cases hact
  | worker at_ => rw [hcase] at hloc; exact ⟨at_, rfl, hloc⟩
  | capture at_ => rw [hcase] at hloc; exact hloc.elim
  | transition request at_ => rw [hcase] at hloc; exact hloc.elim

theorem sessionOk_idle {db : Db} {storage : Storage} {fresh : ℕ} {at_ : WorkerLoc}
    (hc : at_.Carries (UnitOk db₀) (· ∈ db₀.artifacts)) (h : WorkerOk db₀ f fresh db storage at_) :
    SessionOk db₀ f fresh db storage ⟨.worker at_, [], none⟩ :=
  ⟨⟨hc, h⟩, fun _ hw => absurd hw List.not_mem_nil, fun _ => rfl⟩

theorem inv_step (h₀ : BeforeDeletion db₀) :
    ∀ s l s', (∃ f, Inv db₀ f s) → SharingBacked s l → (machine settings).step s l = some s' →
      ∃ f, Inv db₀ f s' := by
  refine Locked.preserved respects (fun s ⟨f, h⟩ => h.locked) ?_
  refine Machine.step_induction ?_ ?_ ?_ ?_ ?_ ?_ ?_ ?_ ?_
  · intro s i proc h ⟨hok, hl⟩ _ hl'
    obtain ⟨f, h⟩ := h hl
    cases proc with
    | runPlan planId =>
      exact ⟨f, h.ended (σ := ⟨.worker (.load planId), [], none⟩) hl' rfl rfl (Nat.le_refl _) rfl
        (sessionOk_idle trivial trivial)⟩
    | _ => exact hok.elim
  · intro s i io locks writes next h ⟨hok, hl⟩ hact _ hl'
    obtain ⟨f, h⟩ := h hl
    obtain ⟨at_, hloc, -⟩ := worker_of_act h hact
    rw [hloc] at hact
    obtain ⟨n, rfl, hstmt⟩ := act_worker_stmt hact
    obtain ⟨f', hf, hσ⟩ := sessionOk_stmt rfl (some (s.moment i).now) (h.sessions i) hloc
      h.artifacts h.placements (backed_of_condition h hok hloc) hstmt
    refine ⟨f', h.frame hl' rfl rfl rfl rfl (evolves_names hf) fun j => ?_⟩
    by_cases hji : j = i
    · subst hji
      right
      have hself : (Machine.afterStmt s j locks writes (.worker n)).session j
          = ⟨.worker n, (s.session j).log ++ writes, some (s.moment j).now⟩ :=
        State.setSession_session_self
      rw [hself]
      exact hσ
    · exact Or.inl (State.setSession_session_of_ne hji)
  · intro s i io locks writes next h ⟨hok, hl⟩ hact _ hl'
    obtain ⟨f, h⟩ := h hl
    obtain ⟨at_, hloc, hcarries, hwork⟩ := worker_of_act h hact
    rw [hloc] at hact
    obtain ⟨n, rfl, hauto⟩ := act_worker_auto hact
    have hview : ((machine settings).view s i).artifacts = db₀.artifacts :=
      (artifacts_view (h.sessions i)).trans h.artifacts
    have hviewP : ((machine settings).view s i).placements = db₀.placements :=
      Db.applyAll_placements.trans h.placements
    refine ⟨f, h.quiet (quiet_auto hauto) hl' rfl rfl (Nat.le_succ _) fun j => ?_⟩
    by_cases hji : j = i
    · subst hji
      right
      have hself : ((machine settings).afterAuto s j writes (.worker n)).session j
          = ⟨.worker n, [], none⟩ := State.setSession_session_self
      rw [hself]
      refine sessionOk_idle (hauto.carries trivial (fun a ha => hview ▸ ha) (fun a ha => ?_)
        hcarries) (workerOk_auto hauto)
      exact meets_executionArtifact ha hviewP
    · exact Or.inl (State.setSession_session_of_ne hji)
  · intro s i io next h ⟨hok, hl⟩ hact hl'
    obtain ⟨f, h⟩ := h hl
    obtain ⟨at_, hloc, -⟩ := worker_of_act h hact
    rw [hloc] at hact
    obtain ⟨n, rfl, hcommit⟩ := act_worker_commit hact
    exact ⟨f, h.commit h₀ hloc hcommit hl'⟩
  · intro s i io next h ⟨hok, hl⟩ hact hl'
    obtain ⟨f, h⟩ := h hl
    obtain ⟨at_, hloc, -⟩ := worker_of_act h hact
    rw [hloc] at hact
    obtain rfl := act_worker_rollback hact
    exact ⟨f, h.ended (σ := ⟨.worker (.finished .failed), [], none⟩) hl' rfl rfl (Nat.le_refl _)
      rfl (sessionOk_idle trivial trivial)⟩
  · intro s i io world next h ⟨hok, hl⟩ hact hl'
    obtain ⟨f, h⟩ := h hl
    obtain ⟨at_, hloc, hcarries, hwork⟩ := worker_of_act h hact
    rw [hloc] at hact
    obtain ⟨job, object, claimId, attemptId, rfl, rfl, rfl⟩ := act_worker_call hact
    refine ⟨f, h.frame hl' rfl rfl rfl rfl ?_ fun j => ?_⟩
    · exact ⟨Nat.le_succ _, fun _ _ => rfl, fun _ hp => present_of_deletionEffect hp,
        fun _ h _ => h, fun _ p h => ⟨p, h, rfl⟩⟩
    · by_cases hji : j = i
      · subst hji
        right
        have hself : ∀ world' loc, (Machine.afterCall s j world' loc).session j
            = ⟨loc, [], none⟩ := fun _ _ => State.setSession_session_self
        rw [hself]
        exact sessionOk_idle hcarries ⟨⟨Nat.lt_succ_of_lt hwork.1, hwork.2⟩,
          fun hs => gone_of_deletionEffect h₀ hcarries.1 hs⟩
      · exact Or.inl (State.setSession_session_of_ne hji)
  · intro s i h ⟨_, hl⟩ hl'
    obtain ⟨f, h⟩ := h hl
    exact ⟨f, h.ended (σ := ⟨.idle, [], none⟩) hl' rfl rfl (Nat.le_refl _) rfl
      ⟨trivial, fun w hw => absurd hw List.not_mem_nil, fun _ => rfl⟩⟩
  · intro s o locks writes h ⟨_, hl⟩ hop _ hl'
    obtain ⟨f, h⟩ := h hl
    exact ⟨f, h.quiet (quiet_operate hop) hl' rfl rfl (Nat.le_succ _) fun _ => Or.inl rfl⟩
  · intro s n h ⟨_, hl⟩ hl'
    obtain ⟨f, h⟩ := h hl
    exact ⟨f, h.frame hl' rfl rfl rfl rfl (evolves_same (Nat.le_refl _)) fun _ => Or.inl rfl⟩

theorem inv_initial (h₀ : BeforeDeletion db₀) (storage : Storage) (clock fresh : ℕ) :
    Inv db₀ (fun _ => .mirror) (initial db₀ storage clock fresh) := by
  have hnone : ∀ a, a ∉ db₀.attempts := by simp [h₀.no_attempts]
  refine ⟨rfl, rfl, locked_initial .., fun a ha => absurd ha (hnone a),
    fun a ha => absurd ha (hnone a), fun identity _ ⟨holder, snapshotId, hholds⟩ => ?_,
    fun i => ⟨trivial, fun _ hw => absurd hw List.not_mem_nil, fun _ => rfl⟩⟩
  refine ⟨holder, snapshotId, hholds, ?_, fun ⟨a, ha, _⟩ => hnone a ha⟩
  obtain ⟨a, ha, rfl⟩ : ∃ a ∈ db₀.artifacts, a.snapshotId = snapshotId := by
    cases hholds with
    | artifact ha => exact ⟨_, ha, rfl⟩
    | placement _ ha _ => exact ⟨_, ha, rfl⟩
  obtain ⟨t, ht, hid⟩ := h₀.artifacts_snapshot a ha
  exact List.any_eq_true.mpr ⟨t, ht, by simp [hid, h₀.snapshots_retained t ht]⟩

theorem noOrphanedBytes_of_inv (h₀ : BeforeDeletion db₀) (h : Inv db₀ f s) :
    NoOrphanedBytes s.db s.world := by
  have hdeleted : ∀ snapshotId, IsDeleted s.db snapshotId →
      s.db.snapshotIsRetained snapshotId ≠ true := by
    intro snapshotId hall hretained
    obtain ⟨t, ht, hprop⟩ := List.any_eq_true.mp hretained
    simp only [Bool.and_eq_true, beq_iff_eq, bne_iff_ne] at hprop
    exact hprop.2 (hall t ht hprop.1)
  constructor
  · rintro digest ⟨a, ha, rfl⟩ hall
    by_contra hpresent
    obtain ⟨holder, snapshotId, hv⟩ := h.vouched (.localDigest a.sha256Hash) hpresent
      ⟨_, _, .artifact (h.artifacts ▸ ha)⟩
    have hholds := hv.holds
    generalize hobject : PhysicalIdentity.localDigest a.sha256Hash = object at hholds
    cases hholds with
    | @artifact a' ha' =>
      have hsame : a'.sha256Hash = a.sha256Hash := (PhysicalIdentity.localDigest.inj hobject).symm
      exact hdeleted _ (hall a' (h.artifacts.symm ▸ ha') hsame).1 hv.retained
    | placement => cases hobject
  · rintro replicaTargetId objectKey ⟨p, hp, rfl, rfl⟩ hall
    by_contra hpresent
    have hp₀ : p ∈ db₀.placements := h.placements ▸ hp
    obtain ⟨a, ha, hid⟩ := h₀.placements_artifact p hp₀
    obtain ⟨holder, snapshotId, hv⟩ := h.vouched (.replicaKey p.replicaTargetId p.objectKey)
      hpresent ⟨_, _, .placement hp₀ ha hid⟩
    have hholds := hv.holds
    generalize hobject : PhysicalIdentity.replicaKey p.replicaTargetId p.objectKey = object
      at hholds
    cases hholds with
    | artifact => cases hobject
    | @placement p' a' hp' ha' hid' =>
      obtain ⟨htarget, hkey⟩ := PhysicalIdentity.replicaKey.inj hobject
      exact hdeleted _ (hall p' (h.placements.symm ▸ hp') htarget.symm hkey.symm a'
        (h.artifacts.symm ▸ ha') hid') hv.retained

end Steps

end Orphans

/-- No stored object is orphaned while every reference a sharing check relies on is one that
still answers for the object itself. -/
theorem never_orphaned (settings : Settings) {db : Db} (h : BeforeDeletion db)
    (storage : Storage) (clock fresh : ℕ) :
    NeverOrphaned SharingBacked settings (initial db storage clock fresh) := by
  intro s hreach
  obtain ⟨f, hinv⟩ := Reach.invariant (I := fun s => ∃ f, Orphans.Inv db f s)
    ⟨_, Orphans.inv_initial h storage clock fresh⟩ (Orphans.inv_step h) hreach
  exact Orphans.noOrphanedBytes_of_inv h hinv

namespace Sample

/-- Two snapshots of one mirror with the same bundle, each with a plan of its own. -/
def twoHolders : Db :=
  let snapshot (snapshotId : Uuid) : Snapshot :=
    { snapshotId, targetId := 1, mirrorId := 2, mirrorLifecycleRunId := 3, parentSnapshotId := none
      status := .built, refsHash := 0, includesLfs := false, createdAt := 0 }
  let artifact (artifactId snapshotId : Uuid) : SnapshotArtifact :=
    { artifactId, snapshotId, kind := .gitBundle, sha256Hash := sha256 [10], blobOwner := owner
      mediaType := "application/vnd.git.bundle", sizeBytes := 1 }
  let plan (planId snapshotId : Uuid) : DeletionPlan :=
    { planId, evaluationId := 0, targetId := 1, snapshotId, tombstoneId := none, automatic := true
      tombstonedAt := 0, notBefore := 1, estimatedBytes := 0, status := .planned
      correlationId := 0 }
  { targets :=
      [{ targetId := 1, provider := "github", externalRepositoryId := "r", status := .healthy }]
    mirrors :=
      [{ mirrorId := 2, targetId := 1, status := .ready, storagePath := "m", fsckResult := .ok }]
    snapshots := [snapshot 4, snapshot 5]
    artifacts := [artifact 6 4, artifact 7 5]
    plans := [plan 8 4, plan 9 5] }

def storedBundle : Storage :=
  { storage with
    blobs :=
      { maxBytes := 1000
        files := fun digest => if digest = sha256 [10] then some [10] else none } }

/-- Each plan records the other snapshot's reference as retained before either completes. -/
def mutualRetention : List Label :=
  [.start 0 (.runPlan 8), .start 1 (.runPlan 9)] ++
    List.replicate 13 (.exec 0 .ok) ++ List.replicate 13 (.exec 1 .ok) ++
    List.replicate 6 (.exec 0 .ok) ++ List.replicate 6 (.exec 1 .ok)

end Sample

/-- Two plans that each rely on the other's snapshot complete, and the bundle stays for good. -/
theorem orphaned_when_both_rely_on_the_other :
    ¬ NeverOrphaned OnlyRunPlans Sample.settings
      (initial Sample.twoHolders Sample.storedBundle 10 100) := by
  intro h
  obtain ⟨s, hrun, hs⟩ : ∃ s, run (machine Sample.settings).step
      (initial Sample.twoHolders Sample.storedBundle 10 100) Sample.mutualRetention = some s ∧
      (s.db.artifacts == Sample.twoHolders.artifacts &&
        s.db.snapshots.all (fun t => t.status == .deleted) &&
        s.db.plans.any (fun p => p.snapshotId == 4 && p.status == .completed) &&
        s.db.plans.any (fun p => p.snapshotId == 5 && p.status == .completed) &&
        (s.world.blobs.files (Sample.sha256 [10])).isSome) = true :=
    exists_of_run_any (by decide +kernel)
  simp only [Bool.and_eq_true, List.all_eq_true, List.any_eq_true, beq_iff_eq] at hs
  obtain ⟨⟨⟨⟨hartifacts, hdeleted⟩, p₄, hp₄, hplan₄⟩, p₅, hp₅, hplan₅⟩, hpresent⟩ := hs
  have hreach : Reach (machine Sample.settings).step OnlyRunPlans
      (initial Sample.twoHolders Sample.storedBundle 10 100) s :=
    Reach.of_run hrun (along_of_forall (by simp [Sample.mutualRetention, OnlyRunPlans]) _)
  have hnone := (h s hreach).blobs (Sample.sha256 [10]) ?_ ?_
  · rw [hnone] at hpresent
    cases hpresent
  · rw [hartifacts]
    exact ⟨_, List.mem_cons_self .., rfl⟩
  · rw [hartifacts]
    intro a ha _
    refine ⟨fun t ht _ => hdeleted t ht, ?_⟩
    have hcases : a.snapshotId = 4 ∨ a.snapshotId = 5 := by
      simp only [Sample.twoHolders, List.mem_cons, List.not_mem_nil, or_false] at ha
      rcases ha with rfl | rfl <;> simp
    rcases hcases with hS | hS
    · exact ⟨p₄, hp₄, hplan₄.1.trans hS.symm, hplan₄.2⟩
    · exact ⟨p₅, hp₅, hplan₅.1.trans hS.symm, hplan₅.2⟩

theorem never_orphaned_two_holders :
    BeforeDeletion Sample.twoHolders ∧
      NeverOrphaned SharingBacked Sample.settings
        (initial Sample.twoHolders Sample.storedBundle 10 100) := by
  have h : BeforeDeletion Sample.twoHolders := by
    constructor <;> decide
  exact ⟨h, never_orphaned Sample.settings h Sample.storedBundle 10 100⟩

end Retention

end RatatoskrVault
