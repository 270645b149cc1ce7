import RatatoskrVault.Replication.Objects
import RatatoskrVault.Replication.Placements

/-! Units and workers beside each other over a fixed set of artifacts and targets: transfers keep the
configuration and the key they began with, and a plan projection names rows that are still there. -/
namespace RatatoskrVault

open Lib

/-- What the unit of a transfer is. -/
def UnitLoc.unit? : UnitLoc → Option ReplicationUnit
  | .abandonExpired unit => some unit
  | .claimRead unit _ => some unit
  | .claimInsert unit _ _ _ => some unit
  | .claimCommit transfer => some transfer.unit
  | .resolve transfer => some transfer.unit
  | .verifyExisting transfer => some transfer.unit
  | .upload transfer _ => some transfer.unit
  | .verifyUploaded transfer _ => some transfer.unit
  | .recordFailure transfer => some transfer.unit
  | .recordAttempt transfer _ => some transfer.unit
  | .recordPlacement transfer _ => some transfer.unit
  | .recordCommit transfer _ => some transfer.unit
  | .finished _ => none

def UnitLoc.store? : UnitLoc → Option ReplicaStore
  | .claimRead _ store => some store
  | .claimInsert _ store _ _ => some store
  | .claimCommit transfer => some transfer.store
  | .resolve transfer => some transfer.store
  | .verifyExisting transfer => some transfer.store
  | .upload transfer _ => some transfer.store
  | .verifyUploaded transfer _ => some transfer.store
  | .recordFailure transfer => some transfer.store
  | .recordAttempt transfer _ => some transfer.store
  | .recordPlacement transfer _ => some transfer.store
  | .recordCommit transfer _ => some transfer.store
  | _ => none

/-- The key of the object a transfer has found or uploads. -/
def UnitLoc.key? : UnitLoc → Option String
  | .upload _ key => some key
  | .verifyUploaded _ key => some key
  | .recordAttempt _ key => some key
  | .recordPlacement _ key => some key
  | .recordCommit _ key => some key
  | _ => none

namespace Replication

/-- Sessions run units of artifacts and plans, and the targets stay as they are. -/
def OnlyUnitsAndPlans (s : State) : Label → Prop
  | .start _ (.runUnit unit) =>
    ∃ a ∈ s.db.vault.artifacts, a.artifactId = unit.artifactId ∧ a.reference = unit.blob
  | .start _ (.retention (.runPlan _)) => True
  | .start _ _ => False
  | .op (.observeReplicaTarget _) => False
  | _ => True

instance (s : State) : (l : Label) → Decidable (OnlyUnitsAndPlans s l)
  | .start _ (.runUnit unit) =>
    inferInstanceAs (Decidable (∃ a ∈ s.db.vault.artifacts,
      a.artifactId = unit.artifactId ∧ a.reference = unit.blob))
  | .start _ (.retention (.runPlan _)) => .isTrue trivial
  | .start _ (.retention (.completePlan _)) => .isFalse id
  | .start _ (.retention (.capture _)) => .isFalse id
  | .start _ (.retention (.transition _)) => .isFalse id
  | .op (.observeReplicaTarget _) => .isFalse id
  | .op (.retention _) => .isTrue trivial
  | .op (.recordVerification _ _) => .isTrue trivial
  | .op (.recordRestoreDrill _ _) => .isTrue trivial
  | .exec _ _ => .isTrue trivial
  | .abort _ => .isTrue trivial
  | .tick _ => .isTrue trivial

/-- The keys of the catalogue, with placement ids used before `fresh`. -/
structure Consistent (c : Catalog) (fresh : ℕ) : Prop where
  artifacts : IsKey (·.artifactId) c.vault.artifacts
  snapshots : ∀ a ∈ c.vault.artifacts, ∃ t ∈ c.vault.snapshots, t.snapshotId = a.snapshotId
  targets : IsKey (·.replicaTargetId) c.replicaTargets
  places : IsKey ReplicaPlacement.place c.vault.placements
  placements : IsKey (·.placementId) c.vault.placements
  below : ∀ p ∈ c.vault.placements, p.placementId < fresh
  marked : MarkedAfterStart c.vault

section

variable (settings : Settings) (c₀ : Catalog)

/-- The rows no step here touches. -/
structure Fixed (c : Catalog) : Prop where
  artifacts : c.vault.artifacts = c₀.vault.artifacts
  targets : c.replicaTargets = c₀.replicaTargets
  snapshots : c.vault.snapshots.map (·.snapshotId) = c₀.vault.snapshots.map (·.snapshotId)
  places : IsKey ReplicaPlacement.place c.vault.placements

/-- The blob is the one the artifact row refers to. -/
def OfArtifact (artifactId : Uuid) (blob : BlobRef) : Prop :=
  ∃ a ∈ c₀.vault.artifacts, a.artifactId = artifactId ∧ a.reference = blob

/-- The key a content has at a target as it is configured. -/
def Current (replicaTargetId : Uuid) (blob : BlobRef) (key : String) : Prop :=
  ∃ store, c₀.store? settings.replication replicaTargetId = some store ∧
    key = objectKey store.keyPrefix blob

structure UnitAligned (at_ : UnitLoc) : Prop where
  unit : ∀ unit, at_.unit? = some unit → OfArtifact c₀ unit.artifactId unit.blob
  store : ∀ unit store, at_.unit? = some unit → at_.store? = some store →
    c₀.store? settings.replication unit.replicaTargetId = some store
  key : ∀ unit store key, at_.unit? = some unit → at_.store? = some store → at_.key? = some key →
    store.objectKey? unit.blob = some key

/-- The row a unit waits to commit. -/
structure Records (loc : Loc) (row : ReplicaPlacement) (transfer : Transfer) (key : String) :
    Prop where
  loc : loc = .unit (.recordCommit transfer key)
  place : row.place = (transfer.unit.artifactId, transfer.unit.replicaTargetId)
  objectKey : row.objectKey = key
  sha256Hash : row.sha256Hash = transfer.unit.blob.sha256
  sizeBytes : row.sizeBytes = transfer.unit.blob.sizeBytes

/-- A projected placement is still there, under the key it was read with or the current one. -/
def Projected (c : Catalog) : StageUnit → Prop
  | .replica e stored =>
    OfArtifact c₀ e.artifactId e.blob ∧
      ∃ p ∈ c.vault.placements, p.placementId = stored.placementId ∧
        p.place = (e.artifactId, stored.replicaTargetId) ∧
        (p.objectKey = stored.objectKey ∨
          Current settings c₀ stored.replicaTargetId e.blob p.objectKey)
  | _ => True

/-- A replica stage belongs to the snapshot, whose deletion is under way. -/
def Going (c : Catalog) (unit : StageUnit) (snapshotId : Uuid) : Prop :=
  ∀ e stored, unit = .replica e stored → DeletionStarted c.vault snapshotId ∧
    ∃ a ∈ c₀.vault.artifacts, a.artifactId = e.artifactId ∧ a.snapshotId = snapshotId

def RowRead (c : Catalog) (row : StagePlan) : Prop :=
  row.status.hasStarted = true → DeletionStarted c.vault row.snapshotId

/-- What a worker knows of the deletion its stage belongs to. -/
def Authorised (c : Catalog) : WorkerLoc → Prop
  | .claim _ (.refusal row) => RowRead c row
  | .claim _ (.identity row) => RowRead c row
  | .claim job (.advance row _) => RowRead c row ∧ ∀ e stored, job.unit = .replica e stored →
      ∃ a ∈ c₀.vault.artifacts, a.artifactId = e.artifactId ∧ a.snapshotId = row.snapshotId
  | .claim job (.abandonStage row _) => Going c₀ c job.unit row.snapshotId
  | .claim job (.lock row _) => Going c₀ c job.unit row.snapshotId
  | .claim job (.shared row _) => Going c₀ c job.unit row.snapshotId
  | .claim job (.insertShared row _) => Going c₀ c job.unit row.snapshotId
  | .claim job (.abandonClaims row _) => Going c₀ c job.unit row.snapshotId
  | .claim job (.insertClaim row _) => Going c₀ c job.unit row.snapshotId
  | .claim job (.insertAttempt row _ _) => Going c₀ c job.unit row.snapshotId
  | .claim job (.commitShared _) => ∃ snapshotId, Going c₀ c job.unit snapshotId
  | .claim job (.commitClaimed _ _ _) => ∃ snapshotId, Going c₀ c job.unit snapshotId
  | .effect job _ _ _ => ∃ snapshotId, Going c₀ c job.unit snapshotId
  | .record job _ _ _ _ _ => ∃ snapshotId, Going c₀ c job.unit snapshotId
  | _ => True

structure WorkerAligned (c : Catalog) (at_ : WorkerLoc) : Prop where
  carries : at_.Carries (Projected settings c₀ c) (· ∈ c₀.vault.artifacts)
  authorised : Authorised c₀ c at_

/-- The write is none of those the runs here never make. -/
def Write.IsOrdinary : Write → Prop
  | .vault (.insertArtifact _) => False
  | .vault (.insertSnapshot _) => False
  | .observeTarget _ => False
  | _ => True

structure SessionAligned (c : Catalog) (σ : Session Write Loc) : Prop where
  load : ∀ job, σ.loc = .retention (.worker (.claim job .load)) → σ.log = []
  ordinary : ∀ w ∈ σ.log, w.IsOrdinary
  records : ∀ row attemptId at_, .placeReplica row attemptId at_ ∈ σ.log →
    ∃ transfer key, Records σ.loc row transfer key
  unit : ∀ at_, σ.loc = .unit at_ → UnitAligned settings c₀ at_
  worker : ∀ at_, σ.loc = .retention at_ →
    at_ = .idle ∨ ∃ n, at_ = .worker n ∧ WorkerAligned settings c₀ c n

/-- The steps of others keep deletions and placements, and record only under current keys. -/
structure Onward (c c' : Catalog) : Prop where
  grown : c.vault.Grown c'.vault
  placements : ∀ p ∈ c.vault.placements, ∃ p' ∈ c'.vault.placements,
    p'.placementId = p.placementId ∧ p'.place = p.place ∧
      (p'.objectKey = p.objectKey ∨ ∃ a ∈ c₀.vault.artifacts, a.artifactId = p.artifactId ∧
        Current settings c₀ p.replicaTargetId a.reference p'.objectKey)

abbrev Aligned (s : State) : Prop :=
  Machine.Beside (fun e => Fixed c₀ e.db) (fun e _ σ => SessionAligned settings c₀ e.db σ) s

end

section

variable {settings : Settings} {c₀ c c' : Catalog} {m : Moment} {world world' : World}
  {io : IoResult} {loc next : Loc} {locks : List Lock} {writes log : List Write}
  {σ : Session Write Loc} {unit : StageUnit} {snapshotId : Uuid}

section Mono

theorem Onward.refl : Onward settings c₀ c c :=
  ⟨grown_refl, fun p hp => ⟨p, hp, rfl, rfl, Or.inl rfl⟩⟩

theorem Going.mono (h : Going c₀ c unit snapshotId) (hgrown : c.vault.Grown c'.vault) :
    Going c₀ c' unit snapshotId := fun e stored hunit =>
  ⟨hgrown.started _ (h e stored hunit).1, (h e stored hunit).2⟩

theorem Projected.mono (hkey : IsKey (·.artifactId) c₀.vault.artifacts)
    (h : Projected settings c₀ c unit) (honward : Onward settings c₀ c c') :
    Projected settings c₀ c' unit := by
  cases unit with
  | replica e stored =>
    obtain ⟨⟨a, ha, hid, href⟩, p, hp, hpid, hplace, hpkey⟩ := h
    obtain ⟨p', hp', hpid', hplace', hpkey'⟩ := honward.placements p hp
    refine ⟨⟨a, ha, hid, href⟩, p', hp', hpid'.trans hpid, hplace'.trans hplace, ?_⟩
    rcases hpkey' with hsame | ⟨a', ha', hid', hcurrent⟩
    · rw [hsame]
      exact hpkey
    · obtain ⟨hartifact, htarget⟩ := Prod.mk.inj hplace
      obtain rfl : a' = a := hkey a' ha' a ha (hid'.trans (hartifact.trans hid.symm))
      rw [htarget, href] at hcurrent
      exact Or.inr hcurrent
  | _ => trivial

theorem Authorised.mono {at_ : WorkerLoc} (h : Authorised c₀ c at_)
    (hgrown : c.vault.Grown c'.vault) : Authorised c₀ c' at_ := by
  have hrow : ∀ row, RowRead c row → RowRead c' row := fun row hread hstarted =>
    hgrown.started _ (hread hstarted)
  cases at_ with
  | claim job loc =>
    cases loc with
    | refusal row => exact hrow row h
    | identity row => exact hrow row h
    | advance row identity => exact ⟨hrow row h.1, h.2⟩
    | load => trivial
    | commitDeferred => trivial
    | commitShared identity => exact h.imp fun _ hgoing => hgoing.mono hgrown
    | commitClaimed identity claimId attemptId => exact h.imp fun _ hgoing => hgoing.mono hgrown
    | abandonStage row identity => exact Going.mono h hgrown
    | lock row identity => exact Going.mono h hgrown
    | shared row identity => exact Going.mono h hgrown
    | insertShared row identity => exact Going.mono h hgrown
    | abandonClaims row identity => exact Going.mono h hgrown
    | insertClaim row identity => exact Going.mono h hgrown
    | insertAttempt row identity claimId => exact Going.mono h hgrown
  | effect job identity claimId attemptId => exact h.imp fun _ hgoing => hgoing.mono hgrown
  | record job identity claimId attemptId succeeded loc =>
    exact h.imp fun _ hgoing => hgoing.mono hgrown
  | _ => trivial

theorem WorkerAligned.mono {at_ : WorkerLoc} (hkey : IsKey (·.artifactId) c₀.vault.artifacts)
    (h : WorkerAligned settings c₀ c at_) (honward : Onward settings c₀ c c') :
    WorkerAligned settings c₀ c' at_ :=
  ⟨h.carries.mono (fun _ hunit => hunit.mono hkey honward) fun _ ha => ha,
    h.authorised.mono honward.grown⟩

theorem SessionAligned.mono (hkey : IsKey (·.artifactId) c₀.vault.artifacts)
    (h : SessionAligned settings c₀ c σ) (honward : Onward settings c₀ c c') :
    SessionAligned settings c₀ c' σ where
  load := h.load
  ordinary := h.ordinary
  records := h.records
  unit := h.unit
  worker at_ hloc := (h.worker at_ hloc).imp_right fun ⟨n, hn, hworker⟩ =>
    ⟨n, hn, hworker.mono hkey honward⟩

end Mono

section Replay

theorem Fixed.apply (h : Fixed c₀ c) {w : Write} (hw : w.IsOrdinary) : Fixed c₀ (c.apply w) := by
  have hplaces : IsKey ReplicaPlacement.place (c.apply w).vault.placements :=
    @isKey_applyAll c [w] h.places
  cases w with
  | vault w =>
    cases w with
    | insertArtifact row => exact hw.elim
    | insertSnapshot row => exact hw.elim
    | setSnapshotDeleted id =>
      refine ⟨h.artifacts, h.targets, ?_, hplaces⟩
      rw [← h.snapshots]
      exact map_updateWhere fun _ => rfl
    | _ => exact ⟨h.artifacts, h.targets, h.snapshots, hplaces⟩
  | placeReplica row attemptId at_ =>
    have hvault := vault_placeReplica c row attemptId at_
    have htargets : (c.placeReplica row attemptId at_).replicaTargets = c.replicaTargets := by
      unfold Catalog.placeReplica
      split <;> rfl
    refine ⟨?_, htargets.trans h.targets, ?_, hplaces⟩
    · change (c.placeReplica row attemptId at_).vault.artifacts = _
      rw [hvault]
      exact h.artifacts
    · change (c.placeReplica row attemptId at_).vault.snapshots.map (·.snapshotId) = _
      rw [hvault]
      exact h.snapshots
  | observeTarget row => exact hw.elim
  | _ => exact ⟨h.artifacts, h.targets, h.snapshots, hplaces⟩

theorem Fixed.applyAll (h : Fixed c₀ c) (hlog : ∀ w ∈ log, w.IsOrdinary) :
    Fixed c₀ (c.applyAll log) :=
  foldl_invariant (I := fun d : Catalog => Fixed c₀ d) (fun _ w hw hd => hd.apply (hlog w hw)) h

/-- A worker sees artifacts and placements as they are committed. -/
theorem view_worker (hfixed : Fixed c₀ c) (h : SessionAligned settings c₀ c σ)
    {at_ : Retention.Loc} (hloc : σ.loc = .retention at_) :
    (c.applyAll σ.log).vault.artifacts = c₀.vault.artifacts ∧
      (c.applyAll σ.log).vault.placements = c.vault.placements := by
  refine ⟨(hfixed.applyAll h.ordinary).artifacts, placements_applyAll fun row attemptId at_ hw => ?_⟩
  obtain ⟨transfer, key, hrecords⟩ := h.records row attemptId at_ hw
  rw [hrecords.loc] at hloc
  cases hloc

end Replay

section Unit

theorem UnitAligned.start {unit : ReplicationUnit} (h : OfArtifact c₀ unit.artifactId unit.blob) :
    UnitAligned settings c₀ (.abandonExpired unit) where
  unit u hu := by
    obtain rfl := Option.some.inj hu
    exact h
  store u store _ hstore := by cases hstore
  key u store key _ hstore := by cases hstore

/-- A place of the same transfer and key. -/
theorem UnitAligned.of_same {at_ n : UnitLoc} (h : UnitAligned settings c₀ at_)
    (hunit : n.unit? = at_.unit?) (hstore : n.store? = at_.store?)
    (hkey : n.key? = none ∨ n.key? = at_.key?) : UnitAligned settings c₀ n where
  unit u hu := h.unit u (hunit ▸ hu)
  store u store hu hst := h.store u store (hunit ▸ hu) (hstore ▸ hst)
  key u store key hu hst hk := by
    rcases hkey with hnone | hsame
    · rw [hnone] at hk
      cases hk
    · exact h.key u store key (hunit ▸ hu) (hstore ▸ hst) (hsame ▸ hk)

/-- A place that has just got its key. -/
theorem UnitAligned.of_key {at_ n : UnitLoc} {transfer : Transfer} {key : String}
    (h : UnitAligned settings c₀ at_) (hat : at_.unit? = some transfer.unit)
    (hstore : at_.store? = some transfer.store) (hunit : n.unit? = some transfer.unit)
    (hstore' : n.store? = some transfer.store) (hkey : n.key? = some key)
    (hfound : transfer.store.objectKey? transfer.unit.blob = some key) :
    UnitAligned settings c₀ n where
  unit u hu := h.unit u (hat.trans (hunit.symm.trans hu))
  store u store hu hst :=
    h.store u store (hat.trans (hunit.symm.trans hu)) (hstore.trans (hstore'.symm.trans hst))
  key u store k hu hst hk := by
    obtain rfl := Option.some.inj (hunit.symm.trans hu)
    obtain rfl := Option.some.inj (hstore'.symm.trans hst)
    obtain rfl := Option.some.inj (hkey.symm.trans hk)
    exact hfound

theorem UnitAligned.finished {outcome : ReplicationUnitOutcome} :
    UnitAligned settings c₀ (.finished outcome) where
  unit _ hu := by cases hu
  store _ _ hu := by cases hu
  key _ _ _ hu := by cases hu

theorem UnitAligned.stmt {at_ n : UnitLoc} (h : UnitAligned settings c₀ at_)
    (htargets : c.replicaTargets = c₀.replicaTargets)
    (hstmt : UnitStmt settings.replication m c at_ locks writes n) : UnitAligned settings c₀ n := by
  cases hstmt with
  | @abandonExpired unit store hstore =>
    refine ⟨h.unit, fun u store' hu hst => ?_, fun _ _ _ _ _ hk => by cases hk⟩
    obtain rfl := Option.some.inj hu
    obtain rfl := Option.some.inj hst
    unfold Catalog.store? Catalog.replicaTarget? at hstore ⊢
    rwa [htargets] at hstore
  | claimRead => exact h.of_same rfl rfl (Or.inl rfl)
  | claimInsert => exact h.of_same rfl rfl (Or.inl rfl)
  | recordAttempt => exact h.of_same rfl rfl (Or.inr rfl)
  | recordPlacement => exact h.of_same rfl rfl (Or.inr rfl)

theorem UnitAligned.commit {at_ n : UnitLoc} (h : UnitAligned settings c₀ at_)
    (hcommit : UnitCommit at_ n) : UnitAligned settings c₀ n := by
  cases hcommit with
  | claimed => exact h.of_same rfl rfl (Or.inl rfl)
  | recorded => exact .finished

theorem UnitAligned.call {cx : Crypto} {at_ n : UnitLoc} (h : UnitAligned settings c₀ at_)
    (hcall : UnitCall cx world at_ world' n) : UnitAligned settings c₀ n := by
  cases hcall with
  | resolved => exact h.of_same rfl rfl (Or.inl rfl)
  | existing hkey => exact h.of_key rfl rfl rfl rfl rfl hkey
  | absent hkey => exact h.of_key rfl rfl rfl rfl rfl hkey
  | put _ hnext =>
    rcases hnext with rfl | rfl
    · exact h.of_same rfl rfl (Or.inr rfl)
    · exact h.of_same rfl rfl (Or.inl rfl)
  | uploaded => exact h.of_same rfl rfl (Or.inr rfl)
  | refused hat =>
    rcases hat with rfl | rfl | ⟨key, rfl | rfl⟩ <;> exact h.of_same rfl rfl (Or.inl rfl)

end Unit

section Worker

theorem projected_executionArtifact (hplacements : c'.vault.placements = c.vault.placements)
    {a : SnapshotArtifact} (ha : a ∈ c₀.vault.artifacts) :
    (c'.vault.executionArtifact a).Meets (Projected settings c₀ c) := by
  refine ⟨trivial, fun stored hstored => ?_⟩
  simp only [Db.executionArtifact, Db.sortedPlacements, List.mem_map, List.mem_insertionSort,
    List.mem_filter, beq_iff_eq, hplacements] at hstored
  obtain ⟨p, ⟨hp, hid⟩, rfl⟩ := hstored
  exact ⟨⟨a, ha, rfl, rfl⟩, p, hp, rfl, Prod.ext hid rfl, Or.inl rfl⟩

/-- A replica stage goes on only under a plan in its last phase. -/
theorem status_of_advance {rs : Retention.Settings} {job : Job} {row : StagePlan}
    {identity : PhysicalIdentity} {e : DeletionExecutionArtifact} {stored : DeletionExecutionReplica}
    {db : Db} {storage : Storage} {ls : List RatatoskrVault.Lock}
    {ws : List RatatoskrVault.Write} {n : Retention.Loc} (hunit : job.unit = .replica e stored)
    (h : Retention.act rs (.worker (.claim job (.advance row identity))) m db storage io
      = some (.stmt ls ws n)) : row.status = .replicaDeleting := by
  obtain ⟨n', hn', -⟩ := map_eq_stmt h
  simp only [runPlan, claimDeletionStage, hunit, failClaim] at hn'
  split_ifs at hn' with hstatus
  · exact hstatus
  · cases hn'

theorem owned_of_stageIdentity {db : Db} {row : StagePlan} {identity : PhysicalIdentity}
    (hartifacts : db.artifacts = c₀.vault.artifacts)
    (h : db.stageIdentity row.snapshotId unit.stage = some identity)
    (e : DeletionExecutionArtifact) (stored : DeletionExecutionReplica)
    (hunit : unit = .replica e stored) :
    ∃ a ∈ c₀.vault.artifacts, a.artifactId = e.artifactId ∧ a.snapshotId = row.snapshotId := by
  subst hunit
  obtain ⟨p, hp, -⟩ := Option.map_eq_some_iff.mp h
  have hsel := List.find?_some hp
  simp only [Bool.and_eq_true, Db.artifactsOf, List.any_filter, List.any_eq_true,
    beq_iff_eq] at hsel
  obtain ⟨-, a, ha, hsnapshot, hid⟩ := hsel
  exact ⟨a, hartifacts ▸ ha, hid, hsnapshot⟩

theorem Authorised.stmt {at_ n : WorkerLoc} {view : Db} {ls : List RatatoskrVault.Lock}
    {ws : List RatatoskrVault.Write} (h : Authorised c₀ c at_)
    (hview : ∀ job, at_ = .claim job .load → view.plans = c.vault.plans)
    (hartifacts : view.artifacts = c₀.vault.artifacts)
    (hadvance : ∀ job row identity e stored, at_ = .claim job (.advance row identity) →
      job.unit = .replica e stored → row.status = .replicaDeleting)
    (hstmt : WorkerStmt m view at_ ls ws n) : Authorised c₀ c n := by
  have hgoing : ∀ job row identity, at_ = .claim job (.advance row identity) →
      Going c₀ c job.unit row.snapshotId := by
    intro job row identity hat e stored hunit
    subst hat
    have hstatus := hadvance job row identity e stored rfl hunit
    exact ⟨h.1 (by rw [hstatus]; rfl), h.2 e stored hunit⟩
  cases hstmt with
  | @claimLoad job plan hplan =>
    intro hstarted
    have hmem : plan ∈ c.vault.plans := hview job rfl ▸ List.mem_of_find?_eq_some hplan
    exact ⟨plan, hmem, rfl, hstarted⟩
  | accept => exact h
  | identity hidentity => exact ⟨h, owned_of_stageIdentity hartifacts hidentity⟩
  | advancePlanned => exact hgoing _ _ _ rfl
  | advanceStarted => exact hgoing _ _ _ rfl
  | insertShared => exact ⟨_, h⟩
  | insertAttempt => exact ⟨_, h⟩
  | refuse => trivial
  | recordLock => exact h
  | recordAttempt => exact h
  | recordClaim => exact h
  | abandonStage => exact h
  | lockIdentity => exact h
  | shared => exact h
  | notShared => exact h
  | abandonClaims => exact h
  | insertClaim => exact h
  | _ => trivial

theorem authorised_next {plan : DeletionExecutionPlan} {tasks : List Task} :
    Authorised c₀ c (WorkerLoc.next plan tasks) := by
  match tasks with
  | [] => trivial
  | .stage unit :: rest => trivial
  | .advance :: rest => trivial
  | .complete :: rest => trivial

theorem authorised_auto {at_ n : WorkerLoc} {view : Db} {ls : List RatatoskrVault.Lock}
    {ws : List RatatoskrVault.Write} (h : WorkerAuto m view at_ ls ws n) :
    Authorised c₀ c n := by
  cases h with
  | ungated => exact authorised_next
  | gateMissing => exact authorised_next
  | gate => exact authorised_next
  | advanceWrite => exact authorised_next
  | _ => trivial

theorem Authorised.commit {at_ n : WorkerLoc} (h : Authorised c₀ c at_)
    (hcommit : WorkerCommit at_ n) : Authorised c₀ c n := by
  cases hcommit with
  | shared => exact authorised_next
  | recorded => exact authorised_next
  | claimed => exact h
  | _ => trivial

end Worker

section Session

theorem SessionAligned.of_empty {began : Option ℕ}
    (hunit : ∀ at_, loc = .unit at_ → UnitAligned settings c₀ at_)
    (hworker : ∀ at_, loc = .retention at_ →
      at_ = .idle ∨ ∃ n, at_ = .worker n ∧ WorkerAligned settings c₀ c n) :
    SessionAligned settings c₀ c ⟨loc, [], began⟩ where
  load _ _ := rfl
  ordinary _ hw := absurd hw List.not_mem_nil
  records _ _ _ hw := absurd hw List.not_mem_nil
  unit := hunit
  worker := hworker

theorem SessionAligned.of_unit {at_ : UnitLoc} {began : Option ℕ}
    (h : UnitAligned settings c₀ at_) : SessionAligned settings c₀ c ⟨.unit at_, [], began⟩ :=
  .of_empty (fun n hn => (by cases hn; exact h)) fun n hn => (by cases hn)

theorem SessionAligned.of_worker {at_ : WorkerLoc} {began : Option ℕ}
    (h : WorkerAligned settings c₀ c at_) :
    SessionAligned settings c₀ c ⟨.retention (.worker at_), [], began⟩ :=
  .of_empty (fun n hn => (by cases hn)) fun n hn => (by cases hn; exact Or.inr ⟨at_, rfl, h⟩)

theorem SessionAligned.of_idle {began : Option ℕ} :
    SessionAligned settings c₀ c ⟨.retention .idle, [], began⟩ :=
  .of_empty (fun n hn => (by cases hn)) fun n hn => (by cases hn; exact Or.inl rfl)

theorem WorkerAligned.finished {outcome : RetentionPlanOutcome} :
    WorkerAligned settings c₀ c (.finished outcome) := ⟨trivial, trivial⟩

theorem ordinary_worker {at_ n : WorkerLoc} {view : Db} {ls : List RatatoskrVault.Lock}
    {ws : List RatatoskrVault.Write} (h : WorkerStmt m view at_ ls ws n) :
    ∀ w ∈ ws.map Write.vault, w.IsOrdinary := by
  intro w hw
  obtain ⟨v, hv, rfl⟩ := List.mem_map.mp hw
  cases h with
  | abandonStage =>
    obtain ⟨a, -, rfl⟩ := List.mem_map.mp hv
    trivial
  | abandonClaims =>
    obtain ⟨c, -, rfl⟩ := List.mem_map.mp hv
    trivial
  | _ => first
    | (cases List.mem_singleton.mp hv; trivial)
    | cases hv

theorem ordinary_workerAuto {at_ n : WorkerLoc} {view : Db} {ls : List RatatoskrVault.Lock}
    {ws : List RatatoskrVault.Write} (h : WorkerAuto m view at_ ls ws n) :
    ∀ w ∈ ws.map Write.vault, w.IsOrdinary := by
  intro w hw
  obtain ⟨v, hv, rfl⟩ := List.mem_map.mp hw
  cases h <;> first
    | (cases List.mem_singleton.mp hv; trivial)
    | cases hv

/-- A step of a worker or a unit inside its transaction. -/
theorem SessionAligned.stmt (hfixed : Fixed c₀ c) (h : SessionAligned settings c₀ c σ)
    (hact : act settings σ.loc m (c.applyAll σ.log) world io = some (.stmt locks writes next)) :
    SessionAligned settings c₀ c ⟨next, σ.log ++ writes, some m.now⟩ := by
  obtain ⟨loc, log, began⟩ := σ
  cases loc with
  | retention at_ =>
    obtain ⟨hartifacts, -⟩ := view_worker hfixed h rfl
    rcases h.worker at_ rfl with rfl | ⟨n, rfl, hworker⟩
    · cases hact
    · obtain ⟨ls, ws, rn, hrn, rfl, rfl, rfl⟩ := lift_eq_stmt hact
      obtain ⟨n', rfl, hstmt⟩ := Retention.act_worker_stmt hrn
      have hnone : ∀ row attemptId at_, .placeReplica row attemptId at_ ∉ log := by
        intro row attemptId at_ hrow
        obtain ⟨transfer, key, hrecords⟩ := h.records row attemptId at_ hrow
        cases hrecords.loc
      refine ⟨fun job hjob => ?_, ?_, fun row attemptId at_ hrow => ?_,
        fun _ hn => (by cases hn), fun at_ hn => ?_⟩
      · cases hjob
        cases hstmt
      · exact List.forall_mem_append.mpr ⟨h.ordinary, ordinary_worker hstmt⟩
      · rcases List.mem_append.mp hrow with hrow | hrow
        · exact absurd hrow (hnone row attemptId at_)
        · exact absurd hrow (no_record_map row attemptId at_)
      · cases hn
        refine Or.inr ⟨n', rfl, hstmt.carries hworker.carries, ?_⟩
        refine hworker.authorised.stmt (fun job hjob => ?_) hartifacts
          (fun job row identity e stored hat hunit => ?_) hstmt
        · subst hjob
          have hempty : log = [] := h.load job rfl
          rw [hempty]
          rfl
        · subst hat
          exact status_of_advance hunit hrn
  | unit at_ =>
    obtain ⟨n, hn, rfl⟩ := map_eq_stmt hact
    have hstmt := runUnit_stmt hn
    have haligned := (h.unit at_ rfl).stmt (hfixed.applyAll h.ordinary).targets hstmt
    refine ⟨fun _ hjob => (by cases hjob), List.forall_mem_append.mpr ⟨h.ordinary, ?_⟩,
      fun row attemptId time hrow => ?_, fun n' hn' => (by cases hn'; exact haligned),
      fun _ hn' => (by cases hn')⟩
    · cases hstmt with
      | abandonExpired =>
        intro w hw
        obtain ⟨a, -, rfl⟩ := List.mem_map.mp hw
        trivial
      | claimRead => exact fun _ hw => absurd hw List.not_mem_nil
      | _ => exact List.forall_mem_singleton.mpr trivial
    · have hold : .placeReplica row attemptId time ∉ log ∨ ∃ transfer key,
          at_ = .recordCommit transfer key := by
        by_cases hmem : .placeReplica row attemptId time ∈ log
        · obtain ⟨transfer, key, hrecords⟩ := h.records row attemptId time hmem
          have hloc := hrecords.loc
          exact Or.inr ⟨transfer, key, by cases hloc; rfl⟩
        · exact Or.inl hmem
      rcases List.mem_append.mp hrow with hprior | hnew
      · obtain ⟨transfer, key, rfl⟩ := hold.resolve_left fun hnot => hnot hprior
        cases hstmt
      · cases hstmt with
        | abandonExpired =>
          obtain ⟨a, -, ha⟩ := List.mem_map.mp hnew
          cases ha
        | claimRead => cases hnew
        | claimInsert => cases List.mem_singleton.mp hnew
        | recordAttempt => cases List.mem_singleton.mp hnew
        | recordPlacement =>
          cases List.mem_singleton.mp hnew
          exact ⟨_, _, rfl, rfl, rfl, rfl, rfl⟩

theorem SessionAligned.auto (hfixed : Fixed c₀ c) (h : SessionAligned settings c₀ c σ)
    (hact : act settings σ.loc m (c.applyAll σ.log) world io = some (.auto locks writes next)) :
    SessionAligned settings c₀ c ⟨next, [], none⟩ ∧ ∀ w ∈ writes, w.IsOrdinary := by
  obtain ⟨loc, log, began⟩ := σ
  cases loc with
  | retention at_ =>
    obtain ⟨hartifacts, hplacements⟩ := view_worker hfixed h rfl
    rcases h.worker at_ rfl with rfl | ⟨n, rfl, hworker⟩
    · cases hact
    · obtain ⟨ls, ws, rn, hrn, rfl, rfl, rfl⟩ := lift_eq_auto hact
      obtain ⟨n', rfl, hauto⟩ := Retention.act_worker_auto hrn
      refine ⟨.of_worker ⟨?_, authorised_auto hauto⟩, ordinary_workerAuto hauto⟩
      exact hauto.carries trivial (fun a ha => hartifacts ▸ ha)
        (fun a ha => projected_executionArtifact hplacements ha) hworker.carries
  | unit at_ =>
    obtain ⟨n, hn, rfl⟩ := map_eq_auto hact
    obtain ⟨transfer, rfl, rfl, rfl, rfl⟩ := runUnit_auto hn
    exact ⟨.of_unit .finished, List.forall_mem_singleton.mpr trivial⟩

theorem SessionAligned.commit (h : SessionAligned settings c₀ c σ)
    (hact : act settings σ.loc m (c.applyAll σ.log) world io = some (.commit next)) :
    SessionAligned settings c₀ c ⟨next, [], none⟩ := by
  obtain ⟨loc, log, began⟩ := σ
  cases loc with
  | retention at_ =>
    rcases h.worker at_ rfl with rfl | ⟨n, rfl, hworker⟩
    · cases hact
    · obtain ⟨rn, hrn, rfl⟩ := lift_eq_commit hact
      obtain ⟨n', rfl, hcommit⟩ := Retention.act_worker_commit hrn
      exact .of_worker ⟨hcommit.carries hworker.carries, hworker.authorised.commit hcommit⟩
  | unit at_ =>
    obtain ⟨n, hn, rfl⟩ := map_eq_commit hact
    exact .of_unit ((h.unit at_ rfl).commit (runUnit_commit hn))

theorem SessionAligned.rollback (h : SessionAligned settings c₀ c σ)
    (hact : act settings σ.loc m (c.applyAll σ.log) world io = some (.rollback next)) :
    SessionAligned settings c₀ c ⟨next, [], none⟩ := by
  obtain ⟨loc, log, began⟩ := σ
  cases loc with
  | retention at_ =>
    rcases h.worker at_ rfl with rfl | ⟨n, rfl, hworker⟩
    · cases hact
    · obtain ⟨rn, hrn, rfl⟩ := lift_eq_rollback hact
      rw [Retention.act_worker_rollback hrn]
      exact .of_worker .finished
  | unit at_ =>
    obtain ⟨n, hn, rfl⟩ := map_eq_rollback hact
    rw [runUnit_rollback hn]
    exact .of_unit .finished

theorem SessionAligned.call (h : SessionAligned settings c₀ c σ)
    (hact : act settings σ.loc m (c.applyAll σ.log) world io = some (.call world' next)) :
    SessionAligned settings c₀ c ⟨next, [], none⟩ := by
  obtain ⟨loc, log, began⟩ := σ
  cases loc with
  | retention at_ =>
    rcases h.worker at_ rfl with rfl | ⟨n, rfl, hworker⟩
    · cases hact
    · obtain ⟨storage, rn, hrn, rfl, rfl⟩ := lift_eq_call hact
      obtain ⟨job, identity, claimId, attemptId, rfl, rfl, rfl⟩ := Retention.act_worker_call hrn
      exact .of_worker ⟨hworker.carries, hworker.authorised⟩
  | unit at_ =>
    obtain ⟨n, hn, rfl⟩ := map_eq_call hact
    exact .of_unit ((h.unit at_ rfl).call (runUnit_call hn))

theorem SessionAligned.start {s : State} {i : ℕ} {proc : Proc}
    (hartifacts : s.db.vault.artifacts = c₀.vault.artifacts)
    (hok : OnlyUnitsAndPlans s (.start i proc)) :
    SessionAligned settings c₀ c ⟨start proc, [], none⟩ := by
  cases proc with
  | retention proc =>
    cases proc with
    | runPlan planId => exact .of_worker ⟨trivial, trivial⟩
    | _ => exact hok.elim
  | runUnit unit =>
    obtain ⟨a, ha, hid, href⟩ := hok
    exact .of_unit (.start ⟨a, hartifacts ▸ ha, hid, href⟩)

end Session

end

end Replication

end RatatoskrVault
