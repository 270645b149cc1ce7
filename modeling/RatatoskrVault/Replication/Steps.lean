import RatatoskrVault.Replication.System
import RatatoskrVault.Retention.Locks
import RatatoskrVault.Schema.Evolution

/-! Everything one step of the off-host system can do, by kind of step. -/
namespace RatatoskrVault

open Lib

namespace Replication

section

variable (settings : ReplicationWorkerSettings) (m : Moment) (c : Catalog)

/-- The statements of `claim_replication_attempt` and of `record_verified_replica`. -/
inductive UnitStmt : UnitLoc → List Lock → List Write → UnitLoc → Prop
  | abandonExpired {unit : ReplicationUnit} {store : ReplicaStore}
      (hstore : c.store? settings unit.replicaTargetId = some store) :
      UnitStmt (.abandonExpired unit)
        ((c.expiredAttempts m.now unit.artifactId unit.replicaTargetId).map fun a =>
          .attempt a.attemptId)
        ((c.expiredAttempts m.now unit.artifactId unit.replicaTargetId).map fun a =>
          .finishAttempt a.attemptId .abandoned)
        (.claimRead unit store)
  | claimRead {unit : ReplicationUnit} {store : ReplicaStore} {key : String}
      (hkey : c.claimKey? unit.artifactId unit.replicaTargetId = some key) :
      UnitStmt (.claimRead unit store) [] []
        (.claimInsert unit store key (c.replicaKeyLeases unit.replicaTargetId key))
  | claimInsert {unit : ReplicationUnit} {store : ReplicaStore} {key : String} {leases : List Time}
      (hleases : ∀ lease ∈ leases, lease ≤ m.clock)
      (hfree : c.hasRunningAttempt unit.artifactId unit.replicaTargetId = false) :
      UnitStmt (.claimInsert unit store key leases)
        [.vault (.identity (.replicaKey unit.replicaTargetId key)),
          .unitKey unit.artifactId unit.replicaTargetId]
        [.insertAttempt
          { attemptId := m.fresh
            artifactId := unit.artifactId
            replicaTargetId := unit.replicaTargetId
            outcome := .running
            leaseExpiresAt := m.now + settings.leaseSeconds }]
        (.claimCommit { unit, store, attemptId := m.fresh })
  | recordAttempt {transfer : Transfer} {key : String} {attempt : ReplicationAttempt}
      (hverified : c.verifiedUnit? m.now transfer.attemptId transfer.unit.blob = some attempt) :
      UnitStmt (.recordAttempt transfer key) [.attempt transfer.attemptId]
        [.finishAttempt transfer.attemptId .succeeded] (.recordPlacement transfer key)
  | recordPlacement {transfer : Transfer} {key : String} :
      UnitStmt (.recordPlacement transfer key)
        [.placementKey transfer.unit.artifactId transfer.unit.replicaTargetId]
        [.placeReplica
          { placementId := m.fresh
            artifactId := transfer.unit.artifactId
            replicaTargetId := transfer.unit.replicaTargetId
            objectKey := key
            sha256Hash := transfer.unit.blob.sha256
            sizeBytes := transfer.unit.blob.sizeBytes }
          transfer.attemptId m.now]
        (.recordCommit transfer key)

inductive UnitCommit : UnitLoc → UnitLoc → Prop
  | claimed {transfer : Transfer} : UnitCommit (.claimCommit transfer) (.resolve transfer)
  | recorded {transfer : Transfer} {key : String} :
      UnitCommit (.recordCommit transfer key) (.finished .verified)

end

section

variable (cx : Crypto) (world : World)

/-- What a unit asks of the remote; only the upload changes it. -/
inductive UnitCall : UnitLoc → World → UnitLoc → Prop
  | resolved {transfer : Transfer} : UnitCall (.resolve transfer) world (.verifyExisting transfer)
  | existing {transfer : Transfer} {key : String}
      (hkey : transfer.store.objectKey? transfer.unit.blob = some key)
      (hverified : ReplicaStore.verifyRemote cx transfer.unit.blob
        (world.objects transfer.store.location key) = .ok ()) :
      UnitCall (.verifyExisting transfer) world (.recordAttempt transfer key)
  | absent {transfer : Transfer} {key : String}
      (hkey : transfer.store.objectKey? transfer.unit.blob = some key) :
      UnitCall (.verifyExisting transfer) world (.upload transfer key)
  | put {transfer : Transfer} {key : String} {bytes : Bytes} {next : UnitLoc}
      (hbytes : transfer.store.sourceBytes cx transfer.unit.blob
        (world.blobs.files transfer.unit.blob.sha256) = .ok bytes)
      (hnext : next = .verifyUploaded transfer key ∨ next = .recordFailure transfer) :
      UnitCall (.upload transfer key)
        (world.put transfer.store.location key transfer.unit.artifactId bytes) next
  | uploaded {transfer : Transfer} {key : String}
      (hverified : ReplicaStore.verifyRemote cx transfer.unit.blob
        (world.objects transfer.store.location key) = .ok ()) :
      UnitCall (.verifyUploaded transfer key) world (.recordAttempt transfer key)
  | refused {at_ : UnitLoc} {transfer : Transfer}
      (hat : at_ = .resolve transfer ∨ at_ = .verifyExisting transfer ∨
        ∃ key, at_ = .upload transfer key ∨ at_ = .verifyUploaded transfer key) :
      UnitCall at_ world (.recordFailure transfer)

end

end Replication

open Replication (UnitStmt UnitCommit UnitCall)

section

variable {cx : Crypto} {settings : ReplicationWorkerSettings} {m : Moment} {c : Catalog}
  {world world' : Replication.World} {io : IoResult} {at_ next : UnitLoc}
  {locks : List Replication.Lock} {writes : List Replication.Write}

theorem runUnit_stmt
    (h : runUnit cx settings m c world io at_ = some (.stmt locks writes next)) :
    UnitStmt settings m c at_ locks writes next := by
  cases at_ with
  | abandonExpired unit =>
    simp only [runUnit, failUnit] at h
    split at h
    · cases h
    · rename_i store hstore
      split_ifs at h
      · cases h
      · cases h
        exact .abandonExpired hstore
  | claimRead unit store =>
    simp only [runUnit, failUnit] at h
    split at h
    · cases h
    · cases h
      exact .claimRead ‹_›
  | claimInsert unit store key leases =>
    simp only [runUnit, failUnit] at h
    split_ifs at h with hleases hfree
    · cases h
    · cases h
    · cases h
      refine .claimInsert (fun lease hlease => ?_) (by simpa using hfree)
      by_contra hlater
      exact hleases (List.any_eq_true.mpr ⟨lease, hlease, by simpa using hlater⟩)
  | recordAttempt transfer key =>
    simp only [runUnit, failUnit] at h
    split_ifs at h
    · cases h
    · split at h
      · cases h
      · cases h
        exact .recordAttempt ‹_›
  | recordPlacement transfer key =>
    cases h
    exact .recordPlacement
  | verifyExisting transfer =>
    simp only [runUnit] at h
    split at h
    · cases h
    · split at h <;> cases h
  | upload transfer key =>
    simp only [runUnit] at h
    split at h <;> cases h
  | verifyUploaded transfer key =>
    simp only [runUnit] at h
    split at h <;> cases h
  | resolve transfer =>
    simp only [runUnit] at h
    split_ifs at h <;> cases h
  | _ => cases h

/-- The one statement a unit commits by itself. -/
theorem runUnit_auto (h : runUnit cx settings m c world io at_ = some (.auto locks writes next)) :
    ∃ transfer, at_ = .recordFailure transfer ∧ locks = [.attempt transfer.attemptId] ∧
      writes = [.finishAttempt transfer.attemptId .failed] ∧ next = .finished .failed := by
  cases at_ with
  | recordFailure transfer =>
    cases h
    exact ⟨transfer, rfl, rfl, rfl, rfl⟩
  | abandonExpired unit =>
    simp only [runUnit, failUnit] at h
    (repeat' split at h) <;> cases h
  | claimRead unit store =>
    simp only [runUnit, failUnit] at h
    split at h <;> cases h
  | claimInsert unit store key leases =>
    simp only [runUnit, failUnit] at h
    (repeat' split at h) <;> cases h
  | recordAttempt transfer key =>
    simp only [runUnit, failUnit] at h
    (repeat' split at h) <;> cases h
  | verifyExisting transfer =>
    simp only [runUnit] at h
    (repeat' split at h) <;> cases h
  | upload transfer key =>
    simp only [runUnit] at h
    split at h <;> cases h
  | verifyUploaded transfer key =>
    simp only [runUnit] at h
    split at h <;> cases h
  | resolve transfer =>
    simp only [runUnit] at h
    split_ifs at h <;> cases h
  | _ => cases h

theorem runUnit_commit (h : runUnit cx settings m c world io at_ = some (.commit next)) :
    UnitCommit at_ next := by
  cases at_ with
  | claimCommit transfer => cases h; exact .claimed
  | recordCommit transfer key => cases h; exact .recorded
  | abandonExpired unit =>
    simp only [runUnit, failUnit] at h
    (repeat' split at h) <;> cases h
  | claimRead unit store =>
    simp only [runUnit, failUnit] at h
    split at h <;> cases h
  | claimInsert unit store key leases =>
    simp only [runUnit, failUnit] at h
    (repeat' split at h) <;> cases h
  | recordAttempt transfer key =>
    simp only [runUnit, failUnit] at h
    (repeat' split at h) <;> cases h
  | verifyExisting transfer =>
    simp only [runUnit] at h
    (repeat' split at h) <;> cases h
  | upload transfer key =>
    simp only [runUnit] at h
    split at h <;> cases h
  | verifyUploaded transfer key =>
    simp only [runUnit] at h
    split at h <;> cases h
  | resolve transfer =>
    simp only [runUnit] at h
    split_ifs at h <;> cases h
  | _ => cases h

/-- A unit drops a transaction only by failing. -/
theorem runUnit_rollback (h : runUnit cx settings m c world io at_ = some (.rollback next)) :
    next = .finished .failed := by
  cases at_ with
  | abandonExpired unit =>
    simp only [runUnit, failUnit] at h
    (repeat' split at h) <;> cases h <;> rfl
  | claimRead unit store =>
    simp only [runUnit, failUnit] at h
    split at h <;> cases h
    rfl
  | claimInsert unit store key leases =>
    simp only [runUnit, failUnit] at h
    (repeat' split at h) <;> cases h <;> rfl
  | recordAttempt transfer key =>
    simp only [runUnit, failUnit] at h
    (repeat' split at h) <;> cases h <;> rfl
  | verifyExisting transfer =>
    simp only [runUnit] at h
    (repeat' split at h) <;> cases h
  | upload transfer key =>
    simp only [runUnit] at h
    split at h <;> cases h
  | verifyUploaded transfer key =>
    simp only [runUnit] at h
    split at h <;> cases h
  | resolve transfer =>
    simp only [runUnit] at h
    split_ifs at h <;> cases h
  | _ => cases h

theorem runUnit_call (h : runUnit cx settings m c world io at_ = some (.call world' next)) :
    UnitCall cx world at_ world' next := by
  cases at_ with
  | resolve transfer =>
    simp only [runUnit] at h
    split_ifs at h
    · cases h
      exact .resolved
    · cases h
      exact .refused (Or.inl rfl)
  | verifyExisting transfer =>
    simp only [runUnit] at h
    split at h
    · cases h
      exact .refused (Or.inr (Or.inl rfl))
    · split at h
      · cases h
        exact .existing ‹_› ‹_›
      · cases h
        exact .absent ‹_›
      · cases h
        exact .refused (Or.inr (Or.inl rfl))
  | upload transfer key =>
    simp only [runUnit] at h
    split at h
    · cases h
      exact .refused (Or.inr (Or.inr ⟨key, Or.inl rfl⟩))
    · cases h
      exact .refused (Or.inr (Or.inr ⟨key, Or.inl rfl⟩))
    · cases h
      refine .put ‹_› ?_
      split_ifs
      · exact Or.inl rfl
      · exact Or.inr rfl
  | verifyUploaded transfer key =>
    simp only [runUnit] at h
    split at h
    · cases h
      exact .uploaded ‹_›
    · cases h
      exact .refused (Or.inr (Or.inr ⟨key, Or.inr rfl⟩))
  | abandonExpired unit =>
    simp only [runUnit, failUnit] at h
    (repeat' split at h) <;> cases h
  | claimRead unit store =>
    simp only [runUnit, failUnit] at h
    split at h <;> cases h
  | claimInsert unit store key leases =>
    simp only [runUnit, failUnit] at h
    (repeat' split at h) <;> cases h
  | recordAttempt transfer key =>
    simp only [runUnit, failUnit] at h
    (repeat' split at h) <;> cases h
  | _ => cases h

end

namespace Replication

section

variable (settings : Settings) (m : Moment) (c : Catalog)

/-- The statements inside the transactions of a session. -/
inductive SessionStmt : Loc → List Lock → List Write → Loc → Prop
  | retention {at_ n : Retention.Loc} {locks : List RatatoskrVault.Lock}
      {writes : List RatatoskrVault.Write}
      (h : Retention.SessionStmt m c.vault at_ locks writes n) :
      SessionStmt (.retention at_) (locks.map .vault) (writes.map .vault) (.retention n)
  | unit {at_ n : UnitLoc} {locks : List Lock} {writes : List Write}
      (h : UnitStmt settings.replication m c at_ locks writes n) :
      SessionStmt (.unit at_) locks writes (.unit n)

/-- The statements a session commits by themselves. -/
inductive SessionAuto : Loc → List Lock → List Write → Loc → Prop
  | retention {at_ n : Retention.Loc} {locks : List RatatoskrVault.Lock}
      {writes : List RatatoskrVault.Write}
      (h : Retention.SessionAuto m c.vault at_ locks writes n) :
      SessionAuto (.retention at_) (locks.map .vault) (writes.map .vault) (.retention n)
  | unit {transfer : Transfer} :
      SessionAuto (.unit (.recordFailure transfer)) [.attempt transfer.attemptId]
        [.finishAttempt transfer.attemptId .failed] (.unit (.finished .failed))

inductive SessionCommit : Loc → Loc → Prop
  | retention {at_ n : Retention.Loc} (h : Retention.SessionCommit at_ n) :
      SessionCommit (.retention at_) (.retention n)
  | unit {at_ n : UnitLoc} (h : UnitCommit at_ n) : SessionCommit (.unit at_) (.unit n)

end

/-- The calls of a session outside the database. -/
inductive SessionCall (settings : Settings) (c : Catalog) (world : World) (io : IoResult) :
    Loc → World → Loc → Prop
  | retention {at_ n : Retention.Loc} {storage : Storage}
      (h : Retention.SessionCall (settings.current c) (world.storage c) io at_ storage n) :
      SessionCall settings c world io (.retention at_) (world.after c storage) (.retention n)
  | unit {at_ n : UnitLoc} {world' : World}
      (h : UnitCall settings.retention.worker.crypto world at_ world' n) :
      SessionCall settings c world io (.unit at_) world' (.unit n)

/-- A dropped transaction ends in a place where nothing is under way. -/
inductive SessionRollback (settings : Settings) (m : Moment) (c : Catalog) (world : World)
    (io : IoResult) : Loc → Loc → Prop
  | retention {at_ n : Retention.Loc}
      (h : Retention.act (settings.current c) at_ m c.vault (world.storage c) io
        = some (.rollback n)) :
      SessionRollback settings m c world io (.retention at_) (.retention n)
  | unit {at_ : UnitLoc} :
      SessionRollback settings m c world io (.unit at_) (.unit (.finished .failed))

section

variable {settings : Settings} {m : Moment} {c : Catalog} {world world' : World} {io : IoResult}
  {loc next : Loc} {locks : List Lock} {writes : List Write}

theorem act_stmt (h : act settings loc m c world io = some (.stmt locks writes next)) :
    SessionStmt settings m c loc locks writes next := by
  cases loc with
  | retention at_ =>
    obtain ⟨ls, ws, n, hn, rfl, rfl, rfl⟩ := lift_eq_stmt h
    exact .retention (Retention.act_stmt hn)
  | unit at_ =>
    obtain ⟨n, hn, rfl⟩ := map_eq_stmt h
    exact .unit (runUnit_stmt hn)

theorem act_auto (h : act settings loc m c world io = some (.auto locks writes next)) :
    SessionAuto m c loc locks writes next := by
  cases loc with
  | retention at_ =>
    obtain ⟨ls, ws, n, hn, rfl, rfl, rfl⟩ := lift_eq_auto h
    exact .retention (Retention.act_auto hn)
  | unit at_ =>
    obtain ⟨n, hn, rfl⟩ := map_eq_auto h
    obtain ⟨transfer, rfl, rfl, rfl, rfl⟩ := runUnit_auto hn
    exact .unit

theorem act_commit (h : act settings loc m c world io = some (.commit next)) :
    SessionCommit loc next := by
  cases loc with
  | retention at_ =>
    obtain ⟨n, hn, rfl⟩ := lift_eq_commit h
    exact .retention (Retention.act_commit hn)
  | unit at_ =>
    obtain ⟨n, hn, rfl⟩ := map_eq_commit h
    exact .unit (runUnit_commit hn)

theorem act_rollback (h : act settings loc m c world io = some (.rollback next)) :
    SessionRollback settings m c world io loc next := by
  cases loc with
  | retention at_ =>
    obtain ⟨n, hn, rfl⟩ := lift_eq_rollback h
    exact .retention hn
  | unit at_ =>
    obtain ⟨n, hn, rfl⟩ := map_eq_rollback h
    rw [runUnit_rollback hn]
    exact .unit

theorem act_call (h : act settings loc m c world io = some (.call world' next)) :
    SessionCall settings c world io loc world' next := by
  cases loc with
  | retention at_ =>
    obtain ⟨storage, n, hn, rfl, rfl⟩ := lift_eq_call h
    exact .retention (Retention.act_call hn)
  | unit at_ =>
    obtain ⟨n, hn, rfl⟩ := map_eq_call h
    exact .unit (runUnit_call hn)

end

/-- The operations, with what they write. -/
inductive OpWrites (m : Moment) (c : Catalog) : Op → List Lock → List Write → Prop
  | retention {o : Retention.Op} {locks : List RatatoskrVault.Lock}
      {writes : List RatatoskrVault.Write} (h : Retention.OpWrites c.vault m o locks writes) :
      OpWrites m c (.retention o) (locks.map .vault) (writes.map .vault)
  | observed {observation : ReplicaTarget} (hvalid : validateTarget observation = true) :
      OpWrites m c (.observeReplicaTarget observation) [.targetName observation.name]
        [.observeTarget observation]
  | verified {snapshotId : Uuid} {passed : Bool} :
      OpWrites m c (.recordVerification snapshotId passed) []
        [.insertIntegrityCheck { snapshotId, passed, finishedAt := m.now }]
  | drilled {snapshotId : Uuid} {passed : Bool} :
      OpWrites m c (.recordRestoreDrill snapshotId passed) []
        [.insertRestoreDrill { snapshotId, passed, finishedAt := m.now }]

theorem operate_writes {c : Catalog} {m : Moment} {o : Op} {locks : List Lock}
    {writes : List Write} (h : operate c m o = some (locks, writes)) :
    OpWrites m c o locks writes := by
  cases o with
  | retention op =>
    obtain ⟨⟨ls, ws⟩, hop, hr⟩ := Option.map_eq_some_iff.mp h
    cases hr
    exact .retention (Retention.operate_writes hop)
  | observeReplicaTarget observation =>
    simp only [operate] at h
    split_ifs at h with hvalid
    cases h
    exact .observed hvalid
  | recordVerification snapshotId passed =>
    simp only [operate] at h
    split_ifs at h
    cases h
    exact .verified
  | recordRestoreDrill snapshotId passed =>
    simp only [operate] at h
    split_ifs at h
    cases h
    exact .drilled

/-- The writes of a log to the tables the retention system keeps. -/
def vaultWrites (log : List Write) : List RatatoskrVault.Write :=
  log.filterMap fun
    | .vault w => some w
    | _ => none

theorem vaultWrites_append {log log' : List Write} :
    vaultWrites (log ++ log') = vaultWrites log ++ vaultWrites log' := List.filterMap_append

theorem vaultWrites_map {writes : List RatatoskrVault.Write} :
    vaultWrites (writes.map .vault) = writes := by
  induction writes with
  | nil => rfl
  | cons w writes ih => exact congrArg (w :: ·) ih

theorem mem_vaultWrites {log : List Write} {w : RatatoskrVault.Write} :
    w ∈ vaultWrites log ↔ .vault w ∈ log := by
  unfold vaultWrites
  rw [List.mem_filterMap]
  constructor
  · rintro ⟨w', hw', heq⟩
    cases w' <;> cases heq
    exact hw'
  · exact fun hw => ⟨_, hw, rfl⟩

theorem vault_placeReplica (c : Catalog) (row : ReplicaPlacement) (attemptId : Uuid) (at_ : Time) :
    (c.placeReplica row attemptId at_).vault
      = { c.vault with placements := (c.placeReplica row attemptId at_).vault.placements } := by
  unfold Catalog.placeReplica
  split <;> rfl

theorem apply_with_placements (db : Db) (w : RatatoskrVault.Write)
    (placements : List ReplicaPlacement) :
    ({ db with placements } : Db).apply w = { db.apply w with placements } := by
  cases w <;> rfl

theorem applyAll_with_placements (db : Db) (log : List RatatoskrVault.Write)
    (placements : List ReplicaPlacement) :
    ({ db with placements } : Db).applyAll log = { db.applyAll log with placements } := by
  induction log generalizing db with
  | nil => rfl
  | cons w log ih =>
    rw [Db.applyAll_cons, apply_with_placements, ih]
    rfl

/-- A log acts on the tables of the retention system as its own writes to them do, up to
placements. -/
theorem vault_applyAll (log : List Write) (c : Catalog) :
    (c.applyAll log).vault
      = { c.vault.applyAll (vaultWrites log) with
          placements := (c.applyAll log).vault.placements } := by
  induction log generalizing c with
  | nil => rfl
  | cons w log ih =>
    have hrest := ih (c.apply w)
    cases w with
    | vault w => exact hrest
    | placeReplica row attemptId at_ =>
      have hplaced : (c.apply (.placeReplica row attemptId at_)).vault
          = { c.vault with
              placements := (c.placeReplica row attemptId at_).vault.placements } :=
        vault_placeReplica c row attemptId at_
      rw [hplaced, applyAll_with_placements] at hrest
      exact hrest
    | observeTarget row =>
      have hkept : (c.apply (.observeTarget row)).vault = c.vault := by
        change (c.observeTarget row).vault = c.vault
        unfold Catalog.observeTarget
        split_ifs <;> rfl
      rw [hkept] at hrest
      exact hrest
    | _ => exact hrest

end Replication

end RatatoskrVault
