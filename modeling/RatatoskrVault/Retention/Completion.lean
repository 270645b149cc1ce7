import RatatoskrVault.Retention.WorkerSteps

/-! Completion of a target: which interleavings of `complete_deletion_plan` leave the tombstone
and its target completed once every plan under the tombstone is. -/
namespace RatatoskrVault.Retention

open Lib

/-- The plan a completion has updated without having committed. -/
def updatedPlan : Loc → Option CompletionRow
  | .worker (.complete (.updateSnapshot row)) => some row
  | .worker (.complete (.ready row _)) => some row
  | .worker (.complete (.updateTombstone row _)) => some row
  | .worker (.complete (.updateTarget row _)) => some row
  | .worker (.complete (.commit row)) => some row
  | _ => none

/-- The plan of a completion whose readiness check is done. -/
def checkedPlan : Loc → Option CompletionRow
  | .worker (.complete (.updateTombstone row _)) => some row
  | .worker (.complete (.updateTarget row _)) => some row
  | .worker (.complete (.commit row)) => some row
  | _ => none

/-- Runs of completions only. -/
def OnlyCompletions (_ : State) : Label → Prop
  | .start _ (.completePlan _) => True
  | .exec _ _ => True
  | .abort _ => True
  | .tick _ => True
  | _ => False

/-- No readiness check while another completion under the same tombstone has updated its plan and
not committed. -/
def CompletionsSerialized (s : State) : Label → Prop
  | .exec i _ => ∀ row tombstoneId,
      (s.session i).loc = .worker (.complete (.ready row tombstoneId)) →
      ∀ j, j ≠ i → ∀ other, updatedPlan (s.session j).loc = some other →
        other.tombstoneId ≠ some tombstoneId
  | label => OnlyCompletions s label

/-- An active tombstone of a target in deletion, with plans of that target, not all completed. -/
structure Completable (db : Db) (tombstoneId targetId : Uuid) : Prop where
  plans_nodup : (db.plans.map (·.planId)).Nodup
  tombstone_active : ∀ t ∈ db.tombstones, t.tombstoneId = tombstoneId → t.isActive = true
  tombstone_exists : ∃ t ∈ db.tombstones, t.tombstoneId = tombstoneId
  target_deleting : ∀ t ∈ db.targets, t.targetId = targetId → t.status = .deleting
  plans_target : ∀ p ∈ db.plans, p.tombstoneId = some tombstoneId → p.targetId = targetId
  plans_open : ∃ p ∈ db.plans, p.tombstoneId = some tombstoneId ∧ p.status ≠ .completed

/-- Once every plan under the tombstone is completed, so are the tombstone and its target. -/
def TargetCompleted (db : Db) (tombstoneId targetId : Uuid) : Prop :=
  (∀ p ∈ db.plans, p.tombstoneId = some tombstoneId → p.status = .completed) →
    (∀ t ∈ db.tombstones, t.tombstoneId = tombstoneId → t.completedAt.isSome) ∧
    ∀ t ∈ db.targets, t.targetId = targetId → t.status = .deleted

/-- In every run whose steps meet `ok`, no completion of the target is lost. -/
def CompletionNeverLost (ok : State → Label → Prop) (settings : Settings) (s₀ : State)
    (tombstoneId targetId : Uuid) : Prop :=
  ∀ s, Reach (machine settings).step ok s₀ s → (∀ i, (s.session i).loc.isIdle = true) →
    TargetCompleted s.db tombstoneId targetId

namespace Completion

/-- The writes a completion makes. -/
def IsWrite : Write → Prop
  | .setPlanStatus _ fromStatus toStatus => fromStatus = .replicaDeleting ∧ toStatus = .completed
  | .setSnapshotDeleted _ => True
  | .completeTombstone _ _ => True
  | .setTargetStatus _ fromStatus toStatus => fromStatus = .deleting ∧ toStatus = .deleted
  | _ => False

variable {tombstoneId targetId : Uuid}

/-- What every write of a completion keeps. -/
structure Stable (tombstoneId targetId : Uuid) (db : Db) : Prop where
  plans_nodup : (db.plans.map (·.planId)).Nodup
  not_cancelled : ∀ t ∈ db.tombstones, t.tombstoneId = tombstoneId → t.cancelledAt = none
  tombstone_exists : ∃ t ∈ db.tombstones, t.tombstoneId = tombstoneId
  target_status : (∀ t ∈ db.targets, t.targetId = targetId → t.status = .deleting) ∨
    ∀ t ∈ db.targets, t.targetId = targetId → t.status = .deleted
  plans_target : ∀ p ∈ db.plans, p.tombstoneId = some tombstoneId → p.targetId = targetId

theorem Stable.apply {db : Db} {w : Write} (h : Stable tombstoneId targetId db) (hw : IsWrite w) :
    Stable tombstoneId targetId (db.apply w) := by
  cases w with
  | setPlanStatus planId fromStatus toStatus =>
    refine ⟨?_, h.not_cancelled, h.tombstone_exists, h.target_status, ?_⟩
    · have hids : (db.apply (.setPlanStatus planId fromStatus toStatus)).plans.map (·.planId)
          = db.plans.map (·.planId) := map_updateWhere fun _ => rfl
      rw [hids]
      exact h.plans_nodup
    · exact forall_updateWhere h.plans_target fun p _ hp _ => hp
  | setSnapshotDeleted snapshotId =>
    exact ⟨h.plans_nodup, h.not_cancelled, h.tombstone_exists, h.target_status, h.plans_target⟩
  | completeTombstone id at_ =>
    refine ⟨h.plans_nodup, ?_, ?_, h.target_status, h.plans_target⟩
    · exact forall_updateWhere h.not_cancelled fun t _ ht _ => ht
    · obtain ⟨t, ht, hid⟩ := h.tombstone_exists
      refine ⟨_, mem_updateWhere_of_mem ht, ?_⟩
      split_ifs <;> exact hid
  | setTargetStatus id fromStatus toStatus =>
    obtain ⟨rfl, rfl⟩ := hw
    refine ⟨h.plans_nodup, h.not_cancelled, h.tombstone_exists, ?_, h.plans_target⟩
    by_cases hid : id = targetId
    · right
      intro t ht htid
      obtain ⟨t₀, ht₀, ⟨-, rfl⟩ | ⟨hp, rfl⟩⟩ := of_mem_updateWhere ht
      · rfl
      · rcases h.target_status with hdeleting | hdeleted
        · have := hdeleting t ht₀ htid
          simp [htid, hid, this] at hp
        · exact hdeleted t ht₀ htid
    · refine h.target_status.imp (fun hall => ?_) fun hall => ?_
      · exact forall_updateWhere hall fun t _ _ hp htid => by
          simp only [Bool.and_eq_true, beq_iff_eq] at hp
          exact absurd (hp.1.symm.trans htid) hid
      · exact forall_updateWhere hall fun t _ _ hp htid => by
          simp only [Bool.and_eq_true, beq_iff_eq] at hp
          exact absurd (hp.1.symm.trans htid) hid
  | _ => exact hw.elim

/-- The row a completion read identifies its plan. -/
def RowOf (db : Db) (row : CompletionRow) : Prop :=
  (∃ p ∈ db.plans, p.planId = row.planId) ∧ ∀ p ∈ db.plans, p.planId = row.planId →
    p.tombstoneId = row.tombstoneId ∧ p.targetId = row.targetId

/-- The plan is past its stages. -/
def AtEnd (db : Db) (planId : Uuid) : Prop :=
  ∀ p ∈ db.plans, p.planId = planId → p.status = .replicaDeleting ∨ p.status = .completed

/-- Another plan under the tombstone is not completed. -/
def OpenBeside (tombstoneId : Uuid) (db : Db) (planId : Uuid) : Prop :=
  ∃ p ∈ db.plans, p.tombstoneId = some tombstoneId ∧ p.planId ≠ planId ∧ p.status ≠ .completed

/-- The uncommitted writes complete the tombstone and, unless it is done, the target. -/
def Decided (tombstoneId targetId : Uuid) (db : Db) (log : List Write) : Prop :=
  (∃ at_, .completeTombstone tombstoneId at_ ∈ log) ∧
    (.setTargetStatus targetId .deleting .deleted ∈ log ∨
      ∀ t ∈ db.targets, t.targetId = targetId → t.status = .deleted)

def planDone (row : CompletionRow) : List Write :=
  [.setPlanStatus row.planId .replicaDeleting .completed, .setSnapshotDeleted row.snapshotId]

/-- The log holds completion writes, and no plan write but the one of `planId`. -/
def OwnLog (planId : Uuid) (log : List Write) : Prop :=
  ∀ w ∈ log, IsWrite w ∧ ∀ id fromStatus toStatus,
    w = .setPlanStatus id fromStatus toStatus → id = planId

def Local (tombstoneId targetId : Uuid) (db : Db) (log : List Write) : CompleteLoc → Prop
  | .lock _ => log = []
  | .updatePlan row => log = [] ∧ RowOf db row
  | .updateSnapshot row =>
      log = [.setPlanStatus row.planId .replicaDeleting .completed] ∧ RowOf db row ∧
        AtEnd db row.planId
  | .ready row id =>
      log = planDone row ∧ RowOf db row ∧ AtEnd db row.planId ∧ row.tombstoneId = some id
  | .updateTombstone row id => log = planDone row ∧ RowOf db row ∧ row.tombstoneId = some id
  | .updateTarget row id =>
      ((log = planDone row ∧ id ≠ tombstoneId) ∨
        ∃ at_, log = planDone row ++ [.completeTombstone id at_]) ∧
      RowOf db row ∧ row.tombstoneId = some id
  | .commit row => OwnLog row.planId log ∧ RowOf db row ∧ (row.tombstoneId = some tombstoneId →
      OpenBeside tombstoneId db row.planId ∨ Decided tombstoneId targetId db log)

def SessionOk (tombstoneId targetId : Uuid) (db : Db) (σ : Session Write Loc) : Prop :=
  match σ.loc with
  | .idle => True
  | .worker (.finished _) => True
  | .worker (.complete loc) => Local tombstoneId targetId db σ.log loc
  | _ => False

structure Inv (tombstoneId targetId : Uuid) (s : State) : Prop where
  stable : Stable tombstoneId targetId s.db
  completed : TargetCompleted s.db tombstoneId targetId
  sessions : ∀ i, SessionOk tombstoneId targetId s.db (s.session i)
  exclusive : ∀ i j, i ≠ j → ∀ row row', checkedPlan (s.session i).loc = some row →
    checkedPlan (s.session j).loc = some row' → row.tombstoneId = some tombstoneId →
    row'.tombstoneId ≠ some tombstoneId

theorem RowOf.apply {db : Db} {w : Write} {row : CompletionRow} (h : RowOf db row)
    (hw : IsWrite w) : RowOf (db.apply w) row := by
  cases w with
  | setPlanStatus planId fromStatus toStatus =>
    refine ⟨?_, forall_updateWhere h.2 fun p _ hp _ => hp⟩
    obtain ⟨p, hp, hid⟩ := h.1
    refine ⟨_, mem_updateWhere_of_mem hp, ?_⟩
    split_ifs <;> exact hid
  | setSnapshotDeleted snapshotId => exact h
  | completeTombstone id at_ => exact h
  | setTargetStatus id fromStatus toStatus => exact h
  | _ => exact hw.elim

theorem AtEnd.apply {db : Db} {w : Write} {planId : Uuid} (h : AtEnd db planId)
    (hw : IsWrite w) : AtEnd (db.apply w) planId := by
  cases w with
  | setPlanStatus id fromStatus toStatus =>
    obtain ⟨-, rfl⟩ := hw
    exact forall_updateWhere h fun _ _ _ _ _ => Or.inr rfl
  | setSnapshotDeleted snapshotId => exact h
  | completeTombstone id at_ => exact h
  | setTargetStatus id fromStatus toStatus => exact h
  | _ => exact hw.elim

theorem AtEnd.foldl {db : Db} {log : List Write} {planId : Uuid} (h : AtEnd db planId)
    (hlog : ∀ w ∈ log, IsWrite w) : AtEnd (log.foldl Db.apply db) planId :=
  foldl_invariant (I := fun db => AtEnd db planId) (fun _ w hw h => h.apply (hlog w hw)) h

theorem RowOf.foldl {db : Db} {log : List Write} {row : CompletionRow} (h : RowOf db row)
    (hlog : ∀ w ∈ log, IsWrite w) : RowOf (log.foldl Db.apply db) row :=
  foldl_invariant (I := fun db => RowOf db row) (fun _ w hw h => h.apply (hlog w hw)) h

theorem Stable.foldl {db : Db} {log : List Write} (h : Stable tombstoneId targetId db)
    (hlog : ∀ w ∈ log, IsWrite w) : Stable tombstoneId targetId (log.foldl Db.apply db) :=
  foldl_invariant (fun _ w hw h => h.apply (hlog w hw)) h

/-- A plan the log does not write keeps its row. -/
theorem OpenBeside.foldl {db : Db} {log : List Write} {planId : Uuid}
    (h : OpenBeside tombstoneId db planId) (hlog : ∀ w ∈ log, IsWrite w)
    (hother : ∀ p ∈ db.plans, p.tombstoneId = some tombstoneId → p.planId ≠ planId →
      ∀ id fromStatus toStatus, .setPlanStatus id fromStatus toStatus ∈ log → id ≠ p.planId) :
    OpenBeside tombstoneId (log.foldl Db.apply db) planId := by
  obtain ⟨p, hp, hunder, hne, hopen⟩ := h
  refine ⟨p, ?_, hunder, hne, hopen⟩
  refine foldl_invariant (I := fun db : Db => p ∈ db.plans) (fun db w hw hp' => ?_) hp
  have hkind := hlog w hw
  cases w with
  | setPlanStatus id fromStatus toStatus =>
    have hid := hother p hp hunder hne id fromStatus toStatus hw
    have hmem := mem_updateWhere_of_mem (p := fun q : DeletionPlan =>
      q.planId == id && q.status == fromStatus) (f := fun q => { q with status := toStatus }) hp'
    simpa [Db.apply, Ne.symm hid] using hmem
  | setSnapshotDeleted snapshotId => exact hp'
  | completeTombstone id at_ => exact hp'
  | setTargetStatus id fromStatus toStatus => exact hp'
  | _ => exact hkind.elim

theorem deleted_apply {db : Db} {w : Write} (hw : IsWrite w)
    (h : ∀ t ∈ db.targets, t.targetId = targetId → t.status = .deleted) :
    ∀ t ∈ (db.apply w).targets, t.targetId = targetId → t.status = .deleted := by
  cases w with
  | setPlanStatus planId fromStatus toStatus => exact h
  | setSnapshotDeleted snapshotId => exact h
  | completeTombstone id at_ => exact h
  | setTargetStatus id fromStatus toStatus =>
    obtain ⟨-, rfl⟩ := hw
    exact forall_updateWhere h fun _ _ _ _ _ => rfl
  | _ => exact hw.elim

theorem deleted_foldl {db : Db} {log : List Write} (hlog : ∀ w ∈ log, IsWrite w)
    (h : ∀ t ∈ db.targets, t.targetId = targetId → t.status = .deleted) :
    ∀ t ∈ (log.foldl Db.apply db).targets, t.targetId = targetId → t.status = .deleted :=
  foldl_invariant
    (I := fun db : Db => ∀ t ∈ db.targets, t.targetId = targetId → t.status = .deleted)
    (fun _ w hw h => deleted_apply (hlog w hw) h) h

theorem completed_apply {db : Db} {w : Write} (hw : IsWrite w)
    (h : ∀ t ∈ db.tombstones, t.tombstoneId = tombstoneId → t.completedAt.isSome) :
    ∀ t ∈ (db.apply w).tombstones, t.tombstoneId = tombstoneId → t.completedAt.isSome := by
  cases w with
  | setPlanStatus planId fromStatus toStatus => exact h
  | setSnapshotDeleted snapshotId => exact h
  | completeTombstone id at_ => exact forall_updateWhere h fun _ _ _ _ _ => rfl
  | setTargetStatus id fromStatus toStatus => exact h
  | _ => exact hw.elim

theorem completed_foldl {db : Db} {log : List Write} (hlog : ∀ w ∈ log, IsWrite w)
    (h : ∀ t ∈ db.tombstones, t.tombstoneId = tombstoneId → t.completedAt.isSome) :
    ∀ t ∈ (log.foldl Db.apply db).tombstones, t.tombstoneId = tombstoneId →
      t.completedAt.isSome :=
  foldl_invariant
    (I := fun db : Db => ∀ t ∈ db.tombstones, t.tombstoneId = tombstoneId → t.completedAt.isSome)
    (fun _ w hw h => completed_apply (hlog w hw) h) h

/-- Replaying a decided log completes the tombstone and the target. -/
theorem Decided.foldl {db : Db} {log : List Write} (h : Decided tombstoneId targetId db log)
    (hstable : Stable tombstoneId targetId db) (hlog : ∀ w ∈ log, IsWrite w) :
    (∀ t ∈ (log.foldl Db.apply db).tombstones, t.tombstoneId = tombstoneId →
      t.completedAt.isSome) ∧
    ∀ t ∈ (log.foldl Db.apply db).targets, t.targetId = targetId → t.status = .deleted := by
  obtain ⟨⟨at_, hat⟩, htarget⟩ := h
  constructor
  · refine foldl_establish hat (I := Stable tombstoneId targetId)
      (P := fun db => ∀ t ∈ db.tombstones, t.tombstoneId = tombstoneId → t.completedAt.isSome)
      (fun _ w hw h => h.apply (hlog w hw)) (fun db hdb t ht hid => ?_)
      (fun _ w hw _ h => completed_apply (hlog w hw) h) hstable
    obtain ⟨t₀, ht₀, ⟨-, rfl⟩ | ⟨hp, rfl⟩⟩ := of_mem_updateWhere ht
    · rfl
    · have hcancelled := hdb.not_cancelled t ht₀ hid
      cases hdone : t.completedAt with
      | none => simp [hid, Tombstone.isActive, hcancelled, hdone] at hp
      | some at_ => rfl
  · rcases htarget with hwrite | hdeleted
    · refine foldl_establish hwrite (I := Stable tombstoneId targetId)
        (P := fun db => ∀ t ∈ db.targets, t.targetId = targetId → t.status = .deleted)
        (fun _ w hw h => h.apply (hlog w hw)) (fun db hdb t ht hid => ?_)
        (fun _ w hw _ h => deleted_apply (hlog w hw) h) hstable
      obtain ⟨t₀, ht₀, ⟨-, rfl⟩ | ⟨hp, rfl⟩⟩ := of_mem_updateWhere ht
      · rfl
      · rcases hdb.target_status with hdeleting | hdeleted
        · simp [hid, hdeleting t ht₀ hid] at hp
        · exact hdeleted t ht₀ hid
    · exact deleted_foldl hlog hdeleted

/-- Another session's commit keeps what a completion relies on. -/
theorem Local.foldl {db : Db} {log committed : List Write} {loc : CompleteLoc}
    (h : Local tombstoneId targetId db log loc) (hlog : ∀ w ∈ committed, IsWrite w)
    (hother : ∀ row, checkedPlan (.worker (.complete loc)) = some row →
      row.tombstoneId = some tombstoneId →
      ∀ p ∈ db.plans, p.tombstoneId = some tombstoneId → p.planId ≠ row.planId →
      ∀ id fromStatus toStatus, .setPlanStatus id fromStatus toStatus ∈ committed →
        id ≠ p.planId) :
    Local tombstoneId targetId (committed.foldl Db.apply db) log loc := by
  cases loc with
  | lock planId => exact h
  | updatePlan row => exact ⟨h.1, h.2.foldl hlog⟩
  | updateSnapshot row => exact ⟨h.1, h.2.1.foldl hlog, h.2.2.foldl hlog⟩
  | ready row id => exact ⟨h.1, h.2.1.foldl hlog, h.2.2.1.foldl hlog, h.2.2.2⟩
  | updateTombstone row id => exact ⟨h.1, h.2.1.foldl hlog, h.2.2⟩
  | updateTarget row id => exact ⟨h.1, h.2.1.foldl hlog, h.2.2⟩
  | commit row =>
    refine ⟨h.1, h.2.1.foldl hlog, fun hunder => ?_⟩
    rcases h.2.2 hunder with hopen | ⟨hat, htarget⟩
    · exact Or.inl (hopen.foldl hlog (hother row rfl hunder))
    · exact Or.inr ⟨hat, htarget.imp_right (deleted_foldl hlog)⟩

theorem plan?_eq_some {db : Db} {planId : Uuid} {plan : DeletionPlan}
    (h : db.plan? planId = some plan) : plan ∈ db.plans ∧ plan.planId = planId :=
  ⟨List.mem_of_find?_eq_some h, by simpa using List.find?_some h⟩

theorem eq_of_plan? {db : Db} {planId : Uuid} {plan p : DeletionPlan}
    (hnodup : (db.plans.map (·.planId)).Nodup) (h : db.plan? planId = some plan)
    (hp : p ∈ db.plans) (hid : p.planId = planId) : p = plan :=
  List.inj_on_of_nodup_map hnodup hp (plan?_eq_some h).1 (hid.trans (plan?_eq_some h).2.symm)

/-- One completion's own statement keeps its part of the invariant. -/
theorem local_stmt {db : Db} {m : Moment} {log writes : List Write} {locks : List Lock}
    {loc : CompleteLoc} {next : WorkerLoc} (hstable : Stable tombstoneId targetId db)
    (hlocal : Local tombstoneId targetId db log loc)
    (hstep : WorkerStmt m (log.foldl Db.apply db) (.complete loc) locks writes next) :
    ∃ loc', next = .complete loc' ∧ Local tombstoneId targetId db (log ++ writes) loc' := by
  cases hstep with
  | @completeLock planId plan hplan =>
    obtain rfl : log = [] := hlocal
    refine ⟨_, rfl, rfl, ⟨plan, plan?_eq_some hplan⟩, fun p hp hid => ?_⟩
    obtain rfl := eq_of_plan? hstable.plans_nodup hplan hp hid
    exact ⟨rfl, rfl⟩
  | @completePlan row plan hplan hstatus hguard =>
    obtain ⟨rfl, hrow⟩ := hlocal
    refine ⟨_, rfl, rfl, hrow, fun p hp hid => ?_⟩
    obtain rfl := eq_of_plan? hstable.plans_nodup hplan hp hid
    exact Or.inl hstatus
  | @completeSnapshot row htombstone =>
    obtain ⟨rfl, hrow, hend⟩ := hlocal
    refine ⟨_, rfl, ?_, hrow, fun hunder => by simp [htombstone] at hunder⟩
    simp [OwnLog, IsWrite]
  | @completeSnapshotUnder row id htombstone =>
    obtain ⟨rfl, hrow, hend⟩ := hlocal
    exact ⟨_, rfl, rfl, hrow, hend, htombstone⟩
  | @incomplete row id hopen =>
    obtain ⟨rfl, hrow, hend, htombstone⟩ := hlocal
    refine ⟨_, rfl, ?_, hrow, fun hunder => Or.inl ?_⟩
    · simp [OwnLog, IsWrite, planDone]
    · obtain ⟨p, hp, hpunder, hpopen⟩ := hopen
      obtain rfl : id = tombstoneId := Option.some.inj (htombstone.symm.trans hunder)
      obtain ⟨p₀, hp₀, ⟨hsel, rfl⟩ | ⟨hsel, rfl⟩⟩ := of_mem_updateWhere hp
      · exact absurd rfl hpopen
      · refine ⟨p, hp₀, hpunder, fun hid => ?_, hpopen⟩
        rcases hend p hp₀ hid with hstatus | hstatus
        · simp [hid, hstatus] at hsel
        · exact hpopen hstatus
  | @ready row id hall =>
    obtain ⟨rfl, hrow, hend, htombstone⟩ := hlocal
    exact ⟨_, rfl, by simp, hrow, htombstone⟩
  | @tombstoneMissing row id hnone =>
    obtain ⟨rfl, hrow, htombstone⟩ := hlocal
    refine ⟨_, rfl, Or.inl ⟨by simp, ?_⟩, hrow, htombstone⟩
    rintro rfl
    obtain ⟨t, ht, hid⟩ := hstable.tombstone_exists
    exact absurd hid (by simpa using List.find?_eq_none.mp hnone t ht)
  | @completeTombstone row id tombstone hfind hactive =>
    obtain ⟨rfl, hrow, htombstone⟩ := hlocal
    exact ⟨_, rfl, Or.inr ⟨m.now, rfl⟩, hrow, htombstone⟩
  | @targetKept row id htarget =>
    obtain ⟨hlog, hrow, htombstone⟩ := hlocal
    refine ⟨_, rfl, ?_, hrow, fun hunder => Or.inr ?_⟩
    · rcases hlog with ⟨rfl, -⟩ | ⟨at_, rfl⟩ <;> simp [OwnLog, IsWrite, planDone]
    · obtain rfl : id = tombstoneId := Option.some.inj (htombstone.symm.trans hunder)
      obtain ⟨-, hne⟩ | ⟨at_, rfl⟩ := hlog
      · exact absurd rfl hne
      obtain ⟨p, hp, hid⟩ := hrow.1
      have hx : row.targetId = targetId := by
        rw [← (hrow.2 p hp hid).2]
        exact hstable.plans_target p hp ((hrow.2 p hp hid).1.trans htombstone)
      refine ⟨⟨at_, by simp⟩, Or.inr ?_⟩
      rcases hstable.target_status with hdeleting | hdeleted
      · intro t ht htid
        cases hfind : db.target? targetId with
        | none => exact absurd htid (by simpa using List.find?_eq_none.mp hfind t ht)
        | some t' =>
          have hmem := List.mem_of_find?_eq_some hfind
          have hid' : t'.targetId = targetId := by simpa using List.find?_some hfind
          exact absurd (hdeleting t' hmem hid') (htarget t' (by rw [hx]; exact hfind))
      · exact hdeleted
  | @completeTarget row id target hfind hstatus hguard =>
    obtain ⟨hlog, hrow, htombstone⟩ := hlocal
    refine ⟨_, rfl, ?_, hrow, fun hunder => Or.inr ?_⟩
    · rcases hlog with ⟨rfl, -⟩ | ⟨at_, rfl⟩ <;> simp [OwnLog, IsWrite, planDone]
    · obtain rfl : id = tombstoneId := Option.some.inj (htombstone.symm.trans hunder)
      obtain ⟨-, hne⟩ | ⟨at_, rfl⟩ := hlog
      · exact absurd rfl hne
      obtain ⟨p, hp, hid⟩ := hrow.1
      have hx : row.targetId = targetId := by
        rw [← (hrow.2 p hp hid).2]
        exact hstable.plans_target p hp ((hrow.2 p hp hid).1.trans htombstone)
      exact ⟨⟨at_, by simp⟩, Or.inl (by simp [hx])⟩

variable {settings : Settings}

/-- A session in the invariant that takes a step is a completion. -/
theorem loc_of_act {db : Db} {σ : Session Write Loc} {m : Moment} {view : Db} {storage : Storage}
    {io : IoResult} {a : Action Storage Lock Write Loc}
    (h : SessionOk tombstoneId targetId db σ)
    (ha : act settings σ.loc m view storage io = some a) :
    ∃ loc, σ.loc = .worker (.complete loc) ∧ Local tombstoneId targetId db σ.log loc := by
  unfold SessionOk at h
  split at h
  · rename_i hloc; rw [hloc] at ha; cases ha
  · rename_i hloc; rw [hloc] at ha; cases ha
  · rename_i loc hloc; exact ⟨loc, hloc, h⟩
  · exact h.elim

/-- A step that leaves session `i` at `next` and every other session and the database alone. -/
theorem Inv.setSession {s : State} {i : ℕ} {σ : Session Write Loc}
    (h : Inv tombstoneId targetId s) (hok : SessionOk tombstoneId targetId s.db σ)
    (hchecked : ∀ row, checkedPlan σ.loc = some row → row.tombstoneId = some tombstoneId →
      ∀ j, j ≠ i → ∀ row', checkedPlan (s.session j).loc = some row' →
        row'.tombstoneId ≠ some tombstoneId) {s' : State} (hdb : s'.db = s.db)
    (hsession : s'.session = (s.setSession i σ).session) : Inv tombstoneId targetId s' := by
  refine ⟨hdb ▸ h.stable, hdb ▸ h.completed, fun j => ?_, fun j k hjk row row' hj hk hT hT' => ?_⟩
  · rw [hdb, hsession]
    by_cases hji : j = i
    · subst hji; simpa using hok
    · rw [State.setSession_session_of_ne hji]; exact h.sessions j
  · rw [hsession] at hj hk
    by_cases hji : j = i
    · subst hji
      rw [State.setSession_session_self] at hj
      rw [State.setSession_session_of_ne (Ne.symm hjk)] at hk
      exact hchecked row hj hT k (Ne.symm hjk) row' hk hT'
    · rw [State.setSession_session_of_ne hji] at hj
      by_cases hki : k = i
      · subst hki
        rw [State.setSession_session_self] at hk
        exact hchecked row' hk hT' j hji row hj hT
      · rw [State.setSession_session_of_ne hki] at hk
        exact h.exclusive j k hjk row row' hj hk hT hT'

/-- Only the readiness check makes a completion count as checked. -/
theorem checkedPlan_stmt {m : Moment} {db : Db} {loc loc' : CompleteLoc} {locks : List Lock}
    {writes : List Write} (h : WorkerStmt m db (.complete loc) locks writes (.complete loc'))
    {row : CompletionRow} (hrow : checkedPlan (.worker (.complete loc')) = some row) :
    checkedPlan (.worker (.complete loc)) = some row ∨ row.tombstoneId = none ∨
      ∃ id, loc = .ready row id := by
  cases h with
  | completeSnapshot hnone => cases hrow; exact Or.inr (Or.inl hnone)
  | incomplete _ => cases hrow; exact Or.inr (Or.inr ⟨_, rfl⟩)
  | ready _ => cases hrow; exact Or.inr (Or.inr ⟨_, rfl⟩)
  | tombstoneMissing _ => exact Or.inl hrow
  | completeTombstone _ _ => exact Or.inl hrow
  | targetKept _ => exact Or.inl hrow
  | completeTarget _ _ _ => exact Or.inl hrow
  | _ => cases hrow

theorem updatedPlan_of_checkedPlan {loc : Loc} {row : CompletionRow}
    (h : checkedPlan loc = some row) : updatedPlan loc = some row := by
  unfold checkedPlan at h
  split at h <;> first | (cases h; rfl) | exact absurd h (by simp)

theorem Inv.stmt {s : State} {i : ℕ} {io : IoResult} {locks : List Lock} {writes : List Write}
    {next : Loc} (h : Inv tombstoneId targetId s) (hok : CompletionsSerialized s (.exec i io))
    (hact : act settings (s.session i).loc (s.moment i) ((machine settings).view s i) s.world io
      = some (.stmt locks writes next)) :
    Inv tombstoneId targetId (Machine.afterStmt s i locks writes next) := by
  obtain ⟨loc, hloc, hlocal⟩ := loc_of_act (h.sessions i) hact
  rw [hloc] at hact
  obtain ⟨n, rfl, hstmt⟩ := act_worker_stmt hact
  obtain ⟨loc', rfl, hlocal'⟩ := local_stmt h.stable hlocal hstmt
  refine h.setSession (σ := ⟨.worker (.complete loc'), (s.session i).log ++ writes,
    some (s.moment i).now⟩) hlocal' (fun row hrow hT j hji row' hrow' hT' => ?_) rfl rfl
  rcases checkedPlan_stmt hstmt hrow with hbefore | hnone | ⟨id, rfl⟩
  · exact h.exclusive i j (Ne.symm hji) row row' (hloc ▸ hbefore) hrow' hT hT'
  · rw [hnone] at hT; cases hT
  · obtain rfl : tombstoneId = id := Option.some.inj (hT.symm.trans hlocal.2.2.2)
    exact hok row tombstoneId hloc j hji row' (updatedPlan_of_checkedPlan hrow') hT'

/-- The commit of a completion. -/
theorem Inv.commit {s : State} {i : ℕ} {io : IoResult} {next : Loc}
    (h : Inv tombstoneId targetId s)
    (hact : act settings (s.session i).loc (s.moment i) ((machine settings).view s i) s.world io
      = some (.commit next)) :
    Inv tombstoneId targetId ((machine settings).afterCommit s i next) := by
  obtain ⟨loc, hloc, hlocal⟩ := loc_of_act (h.sessions i) hact
  rw [hloc] at hact
  obtain ⟨n, rfl, hcommit⟩ := act_worker_commit hact
  cases hcommit with
  | @completed row =>
    obtain ⟨hown, hrow, hverdict⟩ := hlocal
    have hlog : ∀ w ∈ (s.session i).log, IsWrite w := fun w hw => (hown w hw).1
    have hplanWrite : ∀ id fromStatus toStatus,
        .setPlanStatus id fromStatus toStatus ∈ (s.session i).log → id = row.planId :=
      fun id fromStatus toStatus hw => (hown _ hw).2 id fromStatus toStatus rfl
    -- A plan under the tombstone that this log writes makes the log one of the tombstone.
    have hunder : ∀ p ∈ s.db.plans, p.tombstoneId = some tombstoneId →
        ∀ id fromStatus toStatus, .setPlanStatus id fromStatus toStatus ∈ (s.session i).log →
        id = p.planId → row.tombstoneId = some tombstoneId := by
      intro p hp hT id fromStatus toStatus hw hid
      have hrowId := hplanWrite id fromStatus toStatus hw
      rw [← (hrow.2 p hp (hid.symm.trans hrowId)).1]
      exact hT
    refine ⟨h.stable.foldl hlog, fun hall => ?_, fun j => ?_, fun j k hjk r r' hj hk hT => ?_⟩
    · by_cases hT : row.tombstoneId = some tombstoneId
      · rcases hverdict hT with hopen | hdecided
        · have hopen' := hopen.foldl hlog fun p _ _ hne id fromStatus toStatus hw hid =>
            hne (hid.symm.trans (hplanWrite id fromStatus toStatus hw))
          obtain ⟨p, hp, hpT, -, hpopen⟩ := hopen'
          exact absurd (hall p hp hpT) hpopen
        · exact hdecided.foldl h.stable hlog
      · have hbefore : ∀ p ∈ s.db.plans, p.tombstoneId = some tombstoneId →
            p.status = .completed := by
          intro p hp hpT
          by_contra hpopen
          have hopen : OpenBeside tombstoneId s.db row.planId :=
            ⟨p, hp, hpT, fun hid => hT ((hrow.2 p hp hid).1 ▸ hpT), hpopen⟩
          obtain ⟨q, hq, hqT, -, hqopen⟩ :=
            hopen.foldl hlog fun p hp hpT _ id fromStatus toStatus hw hid =>
              hT (hunder p hp hpT id fromStatus toStatus hw hid)
          exact absurd (hall q hq hqT) hqopen
        have hdone := h.completed hbefore
        exact ⟨completed_foldl hlog hdone.1, deleted_foldl hlog hdone.2⟩
    · by_cases hji : j = i
      · subst hji; simp [Machine.afterCommit, SessionOk]
      · have hother := h.sessions j
        have hsame : ((machine settings).afterCommit s i (.worker (.finished .completed))).session j
            = s.session j := State.setSession_session_of_ne hji
        rw [hsame]
        unfold SessionOk at hother ⊢
        split
        · trivial
        · trivial
        · rename_i loc' hloc'
          rw [hloc'] at hother
          refine hother.foldl hlog fun row' hrow' hT' p hp hpT _ id fromStatus toStatus hw hid => ?_
          exact h.exclusive j i hji row' row (hloc' ▸ hrow') (hloc ▸ rfl) hT'
            (hunder p hp hpT id fromStatus toStatus hw hid)
        · split at hother <;> simp_all
    · have hloc_of : ∀ l, l ≠ i → ((machine settings).afterCommit s i
          (.worker (.finished .completed))).session l = s.session l :=
        fun l hl => State.setSession_session_of_ne hl
      have hne : ∀ l r, checkedPlan (((machine settings).afterCommit s i
          (.worker (.finished .completed))).session l).loc = some r → l ≠ i := by
        rintro l r hl rfl
        simp [Machine.afterCommit, checkedPlan] at hl
      rw [hloc_of j (hne j r hj)] at hj
      rw [hloc_of k (hne k r' hk)] at hk
      exact h.exclusive j k hjk r r' hj hk hT

theorem inv_step : ∀ s l s', Inv tombstoneId targetId s → CompletionsSerialized s l →
    (machine settings).step s l = some s' → Inv tombstoneId targetId s' := by
  refine Machine.step_induction ?_ ?_ ?_ ?_ ?_ ?_ ?_ ?_ ?_
  · intro s i proc h hok _
    cases proc with
    | completePlan planId =>
      exact h.setSession (σ := ⟨.worker (.complete (.lock planId)), [], none⟩) rfl
        (fun row hrow => by cases hrow) rfl rfl
    | _ => exact hok.elim
  · intro s i io locks writes next h hok hact _
    exact h.stmt hok hact
  · intro s i io locks writes next h _ hact _
    obtain ⟨loc, hloc, -⟩ := loc_of_act (h.sessions i) hact
    simp only [hloc] at hact
    obtain ⟨n, -, hauto⟩ := act_worker_auto hact
    cases hauto
  · intro s i io next h _ hact
    exact h.commit hact
  · intro s i io next h _ hact
    obtain ⟨loc, hloc, -⟩ := loc_of_act (h.sessions i) hact
    simp only [hloc] at hact
    obtain rfl := act_worker_rollback hact
    exact h.setSession (σ := ⟨.worker (.finished .failed), [], none⟩) trivial
      (fun row hrow => by cases hrow) rfl rfl
  · intro s i io world next h _ hact
    obtain ⟨loc, hloc, -⟩ := loc_of_act (h.sessions i) hact
    simp only [hloc] at hact
    obtain ⟨job, identity, claimId, attemptId, hat, -⟩ := act_worker_call hact
    cases hat
  · intro s i h _
    exact h.setSession (σ := ⟨.idle, [], none⟩) trivial (fun row hrow => by cases hrow) rfl rfl
  · intro s o locks writes h hok
    exact hok.elim
  · intro s n h _
    exact ⟨h.stable, h.completed, h.sessions, h.exclusive⟩

theorem inv_initial {db : Db} (h : Completable db tombstoneId targetId) (storage : Storage)
    (clock fresh : ℕ) : Inv tombstoneId targetId (initial db storage clock fresh) := by
  refine ⟨⟨h.plans_nodup, fun t ht hid => ?_, h.tombstone_exists, Or.inl h.target_deleting,
    h.plans_target⟩, fun hall => ?_, fun _ => trivial, fun i j _ row row' hi => by cases hi⟩
  · have hactive := h.tombstone_active t ht hid
    simp only [Tombstone.isActive, Bool.and_eq_true, Option.isNone_iff_eq_none] at hactive
    exact hactive.1
  · obtain ⟨p, hp, hT, hopen⟩ := h.plans_open
    exact absurd (hall p hp hT) hopen

end Completion

/-- Target completion is not lost while readiness checks see no uncommitted completion. -/
theorem completion_never_lost (settings : Settings) {db : Db} {tombstoneId targetId : Uuid}
    (h : Completable db tombstoneId targetId) (storage : Storage) (clock fresh : ℕ) :
    CompletionNeverLost CompletionsSerialized settings (initial db storage clock fresh)
      tombstoneId targetId := by
  intro s hreach _
  exact (Reach.invariant (Completion.inv_initial h storage clock fresh) Completion.inv_step
    hreach).completed

namespace Sample

/-- A target in deletion with two plans past their stages. -/
def twoPlans : Db :=
  let plan (planId snapshotId : Uuid) : DeletionPlan :=
    { planId, evaluationId := 0, targetId := 1, snapshotId, tombstoneId := some 2
      automatic := true, tombstonedAt := 0, notBefore := 1, estimatedBytes := 0
      status := .replicaDeleting, correlationId := 0 }
  let mirrorRemoved (attemptId planId : Uuid) : StageAttempt :=
    { attemptId, planId, stage := .mirror, claimId := none, ordinal := 0, outcome := .succeeded
      leaseExpiresAt := 0 }
  { targets :=
      [{ targetId := 1, provider := "github", externalRepositoryId := "r", status := .deleting }]
    tombstones :=
      [{ tombstoneId := 2, targetId := 1, governingPolicyRevision := 1, recordedAt := 0
         notBefore := 1 }]
    plans := [plan 3 5, plan 4 6]
    attempts := [mirrorRemoved 7 3, mirrorRemoved 8 4] }

/-- Both completions check for readiness before either commits. -/
def overlappingChecks : List Label :=
  [.start 0 (.completePlan 3), .start 1 (.completePlan 4),
   .exec 0 .ok, .exec 0 .ok, .exec 0 .ok, .exec 0 .ok,
   .exec 1 .ok, .exec 1 .ok, .exec 1 .ok, .exec 1 .ok,
   .exec 0 .ok, .exec 1 .ok]

end Sample

/-- Two overlapping completions each see the other's plan open, and the target stays in deletion
for good. -/
theorem completion_lost_when_checks_overlap :
    ¬ CompletionNeverLost OnlyCompletions Sample.settings
      (initial Sample.twoPlans Sample.storage 10 100) 2 1 := by
  intro h
  obtain ⟨s, hrun, hs⟩ : ∃ s, run (machine Sample.settings).step
      (initial Sample.twoPlans Sample.storage 10 100) Sample.overlappingChecks = some s ∧
      ((s.session 0).loc.isIdle && (s.session 1).loc.isIdle &&
        s.db.plans.all (fun p => p.status == .completed) &&
        s.db.targets.any fun t => t.targetId == 1 && t.status == .deleting) = true :=
    exists_of_run_any (by decide)
  simp only [Bool.and_eq_true, List.all_eq_true, beq_iff_eq, List.any_eq_true] at hs
  obtain ⟨⟨⟨h₀, h₁⟩, hplans⟩, t, ht, hid, hdeleting⟩ := hs
  have hreach : Reach (machine Sample.settings).step OnlyCompletions
      (initial Sample.twoPlans Sample.storage 10 100) s :=
    Reach.of_run hrun (along_of_forall (by simp [Sample.overlappingChecks, OnlyCompletions]) _)
  have hidle : ∀ i, (s.session i).loc.isIdle = true := by
    intro i
    match i with
    | 0 => exact h₀
    | 1 => exact h₁
    | i + 2 =>
      rw [Machine.run_session_of_le hrun (n := 2) (by decide) (by omega)]
      rfl
  have hdone := (h s hreach hidle fun p hp _ => hplans p hp).2 t ht hid
  rw [hdeleting] at hdone
  cases hdone

theorem completion_never_lost_two_plans :
    Completable Sample.twoPlans 2 1 ∧
      CompletionNeverLost CompletionsSerialized Sample.settings
        (initial Sample.twoPlans Sample.storage 10 100) 2 1 := by
  have h : Completable Sample.twoPlans 2 1 := by
    constructor <;> decide
  exact ⟨h, completion_never_lost Sample.settings h Sample.storage 10 100⟩

end RatatoskrVault.Retention
