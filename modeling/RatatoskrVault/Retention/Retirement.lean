import RatatoskrVault.Lib.Sequential
import RatatoskrVault.Retention.Locks
import RatatoskrVault.Schema.Evolution

/-! Retired targets: what has been deleted when a target is marked `deleted`, for operations
executed one after another. -/
namespace RatatoskrVault.Retention

open Lib

/-- The operations on the catalogue; a desired-state transition excludes or requests. -/
def Operation : Label → Prop
  | .start _ (.completePlan _) => False
  | .start _ (.transition request) =>
      request.toStatus = .excluded ∨ request.toStatus = .requested
  | _ => True

def OneAfterAnother (settings : Settings) (s : State) (label : Label) : Prop :=
  (machine settings).Alone s label ∧ Operation label

/-- No deleted target has a snapshot left. -/
def NothingRetained (db : Db) : Prop :=
  ∀ target ∈ db.targets, target.status = .deleted → ∀ snapshot ∈ db.snapshots,
    snapshot.targetId = target.targetId → snapshot.status = .deleted

def IsDeletedIn (db : Db) (targetId : Uuid) : Prop :=
  ∃ target ∈ db.targets, target.targetId = targetId ∧ target.status = .deleted

/-- A step that marks a target `deleted` leaves a completed tombstone of the target with plans,
all of them completed and their snapshots deleted for good. -/
def DeletedWithItsPlans (settings : Settings) (s₀ : State) : Prop :=
  ∀ s label s', Reach (machine settings).step (OneAfterAnother settings) s₀ s →
    OneAfterAnother settings s label → (machine settings).step s label = some s' →
    ∀ targetId, ¬ IsDeletedIn s.db targetId → IsDeletedIn s'.db targetId →
    ∃ tombstone ∈ s'.db.tombstones, tombstone.targetId = targetId ∧
      tombstone.completedAt ≠ none ∧
      (∃ p ∈ s'.db.plans, p.tombstoneId = some tombstone.tombstoneId) ∧
      ∀ p ∈ s'.db.plans, p.tombstoneId = some tombstone.tombstoneId →
        ∀ s'', Reach (machine settings).step (OneAfterAnother settings) s' s'' →
          ∀ snapshot ∈ s''.db.snapshots, snapshot.snapshotId = p.snapshotId →
            snapshot.status = .deleted

/-- Plans have their own ids, name snapshots that exist, and are completed with their snapshots. -/
structure PlansRecorded (db : Db) (fresh : ℕ) : Prop where
  plans_nodup : (db.plans.map (·.planId)).Nodup
  plan_ids : ∀ p ∈ db.plans, p.planId < fresh
  plan_snapshots : ∀ p ∈ db.plans, p.snapshotId < fresh
  snapshot_ids : ∀ t ∈ db.snapshots, t.snapshotId < fresh
  completed : ∀ p ∈ db.plans, p.status = .completed → ∀ t ∈ db.snapshots,
    t.snapshotId = p.snapshotId → t.status = .deleted

namespace Retirement

/-- The completion that has marked its plan and not its snapshot yet. -/
def marking? : Loc → Option Uuid
  | .worker (.complete (.updateSnapshot row)) => some row.snapshotId
  | _ => none

def isCommitting : Loc → Bool
  | .worker (.complete (.commit _)) => true
  | _ => false

/-- The uncommitted writes of the session at `loc`. -/
structure LogOk (db : Db) (fresh : ℕ) (log : List Write) (loc : Loc) : Prop where
  plans : ∀ id f t, .setPlanStatus id f t ∈ log → f ≠ .completed ∧
    (t = .completed → ∀ p ∈ db.plans, p.planId = id →
      .setSnapshotDeleted p.snapshotId ∈ log ∨ marking? loc = some p.snapshotId)
  targets : ∀ id f, .setTargetStatus id f .deleted ∈ log → isCommitting loc = true ∧
    (db.applyAll log).hasTerminalTombstone id = true
  snapshots : ∀ row, .insertSnapshot row ∈ log → row.snapshotId < fresh ∧
    ∀ p ∈ db.plans, p.snapshotId ≠ row.snapshotId
  no_plan : ∀ row, .insertPlan row ∉ log
  no_target : ∀ row, .insertTarget row ∉ log

def RowOk (db : Db) (row : CompletionRow) : Prop :=
  ∀ p ∈ db.plans, p.planId = row.planId → p.snapshotId = row.snapshotId

def LocOk (db : Db) : Loc → Prop
  | .worker (.complete (.updatePlan row)) => RowOk db row
  | .worker (.complete (.updateSnapshot row)) => RowOk db row
  | .transition request _ => request.toStatus = .excluded ∨ request.toStatus = .requested
  | _ => True

def SessionOk (db : Db) (_ : Storage) (fresh : ℕ) (log : List Write) (loc : Loc) : Prop :=
  loc.isIdle = false → LogOk db fresh log loc ∧ LocOk db loc ∧ (loc.atRest = true → log = [])

theorem logOk_nil {db : Db} {fresh : ℕ} {loc : Loc} : LogOk db fresh [] loc := by
  constructor <;> simp

section Commit

variable {db : Db} {fresh : ℕ} {log : List Write} {loc : Loc}

theorem plansRecorded_mono {fresh' : ℕ} (h : PlansRecorded db fresh) (hle : fresh ≤ fresh') :
    PlansRecorded db fresh' :=
  { h with
    plan_ids := fun p hp => Nat.lt_of_lt_of_le (h.plan_ids p hp) hle
    plan_snapshots := fun p hp => Nat.lt_of_lt_of_le (h.plan_snapshots p hp) hle
    snapshot_ids := fun t ht => Nat.lt_of_lt_of_le (h.snapshot_ids t ht) hle }

/-- A plan after the commit was there before; if it is completed now, it was or its snapshot is
deleted with it. -/
theorem LogOk.of_mem_plans (h : LogOk db fresh log loc) (hmarking : marking? loc = none)
    {p' : DeletionPlan} (hp' : p' ∈ (db.applyAll log).plans) :
    ∃ p ∈ db.plans, p.SameAs p' ∧ (p'.status = .completed → p.status = .completed ∨
      .setSnapshotDeleted p.snapshotId ∈ log) := by
  obtain ⟨p, hp, hsame, hmoved⟩ := Db.of_mem_plans_applyAll
    (R := fun id a b => b = .completed → a = .completed ∨
      ∀ p ∈ db.plans, p.planId = id → .setSnapshotDeleted p.snapshotId ∈ log)
    (fun _ _ hb => Or.inl hb)
    (fun id a b c hab hbc hc => (hbc hc).elim hab Or.inr)
    (fun id f t hw ht => Or.inr fun p hp hid => by
      rcases (h.plans id f t hw).2 ht p hp hid with hdeleted | hpending
      · exact hdeleted
      · rw [hmarking] at hpending
        cases hpending) hp'
  have hmem : p ∈ db.plans := hp.resolve_right (h.no_plan p)
  exact ⟨p, hmem, hsame, fun hdone => (hmoved hdone).imp_right fun hall => hall p hmem rfl⟩

/-- The snapshot a log deletes is deleted after it. -/
theorem LogOk.deleted (h : LogOk db fresh log loc) {p : DeletionPlan} (hp : p ∈ db.plans)
    (hw : .setSnapshotDeleted p.snapshotId ∈ log) :
    ∀ t ∈ (db.applyAll log).snapshots, t.snapshotId = p.snapshotId → t.status = .deleted := by
  refine foldl_establish hw (I := fun _ : Db => True)
    (P := fun d : Db => ∀ t ∈ d.snapshots, t.snapshotId = p.snapshotId → t.status = .deleted)
    (fun _ _ _ _ => trivial) (fun d _ t ht hid => ?_) (fun d w hmem _ hd => ?_) trivial
  · obtain ⟨t₀, -, ⟨-, rfl⟩ | ⟨hsel, rfl⟩⟩ := of_mem_updateWhere ht
    · rfl
    · simp [hid] at hsel
  · cases w with
    | insertSnapshot row =>
      intro t ht hid
      rcases List.mem_append.mp ht with hold | hnew
      · exact hd t hold hid
      · rw [List.mem_singleton.mp hnew] at hid
        exact absurd hid.symm ((h.snapshots row hmem).2 p hp)
    | setSnapshotDeleted id => exact forall_updateWhere hd fun _ _ _ _ _ => rfl
    | _ => exact hd

theorem plansRecorded_commit (hdb : PlansRecorded db fresh) (h : LogOk db fresh log loc)
    (hmarking : marking? loc = none) : PlansRecorded (db.applyAll log) fresh := by
  have hplan : ∀ p' ∈ (db.applyAll log).plans, ∃ p ∈ db.plans, p.SameAs p' := fun p' hp' =>
    (h.of_mem_plans hmarking hp').imp fun p ⟨hp, hsame, _⟩ => ⟨hp, hsame⟩
  refine ⟨?_, fun p' hp' => ?_, fun p' hp' => ?_, fun t' ht' => ?_, fun p' hp' hdone t' ht' hid => ?_⟩
  · rw [Db.planIds_applyAll h.no_plan]
    exact hdb.plans_nodup
  · obtain ⟨p, hp, hsame⟩ := hplan p' hp'
    rw [hsame.planId]
    exact hdb.plan_ids p hp
  · obtain ⟨p, hp, hsame⟩ := hplan p' hp'
    rw [hsame.snapshotId]
    exact hdb.plan_snapshots p hp
  · obtain ⟨t, ht, hcase⟩ := Db.of_mem_snapshots_applyAll ht'
    have hid : t'.snapshotId = t.snapshotId := by
      rcases hcase with rfl | ⟨rfl, -⟩ <;> rfl
    rw [hid]
    rcases ht with ht | ht
    · exact hdb.snapshot_ids t ht
    · exact (h.snapshots t ht).1
  · obtain ⟨p, hp, hsame, hcase⟩ := h.of_mem_plans hmarking hp'
    rw [hsame.snapshotId] at hid
    rcases hcase hdone with hold | hdeleted
    · obtain ⟨t, ht, hstatus⟩ := Db.of_mem_snapshots_applyAll ht'
      rcases hstatus with rfl | ⟨rfl, -⟩
      · rcases ht with ht | ht
        · exact hdb.completed p hp hold t' ht hid
        · exact absurd hid.symm ((h.snapshots t' ht).2 p hp)
      · rfl
    · exact h.deleted hp hdeleted t' ht' hid

/-- A completed plan stays. -/
theorem LogOk.mem_plans (h : LogOk db fresh log loc) {p : DeletionPlan} (hp : p ∈ db.plans)
    (hdone : p.status = .completed) : p ∈ (db.applyAll log).plans := by
  refine foldl_invariant (I := fun d : Db => p ∈ d.plans) (fun d w hw hd => ?_) hp
  cases w with
  | insertPlan row => exact absurd hw (h.no_plan row)
  | setPlanStatus id f t =>
    have hne : f ≠ .completed := (h.plans id f t hw).1
    have hmem := mem_updateWhere_of_mem (p := fun q : DeletionPlan => q.planId == id &&
      q.status == f) (f := fun q => { q with status := t }) hd
    simpa [Db.apply, hdone, hne.symm] using hmem
  | _ => exact hd

/-- A target that a log turns `deleted` has its terminal tombstone after it. -/
theorem LogOk.terminal (h : LogOk db fresh log loc) {targetId : Uuid}
    (hbefore : ¬ IsDeletedIn db targetId) (hafter : IsDeletedIn (db.applyAll log) targetId) :
    (db.applyAll log).hasTerminalTombstone targetId = true := by
  by_contra hnot
  have hnone : ∀ f, .setTargetStatus targetId f .deleted ∉ log := fun f hw =>
    hnot (h.targets targetId f hw).2
  refine absurd hafter ?_
  refine foldl_invariant (I := fun d : Db => ¬ IsDeletedIn d targetId) (fun d w hw hd => ?_) hbefore
  cases w with
  | insertTarget row => exact absurd hw (h.no_target row)
  | setTargetStatus id f t =>
    rintro ⟨target, hmem, hid, hdeleted⟩
    obtain ⟨t₀, ht₀, ⟨hsel, rfl⟩ | ⟨-, rfl⟩⟩ := of_mem_updateWhere hmem
    · simp only [Bool.and_eq_true, beq_iff_eq] at hsel
      have hsame : id = targetId := hsel.1.symm.trans hid
      have htarget : t = .deleted := hdeleted
      rw [hsame, htarget] at hw
      exact hnone f hw
    · exact hd ⟨target, ht₀, hid, hdeleted⟩
  | _ => exact hd

end Commit

section Statements

variable {db : Db} {fresh fresh' : ℕ} {log writes : List Write} {loc loc' : Loc} {m : Moment}
  {locks : List Lock}

theorem LogOk.append (h : LogOk db fresh log loc) (hle : fresh ≤ fresh')
    (hcommitting : isCommitting loc = false)
    (hmarking : ∀ id, marking? loc = some id →
      .setSnapshotDeleted id ∈ writes ∨ marking? loc' = some id)
    (hplans : ∀ id f t, .setPlanStatus id f t ∈ writes → f ≠ .completed ∧
      (t = .completed → ∀ p ∈ db.plans, p.planId = id → marking? loc' = some p.snapshotId))
    (htargets : ∀ id f, .setTargetStatus id f .deleted ∈ writes → isCommitting loc' = true ∧
      (db.applyAll (log ++ writes)).hasTerminalTombstone id = true)
    (hsnapshots : ∀ row, .insertSnapshot row ∈ writes → row.snapshotId < fresh' ∧
      ∀ p ∈ db.plans, p.snapshotId ≠ row.snapshotId)
    (hplan : ∀ row, .insertPlan row ∉ writes) (htarget : ∀ row, .insertTarget row ∉ writes) :
    LogOk db fresh' (log ++ writes) loc' := by
  refine ⟨fun id f t hw => ?_, fun id f hw => ?_, fun row hw => ?_, fun row hw => ?_,
    fun row hw => ?_⟩ <;> rcases List.mem_append.mp hw with hold | hnew
  · refine ⟨(h.plans id f t hold).1, fun ht p hp hid => ?_⟩
    rcases (h.plans id f t hold).2 ht p hp hid with hdeleted | hpending
    · exact Or.inl (List.mem_append_left _ hdeleted)
    · exact (hmarking _ hpending).imp_left (List.mem_append_right _)
  · refine ⟨(hplans id f t hnew).1, fun ht p hp hid => Or.inr ((hplans id f t hnew).2 ht p hp hid)⟩
  · have hnot := (h.targets id f hold).1
    rw [hcommitting] at hnot
    cases hnot
  · exact htargets id f hnew
  · exact ⟨Nat.lt_of_lt_of_le (h.snapshots row hold).1 hle, (h.snapshots row hold).2⟩
  · exact hsnapshots row hnew
  · exact h.no_plan row hold
  · exact hplan row hnew
  · exact h.no_target row hold
  · exact htarget row hnew

/-- Writes that complete no plan, delete no target and insert no plan, snapshot or target. -/
def Plain : Write → Prop
  | .setPlanStatus _ f t => f ≠ .completed ∧ t ≠ .completed
  | .setTargetStatus _ _ t => t ≠ .deleted
  | .insertSnapshot _ => False
  | .insertPlan _ => False
  | .insertTarget _ => False
  | _ => True

theorem LogOk.plain (h : LogOk db fresh log loc) (hle : fresh ≤ fresh')
    (hcommitting : isCommitting loc = false)
    (hmarking : ∀ id, marking? loc = some id →
      .setSnapshotDeleted id ∈ writes ∨ marking? loc' = some id)
    (hwrites : ∀ w ∈ writes, Plain w) : LogOk db fresh' (log ++ writes) loc' :=
  h.append hle hcommitting hmarking
    (fun _ _ _ hw => ⟨(hwrites _ hw).1, fun ht => absurd ht (hwrites _ hw).2⟩)
    (fun _ _ hw => absurd rfl (hwrites _ hw)) (fun _ hw => (hwrites _ hw).elim)
    (fun _ hw => hwrites _ hw) (fun _ hw => hwrites _ hw)

theorem logOk_plain (hwrites : ∀ w ∈ writes, Plain w) : LogOk db fresh writes .idle :=
  (logOk_nil : LogOk db fresh [] .idle).plain (Nat.le_refl _) rfl (fun _ hm => by cases hm) hwrites

theorem worker_stmt {at_ n : WorkerLoc} (hdb : PlansRecorded db fresh)
    (hlog : LogOk db fresh log (.worker at_)) (hloc : LocOk db (.worker at_))
    (hrest : at_.atRest = true → log = [])
    (hstmt : WorkerStmt m (db.applyAll log) at_ locks writes n) :
    LogOk db (fresh + 1) (log ++ writes) (.worker n) ∧ LocOk db (.worker n) := by
  have hplain : isCommitting (.worker at_) = false →
      (∀ id, marking? (.worker at_) = some id →
        .setSnapshotDeleted id ∈ writes ∨ marking? (.worker n) = some id) →
      (∀ w ∈ writes, Plain w) → LocOk db (.worker n) →
      LogOk db (fresh + 1) (log ++ writes) (.worker n) ∧ LocOk db (.worker n) :=
    fun hc hmark hw hn => ⟨hlog.plain (Nat.le_succ _) hc hmark hw, hn⟩
  cases hstmt with
  | abandonStage =>
    refine hplain rfl (fun _ hm => by cases hm) (fun w hw => ?_) trivial
    obtain ⟨a, -, rfl⟩ := List.mem_map.mp hw
    trivial
  | abandonClaims =>
    refine hplain rfl (fun _ hm => by cases hm) (fun w hw => ?_) trivial
    obtain ⟨c, -, rfl⟩ := List.mem_map.mp hw
    trivial
  | @completeLock planId plan hplan =>
    have hnil : log = [] := hrest rfl
    subst hnil
    refine hplain rfl (fun _ hm => by cases hm) (by simp) fun p hp hid => ?_
    have hmem : plan ∈ db.plans := List.mem_of_find?_eq_some hplan
    have hplanId : plan.planId = planId := by simpa using List.find?_some hplan
    have hsame : p = plan :=
      List.inj_on_of_nodup_map hdb.plans_nodup hp hmem (hid.trans hplanId.symm)
    rw [hsame]
  | @completePlan row plan hplan hstatus hguard =>
    refine ⟨hlog.append (Nat.le_succ _) rfl (fun _ hm => by cases hm) (fun id f t hw => ?_)
      (by simp) (by simp) (by simp) (by simp), hloc⟩
    simp only [List.mem_singleton, Write.setPlanStatus.injEq] at hw
    obtain ⟨rfl, rfl, rfl⟩ := hw
    refine ⟨by simp, fun _ p hp hid => ?_⟩
    have hrow : p.snapshotId = row.snapshotId := hloc p hp hid
    rw [hrow]
    rfl
  | completeSnapshot =>
    exact hplain rfl (fun id hm => Or.inl (by cases hm; simp)) (by simp [Plain]) trivial
  | completeSnapshotUnder =>
    exact hplain rfl (fun id hm => Or.inl (by cases hm; simp)) (by simp [Plain]) trivial
  | @completeTarget row tombstoneId target htarget hstatus hguard =>
    have hid : target.targetId = row.targetId := by simpa using List.find?_some htarget
    refine ⟨hlog.append (Nat.le_succ _) rfl (fun _ hm => by cases hm) (by simp)
      (fun id f hw => ⟨rfl, ?_⟩) (by simp) (by simp) (by simp), trivial⟩
    simp only [List.mem_singleton, Write.setTargetStatus.injEq] at hw
    obtain ⟨rfl, -⟩ := hw
    rw [Db.applyAll_append, ← hid]
    exact hguard
  | _ => exact hplain rfl (fun _ hm => by cases hm) (by simp [Plain]) trivial

theorem capture_stmt {at_ n : CaptureLoc} (hdb : PlansRecorded db fresh) (hfresh : m.fresh = fresh)
    (hlog : LogOk db fresh log (.capture at_))
    (hstmt : CaptureStmt m (db.applyAll log) at_ locks writes n) :
    LogOk db (fresh + 1) (log ++ writes) (.capture n) := by
  have hplain : (∀ w ∈ writes, Plain w) → LogOk db (fresh + 1) (log ++ writes) (.capture n) :=
    hlog.plain (Nat.le_succ _) rfl fun _ hm => by cases hm
  cases hstmt with
  | @insertSnapshot built row hid =>
    refine hlog.append (Nat.le_succ _) rfl (fun _ hm => by cases hm) (by simp) (by simp)
      (fun row' hw => ?_) (by simp) (by simp)
    simp only [List.mem_singleton, Write.insertSnapshot.injEq] at hw
    rw [hw, hid, hfresh]
    exact ⟨Nat.lt_succ_self _, fun p hp => Nat.ne_of_lt (hdb.plan_snapshots p hp)⟩
  | _ => exact hplain (by simp [Plain])

theorem transition_stmt {request : TransitionRequest} {at_ n : TransitionLoc}
    (hlog : LogOk db fresh log (.transition request at_))
    (hloc : LocOk db (.transition request at_))
    (hstmt : TransitionStmt request m (db.applyAll log) at_ locks writes n) :
    LogOk db (fresh + 1) (log ++ writes) (.transition request n) := by
  have hplain : (∀ w ∈ writes, Plain w) →
      LogOk db (fresh + 1) (log ++ writes) (.transition request n) :=
    hlog.plain (Nat.le_succ _) rfl fun _ hm => by cases hm
  cases hstmt with
  | cancelPlans =>
    refine hplain fun w hw => ?_
    obtain ⟨p, -, rfl⟩ := List.mem_map.mp hw
    exact ⟨by simp, by simp⟩
  | updateTarget =>
    refine hplain fun w hw => ?_
    rw [List.mem_singleton.mp hw]
    have hstatus : request.toStatus = .excluded ∨ request.toStatus = .requested := hloc
    rcases hstatus with hstatus | hstatus <;> simp [Plain, hstatus]
  | _ => exact hplain (by simp [Plain])

end Statements

section Steps

variable {settings : Settings} {db : Db} {fresh : ℕ} {log writes : List Write} {m : Moment}
  {storage : Storage} {io : IoResult}

theorem locOk_next {plan : DeletionExecutionPlan} {tasks : List Task} :
    LocOk db (.worker (WorkerLoc.next plan tasks)) := by
  match tasks with
  | [] => trivial
  | .stage unit :: rest => trivial
  | .advance :: rest => trivial
  | .complete :: rest => trivial

theorem locOk_commit {at_ n : WorkerLoc} (h : WorkerCommit at_ n) : LocOk db (.worker n) := by
  cases h with
  | shared => exact locOk_next
  | recorded => exact locOk_next
  | _ => trivial

theorem locOk_auto {view : Db} {at_ n : WorkerLoc} {locks : List Lock}
    (h : WorkerAuto m view at_ locks writes n) : LocOk db (.worker n) := by
  cases h <;> first | trivial | exact locOk_next

/-- Outside a transaction a session has only its place. -/
theorem sessionOk_rest {loc : Loc} (h : LocOk db loc) : SessionOk db storage fresh [] loc :=
  fun _ => ⟨logOk_nil, h, fun _ => rfl⟩

theorem sessionOk_idle {loc : Loc} (h : loc.isIdle = true) :
    SessionOk db storage fresh log loc := by
  intro hbusy
  rw [h] at hbusy
  cases hbusy

theorem marking_of_commit {loc next : Loc}
    (h : act settings loc m db storage io = some (.commit next)) : marking? loc = none := by
  cases loc with
  | worker at_ =>
    obtain ⟨n, -, hcommit⟩ := act_worker_commit h
    cases hcommit <;> rfl
  | _ => rfl

theorem plain_auto {view : Db} {at_ n : WorkerLoc} {locks : List Lock}
    (h : WorkerAuto m view at_ locks writes n) : ∀ w ∈ writes, Plain w := by
  cases h <;> simp [Plain]

/-- Plans are created planned, for a snapshot that exists. -/
theorem plansRecorded_operate {o : Op} {locks : List Lock} (hdb : PlansRecorded db fresh)
    (hm : m.fresh = fresh) (h : operate db m o = some (locks, writes)) :
    PlansRecorded (db.applyAll writes) (fresh + 1) := by
  have hdb' := plansRecorded_mono hdb (Nat.le_succ fresh)
  cases o with
  | createDeletionPlan request =>
    simp only [operate, createDeletionPlan] at h
    split_ifs at h with _ hsnapshot
    · cases h
      exact hdb'
    · cases h
      obtain ⟨t, ht, hid⟩ : ∃ t ∈ db.snapshots, t.snapshotId = request.snapshotId ∧
          t.targetId = request.targetId := by simpa using hsnapshot
      refine ⟨?_, fun p hp => ?_, fun p hp => ?_, hdb'.snapshot_ids, fun p hp hdone => ?_⟩
      · have hnot : m.fresh ∉ db.plans.map (·.planId) := by
          rintro hmem
          obtain ⟨p, hp, hpid⟩ := List.mem_map.mp hmem
          exact absurd (hdb.plan_ids p hp) (by rw [hpid, hm]; exact Nat.lt_irrefl _)
        simp only [Db.applyAll, List.foldl_cons, List.foldl_nil, Db.apply, List.map_append,
          List.map_cons, List.map_nil]
        exact List.Nodup.append hdb.plans_nodup (List.nodup_singleton _)
          (by simpa [List.disjoint_singleton] using hnot)
      · rcases List.mem_append.mp hp with hold | hnew
        · exact hdb'.plan_ids p hold
        · rw [List.mem_singleton.mp hnew, hm]
          exact Nat.lt_succ_self _
      · rcases List.mem_append.mp hp with hold | hnew
        · exact hdb'.plan_snapshots p hold
        · rw [List.mem_singleton.mp hnew, ← hid.1]
          exact hdb'.snapshot_ids t ht
      · rcases List.mem_append.mp hp with hold | hnew
        · exact hdb.completed p hold hdone
        · rw [List.mem_singleton.mp hnew] at hdone
          cases hdone
  | pinSnapshot snapshotId source sourceReference =>
    simp only [operate] at h
    split_ifs at h <;> cases h <;>
      exact ⟨hdb'.plans_nodup, hdb'.plan_ids, hdb'.plan_snapshots, hdb'.snapshot_ids,
        hdb'.completed⟩
  | revokeSnapshotPin pinId =>
    simp only [operate] at h
    split at h <;> cases h
    exact ⟨hdb'.plans_nodup, hdb'.plan_ids, hdb'.plan_snapshots, hdb'.snapshot_ids,
      hdb'.completed⟩

def Inv : State → Prop := Machine.Serial (fun db _ fresh => PlansRecorded db fresh) SessionOk

theorem inv_step :
    ∀ s l s', Inv s → OneAfterAnother settings s l → (machine settings).step s l = some s' →
      Inv s' := by
  refine Machine.Serial.step (fun _ _ hok => hok.1) (fun _ _ _ _ _ hidle => sessionOk_idle hidle)
    rfl ?_ ?_ ?_ ?_ ?_ ?_ ?_
  · intro s i proc hG hok
    cases proc with
    | transition request => exact sessionOk_rest hok.2
    | completePlan planId => exact hok.2.elim
    | _ => exact sessionOk_rest trivial
  · intro s i io locks writes next hG _ hS hact
    change act settings (s.session i).loc (s.moment i) _ s.world io = _ at hact
    obtain ⟨hlog, hplace, hrest⟩ := hS (busy_of_act hact)
    refine ⟨plansRecorded_mono hG (Nat.le_succ _), fun _ => ?_⟩
    have hnot : next.atRest = true → (s.session i).log ++ writes = [] := fun hat => by
      have hopen : next.atRest = false := respects.rest hact
      rw [hopen] at hat
      cases hat
    cases hloc : (s.session i).loc with
    | idle => rw [hloc] at hact; cases hact
    | worker at_ =>
      rw [hloc] at hact hlog hplace hrest
      obtain ⟨n, rfl, hstmt⟩ := act_worker_stmt hact
      obtain ⟨hlog', hplace'⟩ := worker_stmt hG hlog hplace hrest hstmt
      exact ⟨hlog', hplace', hnot⟩
    | capture at_ =>
      rw [hloc] at hact hlog
      obtain ⟨n, rfl, hstmt⟩ := act_capture_stmt hact
      exact ⟨capture_stmt hG rfl hlog hstmt, trivial, hnot⟩
    | transition request at_ =>
      rw [hloc] at hact hlog hplace
      obtain ⟨n, rfl, hstmt⟩ := act_transition_stmt hact
      exact ⟨transition_stmt hlog hplace hstmt, hplace, hnot⟩
  · intro s i io locks writes next hG _ hS hact
    change act settings (s.session i).loc (s.moment i) _ s.world io = _ at hact
    cases hloc : (s.session i).loc with
    | idle => rw [hloc] at hact; cases hact
    | worker at_ =>
      rw [hloc] at hact
      obtain ⟨n, rfl, hauto⟩ := act_worker_auto hact
      exact ⟨plansRecorded_commit (plansRecorded_mono hG (Nat.le_succ _))
        (logOk_plain (plain_auto hauto)) rfl, sessionOk_rest (locOk_auto hauto)⟩
    | capture at_ =>
      rw [hloc] at hact
      obtain ⟨n, rfl, -, rfl, -⟩ := act_capture_auto hact
      exact ⟨plansRecorded_mono hG (Nat.le_succ _), sessionOk_rest trivial⟩
    | transition request at_ =>
      rw [hloc] at hact
      obtain ⟨n, hn, -⟩ := map_eq_auto hact
      exact absurd hn applyTransition_ne_auto
  · intro s i io next hG _ hS hact
    obtain ⟨hlog, hplace, -⟩ := hS (busy_of_act hact)
    refine ⟨plansRecorded_commit hG hlog (marking_of_commit hact), ?_⟩
    change act settings (s.session i).loc (s.moment i) _ s.world io = _ at hact
    cases hloc : (s.session i).loc with
    | idle => rw [hloc] at hact; cases hact
    | worker at_ =>
      rw [hloc] at hact
      obtain ⟨n, rfl, hcommit⟩ := act_worker_commit hact
      exact sessionOk_rest (locOk_commit hcommit)
    | capture at_ =>
      rw [hloc] at hact
      obtain ⟨_, _, -, rfl⟩ := act_capture_commit hact
      exact sessionOk_rest trivial
    | transition request at_ =>
      rw [hloc] at hact hplace
      obtain ⟨-, rfl⟩ := act_transition_commit hact
      exact sessionOk_rest hplace
  · intro s i io next hG _ hS hact
    obtain ⟨-, hplace, -⟩ := hS (busy_of_act hact)
    change act settings (s.session i).loc (s.moment i) _ s.world io = _ at hact
    cases hloc : (s.session i).loc with
    | idle => rw [hloc] at hact; cases hact
    | worker at_ =>
      rw [hloc] at hact
      obtain rfl := act_worker_rollback hact
      exact sessionOk_rest trivial
    | capture at_ =>
      rw [hloc] at hact
      obtain rfl := act_capture_rollback hact
      exact sessionOk_rest trivial
    | transition request at_ =>
      rw [hloc] at hact hplace
      obtain ⟨e, rfl⟩ := act_transition_rollback hact
      exact sessionOk_rest hplace
  · intro s i io world next hG _ hS hact
    change act settings (s.session i).loc (s.moment i) _ s.world io = _ at hact
    refine ⟨plansRecorded_mono hG (Nat.le_succ _), ?_⟩
    cases hloc : (s.session i).loc with
    | idle => rw [hloc] at hact; cases hact
    | worker at_ =>
      rw [hloc] at hact
      obtain ⟨_, _, _, _, -, -, rfl⟩ := act_worker_call hact
      exact sessionOk_rest trivial
    | capture at_ =>
      rw [hloc] at hact
      obtain ⟨_, _, _, -, -, rfl⟩ := act_capture_call hact
      exact sessionOk_rest trivial
    | transition request at_ =>
      rw [hloc] at hact
      obtain ⟨n, hn, -⟩ := map_eq_call hact
      exact absurd hn applyTransition_ne_call
  · intro s o locks writes hG _ hop
    exact plansRecorded_operate hG rfl hop

/-- What a step commits: a log of a session, or plans and pins. -/
theorem step_writes {s s' : State} {l : Label} (h : Inv s)
    (hstep : (machine settings).step s l = some s') :
    (∃ writes loc, LogOk s.db (s.fresh + 1) writes loc ∧ s'.db = s.db.applyAll writes) ∨
      (s'.db.targets = s.db.targets ∧ ∀ p ∈ s.db.plans, p ∈ s'.db.plans) := by
  have hmono : ∀ {log loc}, LogOk s.db s.fresh log loc → LogOk s.db (s.fresh + 1) log loc :=
    fun hlog => { hlog with
      snapshots := fun row hw =>
        ⟨Nat.lt_succ_of_lt (hlog.snapshots row hw).1, (hlog.snapshots row hw).2⟩ }
  rcases Machine.step_db hstep with hsame | ⟨i, io, locks, writes, next, -, hact, hdb⟩ |
    ⟨i, io, next, -, hact, hdb⟩ | ⟨o, locks, writes, -, hop, hdb⟩
  · exact Or.inl ⟨[], .idle, logOk_nil, hsame⟩
  · left
    refine ⟨writes, .idle, logOk_plain ?_, hdb⟩
    change act settings (s.session i).loc (s.moment i) _ s.world io = _ at hact
    cases hloc : (s.session i).loc with
    | idle => rw [hloc] at hact; cases hact
    | worker at_ =>
      rw [hloc] at hact
      obtain ⟨n, -, hauto⟩ := act_worker_auto hact
      exact plain_auto hauto
    | capture at_ =>
      rw [hloc] at hact
      obtain ⟨n, -, -, rfl, -⟩ := act_capture_auto hact
      simp
    | transition request at_ =>
      rw [hloc] at hact
      obtain ⟨n, hn, -⟩ := map_eq_auto hact
      exact absurd hn applyTransition_ne_auto
  · exact Or.inl ⟨_, _, hmono (h.sessions i (busy_of_act hact)).1, hdb⟩
  · right
    rw [hdb]
    cases o with
    | createDeletionPlan request =>
      simp only [operate, createDeletionPlan] at hop
      split_ifs at hop <;> cases hop
      · exact ⟨rfl, fun _ hp => hp⟩
      · exact ⟨rfl, fun _ hp => List.mem_append_left _ hp⟩
    | pinSnapshot snapshotId source sourceReference =>
      simp only [operate] at hop
      split_ifs at hop <;> cases hop <;> exact ⟨rfl, fun _ hp => hp⟩
    | revokeSnapshotPin pinId =>
      simp only [operate] at hop
      split at hop <;> cases hop
      exact ⟨rfl, fun _ hp => hp⟩

end Steps

theorem inv_initial {db : Db} {fresh : ℕ} (h : PlansRecorded db fresh) (storage : Storage)
    (clock : ℕ) : Inv (initial db storage clock fresh) :=
  ⟨h, fun _ => sessionOk_idle rfl⟩

/-- A completed plan is still there, with its snapshot deleted, in every later state. -/
theorem deleted_later {settings : Settings} {s s' : State} {p : DeletionPlan} (h : Inv s)
    (hp : p ∈ s.db.plans) (hdone : p.status = .completed)
    (hreach : Reach (machine settings).step (OneAfterAnother settings) s s') :
    ∀ snapshot ∈ s'.db.snapshots, snapshot.snapshotId = p.snapshotId →
      snapshot.status = .deleted := by
  obtain ⟨hinv, hmem⟩ := Reach.invariant (I := fun y => Inv y ∧ p ∈ y.db.plans) ⟨h, hp⟩
    (fun x l y hx hok hstep => ⟨inv_step x l y hx.1 hok hstep, by
      rcases step_writes hx.1 hstep with ⟨writes, loc, hlog, hdb⟩ | ⟨-, hplans⟩
      · rw [hdb]
        exact hlog.mem_plans hx.2 hdone
      · exact hplans p hx.2⟩) hreach
  exact hinv.shared.completed p hmem hdone

end Retirement

/-- A target is `deleted` only once everything planned under its tombstone is deleted for good. -/
theorem deleted_with_its_plans (settings : Settings) {db : Db} {fresh : ℕ}
    (h : PlansRecorded db fresh) (storage : Storage) (clock : ℕ) :
    DeletedWithItsPlans settings (initial db storage clock fresh) := by
  intro s l s' hreach hok hstep targetId hbefore hafter
  have hinv : Retirement.Inv s :=
    Reach.invariant (Retirement.inv_initial h storage clock) Retirement.inv_step hreach
  have hinv' : Retirement.Inv s' := Retirement.inv_step s l s' hinv hok hstep
  have hterminal : s'.db.hasTerminalTombstone targetId = true := by
    rcases Retirement.step_writes hinv hstep with ⟨writes, loc, hlog, hdb⟩ | ⟨htargets, -⟩
    · rw [hdb] at hafter ⊢
      exact hlog.terminal hbefore hafter
    · refine absurd ?_ hbefore
      unfold IsDeletedIn at hafter ⊢
      rwa [htargets] at hafter
  obtain ⟨tombstone, hmem, hprop⟩ := List.any_eq_true.mp hterminal
  simp only [Bool.and_eq_true, beq_iff_eq, Bool.not_eq_true', List.isEmpty_eq_false_iff_exists_mem,
    List.all_eq_true, Option.isSome_iff_ne_none] at hprop
  obtain ⟨⟨⟨htarget, hcompleted⟩, p₀, hp₀⟩, hall⟩ := hprop
  simp only [Db.plansUnder, List.mem_filter, beq_iff_eq] at hp₀ hall
  exact ⟨tombstone, hmem, htarget, hcompleted, ⟨p₀, hp₀.1, hp₀.2⟩, fun p hp hunder s'' hlater =>
    Retirement.deleted_later hinv' hp (hall p ⟨hp, hunder⟩) hlater⟩

namespace Sample

/-- The target is excluded, one of its two snapshots is planned, and the plan runs. -/
def retiredWithOnePlan : List Label :=
  .start 0 (exclude 1) :: List.replicate 7 (.exec 0 .ok) ++
    [.op (.createDeletionPlan (planRequest 4 103 true)), .tick graceSeconds,
      .start 0 (.runPlan 106)] ++ List.replicate 46 (.exec 0 .ok)

end Sample

/-- The target is `deleted` and its other snapshot, which no plan names, is retained. -/
theorem retained_without_plan :
    ¬ ∀ s, Reach (machine Sample.settings).step (OneAfterAnother Sample.settings)
      (initial Sample.twoSnapshots Sample.storage 10 100) s → NothingRetained s.db := by
  intro h
  obtain ⟨s, hrun, hs⟩ : ∃ s, run (machine Sample.settings).step
      (initial Sample.twoSnapshots Sample.storage 10 100) Sample.retiredWithOnePlan = some s ∧
      (s.db.targets.any (fun t => t.targetId == 1 && t.status == .deleted) &&
        s.db.snapshots.any (fun t => t.targetId == 1 && t.status == .built)) = true :=
    exists_of_run_any (by decide +kernel)
  simp only [Bool.and_eq_true, List.any_eq_true, beq_iff_eq] at hs
  obtain ⟨⟨target, htarget, hid, hdeleted⟩, snapshot, hsnapshot, hof, hbuilt⟩ := hs
  have hreach : Reach (machine Sample.settings).step (OneAfterAnother Sample.settings)
      (initial Sample.twoSnapshots Sample.storage 10 100) s := by
    refine Reach.of_run hrun (Along.and (Machine.along_alone (n := 1) (fun _ _ => rfl) (by decide)
      (by decide +kernel)) (along_of_forall (fun l hl _ => ?_) _))
    simp only [Sample.retiredWithOnePlan, List.mem_append, List.mem_cons, List.mem_replicate,
      List.not_mem_nil, or_false] at hl
    rcases hl with ((rfl | ⟨-, rfl⟩) | rfl | rfl | rfl) | ⟨-, rfl⟩ <;>
      simp [Operation, Sample.exclude]
  have hstatus := h s hreach target htarget hdeleted snapshot hsnapshot (hof.trans hid.symm)
  rw [hbuilt] at hstatus
  cases hstatus

theorem deleted_with_its_plans_two_snapshots :
    PlansRecorded Sample.twoSnapshots 100 ∧
      DeletedWithItsPlans Sample.settings
        (initial Sample.twoSnapshots Sample.storage 10 100) := by
  have h : PlansRecorded Sample.twoSnapshots 100 := by
    constructor <;> decide
  exact ⟨h, deleted_with_its_plans Sample.settings h Sample.storage 10⟩

end RatatoskrVault.Retention
