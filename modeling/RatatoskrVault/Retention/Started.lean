import RatatoskrVault.Retention.Locks
import RatatoskrVault.Schema.Evolution

/-! Snapshots whose deletion has started: no step takes it back, and a snapshot is marked deleted
only once it has. -/
namespace RatatoskrVault

open Lib

/-- A plan for the snapshot has left `planned`, other than by being cancelled. -/
def DeletionStarted (db : Db) (snapshotId : Uuid) : Prop :=
  ∃ p ∈ db.plans, p.snapshotId = snapshotId ∧ p.status.hasStarted = true

def DeletionCompleted (db : Db) (snapshotId : Uuid) : Prop :=
  ∃ p ∈ db.plans, p.snapshotId = snapshotId ∧ p.status = .completed

instance (db : Db) (snapshotId : Uuid) : Decidable (DeletionStarted db snapshotId) :=
  inferInstanceAs (Decidable (∃ p ∈ db.plans, _))

instance (db : Db) (snapshotId : Uuid) : Decidable (DeletionCompleted db snapshotId) :=
  inferInstanceAs (Decidable (∃ p ∈ db.plans, _))

def Db.artifact? (db : Db) (artifactId : Uuid) : Option SnapshotArtifact :=
  db.artifacts.find? fun a => a.artifactId == artifactId

/-- Plans move as the trigger allows, and begin as planned. -/
def Write.MovesPlans : Write → Prop
  | .insertPlan row => row.status = .planned
  | .setPlanStatus _ fromStatus toStatus => PlanStatus.isLegal fromStatus toStatus = true
  | _ => True

namespace PlanStatus

theorem hasStarted_of_isLegal {old new : PlanStatus} (h : isLegal old new = true)
    (hold : old.hasStarted = true) : new.hasStarted = true := by
  cases old <;> cases new <;> simp_all [isLegal, hasStarted]

theorem not_completed_of_isLegal {old new : PlanStatus} (h : isLegal old new = true) :
    old ≠ .completed := by
  rintro rfl
  cases new <;> cases h

end PlanStatus

section

variable {db : Db} {log : List Write} {snapshotId : Uuid}

theorem DeletionCompleted.started (h : DeletionCompleted db snapshotId) :
    DeletionStarted db snapshotId := by
  obtain ⟨p, hp, hid, hstatus⟩ := h
  exact ⟨p, hp, hid, by rw [hstatus]; rfl⟩

/-- A started plan is either under execution or done. -/
theorem DeletionStarted.under_way (h : DeletionStarted db snapshotId)
    (hopen : ¬ DeletionCompleted db snapshotId) :
    ∃ p ∈ db.plans, p.snapshotId = snapshotId ∧
      (p.status = .localDeleting ∨ p.status = .replicaDeleting) := by
  obtain ⟨p, hp, hid, hstarted⟩ := h
  refine ⟨p, hp, hid, ?_⟩
  cases hstatus : p.status with
  | localDeleting => exact Or.inl rfl
  | replicaDeleting => exact Or.inr rfl
  | completed => exact absurd ⟨p, hp, hid, hstatus⟩ hopen
  | planned => rw [hstatus] at hstarted; cases hstarted
  | cancelled => rw [hstatus] at hstarted; cases hstarted

/-- What holds of some plan of the snapshot and of every status a legal move leads to from there
stays true of one. -/
theorem exists_plan_applyAll {Q : PlanStatus → Prop}
    (hQ : ∀ old new, PlanStatus.isLegal old new = true → Q old → Q new)
    (h : ∃ p ∈ db.plans, p.snapshotId = snapshotId ∧ Q p.status)
    (hlog : ∀ w ∈ log, w.MovesPlans) :
    ∃ p ∈ (db.applyAll log).plans, p.snapshotId = snapshotId ∧ Q p.status := by
  refine foldl_invariant (I := fun d : Db => ∃ p ∈ d.plans, p.snapshotId = snapshotId ∧ Q p.status)
    (fun d w hw hd => ?_) h
  obtain ⟨p, hp, hid, hstatus⟩ := hd
  cases w with
  | insertPlan row => exact ⟨p, List.mem_append_left _ hp, hid, hstatus⟩
  | setPlanStatus planId fromStatus toStatus =>
    refine ⟨_, mem_updateWhere_of_mem hp, ?_⟩
    split_ifs with hsel
    · simp only [Bool.and_eq_true, beq_iff_eq] at hsel
      exact ⟨hid, hQ fromStatus toStatus (hlog _ hw) (hsel.2 ▸ hstatus)⟩
    · exact ⟨hid, hstatus⟩
  | _ => exact ⟨p, hp, hid, hstatus⟩

theorem DeletionStarted.applyAll (h : DeletionStarted db snapshotId)
    (hlog : ∀ w ∈ log, w.MovesPlans) : DeletionStarted (db.applyAll log) snapshotId :=
  exists_plan_applyAll (fun _ _ => PlanStatus.hasStarted_of_isLegal) h hlog

theorem DeletionCompleted.applyAll (h : DeletionCompleted db snapshotId)
    (hlog : ∀ w ∈ log, w.MovesPlans) : DeletionCompleted (db.applyAll log) snapshotId :=
  exists_plan_applyAll (Q := fun status => status = .completed)
    (fun _ _ hlegal hstatus => absurd hstatus (PlanStatus.not_completed_of_isLegal hlegal)) h hlog

theorem artifact?_applyAll {artifactId : Uuid} {a : SnapshotArtifact}
    (h : db.artifact? artifactId = some a) : (db.applyAll log).artifact? artifactId = some a := by
  refine foldl_invariant (I := fun d : Db => d.artifact? artifactId = some a) (fun d w _ hd => ?_) h
  cases w with
  | insertArtifact row =>
    change (d.artifacts ++ [row]).find? (fun a => a.artifactId == artifactId) = some a
    rw [List.find?_append, show d.artifacts.find? (fun a => a.artifactId == artifactId) = some a
      from hd]
    rfl
  | _ => exact hd

/-- What later states keep of an earlier one: deletions started or done, the identity of plans, and
artifacts. -/
structure Db.Grown (db db' : Db) : Prop where
  started : ∀ snapshotId, DeletionStarted db snapshotId → DeletionStarted db' snapshotId
  completed : ∀ snapshotId, DeletionCompleted db snapshotId → DeletionCompleted db' snapshotId
  plan : ∀ planId p, db.plan? planId = some p → ∃ p', db'.plan? planId = some p' ∧ p.SameAs p'
  artifact : ∀ artifactId a, db.artifact? artifactId = some a → db'.artifact? artifactId = some a

theorem Db.grown_applyAll (hlog : ∀ w ∈ log, w.MovesPlans) : db.Grown (db.applyAll log) where
  started _ h := h.applyAll hlog
  completed _ h := h.applyAll hlog
  plan _ _ h := Db.plan?_applyAll log h
  artifact _ _ h := artifact?_applyAll h

/-- Some row of the snapshot says it is deleted. -/
def MarkedDeleted (db : Db) (snapshotId : Uuid) : Prop :=
  ∃ s ∈ db.snapshots, s.snapshotId = snapshotId ∧ s.status = .deleted

instance (db : Db) (snapshotId : Uuid) : Decidable (MarkedDeleted db snapshotId) :=
  inferInstanceAs (Decidable (∃ s ∈ db.snapshots, _))

/-- A snapshot is marked deleted by a write of the log, or was before. -/
theorem markedDeleted_of_applyAll (h : MarkedDeleted (db.applyAll log) snapshotId)
    (hbuilt : ∀ row, .insertSnapshot row ∈ log → row.status ≠ .deleted) :
    MarkedDeleted db snapshotId ∨ .setSnapshotDeleted snapshotId ∈ log := by
  obtain ⟨s', hs', hid, hdeleted⟩ := h
  obtain ⟨s, hs, hcase⟩ := Db.of_mem_snapshots_applyAll hs'
  rcases hcase with rfl | ⟨rfl, hlog⟩
  · rcases hs with hs | hs
    · exact Or.inl ⟨s', hs, hid, hdeleted⟩
    · exact absurd hdeleted (hbuilt s' hs)
  · exact Or.inr (hid ▸ hlog)

end

namespace Retention

variable {m : Moment} {db view : Db} {loc next : Loc} {locks : List Lock} {writes log : List Write}

theorem movesPlans_stmt (h : SessionStmt m view loc locks writes next) :
    ∀ w ∈ writes, w.MovesPlans := by
  cases h with
  | worker h =>
    cases h with
    | abandonStage =>
      intro w hw
      obtain ⟨a, -, rfl⟩ := List.mem_map.mp hw
      trivial
    | abandonClaims =>
      intro w hw
      obtain ⟨c, -, rfl⟩ := List.mem_map.mp hw
      trivial
    | _ => simp [Write.MovesPlans, PlanStatus.isLegal]
  | capture h => cases h <;> simp [Write.MovesPlans]
  | transition h =>
    cases h with
    | cancelPlans =>
      intro w hw
      obtain ⟨p, -, rfl⟩ := List.mem_map.mp hw
      rfl
    | _ => simp [Write.MovesPlans]

theorem movesPlans_auto (h : SessionAuto m view loc locks writes next) :
    ∀ w ∈ writes, w.MovesPlans := by
  cases h with
  | worker h => cases h <;> simp [Write.MovesPlans, PlanStatus.isLegal]
  | capture h => simp

theorem movesPlans_operate {o : Op} (h : OpWrites view m o locks writes) :
    ∀ w ∈ writes, w.MovesPlans := by
  cases h with
  | planned hsnapshot hpin hallowed hrow =>
    intro w hw
    obtain rfl := List.mem_singleton.mp hw
    exact hrow.status
  | _ => simp [Write.MovesPlans]

/-- A completion under way deletes the snapshot of a plan it has found in execution. -/
structure Completing (db : Db) (log : List Write) (loc : Loc) : Prop where
  lock : ∀ planId, loc = .worker (.complete (.lock planId)) → log = []
  row : ∀ row, loc = .worker (.complete (.updatePlan row)) →
    log = [] ∧ ∃ p, db.plan? row.planId = some p ∧ p.snapshotId = row.snapshotId
  started : ∀ row, loc = .worker (.complete (.updateSnapshot row)) →
    DeletionStarted db row.snapshotId
  deleted : ∀ snapshotId, .setSnapshotDeleted snapshotId ∈ log → DeletionStarted db snapshotId
  built : ∀ row, .insertSnapshot row ∈ log → row.status ≠ .deleted

namespace Completing

/-- Outside a transaction nothing is claimed yet. -/
theorem at_rest (hrow : ∀ row, loc ≠ .worker (.complete (.updatePlan row)))
    (hstarted : ∀ row, loc ≠ .worker (.complete (.updateSnapshot row))) : Completing db [] loc where
  lock _ _ := rfl
  row row hloc := absurd hloc (hrow row)
  started row hloc := absurd hloc (hstarted row)
  deleted _ h := absurd h List.not_mem_nil
  built _ h := absurd h List.not_mem_nil

/-- A completion relies on plans keeping their snapshot and on none being taken back. -/
theorem mono {db' : Db} (h : Completing db log loc)
    (hstarted : ∀ snapshotId, DeletionStarted db snapshotId → DeletionStarted db' snapshotId)
    (hplan : ∀ planId p, db.plan? planId = some p → ∃ p', db'.plan? planId = some p' ∧
      p.SameAs p') : Completing db' log loc where
  lock := h.lock
  row row hloc := by
    obtain ⟨hlog, p, hp, hid⟩ := h.row row hloc
    obtain ⟨p', hp', hsame⟩ := hplan _ p hp
    exact ⟨hlog, p', hp', hsame.snapshotId.trans hid⟩
  started row hloc := hstarted _ (h.started row hloc)
  deleted snapshotId hw := hstarted _ (h.deleted snapshotId hw)
  built := h.built

theorem stmt (h : Completing db log loc) (hview : log = [] → view.plans = db.plans)
    (hstmt : SessionStmt m view loc locks writes next) :
    Completing db (log ++ writes) next where
  lock planId hnext := by
    cases hstmt with
    | worker hstmt => cases hstmt <;> cases hnext
    | _ => cases hnext
  row row hnext := by
    cases hstmt with
    | worker hstmt =>
      cases hstmt with
      | completeLock hplan =>
        cases hnext
        have hlog : log = [] := h.lock _ rfl
        unfold Db.plan? at hplan
        rw [hview hlog] at hplan
        exact ⟨by rw [hlog]; rfl, _, hplan, rfl⟩
      | _ => cases hnext
    | _ => cases hnext
  started row hnext := by
    cases hstmt with
    | worker hstmt =>
      cases hstmt with
      | completePlan hplan hstatus =>
        cases hnext
        obtain ⟨hlog, p, hp, hid⟩ := h.row _ rfl
        unfold Db.plan? at hplan
        rw [hview hlog] at hplan
        obtain rfl := Option.some.inj (hp.symm.trans hplan)
        exact ⟨p, List.mem_of_find?_eq_some hp, hid, by rw [hstatus]; rfl⟩
      | _ => cases hnext
    | _ => cases hnext
  deleted snapshotId hw := by
    rcases List.mem_append.mp hw with hw | hw
    · exact h.deleted snapshotId hw
    · cases hstmt with
      | worker hstmt =>
        cases hstmt with
        | completeSnapshot =>
          cases List.mem_singleton.mp hw
          exact h.started _ rfl
        | completeSnapshotUnder =>
          cases List.mem_singleton.mp hw
          exact h.started _ rfl
        | abandonStage =>
          obtain ⟨a, -, ha⟩ := List.mem_map.mp hw
          cases ha
        | abandonClaims =>
          obtain ⟨c, -, hc⟩ := List.mem_map.mp hw
          cases hc
        | _ => simp at hw
      | capture hstmt => cases hstmt <;> simp at hw
      | transition hstmt =>
        cases hstmt with
        | cancelPlans =>
          obtain ⟨p, -, hp⟩ := List.mem_map.mp hw
          cases hp
        | _ => simp at hw
  built row hw := by
    rcases List.mem_append.mp hw with hw | hw
    · exact h.built row hw
    · cases hstmt with
      | worker hstmt =>
        cases hstmt with
        | abandonStage =>
          obtain ⟨a, -, ha⟩ := List.mem_map.mp hw
          cases ha
        | abandonClaims =>
          obtain ⟨c, -, hc⟩ := List.mem_map.mp hw
          cases hc
        | _ => simp at hw
      | capture hstmt =>
        cases hstmt with
        | insertSnapshot _ _ _ _ hstatus =>
          cases List.mem_singleton.mp hw
          rw [hstatus]
          simp
        | _ => simp at hw
      | transition hstmt =>
        cases hstmt with
        | cancelPlans =>
          obtain ⟨p, -, hp⟩ := List.mem_map.mp hw
          cases hp
        | _ => simp at hw

end Completing

theorem next_completing {plan : DeletionExecutionPlan} {tasks : List Task} :
    Completing db [] (.worker (WorkerLoc.next plan tasks)) := by
  refine .at_rest (fun row hrow => ?_) (fun row hrow => ?_) <;>
    (match tasks with
    | [] => cases hrow
    | .stage unit :: rest => cases hrow
    | .advance :: rest => cases hrow
    | .complete :: rest => cases hrow)

theorem completing_auto (h : SessionAuto m view loc locks writes next) : Completing db [] next := by
  cases h with
  | worker h =>
    cases h with
    | ungated => exact next_completing
    | gateMissing => exact next_completing
    | gate => exact next_completing
    | advanceWrite => exact next_completing
    | _ => exact .at_rest (by simp) (by simp)
  | capture h => exact .at_rest (by simp) (by simp)

theorem completing_commit (h : SessionCommit loc next) : Completing db [] next := by
  cases h with
  | worker h =>
    cases h with
    | shared => exact next_completing
    | recorded => exact next_completing
    | _ => exact .at_rest (by simp) (by simp)
  | _ => exact .at_rest (by simp) (by simp)

theorem completing_start (proc : Proc) : Completing db [] (start proc) := by
  cases proc <;> exact .at_rest (by simp [start]) (by simp [start])

/-- The storage calls of a session leave it outside a transaction. -/
theorem completing_call {settings : Settings} {storage storage' : Storage} {io : IoResult}
    (h : SessionCall settings storage io loc storage' next) : Completing db [] next := by
  cases h with
  | worker => exact .at_rest (by simp) (by simp)
  | capture => exact .at_rest (by simp) (by simp)

theorem completing_rollback {settings : Settings} {storage : Storage} {io : IoResult}
    (h : act settings loc m view storage io = some (.rollback next)) : Completing db [] next := by
  cases loc with
  | idle => cases h
  | worker at_ =>
    rw [act_worker_rollback h]
    exact .at_rest (by simp) (by simp)
  | capture at_ =>
    rw [act_capture_rollback h]
    exact .at_rest (by simp) (by simp)
  | transition request at_ =>
    obtain ⟨e, rfl⟩ := act_transition_rollback h
    exact .at_rest (by simp) (by simp)

/-- Snapshots marked deleted have been under deletion before. -/
theorem marked_of_applyAll (hmarked : ∀ snapshotId, MarkedDeleted db snapshotId →
    DeletionStarted db snapshotId) (h : Completing db log loc)
    (hlog : ∀ w ∈ log, w.MovesPlans) (snapshotId : Uuid)
    (hdeleted : MarkedDeleted (db.applyAll log) snapshotId) :
    DeletionStarted (db.applyAll log) snapshotId := by
  refine DeletionStarted.applyAll ?_ hlog
  rcases markedDeleted_of_applyAll hdeleted h.built with hdeleted | hw
  · exact hmarked snapshotId hdeleted
  · exact h.deleted snapshotId hw

end Retention

end RatatoskrVault
