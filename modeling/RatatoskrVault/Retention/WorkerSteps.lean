import RatatoskrVault.Retention.System

/-! Everything one step of `run_plan` can do, by kind of step. -/
namespace RatatoskrVault

open Lib

section

variable (settings : RetentionWorkerSettings) (m : Moment) (db : Db)

/-- The statements inside a worker's transactions. -/
inductive WorkerStmt : WorkerLoc → List Lock → List Write → WorkerLoc → Prop
  | claimLoad {job : Job} {plan : DeletionPlan} (hplan : db.plan? job.plan.planId = some plan) :
      WorkerStmt (.claim job .load) [.plan plan.planId, .snapshot plan.snapshotId] []
        (.claim job (.refusal
          { targetId := plan.targetId
            snapshotId := plan.snapshotId
            status := plan.status
            automatic := plan.automatic
            graceActive := decide (m.clock < plan.notBefore) }))
  | refuse {job : Job} {row : StagePlan} :
      WorkerStmt (.claim job (.refusal row)) [] [] (.claim job .commitDeferred)
  | accept {job : Job} {row : StagePlan} (hgrace : row.graceActive = false)
      (hpin : row.automatic = true → db.snapshotIsPinned row.snapshotId = false) :
      WorkerStmt (.claim job (.refusal row)) [] [] (.claim job (.identity row))
  | identity {job : Job} {row : StagePlan} {identity : PhysicalIdentity}
      (hidentity : db.stageIdentity row.snapshotId job.unit.stage = some identity) :
      WorkerStmt (.claim job (.identity row)) [] [] (.claim job (.advance row identity))
  | advancePlanned {job : Job} {row : StagePlan} {identity : PhysicalIdentity}
      (hstatus : row.status = .planned) :
      WorkerStmt (.claim job (.advance row identity)) []
        [.setPlanStatus job.plan.planId .planned .localDeleting]
        (.claim job (.abandonStage row identity))
  | advanceStarted {job : Job} {row : StagePlan} {identity : PhysicalIdentity}
      (hstatus : row.status = .localDeleting ∨ row.status = .replicaDeleting) :
      WorkerStmt (.claim job (.advance row identity)) [] [] (.claim job (.abandonStage row identity))
  | abandonStage {job : Job} {row : StagePlan} {identity : PhysicalIdentity} :
      WorkerStmt (.claim job (.abandonStage row identity))
        ((db.expiredStages m.clock job.plan.planId job.unit.stage).map fun a =>
          .attempt a.attemptId)
        ((db.expiredStages m.clock job.plan.planId job.unit.stage).map fun a =>
          .finishAttempt a.attemptId .abandoned)
        (.claim job (.lock row identity))
  | lockIdentity {job : Job} {row : StagePlan} {identity : PhysicalIdentity} :
      WorkerStmt (.claim job (.lock row identity)) [.identity identity] []
        (.claim job (.shared row identity))
  | shared {job : Job} {row : StagePlan} {identity : PhysicalIdentity}
      (hshared : db.identityIsShared row.snapshotId job.unit.stage = true) :
      WorkerStmt (.claim job (.shared row identity)) [] [] (.claim job (.insertShared row identity))
  | notShared {job : Job} {row : StagePlan} {identity : PhysicalIdentity}
      (hshared : db.identityIsShared row.snapshotId job.unit.stage = false) :
      WorkerStmt (.claim job (.shared row identity)) [] []
        (.claim job (.abandonClaims row identity))
  | insertShared {job : Job} {row : StagePlan} {identity : PhysicalIdentity}
      {attempt : StageAttempt} (hid : attempt.attemptId = m.fresh)
      (hplan : attempt.planId = job.plan.planId) (hstage : attempt.stage = job.unit.stage)
      (houtcome : attempt.outcome = .sharedReferenceRetained)
      (hguard : db.guardDeletionStageInsert m.clock attempt = .ok ())
      (hclaim : attempt.claimId = none) :
      WorkerStmt (.claim job (.insertShared row identity)) [] [.insertAttempt attempt]
        (.claim job (.commitShared identity))
  | abandonClaims {job : Job} {row : StagePlan} {identity : PhysicalIdentity} :
      WorkerStmt (.claim job (.abandonClaims row identity))
        ((db.expiredClaims m.clock identity).map fun c => .claim c.claimId)
        ((db.expiredClaims m.clock identity).map fun c => .finishClaim c.claimId .abandoned)
        (.claim job (.insertClaim row identity))
  | insertClaim {job : Job} {row : StagePlan} {identity : PhysicalIdentity}
      {claim : PhysicalObjectClaim} (hid : claim.claimId = m.fresh)
      (hidentity : claim.identity = identity) (houtcome : claim.outcome = .running)
      (hfree : db.hasRunningClaim identity = false) :
      WorkerStmt (.claim job (.insertClaim row identity)) [] [.insertClaim claim]
        (.claim job (.insertAttempt row identity m.fresh))
  | insertAttempt {job : Job} {row : StagePlan} {identity : PhysicalIdentity} {claimId : Uuid}
      {attempt : StageAttempt} (hid : attempt.attemptId = m.fresh)
      (hplan : attempt.planId = job.plan.planId) (hstage : attempt.stage = job.unit.stage)
      (houtcome : attempt.outcome = .running)
      (hguard : db.guardDeletionStageInsert m.clock attempt = .ok ())
      (hclaim : attempt.claimId = some claimId)
      (hfree : db.hasRunningStage job.plan.planId job.unit.stage = false) :
      WorkerStmt (.claim job (.insertAttempt row identity claimId)) [] [.insertAttempt attempt]
        (.claim job (.commitClaimed identity claimId m.fresh))
  | recordLock {job : Job} {identity : PhysicalIdentity} {claimId attemptId : Uuid}
      {succeeded : Bool} {attempt : StageAttempt} (hmem : attempt ∈ db.attempts)
      (hid : attempt.attemptId = attemptId) (houtcome : attempt.outcome = .running)
      (hclaim : attempt.claimId = some claimId) :
      WorkerStmt (.record job identity claimId attemptId succeeded .lock)
        [.attempt attemptId, .plan attempt.planId] []
        (.record job identity claimId attemptId succeeded .attempt)
  | recordAttempt {job : Job} {identity : PhysicalIdentity} {claimId attemptId : Uuid}
      {succeeded : Bool} :
      WorkerStmt (.record job identity claimId attemptId succeeded .attempt) []
        [.finishAttempt attemptId (if succeeded then .succeeded else .failed)]
        (.record job identity claimId attemptId succeeded .claim)
  | recordClaim {job : Job} {identity : PhysicalIdentity} {claimId attemptId : Uuid}
      {succeeded : Bool} :
      WorkerStmt (.record job identity claimId attemptId succeeded .claim) [.claim claimId]
        [.finishClaim claimId (if succeeded then .completed else .abandoned)]
        (.record job identity claimId attemptId succeeded .commit)
  | completeLock {planId : Uuid} {plan : DeletionPlan} (hplan : db.plan? planId = some plan) :
      WorkerStmt (.complete (.lock planId)) [.plan planId] []
        (.complete (.updatePlan
          { planId
            targetId := plan.targetId
            snapshotId := plan.snapshotId
            tombstoneId := plan.tombstoneId }))
  | completePlan {row : CompletionRow} {plan : DeletionPlan}
      (hplan : db.plan? row.planId = some plan) (hstatus : plan.status = .replicaDeleting)
      (hguard : db.guardDeletionPlanUpdate plan .completed = .ok ()) :
      WorkerStmt (.complete (.updatePlan row)) []
        [.setPlanStatus row.planId .replicaDeleting .completed] (.complete (.updateSnapshot row))
  | completeSnapshot {row : CompletionRow} (htombstone : row.tombstoneId = none) :
      WorkerStmt (.complete (.updateSnapshot row)) [.snapshot row.snapshotId]
        [.setSnapshotDeleted row.snapshotId] (.complete (.commit row))
  | completeSnapshotUnder {row : CompletionRow} {tombstoneId : Uuid}
      (htombstone : row.tombstoneId = some tombstoneId) :
      WorkerStmt (.complete (.updateSnapshot row)) [.snapshot row.snapshotId]
        [.setSnapshotDeleted row.snapshotId] (.complete (.ready row tombstoneId))
  | incomplete {row : CompletionRow} {tombstoneId : Uuid}
      (hopen : ∃ p ∈ db.plans, p.tombstoneId = some tombstoneId ∧ p.status ≠ .completed) :
      WorkerStmt (.complete (.ready row tombstoneId)) [] [] (.complete (.commit row))
  | ready {row : CompletionRow} {tombstoneId : Uuid}
      (hall : ∀ p ∈ db.plans, p.tombstoneId = some tombstoneId → p.status = .completed) :
      WorkerStmt (.complete (.ready row tombstoneId)) [] []
        (.complete (.updateTombstone row tombstoneId))
  | tombstoneMissing {row : CompletionRow} {tombstoneId : Uuid}
      (hnone : db.tombstone? tombstoneId = none) :
      WorkerStmt (.complete (.updateTombstone row tombstoneId)) [] []
        (.complete (.updateTarget row tombstoneId))
  | completeTombstone {row : CompletionRow} {tombstoneId : Uuid} {tombstone : Tombstone}
      (htombstone : db.tombstone? tombstoneId = some tombstone)
      (hactive : tombstone.isActive = true) :
      WorkerStmt (.complete (.updateTombstone row tombstoneId)) [.tombstone tombstoneId]
        [.completeTombstone tombstoneId m.now] (.complete (.updateTarget row tombstoneId))
  | targetKept {row : CompletionRow} {tombstoneId : Uuid}
      (htarget : ∀ target, db.target? row.targetId = some target → target.status ≠ .deleting) :
      WorkerStmt (.complete (.updateTarget row tombstoneId)) [] [] (.complete (.commit row))
  | completeTarget {row : CompletionRow} {tombstoneId : Uuid} {target : Target}
      (htarget : db.target? row.targetId = some target) (hstatus : target.status = .deleting)
      (hguard : db.hasTerminalTombstone target.targetId = true) :
      WorkerStmt (.complete (.updateTarget row tombstoneId)) [.target row.targetId]
        [.setTargetStatus row.targetId .deleting .deleted] (.complete (.commit row))

/-- The statements a worker commits by themselves. -/
inductive WorkerAuto : WorkerLoc → List Lock → List Write → WorkerLoc → Prop
  | load {planId : Uuid} {plan : DeletionExecutionPlan}
      (hplan : db.executionPlan? planId = some plan) :
      WorkerAuto (.load planId) [] [] (.loadArtifacts plan)
  | loadArtifacts {plan : DeletionExecutionPlan} :
      WorkerAuto (.loadArtifacts plan) [] []
        (.loadReplicas plan (db.sortedArtifacts plan.snapshotId))
  | loadReplicas {plan : DeletionExecutionPlan} {a : SnapshotArtifact}
      {todo : List SnapshotArtifact} :
      WorkerAuto (.loadReplicas plan (a :: todo)) [] []
        (.loadReplicas { plan with artifacts := plan.artifacts ++ [db.executionArtifact a] } todo)
  | completed {plan : DeletionExecutionPlan} :
      WorkerAuto (.loadReplicas plan []) [] [] (.finished .completed)
  | toGate {plan : DeletionExecutionPlan} (hstatus : plan.status = .planned) :
      WorkerAuto (.loadReplicas plan []) [] [] (.gate plan)
  | ungated {plan : DeletionExecutionPlan}
      (hstatus : plan.tombstoneId = none ∨ plan.status ≠ .planned)
      (hopen : plan.status ≠ .completed) :
      WorkerAuto (.loadReplicas plan []) [] [] (WorkerLoc.next plan plan.tasks)
  | gateMissing {plan : DeletionExecutionPlan} (hnone : db.target? plan.targetId = none) :
      WorkerAuto (.gate plan) [] [] (WorkerLoc.next plan plan.tasks)
  | gateRefused {plan : DeletionExecutionPlan} : WorkerAuto (.gate plan) [] [] (.finished .failed)
  | gate {plan : DeletionExecutionPlan} {target : Target}
      (htarget : db.target? plan.targetId = some target)
      (hguard : db.targetGuardStatusTransition m.clock target .deleting = .ok ()) :
      WorkerAuto (.gate plan) [.target plan.targetId]
        [.setTargetStatus plan.targetId target.status .deleting] (WorkerLoc.next plan plan.tasks)
  | advanceRead {plan : DeletionExecutionPlan} {rest : List Task} {row : DeletionPlan}
      (hplan : db.plan? plan.planId = some row) :
      WorkerAuto (.advanceRead plan rest) [] []
        (.advanceWrite plan rest (db.localStagesTerminal row))
  | advanceWrite {plan : DeletionExecutionPlan} {rest : List Task} {row : DeletionPlan}
      (hplan : db.plan? plan.planId = some row) (hstatus : row.status = .localDeleting) :
      WorkerAuto (.advanceWrite plan rest true) [.plan plan.planId]
        [.setPlanStatus plan.planId .localDeleting .replicaDeleting] (WorkerLoc.next plan rest)

/-- The commits of a worker. -/
inductive WorkerCommit : WorkerLoc → WorkerLoc → Prop
  | deferred {job : Job} : WorkerCommit (.claim job .commitDeferred) (.finished .deferred)
  | shared {job : Job} {identity : PhysicalIdentity} :
      WorkerCommit (.claim job (.commitShared identity)) (WorkerLoc.next job.plan job.rest)
  | claimed {job : Job} {identity : PhysicalIdentity} {claimId attemptId : Uuid} :
      WorkerCommit (.claim job (.commitClaimed identity claimId attemptId))
        (.effect job identity claimId attemptId)
  | recorded {job : Job} {identity : PhysicalIdentity} {claimId attemptId : Uuid} :
      WorkerCommit (.record job identity claimId attemptId true .commit)
        (WorkerLoc.next job.plan job.rest)
  | failed {job : Job} {identity : PhysicalIdentity} {claimId attemptId : Uuid} :
      WorkerCommit (.record job identity claimId attemptId false .commit) (.finished .failed)
  | completed {row : CompletionRow} :
      WorkerCommit (.complete (.commit row)) (.finished .completed)

end

variable {settings : RetentionWorkerSettings} {m : Moment} {db : Db} {storage : Storage}
  {io : IoResult} {at_ next : WorkerLoc} {locks : List Lock} {writes : List Write}

private theorem claimDeletionStage_stmt {job : Job} {loc : ClaimLoc}
    (h : claimDeletionStage settings job m db loc = some (.stmt locks writes next)) :
    WorkerStmt m db (.claim job loc) locks writes next := by
  cases loc with
  | load =>
    simp only [claimDeletionStage, failClaim] at h
    split at h
    · cases h
    · cases hplan : db.plan? job.plan.planId with
      | none => rw [hplan] at h; cases h
      | some plan =>
        rw [hplan] at h
        simp only at h
        split_ifs at h
        · cases h
        · cases h
          exact .claimLoad hplan
  | refusal row =>
    simp only [claimDeletionStage] at h
    split_ifs at h with hrefused
    · cases h; exact .refuse
    · cases h
      simp only [Bool.or_eq_true, Bool.and_eq_true, not_or, not_and, Bool.not_eq_true] at hrefused
      exact .accept hrefused.1 hrefused.2
  | commitDeferred => cases h
  | identity row =>
    simp only [claimDeletionStage, failClaim] at h
    cases hid : db.stageIdentity row.snapshotId job.unit.stage with
    | none => rw [hid] at h; cases h
    | some identity => rw [hid] at h; cases h; exact .identity hid
  | advance row identity =>
    simp only [claimDeletionStage, failClaim] at h
    split at h
    · split_ifs at h with hstatus
      · cases h; exact .advanceStarted (Or.inr hstatus)
      · cases h
    · split_ifs at h with hplanned hstarted
      · cases h; exact .advancePlanned hplanned
      · cases h; exact .advanceStarted (Or.inl hstarted)
      · cases h
  | abandonStage row identity => cases h; exact .abandonStage
  | lock row identity => cases h; exact .lockIdentity
  | shared row identity =>
    simp only [claimDeletionStage] at h
    split_ifs at h with hshared
    · cases h; exact .shared hshared
    · cases h; exact .notShared (by simpa using hshared)
  | insertShared row identity =>
    simp only [claimDeletionStage, failClaim] at h
    split at h
    · cases h
    · rename_i hguard
      cases h
      exact .insertShared rfl rfl rfl rfl hguard rfl
  | commitShared identity => cases h
  | abandonClaims row identity => cases h; exact .abandonClaims
  | insertClaim row identity =>
    simp only [claimDeletionStage, failClaim] at h
    split_ifs at h with hfree
    · cases h
    · cases h; exact .insertClaim rfl rfl rfl (by simpa using hfree)
  | insertAttempt row identity claimId =>
    simp only [claimDeletionStage, failClaim] at h
    split at h
    · cases h
    · rename_i hguard
      split_ifs at h with hfree
      · cases h
      · cases h; exact .insertAttempt rfl rfl rfl rfl hguard rfl (by simpa using hfree)
  | commitClaimed identity claimId attemptId => cases h

private theorem recordDeletionStage_stmt {job : Job} {identity : PhysicalIdentity}
    {claimId attemptId : Uuid} {succeeded : Bool} {loc : RecordLoc}
    (h : recordDeletionStage job identity claimId attemptId succeeded db loc
      = some (.stmt locks writes next)) :
    WorkerStmt m db (.record job identity claimId attemptId succeeded loc) locks writes next := by
  cases loc with
  | lock =>
    simp only [recordDeletionStage, failClaim] at h
    split at h
    · cases h
    · rename_i attempt hfind
      cases h
      have hmem := List.mem_of_find?_eq_some hfind
      have hprop := List.find?_some hfind
      simp only [Bool.and_eq_true, beq_iff_eq] at hprop
      exact .recordLock hmem hprop.1.1 hprop.2 hprop.1.2
  | attempt => cases h; exact .recordAttempt
  | claim => cases h; exact .recordClaim
  | commit => cases h

private theorem completeDeletionPlan_stmt {loc : CompleteLoc}
    (h : completeDeletionPlan m db loc = some (.stmt locks writes next)) :
    WorkerStmt m db (.complete loc) locks writes next := by
  cases loc with
  | lock planId =>
    simp only [completeDeletionPlan, failClaim] at h
    cases hplan : db.plan? planId with
    | none => rw [hplan] at h; cases h
    | some plan => rw [hplan] at h; cases h; exact .completeLock hplan
  | updatePlan row =>
    simp only [completeDeletionPlan, failClaim] at h
    cases hplan : db.plan? row.planId with
    | none => rw [hplan] at h; cases h
    | some plan =>
      rw [hplan] at h
      simp only at h
      split_ifs at h with hstatus
      · cases h
      · split at h
        · cases h
        · rename_i hguard
          cases h
          exact .completePlan hplan (by simpa using hstatus) hguard
  | updateSnapshot row =>
    simp only [completeDeletionPlan] at h
    cases htombstone : row.tombstoneId with
    | none => rw [htombstone] at h; cases h; exact .completeSnapshot htombstone
    | some tombstoneId => rw [htombstone] at h; cases h; exact .completeSnapshotUnder htombstone
  | ready row tombstoneId =>
    simp only [completeDeletionPlan] at h
    split_ifs at h with hany
    · cases h
      refine .incomplete ?_
      obtain ⟨p, hp, hstatus⟩ := List.any_eq_true.mp hany
      simp only [Db.plansUnder, List.mem_filter, beq_iff_eq] at hp
      exact ⟨p, hp.1, hp.2, by simpa using hstatus⟩
    · cases h
      refine .ready fun p hp hunder => ?_
      by_contra hne
      exact hany (List.any_eq_true.mpr ⟨p, by simp [Db.plansUnder, hp, hunder], by simpa using hne⟩)
  | updateTombstone row tombstoneId =>
    simp only [completeDeletionPlan, failClaim] at h
    cases htombstone : db.tombstone? tombstoneId with
    | none => rw [htombstone] at h; cases h; exact .tombstoneMissing htombstone
    | some tombstone =>
      rw [htombstone] at h
      simp only [Db.guardTombstoneClose] at h
      split at h
      · cases h
      · rename_i hguard
        cases h
        split_ifs at hguard with hactive
        exact .completeTombstone htombstone hactive.1
  | updateTarget row tombstoneId =>
    simp only [completeDeletionPlan, failClaim] at h
    cases htarget : db.target? row.targetId with
    | none =>
      rw [htarget] at h
      cases h
      exact .targetKept (by simp [htarget])
    | some target =>
      rw [htarget] at h
      simp only at h
      split_ifs at h with hstatus
      · cases h
        refine .targetKept fun t ht => ?_
        obtain rfl : target = t := Option.some.inj (htarget.symm.trans ht)
        exact hstatus
      · split at h
        · cases h
        · rename_i hguard
          cases h
          have hdeleting : target.status = .deleting := by simpa using hstatus
          refine .completeTarget htarget hdeleting ?_
          simp only [Db.targetGuardStatusTransition, hdeleting] at hguard
          by_contra hterminal
          simp [hterminal] at hguard
  | commit row => cases h

theorem runPlan_stmt (h : runPlan settings m db storage io at_ = some (.stmt locks writes next)) :
    WorkerStmt m db at_ locks writes next := by
  cases at_ with
  | load planId => simp only [runPlan, failClaim] at h; split at h <;> cases h
  | loadArtifacts plan => cases h
  | loadReplicas plan todo =>
    cases todo with
    | nil => simp only [runPlan] at h; split_ifs at h <;> cases h
    | cons a todo => cases h
  | gate plan =>
    simp only [runPlan] at h
    split at h
    · cases h
    · split at h <;> cases h
  | claim job loc => exact claimDeletionStage_stmt h
  | effect job identity claimId attemptId => cases h
  | record job identity claimId attemptId succeeded loc => exact recordDeletionStage_stmt h
  | advanceRead plan rest => simp only [runPlan, failClaim] at h; split at h <;> cases h
  | advanceWrite plan rest terminal =>
    simp only [runPlan, failClaim] at h
    split at h
    · cases h
    · split_ifs at h <;> cases h
  | complete loc => exact completeDeletionPlan_stmt h
  | finished outcome => cases h

private theorem claimDeletionStage_auto {job : Job} {loc : ClaimLoc} :
    claimDeletionStage settings job m db loc ≠ some (.auto locks writes next) := by
  intro h
  cases loc <;> simp only [claimDeletionStage, failClaim] at h <;>
    (repeat' split at h) <;> cases h

theorem runPlan_auto (h : runPlan settings m db storage io at_ = some (.auto locks writes next)) :
    WorkerAuto m db at_ locks writes next := by
  cases at_ with
  | load planId =>
    simp only [runPlan, failClaim] at h
    split at h
    · cases h
    · cases h; exact .load ‹_›
  | loadArtifacts plan => cases h; exact .loadArtifacts
  | loadReplicas plan todo =>
    cases todo with
    | nil =>
      simp only [runPlan] at h
      split_ifs at h with hcompleted hgate
      · cases h; exact .completed
      · cases h; exact .toGate hgate.2
      · cases h
        refine .ungated ?_ hcompleted
        by_contra hboth
        push Not at hboth
        exact hgate ⟨Option.isSome_iff_ne_none.mpr hboth.1, hboth.2⟩
    | cons a todo => cases h; exact .loadReplicas
  | gate plan =>
    simp only [runPlan] at h
    split at h
    · cases h; exact .gateMissing ‹_›
    · split at h
      · cases h; exact .gateRefused
      · cases h; exact .gate ‹_› ‹_›
  | claim job loc => exact absurd h claimDeletionStage_auto
  | effect job identity claimId attemptId => cases h
  | record job identity claimId attemptId succeeded loc =>
    cases loc <;> simp only [runPlan, recordDeletionStage, failClaim] at h <;>
      (repeat' split at h) <;> cases h
  | advanceRead plan rest =>
    simp only [runPlan, failClaim] at h
    split at h
    · cases h
    · cases h; exact .advanceRead ‹_›
  | advanceWrite plan rest terminal =>
    simp only [runPlan, failClaim] at h
    split at h
    · cases h
    · split_ifs at h with hwrite
      · cases h
        obtain ⟨hstatus, rfl⟩ := hwrite
        exact .advanceWrite ‹_› hstatus
      · cases h
  | complete loc =>
    cases loc <;> simp only [runPlan, completeDeletionPlan, failClaim] at h <;>
      (repeat' split at h) <;> cases h
  | finished outcome => cases h

theorem runPlan_commit (h : runPlan settings m db storage io at_ = some (.commit next)) :
    WorkerCommit at_ next := by
  cases at_ with
  | load planId => simp only [runPlan, failClaim] at h; split at h <;> cases h
  | loadArtifacts plan => cases h
  | loadReplicas plan todo =>
    cases todo with
    | nil => simp only [runPlan] at h; split_ifs at h <;> cases h
    | cons a todo => cases h
  | gate plan =>
    simp only [runPlan] at h
    split at h
    · cases h
    · split at h <;> cases h
  | claim job loc =>
    cases loc with
    | commitDeferred => cases h; exact .deferred
    | commitShared identity => cases h; exact .shared
    | commitClaimed identity claimId attemptId => cases h; exact .claimed
    | _ =>
      simp only [runPlan, claimDeletionStage, failClaim] at h
      (repeat' split at h) <;> cases h
  | effect job identity claimId attemptId => cases h
  | record job identity claimId attemptId succeeded loc =>
    cases loc with
    | commit =>
      cases succeeded with
      | true => cases h; exact .recorded
      | false => cases h; exact .failed
    | _ =>
      simp only [runPlan, recordDeletionStage, failClaim] at h
      (repeat' split at h) <;> cases h
  | advanceRead plan rest => simp only [runPlan, failClaim] at h; split at h <;> cases h
  | advanceWrite plan rest terminal =>
    simp only [runPlan, failClaim] at h
    split at h
    · cases h
    · split_ifs at h <;> cases h
  | complete loc =>
    cases loc with
    | commit row => cases h; exact .completed
    | _ =>
      simp only [runPlan, completeDeletionPlan, failClaim] at h
      (repeat' split at h) <;> cases h
  | finished outcome => cases h

/-- A worker drops a transaction only by failing. -/
theorem runPlan_rollback (h : runPlan settings m db storage io at_ = some (.rollback next)) :
    next = .finished .failed := by
  cases at_ with
  | load planId => simp only [runPlan, failClaim] at h; split at h <;> cases h; rfl
  | loadArtifacts plan => cases h
  | loadReplicas plan todo =>
    cases todo with
    | nil => simp only [runPlan] at h; split_ifs at h <;> cases h
    | cons a todo => cases h
  | gate plan =>
    simp only [runPlan] at h
    split at h
    · cases h
    · split at h <;> cases h
  | claim job loc =>
    cases loc <;> simp only [runPlan, claimDeletionStage, failClaim] at h <;>
      (repeat' split at h) <;> cases h <;> rfl
  | effect job identity claimId attemptId => cases h
  | record job identity claimId attemptId succeeded loc =>
    cases loc with
    | lock => simp only [runPlan, recordDeletionStage, failClaim] at h; split at h <;> cases h; rfl
    | _ => cases h
  | advanceRead plan rest => simp only [runPlan, failClaim] at h; split at h <;> cases h; rfl
  | advanceWrite plan rest terminal =>
    simp only [runPlan, failClaim] at h
    split at h
    · cases h; rfl
    · split_ifs at h <;> cases h; rfl
  | complete loc =>
    cases loc <;> simp only [runPlan, completeDeletionPlan, failClaim] at h <;>
      (repeat' split at h) <;> cases h <;> rfl
  | finished outcome => cases h

/-- The only storage call of a worker is the effect of a claimed stage. -/
theorem runPlan_call {storage' : Storage}
    (h : runPlan settings m db storage io at_ = some (.call storage' next)) :
    ∃ job identity claimId attemptId,
      at_ = .effect job identity claimId attemptId ∧
      storage' = (deletionEffect settings job storage io).1 ∧
      next = .record job identity claimId attemptId (deletionEffect settings job storage io).2
        .lock := by
  cases at_ with
  | effect job identity claimId attemptId =>
    cases h
    exact ⟨job, identity, claimId, attemptId, rfl, rfl, rfl⟩
  | load planId => simp only [runPlan, failClaim] at h; split at h <;> cases h
  | loadArtifacts plan => cases h
  | loadReplicas plan todo =>
    cases todo with
    | nil => simp only [runPlan] at h; split_ifs at h <;> cases h
    | cons a todo => cases h
  | gate plan =>
    simp only [runPlan] at h
    split at h
    · cases h
    · split at h <;> cases h
  | claim job loc =>
    cases loc <;> simp only [runPlan, claimDeletionStage, failClaim] at h <;>
      (repeat' split at h) <;> cases h
  | record job identity claimId attemptId succeeded loc =>
    cases loc <;> simp only [runPlan, recordDeletionStage, failClaim] at h <;>
      (repeat' split at h) <;> cases h
  | advanceRead plan rest => simp only [runPlan, failClaim] at h; split at h <;> cases h
  | advanceWrite plan rest terminal =>
    simp only [runPlan, failClaim] at h
    split at h
    · cases h
    · split_ifs at h <;> cases h
  | complete loc =>
    cases loc <;> simp only [runPlan, completeDeletionPlan, failClaim] at h <;>
      (repeat' split at h) <;> cases h
  | finished outcome => cases h

/-- A deletion stage touches no local file but the one of its artifact. -/
theorem files_of_deletionEffect (worker : RetentionWorkerSettings) (job : Job) (storage : Storage)
    (io : IoResult) (digest : Digest)
    (hnot : ∀ e, job.unit = .artifact e → digest ≠ e.blob.sha256) :
    (deletionEffect worker job storage io).1.blobs.files digest = storage.blobs.files digest := by
  unfold deletionEffect
  cases hunit : job.unit with
  | artifact e =>
    obtain ⟨hother, -⟩ := storage.blobs.deleteVerifiedBlob_spec worker.crypto e.blob io
    exact hother digest (hnot e hunit)
  | mirror => cases io <;> rfl
  | replica e stored =>
    simp only
    split
    · rfl
    · unfold deleteVerifiedReplica
      split_ifs
      · rfl
      · split
        · rfl
        · rfl
        · split_ifs <;> rfl

theorem maxBytes_of_deletionEffect (worker : RetentionWorkerSettings) (job : Job)
    (storage : Storage) (io : IoResult) :
    (deletionEffect worker job storage io).1.blobs.maxBytes = storage.blobs.maxBytes := by
  unfold deletionEffect
  cases hunit : job.unit with
  | artifact e => exact storage.blobs.deleteVerifiedBlob_maxBytes worker.crypto e.blob io
  | mirror => cases io <;> rfl
  | replica e stored =>
    simp only
    split
    · rfl
    · unfold deleteVerifiedReplica
      split_ifs
      · rfl
      · split
        · rfl
        · rfl
        · split_ifs <;> rfl

section Units

variable {U : StageUnit → Prop} {R : SnapshotArtifact → Prop}

def Task.Meets (U : StageUnit → Prop) : Task → Prop
  | .stage unit => U unit
  | _ => True

/-- The units made of one entry of the plan projection. -/
def DeletionExecutionArtifact.Meets (U : StageUnit → Prop) (a : DeletionExecutionArtifact) : Prop :=
  U (.artifact a) ∧ ∀ stored ∈ a.replicas, U (.replica a stored)

theorem meets_of_mem_tasks {plan : DeletionExecutionPlan} (hmirror : U .mirror)
    (h : ∀ a ∈ plan.artifacts, a.Meets U) : ∀ task ∈ plan.tasks, task.Meets U := by
  intro task htask
  unfold DeletionExecutionPlan.tasks at htask
  simp only [List.mem_append, List.mem_flatMap, List.mem_map, List.mem_singleton] at htask
  obtain (hlocal | ⟨a, ha, stored, hstored, rfl⟩) | rfl := htask
  · split_ifs at hlocal <;>
      simp only [List.mem_append, List.mem_map, List.mem_singleton, List.not_mem_nil,
        or_false] at hlocal
    · obtain (⟨a, ha, rfl⟩ | rfl) | rfl := hlocal
      · exact (h a ha).1
      · exact hmirror
      · trivial
    · obtain ⟨a, ha, rfl⟩ | rfl := hlocal
      · exact (h a ha).1
      · trivial
  · exact (h a ha).2 stored hstored
  · trivial

/-- Every unit a run still has to execute satisfies `U`, and every row it still has to project
satisfies `R`. -/
def WorkerLoc.Carries (U : StageUnit → Prop) (R : SnapshotArtifact → Prop) : WorkerLoc → Prop
  | .loadArtifacts plan => plan.artifacts = []
  | .loadReplicas plan todo => (∀ a ∈ plan.artifacts, a.Meets U) ∧ ∀ a ∈ todo, R a
  | .gate plan => ∀ a ∈ plan.artifacts, a.Meets U
  | .claim job _ => U job.unit ∧ ∀ task ∈ job.rest, task.Meets U
  | .effect job _ _ _ => U job.unit ∧ ∀ task ∈ job.rest, task.Meets U
  | .record job _ _ _ _ _ => U job.unit ∧ ∀ task ∈ job.rest, task.Meets U
  | .advanceRead _ rest => ∀ task ∈ rest, task.Meets U
  | .advanceWrite _ rest _ => ∀ task ∈ rest, task.Meets U
  | _ => True

variable {at_ next : WorkerLoc}

theorem carries_next {plan : DeletionExecutionPlan} {tasks : List Task}
    (h : ∀ task ∈ tasks, task.Meets U) : (WorkerLoc.next plan tasks).Carries U R := by
  match tasks with
  | [] => trivial
  | .stage unit :: rest =>
    exact ⟨h _ (List.mem_cons_self ..), fun t ht => h t (List.mem_cons_of_mem _ ht)⟩
  | .advance :: rest => exact fun t ht => h t (List.mem_cons_of_mem _ ht)
  | .complete :: rest => trivial

theorem WorkerStmt.carries (h : WorkerStmt m db at_ locks writes next) (hc : at_.Carries U R) :
    next.Carries U R := by
  cases h <;> exact hc

theorem WorkerCommit.carries (h : WorkerCommit at_ next) (hc : at_.Carries U R) :
    next.Carries U R := by
  cases h with
  | deferred => trivial
  | shared => exact carries_next hc.2
  | claimed => exact hc
  | recorded => exact carries_next hc.2
  | failed => trivial
  | completed => trivial

theorem WorkerAuto.carries (h : WorkerAuto m db at_ locks writes next) (hmirror : U .mirror)
    (hrow : ∀ a ∈ db.artifacts, R a) (hunit : ∀ a, R a → (db.executionArtifact a).Meets U)
    (hc : at_.Carries U R) : next.Carries U R := by
  cases h with
  | load hplan =>
    unfold Db.executionPlan? at hplan
    simp only [Option.bind_eq_some_iff, Option.map_eq_some_iff] at hplan
    obtain ⟨_, _, _, _, _, _, rfl⟩ := hplan
    rfl
  | @loadArtifacts plan =>
    refine ⟨?_, fun a ha => hrow a ?_⟩
    · have hnil : plan.artifacts = [] := hc
      simp [hnil]
    · simp only [Db.sortedArtifacts, List.mem_insertionSort, Db.artifactsOf, List.mem_filter] at ha
      exact ha.1
  | @loadReplicas plan a todo =>
    refine ⟨fun e he => ?_, fun a' ha' => hc.2 a' (List.mem_cons_of_mem _ ha')⟩
    rcases List.mem_append.mp he with he | he
    · exact hc.1 e he
    · rw [List.mem_singleton.mp he]
      exact hunit a (hc.2 a (List.mem_cons_self ..))
  | completed => trivial
  | toGate => exact hc.1
  | ungated => exact carries_next (meets_of_mem_tasks hmirror hc.1)
  | gateMissing => exact carries_next (meets_of_mem_tasks hmirror hc)
  | gateRefused => trivial
  | gate => exact carries_next (meets_of_mem_tasks hmirror hc)
  | advanceRead => exact hc
  | advanceWrite => exact carries_next hc

/-- Weaker demands on units and rows. -/
theorem WorkerLoc.Carries.mono {U' : StageUnit → Prop} {R' : SnapshotArtifact → Prop}
    (hU : ∀ unit, U unit → U' unit) (hR : ∀ a, R a → R' a) (hc : at_.Carries U R) :
    at_.Carries U' R' := by
  have hentry : ∀ a : DeletionExecutionArtifact, a.Meets U → a.Meets U' := fun a ha =>
    ⟨hU _ ha.1, fun stored hstored => hU _ (ha.2 stored hstored)⟩
  have htask : ∀ task : Task, task.Meets U → task.Meets U' := by
    intro task ht
    cases task with
    | stage unit => exact hU unit ht
    | _ => trivial
  cases at_ with
  | loadArtifacts plan => exact hc
  | loadReplicas plan todo =>
    exact ⟨fun a ha => hentry a (hc.1 a ha), fun a ha => hR a (hc.2 a ha)⟩
  | gate plan => exact fun a ha => hentry a (hc a ha)
  | claim job loc => exact ⟨hU _ hc.1, fun t ht => htask t (hc.2 t ht)⟩
  | effect job identity claimId attemptId => exact ⟨hU _ hc.1, fun t ht => htask t (hc.2 t ht)⟩
  | record job identity claimId attemptId succeeded loc =>
    exact ⟨hU _ hc.1, fun t ht => htask t (hc.2 t ht)⟩
  | advanceRead plan rest => exact fun t ht => htask t (hc t ht)
  | advanceWrite plan rest terminal => exact fun t ht => htask t (hc t ht)
  | _ => trivial

end Units

namespace Retention

variable {settings : Settings} {next : Loc} {storage' : Storage}

theorem act_worker_stmt
    (h : act settings (.worker at_) m db storage io = some (.stmt locks writes next)) :
    ∃ n, next = .worker n ∧ WorkerStmt m db at_ locks writes n := by
  obtain ⟨n, hn, rfl⟩ := map_eq_stmt h
  exact ⟨n, rfl, runPlan_stmt hn⟩

theorem act_worker_auto
    (h : act settings (.worker at_) m db storage io = some (.auto locks writes next)) :
    ∃ n, next = .worker n ∧ WorkerAuto m db at_ locks writes n := by
  obtain ⟨n, hn, rfl⟩ := map_eq_auto h
  exact ⟨n, rfl, runPlan_auto hn⟩

theorem act_worker_commit
    (h : act settings (.worker at_) m db storage io = some (.commit next)) :
    ∃ n, next = .worker n ∧ WorkerCommit at_ n := by
  obtain ⟨n, hn, rfl⟩ := map_eq_commit h
  exact ⟨n, rfl, runPlan_commit hn⟩

theorem act_worker_rollback
    (h : act settings (.worker at_) m db storage io = some (.rollback next)) :
    next = .worker (.finished .failed) := by
  obtain ⟨n, hn, rfl⟩ := map_eq_rollback h
  rw [runPlan_rollback hn]

theorem act_worker_call
    (h : act settings (.worker at_) m db storage io = some (.call storage' next)) :
    ∃ job identity claimId attemptId,
      at_ = .effect job identity claimId attemptId ∧
      storage' = (deletionEffect settings.worker job storage io).1 ∧
      next = .worker (.record job identity claimId attemptId
        (deletionEffect settings.worker job storage io).2 .lock) := by
  obtain ⟨n, hn, rfl⟩ := map_eq_call h
  obtain ⟨job, identity, claimId, attemptId, hat, hstorage, rfl⟩ := runPlan_call hn
  exact ⟨job, identity, claimId, attemptId, hat, hstorage, rfl⟩

end Retention

end RatatoskrVault
