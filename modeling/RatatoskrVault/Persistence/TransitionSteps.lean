import RatatoskrVault.Persistence.Transition

/-! Everything one statement of `apply_transition` can do. -/
namespace RatatoskrVault

open Lib

section

variable (request : TransitionRequest) (m : Moment) (db : Db)

inductive TransitionStmt : TransitionLoc → List Lock → List Write → TransitionLoc → Prop
  | begin {policyRevision : ℕ} (hinputs : governedInputs request.governing = .ok policyRevision) :
      TransitionStmt .begin [] [] (.insertRevision policyRevision)
  | revisionKnown {policyRevision : ℕ}
      (hrevision : db.hasRevision request.targetId policyRevision = true) :
      TransitionStmt (.insertRevision policyRevision) [] [] (.lockTarget policyRevision)
  | insertRevision {policyRevision : ℕ}
      (hrevision : db.hasRevision request.targetId policyRevision = false)
      (hallowed : (revisionRow request.targetId policyRevision request.governing none).allowed
        = true)
      (hfound : (db.target? request.targetId).isSome = true) :
      TransitionStmt (.insertRevision policyRevision)
        [.revisionKey request.targetId policyRevision]
        [.insertRevision (revisionRow request.targetId policyRevision request.governing none)]
        (.lockTarget policyRevision)
  | lockTarget {policyRevision : ℕ} {target : Target} {next : TransitionLoc}
      (htarget : db.target? request.targetId = some target)
      (hnext : retentionTransition request policyRevision target = .ok next) :
      TransitionStmt (.lockTarget policyRevision) [.target request.targetId] [] next
  | tombstoneKept {policyRevision : ℕ} {fromStatus : TargetStatus}
      (hactive : (db.activeTombstone? request.targetId).isSome = true) :
      TransitionStmt (.insertTombstone policyRevision fromStatus) [] []
        (.updateTarget policyRevision fromStatus)
  | insertTombstone {policyRevision : ℕ} {fromStatus : TargetStatus}
      (hnone : db.activeTombstone? request.targetId = none) :
      TransitionStmt (.insertTombstone policyRevision fromStatus) []
        [.insertTombstone
          { tombstoneId := m.fresh
            targetId := request.targetId
            governingPolicyRevision := policyRevision
            recordedAt := m.now
            notBefore := m.now + graceSeconds }]
        (.updateTarget policyRevision fromStatus)
  | noTombstone {policyRevision : ℕ} {fromStatus : TargetStatus}
      (hnone : db.activeTombstone? request.targetId = none) :
      TransitionStmt (.lockTombstone policyRevision fromStatus) [] []
        (.updateTarget policyRevision fromStatus)
  | lockTombstone {policyRevision : ℕ} {fromStatus : TargetStatus} {tombstone : Tombstone}
      (hactive : db.activeTombstone? request.targetId = some tombstone) :
      TransitionStmt (.lockTombstone policyRevision fromStatus)
        [.tombstone tombstone.tombstoneId] []
        (.stageStarted policyRevision fromStatus tombstone.tombstoneId)
  | notStarted {policyRevision : ℕ} {fromStatus : TargetStatus} {tombstoneId : Uuid}
      (hstarted : db.stageStarted tombstoneId = false) :
      TransitionStmt (.stageStarted policyRevision fromStatus tombstoneId) [] []
        (.cancelPlans policyRevision fromStatus tombstoneId)
  | cancelPlans {policyRevision : ℕ} {fromStatus : TargetStatus} {tombstoneId : Uuid} :
      TransitionStmt (.cancelPlans policyRevision fromStatus tombstoneId)
        ((db.cancellablePlans tombstoneId).map fun p => .plan p.planId)
        ((db.cancellablePlans tombstoneId).map fun p => .setPlanStatus p.planId .planned .cancelled)
        (.cancelTombstone policyRevision fromStatus tombstoneId)
  | tombstoneMissing {policyRevision : ℕ} {fromStatus : TargetStatus} {tombstoneId : Uuid}
      (hnone : db.tombstone? tombstoneId = none) :
      TransitionStmt (.cancelTombstone policyRevision fromStatus tombstoneId) [] []
        (.updateTarget policyRevision fromStatus)
  | cancelTombstone {policyRevision : ℕ} {fromStatus : TargetStatus} {tombstoneId : Uuid}
      {tombstone : Tombstone} (htombstone : db.tombstone? tombstoneId = some tombstone)
      (hactive : tombstone.isActive = true) :
      TransitionStmt (.cancelTombstone policyRevision fromStatus tombstoneId) []
        [.cancelTombstone tombstoneId m.now] (.updateTarget policyRevision fromStatus)
  | targetMissing {policyRevision : ℕ} {fromStatus : TargetStatus}
      (hnone : db.target? request.targetId = none) :
      TransitionStmt (.updateTarget policyRevision fromStatus) [] []
        (.insertEvent policyRevision fromStatus)
  | updateTarget {policyRevision : ℕ} {fromStatus : TargetStatus} {target : Target}
      (htarget : db.target? request.targetId = some target)
      (hguard : db.targetGuardStatusTransition m.clock target request.toStatus = .ok ()) :
      TransitionStmt (.updateTarget policyRevision fromStatus) [.target request.targetId]
        [.setTargetStatus request.targetId target.status request.toStatus]
        (.insertEvent policyRevision fromStatus)
  | noEvent {policyRevision : ℕ} {fromStatus : TargetStatus}
      (hsame : fromStatus = request.toStatus) :
      TransitionStmt (.insertEvent policyRevision fromStatus) [] [] .commit
  | insertEvent {policyRevision : ℕ} {fromStatus : TargetStatus}
      (hmoved : fromStatus ≠ request.toStatus) :
      TransitionStmt (.insertEvent policyRevision fromStatus) []
        [.insertOutbox
          { eventId := m.fresh
            event := .stateChanged request.targetId (some fromStatus) request.toStatus
              policyRevision request.governing.correlationId }]
        .commit

end

variable {World : Type} {request : TransitionRequest} {m : Moment} {db : Db}
  {at_ next : TransitionLoc} {locks : List Lock} {writes : List Write} {world : World}

theorem applyTransition_stmt
    (h : @applyTransition World request m db at_ = some (.stmt locks writes next)) :
    TransitionStmt request m db at_ locks writes next := by
  cases at_ with
  | begin =>
    simp only [applyTransition] at h
    split at h
    · cases h
    · rename_i policyRevision hinputs
      cases h
      exact .begin hinputs
  | insertRevision policyRevision =>
    simp only [applyTransition] at h
    split_ifs at h with hallowed hrevision hfound
    · cases h
    · cases h; exact .revisionKnown hrevision
    · cases h; exact .insertRevision (by simpa using hrevision) (by simpa using hallowed) hfound
    · cases h
  | lockTarget policyRevision =>
    simp only [applyTransition] at h
    split at h
    · cases h
    · rename_i target htarget
      split at h
      · cases h
      · rename_i n hnext
        cases h
        exact .lockTarget htarget hnext
  | insertTombstone policyRevision fromStatus =>
    simp only [applyTransition] at h
    split_ifs at h with hactive
    · cases h; exact .tombstoneKept hactive
    · cases h; exact .insertTombstone (by simpa using hactive)
  | lockTombstone policyRevision fromStatus =>
    simp only [applyTransition] at h
    split at h
    · rename_i hnone
      cases h
      exact .noTombstone hnone
    · rename_i tombstone hactive
      cases h
      exact .lockTombstone hactive
  | stageStarted policyRevision fromStatus tombstoneId =>
    simp only [applyTransition] at h
    split_ifs at h with hstarted
    · cases h
    · cases h; exact .notStarted (by simpa using hstarted)
  | cancelPlans policyRevision fromStatus tombstoneId => cases h; exact .cancelPlans
  | cancelTombstone policyRevision fromStatus tombstoneId =>
    simp only [applyTransition] at h
    split at h
    · rename_i hnone
      cases h
      exact .tombstoneMissing hnone
    · rename_i tombstone htombstone
      split at h
      · cases h
      · rename_i hguard
        cases h
        refine .cancelTombstone htombstone ?_
        unfold Db.guardTombstoneClose at hguard
        split_ifs at hguard with hclose
        exact hclose.1
  | updateTarget policyRevision fromStatus =>
    simp only [applyTransition] at h
    split at h
    · rename_i hnone
      cases h
      exact .targetMissing hnone
    · rename_i target htarget
      split at h
      · cases h
      · rename_i hguard
        cases h
        exact .updateTarget htarget hguard
  | insertEvent policyRevision fromStatus =>
    simp only [applyTransition] at h
    split_ifs at h with hsame
    · cases h; exact .noEvent hsame
    · cases h; exact .insertEvent hsame
  | commit => cases h
  | finished result => cases h

/-- The kinds of step a transition never takes. -/
theorem applyTransition_eq_some {a : Action World Lock Write TransitionLoc}
    (h : applyTransition request m db at_ = some a) :
    (∃ locks writes next, a = .stmt locks writes next) ∨
      (at_ = .commit ∧ a = .commit (.finished (.ok ()))) ∨
      ∃ e, a = .rollback (.finished (.error e)) := by
  cases at_ with
  | commit => cases h; exact Or.inr (Or.inl ⟨rfl, rfl⟩)
  | finished result => cases h
  | _ =>
    simp only [applyTransition] at h
    (repeat' split at h) <;> cases h <;>
      first
        | exact Or.inl ⟨_, _, _, rfl⟩
        | exact Or.inr (Or.inr ⟨_, rfl⟩)

theorem applyTransition_commit
    (h : @applyTransition World request m db at_ = some (.commit next)) :
    at_ = .commit ∧ next = .finished (.ok ()) := by
  rcases applyTransition_eq_some h with ⟨_, _, _, ha⟩ | ⟨hat, ha⟩ | ⟨_, ha⟩
  · cases ha
  · cases ha; exact ⟨hat, rfl⟩
  · cases ha

theorem applyTransition_rollback
    (h : @applyTransition World request m db at_ = some (.rollback next)) :
    ∃ e, next = .finished (.error e) := by
  rcases applyTransition_eq_some h with ⟨_, _, _, ha⟩ | ⟨-, ha⟩ | ⟨e, ha⟩
  · cases ha
  · cases ha
  · cases ha; exact ⟨e, rfl⟩

theorem applyTransition_ne_auto :
    @applyTransition World request m db at_ ≠ some (.auto locks writes next) := by
  intro h
  rcases applyTransition_eq_some h with ⟨_, _, _, ha⟩ | ⟨-, ha⟩ | ⟨_, ha⟩ <;> cases ha

theorem applyTransition_ne_call :
    applyTransition request m db at_ ≠ some (.call world next) := by
  intro h
  rcases applyTransition_eq_some h with ⟨_, _, _, ha⟩ | ⟨-, ha⟩ | ⟨_, ha⟩ <;> cases ha

end RatatoskrVault
