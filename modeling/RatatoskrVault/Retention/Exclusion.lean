import RatatoskrVault.Retention.Locks
import RatatoskrVault.Schema.Evolution

/-! Reactivation against deletion: which interleavings of `apply_transition` and `run_plan` never
leave a stage attempt under a cancelled tombstone. -/
namespace RatatoskrVault

open Lib

namespace PlanStatus

/-- Moves that keep a started plan started and a cancelled one cancelled, and plan nothing again. -/
def Advances (fromStatus toStatus : PlanStatus) : Prop :=
  fromStatus = toStatus ∨ toStatus ≠ .planned ∧ fromStatus ≠ .cancelled ∧
    (fromStatus.hasStarted = true → toStatus.hasStarted = true)

variable {a b c : PlanStatus}

theorem Advances.refl : a.Advances a := Or.inl rfl

theorem Advances.trans (hab : a.Advances b) (hbc : b.Advances c) : a.Advances c := by
  rcases hab with rfl | ⟨hb, ha, hstarted⟩
  · exact hbc
  · rcases hbc with rfl | ⟨hc, -, hstarted'⟩
    · exact Or.inr ⟨hb, ha, hstarted⟩
    · exact Or.inr ⟨hc, ha, fun h => hstarted' (hstarted h)⟩

theorem advances_of_isLegal (h : isLegal a b = true) : a.Advances b := by
  revert h
  cases a <;> cases b <;> intro h <;>
    first | exact absurd h (by decide) | exact Or.inr ⟨by decide, by decide, by decide⟩

theorem Advances.hasStarted (h : a.Advances b) (ha : a.hasStarted = true) :
    b.hasStarted = true := by
  rcases h with rfl | ⟨-, -, hstarted⟩
  · exact ha
  · exact hstarted ha

theorem Advances.eq_of_planned (h : a.Advances .planned) : a = .planned :=
  h.elim id fun hne => absurd rfl hne.1

theorem Advances.eq_of_cancelled (h : Advances .cancelled b) : b = .cancelled :=
  h.elim Eq.symm fun hne => absurd rfl hne.2.1

theorem isLegal_to_started (h : isLegal .planned b = true) (hb : b.hasStarted = true) :
    b = .localDeleting := by
  cases b <;> revert h hb <;> decide

end PlanStatus

namespace Retention

/-- Transitions and workers, beside plans being created and pins. -/
def OnlyTransitionsAndPlans (_ : State) : Label → Prop
  | .start _ (.runPlan _) => True
  | .start _ (.transition _) => True
  | .start _ _ => False
  | _ => True

/-- A plan that names a tombstone is automatic, for the tombstone's own target, and created while
the tombstone is not cancelled. -/
def PlansFollowTombstones (s : State) : Label → Prop
  | .op (.createDeletionPlan request) => ∀ tombstoneId, request.tombstoneId = some tombstoneId →
      request.automatic = true ∧ ∀ t ∈ s.db.tombstones, t.tombstoneId = tombstoneId →
        t.targetId = request.targetId ∧ t.cancelledAt = none
  | label => OnlyTransitionsAndPlans s label

/-- No stage attempt exists under a plan of a cancelled tombstone. -/
def NothingUnderCancelled (db : Db) : Prop :=
  ∀ t ∈ db.tombstones, t.cancelledAt.isSome → ∀ p ∈ db.plans,
    p.tombstoneId = some t.tombstoneId → ∀ a ∈ db.attempts, a.planId ≠ p.planId

/-- In every run whose steps meet `ok`, reactivation and deletion exclude each other. -/
def ReactivationExcludesDeletion (ok : State → Label → Prop) (settings : Settings) (s₀ : State) :
    Prop :=
  ∀ s, Reach (machine settings).step ok s₀ s → NothingUnderCancelled s.db

/-- Targets with their key, and nothing tombstoned or planned yet. -/
structure BeforeRetention (db : Db) : Prop where
  targets_nodup : (db.targets.map (·.targetId)).Nodup
  no_tombstones : db.tombstones = []
  no_plans : db.plans = []
  no_attempts : db.attempts = []

namespace Exclusion

/-- The target is being deleted or deleted. -/
def InDeletion (db : Db) (targetId : Uuid) : Prop :=
  ∀ t ∈ db.targets, t.targetId = targetId → t.status = .deleting ∨ t.status = .deleted

/-- `g` gives every tombstone id used so far the target it was made for. -/
def Named (g : Uuid → Uuid) (fresh : ℕ) (tombstoneId targetId : Uuid) : Prop :=
  tombstoneId < fresh ∧ g tombstoneId = targetId

structure Sound (g : Uuid → Uuid) (fresh : ℕ) (db : Db) : Prop where
  targets_nodup : (db.targets.map (·.targetId)).Nodup
  plans_nodup : (db.plans.map (·.planId)).Nodup
  plan_ids : ∀ p ∈ db.plans, p.planId < fresh
  attempt_ids : ∀ a ∈ db.attempts, a.planId < fresh
  plans_named : ∀ p ∈ db.plans, ∀ tombstoneId, p.tombstoneId = some tombstoneId →
    p.automatic = true ∧ Named g fresh tombstoneId p.targetId
  tombstones_named : ∀ t ∈ db.tombstones, Named g fresh t.tombstoneId t.targetId
  cancelled : ∀ t ∈ db.tombstones, t.cancelledAt.isSome → ∀ p ∈ db.plans,
    p.tombstoneId = some t.tombstoneId → p.status = .cancelled
  attempted : ∀ a ∈ db.attempts, ∀ p ∈ db.plans, p.planId = a.planId → p.status.hasStarted = true
  deleting : ∀ p ∈ db.plans, p.tombstoneId ≠ none → p.status.hasStarted = true →
    InDeletion db p.targetId

section

variable (g : Uuid → Uuid) (fresh : ℕ) (db : Db) (log : List Write)

/-- The execution plan still describes its plan row. -/
def Matches (plan : DeletionExecutionPlan) : Prop :=
  plan.planId < fresh ∧ ∀ p ∈ db.plans, p.planId = plan.planId →
    p.targetId = plan.targetId ∧ p.tombstoneId = plan.tombstoneId

/-- A plan of a tombstone only runs in deletion, or finds itself cancelled. -/
def Authorized (plan : DeletionExecutionPlan) : Prop :=
  plan.tombstoneId ≠ none → InDeletion db plan.targetId ∨
    ∀ p ∈ db.plans, p.planId = plan.planId → p.status = .cancelled

/-- The plan has started, or starts with this transaction. -/
def Ready (planId : Uuid) : Prop :=
  ∀ p ∈ db.plans, p.planId = planId → p.status.hasStarted = true ∨
    p.status = .planned ∧ .setPlanStatus planId .planned .localDeleting ∈ log

/-- Every plan of the tombstone that has not started is cancelled or about to be. -/
def Cancelling (tombstoneId : Uuid) : Prop :=
  ∀ p ∈ db.plans, p.tombstoneId = some tombstoneId → p.status = .planned →
    .setPlanStatus p.planId .planned .cancelled ∈ log

/-- No plan of the tombstone has started. -/
def Unstarted (tombstoneId : Uuid) : Prop :=
  ∀ p ∈ db.plans, p.tombstoneId = some tombstoneId → p.status.hasStarted = false

def ClaimOk (planId : Uuid) : ClaimLoc → Prop
  | .load => True
  | .commitDeferred => True
  | .refusal row => ∀ p ∈ db.plans, p.planId = planId → p.status = row.status
  | .identity row => ∀ p ∈ db.plans, p.planId = planId → p.status = row.status
  | .advance row _ => ∀ p ∈ db.plans, p.planId = planId → p.status = row.status
  | _ => Ready db log planId

def WorkerOk : WorkerLoc → Prop
  | .load _ => True
  | .loadArtifacts plan =>
      Matches fresh db plan ∧ (plan.status ≠ .planned → Authorized db plan)
  | .loadReplicas plan _ =>
      Matches fresh db plan ∧ (plan.status ≠ .planned → Authorized db plan)
  | .gate plan => Matches fresh db plan
  | .claim job at_ => (Matches fresh db job.plan ∧ Authorized db job.plan) ∧
      ClaimOk db log job.plan.planId at_
  | .effect job _ _ _ => Matches fresh db job.plan ∧ Authorized db job.plan
  | .record job _ _ _ _ _ => Matches fresh db job.plan ∧ Authorized db job.plan
  | .advanceRead plan _ => Matches fresh db plan ∧ Authorized db plan
  | .advanceWrite plan _ _ => Matches fresh db plan ∧ Authorized db plan
  | .complete _ => True
  | .finished _ => True

/-- The plan a claim is about to commit an attempt of. -/
def committing : WorkerLoc → Option Uuid
  | .claim job (.commitShared _) => some job.plan.planId
  | .claim job (.commitClaimed _ _ _) => some job.plan.planId
  | _ => none

/-- The writes of a worker. -/
def WorkerWriteOk (at_ : WorkerLoc) : Write → Prop
  | .insertTarget _ => False
  | .insertPlan _ => False
  | .insertTombstone _ => False
  | .cancelTombstone _ _ => False
  | .setTargetStatus _ fromStatus toStatus =>
      fromStatus = toStatus ∨ Transition.isLegal fromStatus toStatus = true
  | .setPlanStatus planId fromStatus toStatus =>
      planId < fresh ∧ PlanStatus.isLegal fromStatus toStatus = true ∧ toStatus ≠ .cancelled ∧
        (fromStatus = .planned → ∀ p ∈ db.plans, p.planId = planId → p.tombstoneId ≠ none →
          InDeletion db p.targetId)
  | .insertAttempt a => committing at_ = some a.planId
  | _ => True

/-- The writes of a reactivation before the target row. -/
def TransitionWriteOk : Write → Prop
  | .insertRevision _ => True
  | .insertTombstone row => Named g fresh row.tombstoneId row.targetId ∧ row.cancelledAt = none
  | .setPlanStatus _ fromStatus toStatus => fromStatus = .planned ∧ toStatus = .cancelled
  | .cancelTombstone _ _ => True
  | .setTargetStatus _ fromStatus toStatus =>
      fromStatus = toStatus ∨ Transition.isLegal fromStatus toStatus = true
  | .insertOutbox _ => True
  | _ => False

/-- The transaction has recorded its revision at most. -/
def OnlyRevisions : Prop := ∀ w ∈ log, ∃ row, w = .insertRevision row

/-- A cancellation under way, of a tombstone of the request's target. -/
def Reactivates (request : TransitionRequest) (tombstoneId : Uuid) : Prop :=
  Named g fresh tombstoneId request.targetId ∧ request.toStatus = .requested ∧
    request.targetId ∈ db.targets.map (·.targetId)

def TransitionOk (request : TransitionRequest) : TransitionLoc → Prop
  | .begin => True
  | .insertRevision _ => OnlyRevisions log
  | .lockTarget _ => OnlyRevisions log
  | .insertTombstone _ _ => OnlyRevisions log
  | .lockTombstone _ _ => OnlyRevisions log ∧ request.toStatus = .requested ∧
      request.targetId ∈ db.targets.map (·.targetId)
  | .stageStarted _ _ tombstoneId =>
      OnlyRevisions log ∧ Reactivates g fresh db request tombstoneId
  | .cancelPlans _ _ tombstoneId =>
      OnlyRevisions log ∧ Reactivates g fresh db request tombstoneId
  | .cancelTombstone _ _ tombstoneId =>
      Reactivates g fresh db request tombstoneId ∧ Cancelling db log tombstoneId ∧
        (∀ id at_, .cancelTombstone id at_ ∉ log) ∧ ∀ id f t, .setTargetStatus id f t ∉ log
  | .updateTarget _ _ =>
      (∀ id at_, .cancelTombstone id at_ ∈ log →
        Reactivates g fresh db request id ∧ Cancelling db log id) ∧
      ∀ id f t, .setTargetStatus id f t ∉ log
  | .insertEvent _ _ => ∀ id at_, .cancelTombstone id at_ ∈ log →
      Cancelling db log id ∧ Unstarted db id
  | .commit => ∀ id at_, .cancelTombstone id at_ ∈ log → Cancelling db log id ∧ Unstarted db id
  | .finished _ => True

def SessionOk (σ : Session Write Loc) : Prop :=
  match σ.loc with
  | .idle => True
  | .worker at_ => WorkerOk fresh db σ.log at_ ∧ ∀ w ∈ σ.log, WorkerWriteOk fresh db at_ w
  | .capture _ => False
  | .transition request at_ => TransitionOk g fresh db σ.log request at_ ∧
      ∀ w ∈ σ.log, TransitionWriteOk g fresh w

end

structure Inv (g : Uuid → Uuid) (s : State) : Prop where
  sound : Sound g s.fresh s.db
  locked : Locked discipline s
  sessions : ∀ i, SessionOk g s.fresh s.db (s.session i)

section Commit

variable {g : Uuid → Uuid} {fresh : ℕ} {db : Db} {log : List Write}

/-- What a log brings to the database it is replayed on. -/
structure Commits (g : Uuid → Uuid) (fresh : ℕ) (db : Db) (log : List Write) : Prop where
  no_target : ∀ t, .insertTarget t ∉ log
  no_plan : ∀ p, .insertPlan p ∉ log
  target_legal : ∀ id f t, .setTargetStatus id f t ∈ log → f = t ∨ Transition.isLegal f t = true
  plan_legal : ∀ id f t, .setPlanStatus id f t ∈ log → PlanStatus.isLegal f t = true
  starts : ∀ id, .setPlanStatus id .planned .localDeleting ∈ log → ∀ p ∈ db.plans,
    p.planId = id → p.tombstoneId ≠ none → InDeletion db p.targetId
  attempts : ∀ a, .insertAttempt a ∈ log → a.planId < fresh ∧ Ready db log a.planId ∧
    ∀ f t, .setPlanStatus a.planId f t ∈ log → t ≠ .cancelled
  tombstones : ∀ t, .insertTombstone t ∈ log →
    Named g fresh t.tombstoneId t.targetId ∧ t.cancelledAt = none
  cancels : ∀ id at_, .cancelTombstone id at_ ∈ log → (Cancelling db log id ∧ Unstarted db id) ∧
    ∀ id f t, .setPlanStatus id f t ∈ log → t = .cancelled

theorem InDeletion.applyAll {targetId : Uuid} (h : InDeletion db targetId)
    (hinsert : ∀ t, .insertTarget t ∉ log)
    (hlegal : ∀ id f t, .setTargetStatus id f t ∈ log → f = t ∨ Transition.isLegal f t = true) :
    InDeletion (db.applyAll log) targetId := by
  refine foldl_invariant (I := fun db => InDeletion db targetId) (fun db w hw h => ?_) h
  cases w with
  | insertTarget row => exact absurd hw (hinsert row)
  | setTargetStatus id f t =>
    refine forall_updateWhere h fun row _ hrow hsel hid => ?_
    simp only [Bool.and_eq_true, beq_iff_eq] at hsel
    rcases hlegal id f t hw with rfl | hmove
    · rw [← hsel.2]
      exact hrow hid
    · rcases hrow hid with hdeleting | hdeleted
      · rw [← hsel.2, hdeleting] at hmove
        exact Or.inr (Transition.isLegal_deleting hmove)
      · rw [← hsel.2, hdeleted, Transition.isLegal_deleted] at hmove
        cases hmove
  | _ => exact h

/-- Where a plan row comes from, and how it has moved. -/
theorem Commits.origin (h : Commits g fresh db log) {p' : DeletionPlan}
    (hp' : p' ∈ (db.applyAll log).plans) :
    ∃ p ∈ db.plans, p.SameAs p' ∧ p.status.Advances p'.status ∧
      (p.status = p'.status ∨ ∃ f t, .setPlanStatus p.planId f t ∈ log) ∧
      (p.status = .planned → p'.status.hasStarted = true →
        .setPlanStatus p.planId .planned .localDeleting ∈ log) := by
  have hmoved := Db.of_mem_plans_applyAll (R := fun id a b => a.Advances b ∧
      (a = b ∨ ∃ f t, .setPlanStatus id f t ∈ log) ∧
      (a = .planned → b.hasStarted = true → .setPlanStatus id .planned .localDeleting ∈ log))
    ?_ ?_ ?_ hp'
  · obtain ⟨p, hp, hsame, hrel⟩ := hmoved
    exact ⟨p, hp.resolve_right (h.no_plan p), hsame, hrel⟩
  · rintro id status
    exact ⟨.refl, Or.inl rfl, by rintro rfl hstarted; cases hstarted⟩
  · rintro id a b c ⟨hab, hwritten, hstart⟩ ⟨hbc, hwritten', hstart'⟩
    refine ⟨hab.trans hbc, ?_, fun ha hc => ?_⟩
    · rcases hwritten with rfl | hwritten
      · exact hwritten'
      · exact Or.inr hwritten
    · by_cases hb : b = .planned
      · exact hstart' hb hc
      · refine hstart ha ?_
        rcases hbc with rfl | ⟨-, hcancelled, -⟩
        · exact hc
        · simp [PlanStatus.hasStarted, hb, hcancelled]
  · intro id f t hw
    have hlegal := h.plan_legal id f t hw
    refine ⟨PlanStatus.advances_of_isLegal hlegal, Or.inr ⟨f, t, hw⟩, ?_⟩
    rintro rfl hstarted
    obtain rfl := PlanStatus.isLegal_to_started hlegal hstarted
    exact hw

theorem Commits.ready (h : Commits g fresh db log) {a : StageAttempt}
    (ha : .insertAttempt a ∈ log) :
    ∀ p' ∈ (db.applyAll log).plans, p'.planId = a.planId → p'.status.hasStarted = true := by
  intro p' hp' hid
  obtain ⟨-, hready, hnot⟩ := h.attempts a ha
  obtain ⟨p, hp, hsame, hmoved, -, -⟩ := h.origin hp'
  rcases hready p hp (hsame.planId.symm.trans hid) with hstarted | ⟨hplanned, hw⟩
  · exact hmoved.hasStarted hstarted
  · refine Db.status_of_mem_applyAll (Q := fun status => status.hasStarted = true) hw ?_ h.no_plan
      (fun q hq hqid => ?_) p' hp' hid
    · intro f t hft
      have hlegal := h.plan_legal _ f t hft
      have hne := hnot f t hft
      revert hlegal hne
      cases f <;> cases t <;> decide
    · exact (hready q hq hqid).symm.imp_left And.left

theorem Commits.cancelled (h : Commits g fresh db log)
    (hnodup : (db.plans.map (·.planId)).Nodup) {id : Uuid} {at_ : Time}
    (hc : .cancelTombstone id at_ ∈ log) :
    ∀ p' ∈ (db.applyAll log).plans, p'.tombstoneId = some id → p'.status = .cancelled := by
  intro p' hp' hunder
  obtain ⟨⟨hcancelling, hunstarted⟩, honly⟩ := h.cancels id at_ hc
  obtain ⟨p, hp, hsame, hmoved, -, -⟩ := h.origin hp'
  have hpunder : p.tombstoneId = some id := hsame.tombstoneId.symm.trans hunder
  by_cases hplanned : p.status = .planned
  · refine Db.status_of_mem_applyAll (Q := fun status => status = .cancelled)
      (hcancelling p hp hpunder hplanned) (fun f t hft => honly _ f t hft) h.no_plan
      (fun q hq hqid => ?_) p' hp' hsame.planId
    rw [List.inj_on_of_nodup_map hnodup hq hp hqid]
    exact Or.inl hplanned
  · have hstatus : p.status = .cancelled := by
      have hnot := hunstarted p hp hpunder
      revert hplanned hnot
      cases p.status <;> decide
    rw [hstatus] at hmoved
    exact hmoved.eq_of_cancelled

theorem Sound.commit (hs : Sound g fresh db) (h : Commits g fresh db log) :
    Sound g fresh (db.applyAll log) where
  targets_nodup := by
    rw [Db.targetIds_applyAll h.no_target]
    exact hs.targets_nodup
  plans_nodup := by
    rw [Db.planIds_applyAll h.no_plan]
    exact hs.plans_nodup
  plan_ids p' hp' := by
    obtain ⟨p, hp, hsame, -⟩ := h.origin hp'
    rw [hsame.planId]
    exact hs.plan_ids p hp
  attempt_ids a' ha' := by
    obtain ⟨a, ha | ha, -, hplan, -⟩ := Db.of_mem_attempts_applyAll ha' <;> rw [hplan]
    · exact hs.attempt_ids a ha
    · exact (h.attempts a ha).1
  plans_named p' hp' tombstoneId htombstone := by
    obtain ⟨p, hp, hsame, -⟩ := h.origin hp'
    rw [hsame.automatic, hsame.targetId]
    exact hs.plans_named p hp tombstoneId (hsame.tombstoneId.symm.trans htombstone)
  tombstones_named t' ht' := by
    obtain ⟨t, ht | ht, hid, htarget, -⟩ := Db.of_mem_tombstones_applyAll ht' <;>
      rw [hid, htarget]
    · exact hs.tombstones_named t ht
    · exact (h.tombstones t ht).1
  cancelled t' ht' hcancelled p' hp' hunder := by
    obtain ⟨t, ht, hid, -, hcase⟩ := Db.of_mem_tombstones_applyAll ht'
    rw [hid] at hunder
    rcases hcase with hsame | ⟨at_, hat⟩
    · rw [hsame] at hcancelled
      rcases ht with ht | ht
      · obtain ⟨p, hp, hsameP, hmoved, -⟩ := h.origin hp'
        have hbefore := hs.cancelled t ht hcancelled p hp (hsameP.tombstoneId.symm.trans hunder)
        rw [hbefore] at hmoved
        exact hmoved.eq_of_cancelled
      · rw [(h.tombstones t ht).2] at hcancelled
        cases hcancelled
    · exact h.cancelled hs.plans_nodup hat p' hp' hunder
  attempted a' ha' p' hp' hid := by
    obtain ⟨a, ha, -, hplan, -⟩ := Db.of_mem_attempts_applyAll ha'
    rw [hplan] at hid
    rcases ha with ha | ha
    · obtain ⟨p, hp, hsame, hmoved, -⟩ := h.origin hp'
      exact hmoved.hasStarted (hs.attempted a ha p hp (hsame.planId.symm.trans hid))
    · exact h.ready ha p' hp' hid
  deleting p' hp' hunder hstarted := by
    obtain ⟨p, hp, hsame, hmoved, -, hstart⟩ := h.origin hp'
    rw [hsame.tombstoneId] at hunder
    rw [hsame.targetId]
    refine InDeletion.applyAll ?_ h.no_target h.target_legal
    by_cases hplanned : p.status = .planned
    · exact h.starts p.planId (hstart hplanned hstarted) p hp rfl hunder
    · refine hs.deleting p hp hunder ?_
      -- A plan that is neither planned nor cancelled has started.
      have hcancelled : p.status ≠ .cancelled := by
        intro hc
        rw [hc] at hmoved
        rw [hmoved.eq_of_cancelled] at hstarted
        cases hstarted
      revert hplanned hcancelled
      cases p.status <;> decide

end Commit

section Frame

variable {g g' : Uuid → Uuid} {fresh fresh' : ℕ} {db db' : Db} {held : List Lock}

/-- What the other sessions' steps never do to a session that holds `held`. -/
structure Evolves (g : Uuid → Uuid) (fresh : ℕ) (db : Db) (g' : Uuid → Uuid) (fresh' : ℕ)
    (db' : Db) (held : List Lock) : Prop where
  fresh_le : fresh ≤ fresh'
  names : ∀ id, id < fresh → g' id = g id
  plans : ∀ p' ∈ db'.plans,
    (∃ p ∈ db.plans, p.SameAs p' ∧ p.status.Advances p'.status ∧
      (.plan p.planId ∈ held → p'.status = p.status)) ∨
    fresh ≤ p'.planId ∧ p'.status = .planned ∧
      ∀ tombstoneId, p'.tombstoneId = some tombstoneId → .tombstone tombstoneId ∉ held
  deletion : ∀ targetId, InDeletion db targetId → InDeletion db' targetId
  targetIds : db'.targets.map (·.targetId) = db.targets.map (·.targetId)

theorem Evolves.named (h : Evolves g fresh db g' fresh' db' held) {tombstoneId targetId : Uuid}
    (hn : Named g fresh tombstoneId targetId) : Named g' fresh' tombstoneId targetId :=
  ⟨Nat.lt_of_lt_of_le hn.1 h.fresh_le, (h.names tombstoneId hn.1).trans hn.2⟩

/-- A row of an id that was in use comes from the row it was. -/
theorem Evolves.origin (h : Evolves g fresh db g' fresh' db' held) {p' : DeletionPlan}
    (hp' : p' ∈ db'.plans) (hid : p'.planId < fresh) :
    ∃ p ∈ db.plans, p.SameAs p' ∧ p.status.Advances p'.status ∧
      (.plan p.planId ∈ held → p'.status = p.status) :=
  (h.plans p' hp').resolve_right fun hnew => absurd hnew.1 (Nat.not_le.mpr hid)

theorem Evolves.matches (h : Evolves g fresh db g' fresh' db' held) {plan : DeletionExecutionPlan}
    (hm : Matches fresh db plan) : Matches fresh' db' plan := by
  refine ⟨Nat.lt_of_lt_of_le hm.1 h.fresh_le, fun p' hp' hid => ?_⟩
  obtain ⟨p, hp, hsame, -⟩ := h.origin hp' (hid ▸ hm.1)
  rw [hsame.targetId, hsame.tombstoneId]
  exact hm.2 p hp (hsame.planId.symm.trans hid)

theorem Evolves.authorized (h : Evolves g fresh db g' fresh' db' held)
    {plan : DeletionExecutionPlan} (hid : plan.planId < fresh) (ha : Authorized db plan) :
    Authorized db' plan := by
  intro hunder
  refine (ha hunder).imp (h.deletion _) fun hall p' hp' hid' => ?_
  obtain ⟨p, hp, hsame, hmoved, -⟩ := h.origin hp' (hid' ▸ hid)
  rw [hall p hp (hsame.planId.symm.trans hid')] at hmoved
  exact hmoved.eq_of_cancelled

theorem Evolves.ready (h : Evolves g fresh db g' fresh' db' held) {log : List Write}
    {planId : Uuid} (hid : planId < fresh) (hlock : .plan planId ∈ held)
    (hr : Ready db log planId) : Ready db' log planId := by
  intro p' hp' hid'
  obtain ⟨p, hp, hsame, -, hkept⟩ := h.origin hp' (hid' ▸ hid)
  have hpid : p.planId = planId := hsame.planId.symm.trans hid'
  rw [hkept (hpid ▸ hlock)]
  exact hr p hp hpid

theorem Evolves.cancelling (h : Evolves g fresh db g' fresh' db' held) {log : List Write}
    {tombstoneId : Uuid} (hlock : .tombstone tombstoneId ∈ held)
    (hc : Cancelling db log tombstoneId) : Cancelling db' log tombstoneId := by
  intro p' hp' hunder hplanned
  rcases h.plans p' hp' with ⟨p, hp, hsame, hmoved, -⟩ | ⟨-, -, hfree⟩
  · rw [hplanned] at hmoved
    rw [hsame.planId]
    exact hc p hp (hsame.tombstoneId.symm.trans hunder) hmoved.eq_of_planned
  · exact absurd hlock (hfree tombstoneId hunder)

theorem Evolves.unstarted (h : Evolves g fresh db g' fresh' db' held) {log : List Write}
    {tombstoneId : Uuid} (hlog : ∀ w ∈ log, ∀ l ∈ w.locks, l ∈ held)
    (hc : Cancelling db log tombstoneId) (hu : Unstarted db tombstoneId) :
    Unstarted db' tombstoneId := by
  intro p' hp' hunder
  rcases h.plans p' hp' with ⟨p, hp, hsame, hmoved, hkept⟩ | ⟨-, hplanned, -⟩
  · have hpunder : p.tombstoneId = some tombstoneId := hsame.tombstoneId.symm.trans hunder
    have hnot := hu p hp hpunder
    by_cases hplanned : p.status = .planned
    · have hw := hc p hp hpunder hplanned
      rw [hkept (hlog _ hw _ (List.mem_singleton.mpr rfl))]
      exact hnot
    · have hcancelled : p.status = .cancelled := by
        revert hplanned hnot
        cases p.status <;> decide
      rw [hcancelled] at hmoved
      rw [hmoved.eq_of_cancelled]
      rfl
  · rw [hplanned]
    rfl

theorem Evolves.claimOk (h : Evolves g fresh db g' fresh' db' held) {log : List Write} {job : Job}
    {at_ : ClaimLoc} (hid : job.plan.planId < fresh) (hlock : ∀ l ∈ at_.locks job, l ∈ held)
    (hc : ClaimOk db log job.plan.planId at_) : ClaimOk db' log job.plan.planId at_ := by
  have hstatus : ∀ row : StagePlan, .plan job.plan.planId ∈ held →
      (∀ p ∈ db.plans, p.planId = job.plan.planId → p.status = row.status) →
      ∀ p' ∈ db'.plans, p'.planId = job.plan.planId → p'.status = row.status := by
    intro row hheld hall p' hp' hid'
    obtain ⟨p, hp, hsame, -, hkept⟩ := h.origin hp' (hid' ▸ hid)
    have hpid : p.planId = job.plan.planId := hsame.planId.symm.trans hid'
    rw [hkept (hpid ▸ hheld)]
    exact hall p hp hpid
  cases at_ with
  | load => trivial
  | commitDeferred => trivial
  | refusal row => exact hstatus row (hlock _ (by simp [ClaimLoc.locks])) hc
  | identity row => exact hstatus row (hlock _ (by simp [ClaimLoc.locks])) hc
  | advance row object => exact hstatus row (hlock _ (by simp [ClaimLoc.locks])) hc
  | _ => exact h.ready hid (hlock _ (by simp [ClaimLoc.locks])) hc

theorem Evolves.workerOk (h : Evolves g fresh db g' fresh' db' held) {log : List Write}
    {at_ : WorkerLoc} (hlock : ∀ l ∈ at_.locks, l ∈ held) (hw : WorkerOk fresh db log at_) :
    WorkerOk fresh' db' log at_ := by
  cases at_ with
  | loadArtifacts plan =>
    exact ⟨h.matches hw.1, fun hne => h.authorized hw.1.1 (hw.2 hne)⟩
  | loadReplicas plan todo =>
    exact ⟨h.matches hw.1, fun hne => h.authorized hw.1.1 (hw.2 hne)⟩
  | gate plan => exact h.matches hw
  | claim job loc =>
    exact ⟨⟨h.matches hw.1.1, h.authorized hw.1.1.1 hw.1.2⟩, h.claimOk hw.1.1.1 hlock hw.2⟩
  | effect job object claimId attemptId => exact ⟨h.matches hw.1, h.authorized hw.1.1 hw.2⟩
  | record job object claimId attemptId succeeded loc =>
    exact ⟨h.matches hw.1, h.authorized hw.1.1 hw.2⟩
  | advanceRead plan rest => exact ⟨h.matches hw.1, h.authorized hw.1.1 hw.2⟩
  | advanceWrite plan rest terminal => exact ⟨h.matches hw.1, h.authorized hw.1.1 hw.2⟩
  | _ => trivial

theorem Evolves.workerWriteOk (h : Evolves g fresh db g' fresh' db' held) {at_ : WorkerLoc}
    {w : Write} (hw : WorkerWriteOk fresh db at_ w) : WorkerWriteOk fresh' db' at_ w := by
  cases w with
  | setPlanStatus id f t =>
    refine ⟨Nat.lt_of_lt_of_le hw.1 h.fresh_le, hw.2.1, hw.2.2.1, fun hf p' hp' hid hunder => ?_⟩
    obtain ⟨p, hp, hsame, -⟩ := h.origin hp' (hid ▸ hw.1)
    rw [hsame.tombstoneId] at hunder
    rw [hsame.targetId]
    exact h.deletion _ (hw.2.2.2 hf p hp (hsame.planId.symm.trans hid) hunder)
  | _ => exact hw

theorem Evolves.reactivates (h : Evolves g fresh db g' fresh' db' held)
    {request : TransitionRequest} {tombstoneId : Uuid}
    (hr : Reactivates g fresh db request tombstoneId) :
    Reactivates g' fresh' db' request tombstoneId :=
  ⟨h.named hr.1, hr.2.1, h.targetIds ▸ hr.2.2⟩

theorem Evolves.transitionOk (h : Evolves g fresh db g' fresh' db' held) {log : List Write}
    {request : TransitionRequest} {at_ : TransitionLoc}
    (hlock : ∀ l ∈ needs (.transition request at_) log, l ∈ held)
    (hw : TransitionOk g fresh db log request at_) :
    TransitionOk g' fresh' db' log request at_ := by
  have hlog : ∀ w ∈ log, ∀ l ∈ w.locks, l ∈ held := fun w hw l hl =>
    hlock l (mem_needs_of_write hw hl)
  have hcancel : ∀ id at_, .cancelTombstone id at_ ∈ log → .tombstone id ∈ held :=
    fun id at_ hmem => hlog _ hmem _ (List.mem_singleton.mpr rfl)
  cases at_ with
  | lockTombstone policyRevision fromStatus => exact ⟨hw.1, hw.2.1, h.targetIds ▸ hw.2.2⟩
  | stageStarted policyRevision fromStatus tombstoneId => exact ⟨hw.1, h.reactivates hw.2⟩
  | cancelPlans policyRevision fromStatus tombstoneId => exact ⟨hw.1, h.reactivates hw.2⟩
  | cancelTombstone policyRevision fromStatus tombstoneId =>
    refine ⟨h.reactivates hw.1, h.cancelling (hlock _ ?_) hw.2.1, hw.2.2⟩
    exact mem_needs_of_loc (by simp [Loc.locks, TransitionLoc.locks])
  | updateTarget policyRevision fromStatus =>
    refine ⟨fun id at_ hmem => ?_, hw.2⟩
    obtain ⟨hreactivates, hcancelling⟩ := hw.1 id at_ hmem
    exact ⟨h.reactivates hreactivates, h.cancelling (hcancel id at_ hmem) hcancelling⟩
  | insertEvent policyRevision fromStatus =>
    intro id at_ hmem
    obtain ⟨hcancelling, hunstarted⟩ := hw id at_ hmem
    exact ⟨h.cancelling (hcancel id at_ hmem) hcancelling, h.unstarted hlog hcancelling hunstarted⟩
  | commit =>
    intro id at_ hmem
    obtain ⟨hcancelling, hunstarted⟩ := hw id at_ hmem
    exact ⟨h.cancelling (hcancel id at_ hmem) hcancelling, h.unstarted hlog hcancelling hunstarted⟩
  | _ => exact hw

theorem Evolves.sessionOk {σ : Session Write Loc}
    (h : Evolves g fresh db g' fresh' db' (needs σ.loc σ.log)) (hσ : SessionOk g fresh db σ) :
    SessionOk g' fresh' db' σ := by
  unfold SessionOk at hσ ⊢
  split
  · trivial
  · rename_i at_ hloc
    rw [hloc] at hσ h
    exact ⟨h.workerOk (fun l hl => mem_needs_of_loc hl) hσ.1,
      fun w hw => h.workerWriteOk (hσ.2 w hw)⟩
  · rename_i hloc
    rw [hloc] at hσ
    exact hσ
  · rename_i request at_ hloc
    rw [hloc] at hσ h
    refine ⟨h.transitionOk (fun l hl => hl) hσ.1, fun w hw => ?_⟩
    have hok := hσ.2 w hw
    cases w with
    | insertTombstone row => exact ⟨h.named hok.1, hok.2⟩
    | _ => exact hok

end Frame

section Statements

variable {g : Uuid → Uuid} {fresh : ℕ} {db : Db} {log : List Write} {m : Moment}
  {locks : List Lock} {writes : List Write}

theorem Ready.append {planId : Uuid} (h : Ready db log planId) :
    Ready db (log ++ writes) planId := fun p hp hid =>
  (h p hp hid).imp_right fun ⟨hplanned, hw⟩ => ⟨hplanned, List.mem_append_left _ hw⟩

theorem no_insertPlan {at_ : WorkerLoc} (h : ∀ w ∈ log, WorkerWriteOk fresh db at_ w)
    (p : DeletionPlan) : .insertPlan p ∉ log := fun hw => h _ hw

/-- Only the insertion of an attempt depends on where the session stands. -/
theorem workerWriteOk_append {at_ n : WorkerLoc} (h : ∀ w ∈ log, WorkerWriteOk fresh db at_ w)
    (hnot : committing at_ = none) (hw : ∀ w ∈ writes, WorkerWriteOk fresh db n w) :
    ∀ w ∈ log ++ writes, WorkerWriteOk fresh db n w := by
  intro w hmem
  rcases List.mem_append.mp hmem with hmem | hmem
  · have hold := h w hmem
    cases w with
    | insertAttempt a =>
      have hcommitting : committing at_ = some a.planId := hold
      rw [hnot] at hcommitting
      cases hcommitting
    | _ => exact hold
  · exact hw w hmem

theorem worker_stmt {at_ n : WorkerLoc} (hs : Sound g fresh db)
    (hrest : at_.atRest = true → log = []) (hwork : WorkerOk fresh db log at_)
    (hlog : ∀ w ∈ log, WorkerWriteOk fresh db at_ w)
    (hstmt : WorkerStmt m (db.applyAll log) at_ locks writes n) :
    WorkerOk fresh db (log ++ writes) n ∧ ∀ w ∈ log ++ writes, WorkerWriteOk fresh db n w := by
  -- A row the statement found by its id.
  have hfound : ∀ {planId plan}, (db.applyAll log).plan? planId = some plan → planId < fresh := by
    intro planId plan hplan
    have hmem : plan.planId ∈ (db.applyAll log).plans.map (·.planId) :=
      List.mem_map_of_mem (List.mem_of_find?_eq_some hplan)
    have hid : plan.planId = planId := by simpa using List.find?_some hplan
    rw [Db.planIds_applyAll (no_insertPlan hlog), hid] at hmem
    obtain ⟨p, hp, hpid⟩ := List.mem_map.mp hmem
    rw [← hpid]
    exact hs.plan_ids p hp
  cases hstmt with
  | @claimLoad job plan hplan =>
    have hnil : log = [] := hrest rfl
    subst hnil
    refine ⟨⟨hwork.1, fun p hp hid => ?_⟩, workerWriteOk_append hlog rfl (by simp)⟩
    have hmem : plan ∈ db.plans := List.mem_of_find?_eq_some hplan
    have hpid : plan.planId = job.plan.planId := by simpa using List.find?_some hplan
    rw [List.inj_on_of_nodup_map hs.plans_nodup hp hmem (hid.trans hpid.symm)]
  | refuse => exact ⟨⟨hwork.1, trivial⟩, workerWriteOk_append hlog rfl (by simp)⟩
  | accept => exact ⟨⟨hwork.1, hwork.2⟩, workerWriteOk_append hlog rfl (by simp)⟩
  | identity => exact ⟨⟨hwork.1, hwork.2⟩, workerWriteOk_append hlog rfl (by simp)⟩
  | @advancePlanned job row object hstatus =>
    obtain ⟨⟨hmatches, hauthorized⟩, hrow⟩ := hwork
    refine ⟨⟨⟨hmatches, hauthorized⟩, fun p hp hid => Or.inr ⟨?_, by simp⟩⟩,
      workerWriteOk_append hlog rfl fun w hw => ?_⟩
    · rw [hrow p hp hid, hstatus]
    · obtain rfl := List.mem_singleton.mp hw
      refine ⟨hmatches.1, rfl, by decide, fun _ p hp hid hunder => ?_⟩
      obtain ⟨htarget, htombstone⟩ := hmatches.2 p hp hid
      rw [htombstone] at hunder
      rw [htarget]
      refine (hauthorized hunder).resolve_right fun hall => ?_
      have hcancelled := hall p hp hid
      rw [hrow p hp hid, hstatus] at hcancelled
      cases hcancelled
  | @advanceStarted job row object hstatus =>
    refine ⟨⟨hwork.1, fun p hp hid => Or.inl ?_⟩, workerWriteOk_append hlog rfl (by simp)⟩
    rw [hwork.2 p hp hid]
    rcases hstatus with hstatus | hstatus <;> rw [hstatus] <;> rfl
  | abandonStage =>
    refine ⟨⟨hwork.1, Ready.append hwork.2⟩, workerWriteOk_append hlog rfl fun w hw => ?_⟩
    obtain ⟨a, -, rfl⟩ := List.mem_map.mp hw
    trivial
  | lockIdentity =>
    exact ⟨⟨hwork.1, Ready.append hwork.2⟩, workerWriteOk_append hlog rfl (by simp)⟩
  | shared => exact ⟨⟨hwork.1, Ready.append hwork.2⟩, workerWriteOk_append hlog rfl (by simp)⟩
  | notShared => exact ⟨⟨hwork.1, Ready.append hwork.2⟩, workerWriteOk_append hlog rfl (by simp)⟩
  | insertShared _ hplan =>
    refine ⟨⟨hwork.1, Ready.append hwork.2⟩, workerWriteOk_append hlog rfl fun w hw => ?_⟩
    obtain rfl := List.mem_singleton.mp hw
    exact congrArg some hplan.symm
  | abandonClaims =>
    refine ⟨⟨hwork.1, Ready.append hwork.2⟩, workerWriteOk_append hlog rfl fun w hw => ?_⟩
    obtain ⟨c, -, rfl⟩ := List.mem_map.mp hw
    trivial
  | insertClaim =>
    exact ⟨⟨hwork.1, Ready.append hwork.2⟩,
      workerWriteOk_append hlog rfl (by simp [WorkerWriteOk])⟩
  | insertAttempt _ hplan =>
    refine ⟨⟨hwork.1, Ready.append hwork.2⟩, workerWriteOk_append hlog rfl fun w hw => ?_⟩
    obtain rfl := List.mem_singleton.mp hw
    exact congrArg some hplan.symm
  | recordLock => exact ⟨hwork, workerWriteOk_append hlog rfl (by simp)⟩
  | recordAttempt => exact ⟨hwork, workerWriteOk_append hlog rfl (by simp [WorkerWriteOk])⟩
  | recordClaim => exact ⟨hwork, workerWriteOk_append hlog rfl (by simp [WorkerWriteOk])⟩
  | completeLock => exact ⟨trivial, workerWriteOk_append hlog rfl (by simp)⟩
  | completePlan hplan =>
    refine ⟨trivial, workerWriteOk_append hlog rfl fun w hw => ?_⟩
    obtain rfl := List.mem_singleton.mp hw
    exact ⟨hfound hplan, rfl, by decide, fun hf => by cases hf⟩
  | completeSnapshot => exact ⟨trivial, workerWriteOk_append hlog rfl (by simp [WorkerWriteOk])⟩
  | completeSnapshotUnder =>
    exact ⟨trivial, workerWriteOk_append hlog rfl (by simp [WorkerWriteOk])⟩
  | incomplete => exact ⟨trivial, workerWriteOk_append hlog rfl (by simp)⟩
  | ready => exact ⟨trivial, workerWriteOk_append hlog rfl (by simp)⟩
  | tombstoneMissing => exact ⟨trivial, workerWriteOk_append hlog rfl (by simp)⟩
  | completeTombstone =>
    exact ⟨trivial, workerWriteOk_append hlog rfl (by simp [WorkerWriteOk])⟩
  | targetKept => exact ⟨trivial, workerWriteOk_append hlog rfl (by simp)⟩
  | completeTarget =>
    refine ⟨trivial, workerWriteOk_append hlog rfl fun w hw => ?_⟩
    obtain rfl := List.mem_singleton.mp hw
    exact Or.inr (by decide)

theorem guard_ok {clock : Time} {target : Target} {toStatus : TargetStatus}
    (h : db.targetGuardStatusTransition clock target toStatus = .ok ()) :
    toStatus = target.status ∨ Transition.isLegal target.status toStatus = true := by
  unfold Db.targetGuardStatusTransition at h
  split_ifs at h with hsame _ _ hlegal
  · exact Or.inl hsame
  · exact Or.inr hlegal

theorem targets_view (hlog : ∀ w ∈ log, TransitionWriteOk g fresh w)
    (hnone : ∀ id f t, .setTargetStatus id f t ∉ log) :
    (db.applyAll log).targets = db.targets := by
  refine foldl_invariant (I := fun d : Db => d.targets = db.targets) (fun d w hw hd => ?_) rfl
  have hok := hlog w hw
  cases w with
  | insertTarget row => exact hok.elim
  | setTargetStatus id f t => exact absurd hw (hnone id f t)
  | _ => exact hd

theorem OnlyRevisions.view (h : OnlyRevisions log) :
    (db.applyAll log).plans = db.plans ∧ (db.applyAll log).tombstones = db.tombstones ∧
      (db.applyAll log).targets = db.targets := by
  refine foldl_invariant (I := fun d : Db => d.plans = db.plans ∧ d.tombstones = db.tombstones ∧
    d.targets = db.targets) (fun d w hw hd => ?_) ⟨rfl, rfl, rfl⟩
  obtain ⟨row, rfl⟩ := h w hw
  exact hd

theorem OnlyRevisions.not_mem (h : OnlyRevisions log) {w : Write}
    (hw : ∀ row, w ≠ .insertRevision row) : w ∉ log := fun hmem => by
  obtain ⟨row, hrow⟩ := h w hmem
  exact hw row hrow

/-- Before anything is cancelled the target row may be written. -/
theorem OnlyRevisions.updateTarget (h : OnlyRevisions log) {request : TransitionRequest}
    {policyRevision : ℕ} {fromStatus : TargetStatus} :
    TransitionOk g fresh db log request (.updateTarget policyRevision fromStatus) :=
  ⟨fun _ _ hmem => absurd hmem (h.not_mem (by simp)), fun _ _ _ => h.not_mem (by simp)⟩

/-- A guarded move to `requested` shows that no plan of the target has started. -/
theorem unstarted_of_guard (hs : Sound g fresh db) {request : TransitionRequest}
    {tombstoneId : Uuid} {clock : Time} {target : Target} {view : Db}
    (hr : Reactivates g fresh db request tombstoneId) (htarget : target ∈ db.targets)
    (hid : target.targetId = request.targetId)
    (hguard : view.targetGuardStatusTransition clock target request.toStatus = .ok ()) :
    Unstarted db tombstoneId := by
  intro p hp hunder
  by_contra hnot
  have hstarted : p.status.hasStarted = true := by simpa using hnot
  obtain ⟨-, -, hnamed⟩ := hs.plans_named p hp tombstoneId hunder
  have hsame : target.targetId = p.targetId := by
    rw [hid, ← hnamed, hr.1.2]
  have hdeleting := hs.deleting p hp (by rw [hunder]; simp) hstarted target htarget hsame
  rw [hr.2.1] at hguard
  rcases guard_ok hguard with heq | hlegal
  · rw [← heq] at hdeleting
    rcases hdeleting with hd | hd <;> cases hd
  · rw [Transition.isLegal_to_requested hlegal] at hdeleting
    rcases hdeleting with hd | hd <;> cases hd

theorem transition_stmt {request : TransitionRequest} {at_ n : TransitionLoc}
    (hs : Sound g fresh db) (hm : m.fresh = fresh) (hrest : at_.atRest = true → log = [])
    (hok : TransitionOk g fresh db log request at_)
    (hlog : ∀ w ∈ log, TransitionWriteOk g fresh w)
    (hstmt : TransitionStmt request m (db.applyAll log) at_ locks writes n) :
    ∃ g', (∀ id, id < fresh → g' id = g id) ∧
      TransitionOk g' (fresh + 1) db (log ++ writes) request n ∧
      ∀ w ∈ log ++ writes, TransitionWriteOk g' (fresh + 1) w := by
  have hbump : ∀ {w g'}, (∀ id, id < fresh → g' id = g id) → TransitionWriteOk g fresh w →
      TransitionWriteOk g' (fresh + 1) w := by
    intro w g' hg hw
    cases w with
    | insertTombstone row =>
      exact ⟨⟨Nat.lt_succ_of_lt hw.1.1, (hg _ hw.1.1).trans hw.1.2⟩, hw.2⟩
    | _ => exact hw
  have hwrites : ∀ {g'}, (∀ id, id < fresh → g' id = g id) →
      (∀ w ∈ writes, TransitionWriteOk g' (fresh + 1) w) →
      ∀ w ∈ log ++ writes, TransitionWriteOk g' (fresh + 1) w := by
    intro g' hg hnew w hw
    rcases List.mem_append.mp hw with hw | hw
    · exact hbump hg (hlog w hw)
    · exact hnew w hw
  have hreact : ∀ {id}, Reactivates g fresh db request id →
      Reactivates g (fresh + 1) db request id :=
    fun h => ⟨⟨Nat.lt_succ_of_lt h.1.1, h.1.2⟩, h.2⟩
  -- Every statement but the insertion of a tombstone keeps the names of the tombstones.
  have hkeep : TransitionOk g (fresh + 1) db (log ++ writes) request n →
      (∀ w ∈ writes, TransitionWriteOk g (fresh + 1) w) → ∃ g', (∀ id, id < fresh → g' id = g id) ∧
        TransitionOk g' (fresh + 1) db (log ++ writes) request n ∧
        ∀ w ∈ log ++ writes, TransitionWriteOk g' (fresh + 1) w :=
    fun hn hw => ⟨g, fun _ _ => rfl, hn, hwrites (fun _ _ => rfl) hw⟩
  cases hstmt with
  | begin =>
    have hnil : log = [] := hrest rfl
    subst hnil
    exact hkeep (by simp [TransitionOk, OnlyRevisions]) (by simp)
  | revisionKnown => exact hkeep (by simpa [TransitionOk] using hok) (by simp)
  | insertRevision =>
    refine hkeep (fun w hw => ?_) (by simp [TransitionWriteOk])
    rcases List.mem_append.mp hw with hw | hw
    · exact hok w hw
    · exact ⟨_, List.mem_singleton.mp hw⟩
  | @lockTarget policyRevision target _ htarget hnext =>
    have honly : OnlyRevisions (log ++ []) := by rw [List.append_nil]; exact hok
    have hknown : request.targetId ∈ db.targets.map (·.targetId) := by
      have hmem : target ∈ (db.applyAll log).targets := List.mem_of_find?_eq_some htarget
      have hid : target.targetId = request.targetId := by simpa using List.find?_some htarget
      rw [(OnlyRevisions.view hok).2.2] at hmem
      exact List.mem_map.mpr ⟨target, hmem, hid⟩
    refine hkeep ?_ (by simp)
    unfold retentionTransition at hnext
    split at hnext
    · split_ifs at hnext
      cases hnext
      exact honly
    · rename_i hrequested
      split_ifs at hnext <;> cases hnext
      · exact ⟨honly, hrequested, hknown⟩
      · exact honly.updateTarget
    · cases hnext
      exact honly.updateTarget
  | tombstoneKept =>
    refine hkeep ?_ (by simp)
    rw [List.append_nil]
    exact OnlyRevisions.updateTarget hok
  | insertTombstone =>
    have hg : ∀ id, id < fresh → Function.update g fresh request.targetId id = g id :=
      fun id hid => Function.update_of_ne (Nat.ne_of_lt hid) _ _
    refine ⟨_, hg, ⟨fun id at_ hmem => ?_, fun id f t hmem => ?_⟩, hwrites hg fun w hw => ?_⟩
    · exact absurd (by simpa using hmem) (OnlyRevisions.not_mem hok (by simp))
    · exact absurd (by simpa using hmem) (OnlyRevisions.not_mem hok (by simp))
    · obtain rfl := List.mem_singleton.mp hw
      refine ⟨⟨?_, ?_⟩, rfl⟩
      · rw [hm]; exact Nat.lt_succ_self fresh
      · rw [hm]; exact Function.update_self ..
  | noTombstone =>
    refine hkeep ?_ (by simp)
    rw [List.append_nil]
    exact OnlyRevisions.updateTarget hok.1
  | @lockTombstone policyRevision fromStatus tombstone hactive =>
    refine hkeep ?_ (by simp)
    rw [List.append_nil]
    have hmem : tombstone ∈ (db.applyAll log).tombstones := List.mem_of_find?_eq_some hactive
    rw [(OnlyRevisions.view hok.1).2.1] at hmem
    have hid := List.find?_some hactive
    simp only [Bool.and_eq_true, beq_iff_eq] at hid
    have hnamed := hs.tombstones_named tombstone hmem
    rw [hid.1] at hnamed
    exact ⟨hok.1, hreact ⟨hnamed, hok.2⟩⟩
  | notStarted =>
    refine hkeep ?_ (by simp)
    rw [List.append_nil]
    exact ⟨hok.1, hreact hok.2⟩
  | @cancelPlans policyRevision fromStatus tombstoneId =>
    have hmap : ∀ w ∈ ((db.applyAll log).cancellablePlans tombstoneId).map
        (fun p => Write.setPlanStatus p.planId .planned .cancelled),
        ∃ id, w = .setPlanStatus id .planned .cancelled := by
      intro w hw
      obtain ⟨p, -, rfl⟩ := List.mem_map.mp hw
      exact ⟨_, rfl⟩
    refine hkeep ⟨hreact hok.2, fun p hp hunder hplanned => ?_, fun id at_ hmem => ?_,
      fun id f t hmem => ?_⟩ fun w hw => ?_
    · refine List.mem_append_right _ (List.mem_map.mpr ⟨p, ?_, rfl⟩)
      have hautomatic := (hs.plans_named p hp tombstoneId hunder).1
      simp [Db.cancellablePlans, Db.plansUnder, (OnlyRevisions.view hok.1).1, hp, hunder,
        hautomatic, hplanned]
    · rcases List.mem_append.mp hmem with hmem | hmem
      · exact absurd hmem (OnlyRevisions.not_mem hok.1 (by simp))
      · obtain ⟨_, hw⟩ := hmap _ hmem
        cases hw
    · rcases List.mem_append.mp hmem with hmem | hmem
      · exact absurd hmem (OnlyRevisions.not_mem hok.1 (by simp))
      · obtain ⟨_, hw⟩ := hmap _ hmem
        cases hw
    · obtain ⟨_, rfl⟩ := hmap w hw
      exact ⟨rfl, rfl⟩
  | tombstoneMissing =>
    refine hkeep ?_ (by simp)
    rw [List.append_nil]
    exact ⟨fun id at_ hmem => absurd hmem (hok.2.2.1 id at_), hok.2.2.2⟩
  | @cancelTombstone policyRevision fromStatus tombstoneId =>
    refine hkeep ⟨fun id at_ hmem => ?_, fun id f t hmem => ?_⟩ (by simp [TransitionWriteOk])
    · rcases List.mem_append.mp hmem with hmem | hmem
      · exact absurd hmem (hok.2.2.1 id at_)
      · obtain ⟨rfl, -⟩ : id = tombstoneId ∧ at_ = m.now := by simpa using hmem
        exact ⟨hreact hok.1, fun p hp hunder hplanned =>
          List.mem_append_left _ (hok.2.1 p hp hunder hplanned)⟩
    · exact hok.2.2.2 id f t (by simpa using hmem)
  | targetMissing hnone =>
    refine hkeep (fun id at_ hmem => ?_) (by simp)
    rw [List.append_nil] at hmem
    obtain ⟨hreactivates, -⟩ := hok.1 id at_ hmem
    obtain ⟨t, ht, hid⟩ := List.mem_map.mp hreactivates.2.2
    rw [← targets_view hlog hok.2] at ht
    exact absurd hid (by simpa using List.find?_eq_none.mp hnone t ht)
  | @updateTarget policyRevision fromStatus target htarget hguard =>
    have hmem : target ∈ (db.applyAll log).targets := List.mem_of_find?_eq_some htarget
    have hid : target.targetId = request.targetId := by simpa using List.find?_some htarget
    rw [targets_view hlog hok.2] at hmem
    refine hkeep (fun id at_ hc => ?_) fun w hw => ?_
    · have hc' : .cancelTombstone id at_ ∈ log := by simpa using hc
      obtain ⟨hreactivates, hcancelling⟩ := hok.1 id at_ hc'
      exact ⟨fun p hp hunder hplanned =>
          List.mem_append_left _ (hcancelling p hp hunder hplanned),
        unstarted_of_guard hs hreactivates hmem hid hguard⟩
    · obtain rfl := List.mem_singleton.mp hw
      exact (guard_ok hguard).imp_left Eq.symm
  | noEvent =>
    refine hkeep ?_ (by simp)
    rw [List.append_nil]
    exact hok
  | insertEvent =>
    refine hkeep (fun id at_ hc => ?_) (by simp [TransitionWriteOk])
    have hc' : .cancelTombstone id at_ ∈ log := by simpa using hc
    obtain ⟨hcancelling, hunstarted⟩ := hok id at_ hc'
    exact ⟨fun p hp hunder hplanned => List.mem_append_left _ (hcancelling p hp hunder hplanned),
      hunstarted⟩

theorem commits_of_worker {at_ : WorkerLoc} (hwork : WorkerOk fresh db log at_)
    (hlog : ∀ w ∈ log, WorkerWriteOk fresh db at_ w) : Commits g fresh db log where
  no_target t hw := hlog _ hw
  no_plan p hw := hlog _ hw
  target_legal id f t hw := hlog _ hw
  plan_legal id f t hw := (hlog _ hw).2.1
  starts id hw p hp hid hunder := (hlog _ hw).2.2.2 rfl p hp hid hunder
  attempts a hw := by
    have hcommitting : committing at_ = some a.planId := hlog _ hw
    have hclaim : a.planId < fresh ∧ Ready db log a.planId := by
      unfold committing at hcommitting
      split at hcommitting
      · rw [← Option.some.inj hcommitting]; exact ⟨hwork.1.1.1, hwork.2⟩
      · rw [← Option.some.inj hcommitting]; exact ⟨hwork.1.1.1, hwork.2⟩
      · cases hcommitting
    exact ⟨hclaim.1, hclaim.2, fun f t hft => (hlog _ hft).2.2.1⟩
  tombstones t hw := (hlog _ hw).elim
  cancels id at_ hw := (hlog _ hw).elim

theorem commits_of_transition {request : TransitionRequest}
    (hok : TransitionOk g fresh db log request .commit)
    (hlog : ∀ w ∈ log, TransitionWriteOk g fresh w) : Commits g fresh db log where
  no_target t hw := hlog _ hw
  no_plan p hw := hlog _ hw
  target_legal id f t hw := hlog _ hw
  plan_legal id f t hw := by
    obtain ⟨rfl, rfl⟩ := hlog _ hw
    rfl
  starts id hw := by
    obtain ⟨-, hcancelled⟩ := hlog _ hw
    cases hcancelled
  attempts a hw := (hlog _ hw).elim
  tombstones t hw := hlog _ hw
  cancels id at_ hw := ⟨hok id at_ hw, fun _ _ _ hft => (hlog _ hft).2⟩

theorem evolves_commit {held : List Lock} (h : Commits g fresh db log)
    (hfree : ∀ id f t, .setPlanStatus id f t ∈ log → .plan id ∉ held) :
    Evolves g fresh db g fresh (db.applyAll log) held where
  fresh_le := Nat.le_refl fresh
  names _ _ := rfl
  plans p' hp' := by
    obtain ⟨p, hp, hsame, hmoved, hwritten, -⟩ := h.origin hp'
    refine Or.inl ⟨p, hp, hsame, hmoved, fun hlock => ?_⟩
    rcases hwritten with heq | ⟨f, t, hw⟩
    · exact heq.symm
    · exact absurd hlock (hfree _ f t hw)
  deletion targetId hd := hd.applyAll h.no_target h.target_legal
  targetIds := Db.targetIds_applyAll h.no_target

theorem evolves_names {g' : Uuid → Uuid} {fresh' : ℕ} {held : List Lock} (hle : fresh ≤ fresh')
    (hg : ∀ id, id < fresh → g' id = g id) : Evolves g fresh db g' fresh' db held where
  fresh_le := hle
  names := hg
  plans p hp := Or.inl ⟨p, hp, rfl, .refl, fun _ => rfl⟩
  deletion _ hd := hd
  targetIds := rfl

end Statements

section Autonomous

variable {g : Uuid → Uuid} {fresh : ℕ} {db : Db} {m : Moment} {locks : List Lock}
  {writes : List Write} {at_ n : WorkerLoc}

theorem workerOk_next {log : List Write} {plan : DeletionExecutionPlan} {tasks : List Task}
    (h : Matches fresh db plan ∧ Authorized db plan) :
    WorkerOk fresh db log (WorkerLoc.next plan tasks) := by
  match tasks with
  | [] => trivial
  | .stage unit :: rest => exact ⟨h, trivial⟩
  | .advance :: rest => exact h
  | .complete :: rest => trivial

theorem commits_of_auto (h : WorkerAuto m db at_ locks writes n) : Commits g fresh db writes := by
  cases h with
  | gate _ hguard =>
    have hlegal := guard_ok hguard
    exact ⟨by simp, by simp, fun id f t hw => by
      obtain ⟨-, rfl, rfl⟩ : _ ∧ _ ∧ _ := by simpa using hw
      exact hlegal.imp_left Eq.symm, by simp, by simp, by simp, by simp, by simp⟩
  | advanceWrite =>
    exact ⟨by simp, by simp, by simp, fun id f t hw => by
      obtain ⟨-, rfl, rfl⟩ : _ ∧ _ ∧ _ := by simpa using hw
      rfl, by simp, by simp, by simp, by simp⟩
  | _ => exact ⟨by simp, by simp, by simp, by simp, by simp, by simp, by simp, by simp⟩

/-- The move of the target that lets a plan of a tombstone run. -/
theorem inDeletion_of_gate (hs : Sound g fresh db) {targetId : Uuid} {target : Target}
    (htarget : db.target? targetId = some target) :
    InDeletion (db.applyAll [.setTargetStatus targetId target.status .deleting]) targetId := by
  intro t ht hid
  obtain ⟨t₀, ht₀, ⟨-, rfl⟩ | ⟨hsel, rfl⟩⟩ := of_mem_updateWhere ht
  · exact Or.inl rfl
  · have hmem : target ∈ db.targets := List.mem_of_find?_eq_some htarget
    have htid : target.targetId = targetId := by simpa using List.find?_some htarget
    obtain rfl := List.inj_on_of_nodup_map hs.targets_nodup ht₀ hmem (hid.trans htid.symm)
    simp [hid] at hsel

theorem matches_of_executionPlan (hs : Sound g fresh db) {planId : Uuid}
    {plan : DeletionExecutionPlan} (h : db.executionPlan? planId = some plan) :
    Matches fresh db plan ∧ (plan.status ≠ .planned → Authorized db plan) := by
  unfold Db.executionPlan? at h
  simp only [Option.bind_eq_some_iff, Option.map_eq_some_iff] at h
  obtain ⟨p, hfind, _, _, _, _, rfl⟩ := h
  have hmem : p ∈ db.plans := List.mem_of_find?_eq_some hfind
  have hpid : p.planId = planId := by simpa using List.find?_some hfind
  have honly : ∀ q ∈ db.plans, q.planId = planId → q = p := fun q hq hid =>
    List.inj_on_of_nodup_map hs.plans_nodup hq hmem (hid.trans hpid.symm)
  refine ⟨⟨hpid ▸ hs.plan_ids p hmem, fun q hq hid => ?_⟩, fun hplanned hunder => ?_⟩
  · rw [honly q hq hid]
    exact ⟨rfl, rfl⟩
  · by_cases hcancelled : p.status = .cancelled
    · right
      intro q hq hid
      rw [honly q hq hid]
      exact hcancelled
    · refine Or.inl (hs.deleting p hmem hunder ?_)
      have hne : p.status ≠ .planned := hplanned
      revert hne hcancelled
      cases p.status <;> decide

theorem workerOk_auto (hs : Sound g fresh db) (hwork : WorkerOk fresh db [] at_)
    (h : WorkerAuto m db at_ locks writes n) :
    WorkerOk fresh (db.applyAll writes) [] n := by
  have hcommits : Commits g fresh db writes := commits_of_auto h
  have hev : Evolves g fresh db g fresh (db.applyAll writes) [] :=
    evolves_commit hcommits (by simp)
  cases h with
  | load hplan => exact matches_of_executionPlan hs hplan
  | loadArtifacts => exact hwork
  | loadReplicas => exact hwork
  | completed => trivial
  | toGate => exact hwork.1
  | ungated hstatus =>
    refine workerOk_next ⟨hwork.1, ?_⟩
    rcases hstatus with hnone | hne
    · exact fun hunder => absurd hnone hunder
    · exact hwork.2 hne
  | gateMissing hnone =>
    refine workerOk_next ⟨hwork, fun _ => Or.inl fun t ht hid => ?_⟩
    exact absurd hid (by simpa using List.find?_eq_none.mp hnone t ht)
  | gateRefused => trivial
  | gate htarget =>
    exact workerOk_next ⟨hev.matches hwork, fun _ => Or.inl (inDeletion_of_gate hs htarget)⟩
  | advanceRead => exact hwork
  | advanceWrite => exact workerOk_next ⟨hev.matches hwork.1, hev.authorized hwork.1.1 hwork.2⟩

theorem Sound.mono (hs : Sound g fresh db) {g' : Uuid → Uuid} {fresh' : ℕ} (hle : fresh ≤ fresh')
    (hg : ∀ id, id < fresh → g' id = g id) : Sound g' fresh' db :=
  { hs with
    plan_ids := fun p hp => Nat.lt_of_lt_of_le (hs.plan_ids p hp) hle
    attempt_ids := fun a ha => Nat.lt_of_lt_of_le (hs.attempt_ids a ha) hle
    plans_named := fun p hp id hid => by
      obtain ⟨hautomatic, hlt, hname⟩ := hs.plans_named p hp id hid
      exact ⟨hautomatic, Nat.lt_of_lt_of_le hlt hle, (hg id hlt).trans hname⟩
    tombstones_named := fun t ht => by
      obtain ⟨hlt, hname⟩ := hs.tombstones_named t ht
      exact ⟨Nat.lt_of_lt_of_le hlt hle, (hg _ hlt).trans hname⟩ }

/-- A plan is created under a tombstone that is not cancelled. -/
theorem Sound.insertPlan (hs : Sound g fresh db) {row : DeletionPlan} (hid : row.planId = fresh)
    (hstatus : row.status = .planned)
    (hnamed : ∀ tombstoneId, row.tombstoneId = some tombstoneId → row.automatic = true ∧
      Named g fresh tombstoneId row.targetId ∧
      ∀ t ∈ db.tombstones, t.tombstoneId = tombstoneId → t.cancelledAt = none) :
    Sound g (fresh + 1) (db.apply (.insertPlan row)) := by
  have hs' : Sound g (fresh + 1) db := hs.mono (Nat.le_succ fresh) (fun _ _ => rfl)
  have hmem : ∀ p ∈ (db.apply (.insertPlan row)).plans, p ∈ db.plans ∨ p = row := by
    intro p hp
    rcases List.mem_append.mp hp with hp | hp
    · exact Or.inl hp
    · exact Or.inr (List.mem_singleton.mp hp)
  refine ⟨hs'.targets_nodup, ?_, ?_, hs'.attempt_ids, ?_, hs'.tombstones_named, ?_, ?_, ?_⟩
  · have hids : (db.apply (.insertPlan row)).plans.map (·.planId)
        = db.plans.map (·.planId) ++ [row.planId] := by simp [Db.apply]
    rw [hids, List.nodup_append]
    refine ⟨hs.plans_nodup, by simp, fun id hmem id' hmem' heq => ?_⟩
    obtain ⟨p, hp, rfl⟩ := List.mem_map.mp hmem
    obtain rfl := List.mem_singleton.mp hmem'
    exact absurd (heq.trans hid) (Nat.ne_of_lt (hs.plan_ids p hp))
  · intro p hp
    rcases hmem p hp with hp | rfl
    · exact hs'.plan_ids p hp
    · rw [hid]; exact Nat.lt_succ_self fresh
  · intro p hp tombstoneId htombstone
    rcases hmem p hp with hp | rfl
    · exact hs'.plans_named p hp tombstoneId htombstone
    · obtain ⟨hautomatic, hname, -⟩ := hnamed tombstoneId htombstone
      exact ⟨hautomatic, Nat.lt_succ_of_lt hname.1, hname.2⟩
  · intro t ht hcancelled p hp hunder
    rcases hmem p hp with hp | rfl
    · exact hs'.cancelled t ht hcancelled p hp hunder
    · rw [(hnamed _ hunder).2.2 t ht rfl] at hcancelled
      cases hcancelled
  · intro a ha p hp hpid
    rcases hmem p hp with hp | rfl
    · exact hs'.attempted a ha p hp hpid
    · exact absurd (hpid.symm.trans hid) (Nat.ne_of_lt (hs.attempt_ids a ha))
  · intro p hp hunder hstarted
    rcases hmem p hp with hp | rfl
    · exact hs'.deleting p hp hunder hstarted
    · rw [hstatus] at hstarted
      cases hstarted

theorem evolves_insertPlan {row : DeletionPlan} {held : List Lock} (hid : row.planId = fresh)
    (hstatus : row.status = .planned)
    (hfree : ∀ tombstoneId, row.tombstoneId = some tombstoneId → .tombstone tombstoneId ∉ held) :
    Evolves g fresh db g (fresh + 1) (db.apply (.insertPlan row)) held where
  fresh_le := Nat.le_succ fresh
  names _ _ := rfl
  plans p hp := by
    rcases List.mem_append.mp hp with hp | hp
    · exact Or.inl ⟨p, hp, rfl, .refl, fun _ => rfl⟩
    · rw [List.mem_singleton.mp hp]
      exact Or.inr ⟨Nat.le_of_eq hid.symm, hstatus, hfree⟩
  deletion _ hd := hd
  targetIds := rfl

end Autonomous

section Steps

variable {settings : Settings} {g g' : Uuid → Uuid} {s s' : State} {i : ℕ}

theorem Inv.of_evolves (h : Inv g s) (hsound : Sound g' s'.fresh s'.db)
    (hlocked : Locked discipline s')
    (hsessions : ∀ j, (s'.session j = s.session j ∧ Evolves g s.fresh s.db g' s'.fresh s'.db
        (needs (s.session j).loc (s.session j).log)) ∨
      SessionOk g' s'.fresh s'.db (s'.session j)) : Inv g' s' where
  sound := hsound
  locked := hlocked
  sessions j := by
    rcases hsessions j with ⟨hsame, hev⟩ | hok
    · rw [hsame]
      exact hev.sessionOk (h.sessions j)
    · exact hok

/-- Session `i` moves and the database stays as it is. -/
theorem Inv.moved {σ : Session Write Loc} (h : Inv g s) (hlocked : Locked discipline s')
    (hg : ∀ id, id < s.fresh → g' id = g id) (hdb : s'.db = s.db) (hfresh : s.fresh ≤ s'.fresh)
    (hsession : s'.session = (s.setSession i σ).session)
    (hok : SessionOk g' s'.fresh s.db σ) : Inv g' s' := by
  refine h.of_evolves (by rw [hdb]; exact h.sound.mono hfresh hg) hlocked fun j => ?_
  rw [hsession, hdb]
  by_cases hji : j = i
  · subst hji
    rw [State.setSession_session_self]
    exact Or.inr hok
  · rw [State.setSession_session_of_ne hji]
    exact Or.inl ⟨rfl, evolves_names hfresh hg⟩

/-- Session `i` ends a transaction, or a statement of its own, with these writes. -/
theorem Inv.committed {σ : Session Write Loc} {log : List Write} (h : Inv g s)
    (hlocked : Locked discipline s') (hcommits : Commits g s.fresh s.db log)
    (hdb : s'.db = s.db.applyAll log) (hfresh : s.fresh ≤ s'.fresh)
    (hsession : s'.session = (s.setSession i σ).session)
    (hfree : ∀ j, j ≠ i → ∀ id f t, .setPlanStatus id f t ∈ log →
      .plan id ∉ needs (s.session j).loc (s.session j).log)
    (hok : SessionOk g s'.fresh s'.db σ) : Inv g s' := by
  refine h.of_evolves (by rw [hdb]; exact (h.sound.commit hcommits).mono hfresh fun _ _ => rfl)
    hlocked fun j => ?_
  rw [hsession]
  by_cases hji : j = i
  · subst hji
    rw [State.setSession_session_self]
    exact Or.inr hok
  · rw [State.setSession_session_of_ne hji]
    refine Or.inl ⟨rfl, ?_⟩
    have hev := evolves_commit hcommits (hfree j hji)
    rw [hdb]
    exact { hev with fresh_le := hfresh }

theorem sessionOk_mono {db : Db} {fresh fresh' : ℕ} {σ : Session Write Loc} (hle : fresh ≤ fresh')
    (h : SessionOk g fresh db σ) : SessionOk g fresh' db σ :=
  (evolves_names hle fun _ _ => rfl).sessionOk h

/-- Nobody else can have locked a plan row that session `i` has written. -/
theorem free_of_log (h : Inv g s) : ∀ j, j ≠ i → ∀ id f t,
    .setPlanStatus id f t ∈ (s.session i).log →
    .plan id ∉ needs (s.session j).loc (s.session j).log :=
  fun _ hji id f t hw hlock => hji (h.locked.unique hlock
    (mem_needs_of_write (w := .setPlanStatus id f t) hw (List.mem_singleton.mpr rfl)))

theorem Inv.commit (h : Inv g s) {next : Loc} {io : IoResult}
    (hlocked : Locked discipline ((machine settings).afterCommit s i next))
    (hact : act settings (s.session i).loc (s.moment i) ((machine settings).view s i) s.world io
      = some (.commit next)) : Inv g ((machine settings).afterCommit s i next) := by
  have hσ := h.sessions i
  unfold SessionOk at hσ
  cases hloc : (s.session i).loc with
  | idle => rw [hloc] at hact; cases hact
  | capture at_ => rw [hloc] at hσ; exact hσ.elim
  | worker at_ =>
    rw [hloc] at hact hσ
    obtain ⟨n, rfl, hcommit⟩ := act_worker_commit hact
    have hcommits : Commits g s.fresh s.db (s.session i).log := commits_of_worker hσ.1 hσ.2
    have hev : Evolves g s.fresh s.db g s.fresh (s.db.applyAll (s.session i).log) [] :=
      evolves_commit hcommits (by simp)
    refine h.committed (σ := ⟨.worker n, [], none⟩) hlocked hcommits rfl (Nat.le_refl _) rfl
      (free_of_log h) ⟨?_, fun w hw => absurd hw List.not_mem_nil⟩
    have hnext : ∀ plan : DeletionExecutionPlan, Matches s.fresh s.db plan ∧ Authorized s.db plan →
        Matches s.fresh (s.db.applyAll (s.session i).log) plan ∧
          Authorized (s.db.applyAll (s.session i).log) plan :=
      fun plan hp => ⟨hev.matches hp.1, hev.authorized hp.1.1 hp.2⟩
    cases hcommit with
    | deferred => trivial
    | shared => exact workerOk_next (hnext _ hσ.1.1)
    | claimed => exact hnext _ hσ.1.1
    | recorded => exact workerOk_next (hnext _ hσ.1)
    | failed => trivial
    | completed => trivial
  | transition request at_ =>
    rw [hloc] at hact hσ
    obtain ⟨rfl, rfl⟩ := act_transition_commit hact
    exact h.committed (σ := ⟨.transition request (.finished (.ok ())), [], none⟩) hlocked
      (commits_of_transition hσ.1 hσ.2) rfl (Nat.le_refl _) rfl (free_of_log h)
      ⟨trivial, fun w hw => absurd hw List.not_mem_nil⟩

theorem Inv.stmt (h : Inv g s) {next : Loc} {io : IoResult} {locks : List Lock}
    {writes : List Write} (hlocked : Locked discipline (Machine.afterStmt s i locks writes next))
    (hact : act settings (s.session i).loc (s.moment i) ((machine settings).view s i) s.world io
      = some (.stmt locks writes next)) :
    ∃ g', Inv g' (Machine.afterStmt s i locks writes next) := by
  have hσ := h.sessions i
  have hunwritten := h.locked.unwritten i
  unfold SessionOk at hσ
  cases hloc : (s.session i).loc with
  | idle => rw [hloc] at hact; cases hact
  | capture at_ => rw [hloc] at hσ; exact hσ.elim
  | worker at_ =>
    rw [hloc] at hact hσ hunwritten
    obtain ⟨n, rfl, hstmt⟩ := act_worker_stmt hact
    have hnew := worker_stmt h.sound hunwritten hσ.1 hσ.2 hstmt
    have hok : SessionOk g s.fresh s.db
        ⟨.worker n, (s.session i).log ++ writes, some (s.moment i).now⟩ := hnew
    exact ⟨g, h.moved hlocked (fun _ _ => rfl) rfl (Nat.le_succ _) rfl
      (sessionOk_mono (Nat.le_succ _) hok)⟩
  | transition request at_ =>
    rw [hloc] at hact hσ hunwritten
    obtain ⟨n, rfl, hstmt⟩ := act_transition_stmt hact
    obtain ⟨g', hg, hn, hw⟩ := transition_stmt h.sound rfl hunwritten hσ.1 hσ.2 hstmt
    have hok : SessionOk g' (s.fresh + 1) s.db
        ⟨.transition request n, (s.session i).log ++ writes, some (s.moment i).now⟩ := ⟨hn, hw⟩
    exact ⟨g', h.moved hlocked hg rfl (Nat.le_succ _) rfl hok⟩

theorem Inv.auto (h : Inv g s) {next : Loc} {io : IoResult} {locks : List Lock}
    {writes : List Write} (hfree : s.available i locks = true)
    (hlocked : Locked discipline ((machine settings).afterAuto s i writes next))
    (hact : act settings (s.session i).loc (s.moment i) ((machine settings).view s i) s.world io
      = some (.auto locks writes next)) : Inv g ((machine settings).afterAuto s i writes next) := by
  have hσ := h.sessions i
  have hunwritten := h.locked.unwritten i
  unfold SessionOk at hσ
  cases hloc : (s.session i).loc with
  | idle => rw [hloc] at hact; cases hact
  | capture at_ => rw [hloc] at hσ; exact hσ.elim
  | transition request at_ =>
    rw [hloc] at hact
    obtain ⟨n, hn, -⟩ := map_eq_auto hact
    exact absurd hn applyTransition_ne_auto
  | worker at_ =>
    rw [hloc] at hact hσ hunwritten
    obtain ⟨n, rfl, hauto⟩ := act_worker_auto hact
    have hrest : at_.atRest = true := by
      cases hauto <;> rfl
    have hnil : (s.session i).log = [] := hunwritten hrest
    have hview : (machine settings).view s i = s.db := by
      simp [Machine.view, hnil]
    rw [hview] at hauto
    rw [hnil] at hσ
    refine h.committed (σ := ⟨.worker n, [], none⟩) hlocked (commits_of_auto hauto) rfl
      (Nat.le_succ _) rfl (fun j hji id f t hw hlock => ?_)
      (sessionOk_mono (Nat.le_succ _) ⟨workerOk_auto h.sound hσ.1 hauto,
        fun w hw => absurd hw List.not_mem_nil⟩)
    -- The statement waited for every row it updates.
    have hmem : .plan id ∈ locks := by
      cases hauto <;> simp at hw ⊢
      exact hw.1
    exact hji (Machine.available_iff.mp hfree _ j (h.locked.holds j _ hlock) hmem)

theorem Inv.op (h : Inv g s) {o : Op} {locks : List Lock} {writes : List Write}
    (hok : PlansFollowTombstones s (.op o))
    (hlocked : Locked discipline ((machine settings).afterOp s writes))
    (hop : operate s.db { now := s.clock, clock := s.clock, fresh := s.fresh } o
      = some (locks, writes)) (hfree : ∀ l j, (l, j) ∈ s.held → l ∉ locks) :
    Inv g ((machine settings).afterOp s writes) := by
  -- Pins leave plans, tombstones and targets alone.
  have hpin : (∀ w ∈ writes, (∃ row, w = .insertPin row) ∨ ∃ id at_, w = .revokePin id at_) →
      Inv g ((machine settings).afterOp s writes) := by
    intro hw
    have hnot : ∀ {w}, (∀ row, w ≠ .insertPin row) → (∀ id at_, w ≠ .revokePin id at_) →
        w ∉ writes := by
      intro w hinsert hrevoke hmem
      rcases hw w hmem with ⟨row, hrow⟩ | ⟨id, at_, hrow⟩
      · exact hinsert row hrow
      · exact hrevoke id at_ hrow
    have hcommits : Commits g s.fresh s.db writes :=
      { no_target := fun _ => hnot (by simp) (by simp)
        no_plan := fun _ => hnot (by simp) (by simp)
        target_legal := fun _ _ _ hmem => absurd hmem (hnot (by simp) (by simp))
        plan_legal := fun _ _ _ hmem => absurd hmem (hnot (by simp) (by simp))
        starts := fun _ hmem => absurd hmem (hnot (by simp) (by simp))
        attempts := fun _ hmem => absurd hmem (hnot (by simp) (by simp))
        tombstones := fun _ hmem => absurd hmem (hnot (by simp) (by simp))
        cancels := fun _ _ hmem => absurd hmem (hnot (by simp) (by simp)) }
    refine h.of_evolves ((h.sound.commit hcommits).mono (Nat.le_succ _) fun _ _ => rfl) hlocked
      fun j => Or.inl ⟨rfl, ?_⟩
    have hev : Evolves g s.fresh s.db g s.fresh (s.db.applyAll writes)
        (needs (s.session j).loc (s.session j).log) :=
      evolves_commit hcommits fun _ _ _ hmem => absurd hmem (hnot (by simp) (by simp))
    exact { hev with fresh_le := Nat.le_succ _ }
  cases o with
  | pinSnapshot snapshotId source sourceReference =>
    refine hpin ?_
    simp only [operate] at hop
    split_ifs at hop <;> cases hop <;> simp
  | revokeSnapshotPin pinId =>
    refine hpin ?_
    simp only [operate] at hop
    split at hop <;> cases hop
    simp
  | createDeletionPlan request =>
    simp only [operate, createDeletionPlan] at hop
    split_ifs at hop with _ _ _ hallowed
    · cases hop
      exact hpin (by simp)
    · cases hop
      have hplan : planAllowed s.db request = true := by simpa using hallowed
      simp only [planAllowed, Bool.and_eq_true, Option.all_eq_true] at hplan
      refine h.of_evolves (h.sound.insertPlan rfl rfl fun tombstoneId htombstone => ?_) hlocked
        fun j => Or.inl ⟨rfl, evolves_insertPlan rfl rfl fun tombstoneId htombstone hlock => ?_⟩
      · obtain ⟨hautomatic, hall⟩ := hok tombstoneId htombstone
        obtain ⟨t, ht⟩ := Option.isSome_iff_exists.mp (hplan.1.2 tombstoneId htombstone)
        have hmem : t ∈ s.db.tombstones := List.mem_of_find?_eq_some ht
        have hid : t.tombstoneId = tombstoneId := by simpa using List.find?_some ht
        have hnamed := h.sound.tombstones_named t hmem
        rw [hid, (hall t hmem hid).1] at hnamed
        exact ⟨hautomatic, hnamed, fun t ht hid => (hall t ht hid).2⟩
      · have htombstone' : request.tombstoneId = some tombstoneId := htombstone
        refine hfree _ j (h.locked.holds j _ hlock) ?_
        simp [htombstone']

theorem inv_step : ∀ s l s', (∃ g, Inv g s) → PlansFollowTombstones s l →
    (machine settings).step s l = some s' → ∃ g, Inv g s' := by
  have hnil : ∀ {P : Write → Prop}, ∀ w ∈ ([] : List Write), P w :=
    fun w hw => absurd hw List.not_mem_nil
  refine Locked.preserved respects (fun s ⟨g, h⟩ => h.locked) ?_
  refine Machine.step_induction ?_ ?_ ?_ ?_ ?_ ?_ ?_ ?_ ?_
  · intro s i proc h ⟨hok, hl⟩ _ hl'
    obtain ⟨g, h⟩ := h hl
    cases proc with
    | runPlan planId =>
      exact ⟨g, h.moved (σ := ⟨.worker (.load planId), [], none⟩) hl' (fun _ _ => rfl) rfl
        (Nat.le_refl _) rfl ⟨trivial, hnil⟩⟩
    | transition request =>
      exact ⟨g, h.moved (σ := ⟨.transition request .begin, [], none⟩) hl' (fun _ _ => rfl) rfl
        (Nat.le_refl _) rfl ⟨trivial, hnil⟩⟩
    | _ => exact hok.elim
  · intro s i io locks writes next h ⟨_, hl⟩ hact _ hl'
    obtain ⟨g, h⟩ := h hl
    exact h.stmt hl' hact
  · intro s i io locks writes next h ⟨_, hl⟩ hact hfree hl'
    obtain ⟨g, h⟩ := h hl
    exact ⟨g, h.auto hfree hl' hact⟩
  · intro s i io next h ⟨_, hl⟩ hact hl'
    obtain ⟨g, h⟩ := h hl
    exact ⟨g, h.commit hl' hact⟩
  · intro s i io next h ⟨_, hl⟩ hact hl'
    obtain ⟨g, h⟩ := h hl
    have hσ := h.sessions i
    unfold SessionOk at hσ
    cases hloc : (s.session i).loc with
    | idle => simp only [hloc] at hact; cases hact
    | capture at_ => rw [hloc] at hσ; exact hσ.elim
    | worker at_ =>
      simp only [hloc] at hact
      obtain rfl := act_worker_rollback hact
      exact ⟨g, h.moved (σ := ⟨.worker (.finished .failed), [], none⟩) hl' (fun _ _ => rfl) rfl
        (Nat.le_refl _) rfl ⟨trivial, hnil⟩⟩
    | transition request at_ =>
      simp only [hloc] at hact
      obtain ⟨n, hn, rfl⟩ := map_eq_rollback hact
      obtain ⟨e, rfl⟩ := applyTransition_rollback hn
      exact ⟨g, h.moved (σ := ⟨.transition request (.finished (.error e)), [], none⟩) hl'
        (fun _ _ => rfl) rfl (Nat.le_refl _) rfl ⟨trivial, hnil⟩⟩
  · intro s i io world next h ⟨_, hl⟩ hact hl'
    obtain ⟨g, h⟩ := h hl
    have hσ := h.sessions i
    unfold SessionOk at hσ
    cases hloc : (s.session i).loc with
    | idle => simp only [hloc] at hact; cases hact
    | capture at_ => rw [hloc] at hσ; exact hσ.elim
    | transition request at_ =>
      simp only [hloc] at hact
      obtain ⟨n, hn, -⟩ := map_eq_call hact
      exact absurd hn applyTransition_ne_call
    | worker at_ =>
      rw [hloc] at hσ
      simp only [hloc] at hact
      obtain ⟨job, object, claimId, attemptId, rfl, -, rfl⟩ := act_worker_call hact
      have hok : SessionOk g s.fresh s.db ⟨.worker (.record job object claimId attemptId
          (deletionEffect settings.worker job s.world io).2 .lock), [], none⟩ := ⟨hσ.1, hnil⟩
      exact ⟨g, h.moved hl' (fun _ _ => rfl) rfl (Nat.le_succ _) rfl
        (sessionOk_mono (Nat.le_succ _) hok)⟩
  · intro s i h ⟨_, hl⟩ hl'
    obtain ⟨g, h⟩ := h hl
    exact ⟨g, h.moved (σ := ⟨.idle, [], none⟩) hl' (fun _ _ => rfl) rfl (Nat.le_refl _) rfl
      trivial⟩
  · intro s o locks writes h ⟨hok, hl⟩ hop hfree hl'
    obtain ⟨g, h⟩ := h hl
    exact ⟨g, h.op hok hl' hop hfree⟩
  · intro s n h ⟨_, hl⟩ hl'
    obtain ⟨g, h⟩ := h hl
    exact ⟨g, h.sound, hl', h.sessions⟩

theorem inv_initial {db : Db} (h : BeforeRetention db) (storage : Storage) (clock fresh : ℕ) :
    Inv (fun _ => 0) (initial db storage clock fresh) := by
  refine ⟨⟨h.targets_nodup, ?_, ?_, ?_, ?_, ?_, ?_, ?_, ?_⟩, locked_initial .., fun _ => trivial⟩ <;>
    simp [initial, h.no_plans, h.no_tombstones, h.no_attempts]

end Steps

end Exclusion

/-- Reactivation and the start of deletion exclude each other while every plan of a tombstone is
one that cancellation of the tombstone takes along. -/
theorem reactivation_excludes_deletion (settings : Settings) {db : Db} (h : BeforeRetention db)
    (storage : Storage) (clock fresh : ℕ) :
    ReactivationExcludesDeletion PlansFollowTombstones settings
      (initial db storage clock fresh) := by
  intro s hreach t ht hcancelled p hp hunder a ha hid
  obtain ⟨g, hinv⟩ := Reach.invariant (I := fun s => ∃ g, Exclusion.Inv g s)
    ⟨_, Exclusion.inv_initial h storage clock fresh⟩ Exclusion.inv_step hreach
  have hstarted := hinv.sound.attempted a ha p hp hid.symm
  rw [hinv.sound.cancelled t ht hcancelled p hp hunder] at hstarted
  cases hstarted

namespace Sample

def reactivate (policyRevision : ℕ) : Proc :=
  .transition
    { targetId := 1, toStatus := .requested, governing := governing policyRevision .gitMirror }

/-- An operator's plan survives the cancellation of its tombstone and runs under the next one. -/
def planOutlivesTombstone : List Label :=
  .start 0 (exclude 1) :: List.replicate 7 (.exec 0 .ok) ++
    [.op (.createDeletionPlan (planRequest 4 103 false))] ++
    .start 0 (reactivate 2) :: List.replicate 10 (.exec 0 .ok) ++
    .start 0 (exclude 3) :: List.replicate 7 (.exec 0 .ok) ++
    [.op (.createDeletionPlan (planRequest 5 119 true)), .tick graceSeconds] ++
    .start 1 (.runPlan 106) :: List.replicate 16 (.exec 1 .ok)

end Sample

/-- The second tombstone lets the operator's plan start under the cancelled first one. -/
theorem deletion_under_cancelled_tombstone :
    ¬ ReactivationExcludesDeletion OnlyTransitionsAndPlans Sample.settings
      (initial Sample.twoSnapshots Sample.storage 10 100) := by
  intro h
  obtain ⟨s, hrun, hs⟩ : ∃ s, run (machine Sample.settings).step
      (initial Sample.twoSnapshots Sample.storage 10 100) Sample.planOutlivesTombstone = some s ∧
      (s.db.tombstones.any fun t => t.cancelledAt.isSome &&
        s.db.plans.any fun p => p.tombstoneId == some t.tombstoneId &&
          s.db.attempts.any fun a => a.planId == p.planId) = true :=
    exists_of_run_any (by decide +kernel)
  simp only [List.any_eq_true, Bool.and_eq_true, beq_iff_eq] at hs
  obtain ⟨t, ht, hcancelled, p, hp, hunder, a, ha, hid⟩ := hs
  have hreach : Reach (machine Sample.settings).step OnlyTransitionsAndPlans
      (initial Sample.twoSnapshots Sample.storage 10 100) s :=
    Reach.of_run hrun (along_of_forall (by
      simp [Sample.planOutlivesTombstone, OnlyTransitionsAndPlans, Sample.exclude,
        Sample.reactivate]) _)
  exact h s hreach t ht hcancelled p hp hunder a ha hid

theorem reactivation_excludes_deletion_two_snapshots :
    BeforeRetention Sample.twoSnapshots ∧
      ReactivationExcludesDeletion PlansFollowTombstones Sample.settings
        (initial Sample.twoSnapshots Sample.storage 10 100) := by
  have h : BeforeRetention Sample.twoSnapshots := by
    constructor <;> decide
  exact ⟨h, reactivation_excludes_deletion Sample.settings h Sample.storage 10 100⟩

end Retention

end RatatoskrVault
