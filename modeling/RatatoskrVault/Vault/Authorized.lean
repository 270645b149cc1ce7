import RatatoskrVault.Lib.Written
import RatatoskrVault.Vault.Reactivation

/-! What authorizes a deletion plan: the evaluation, the candidate and the tombstone its request
names, and which of them the creation of the plan compares. -/
namespace RatatoskrVault

open Lib

/-- The two classifications a plan may be selected under. -/
def RetentionCandidateClassification.isEligible : RetentionCandidateClassification → Bool
  | .eligibleOrdinary => true
  | .eligibleInactiveTarget => true
  | _ => false

/-- The evaluation is of the target and has the snapshot among its candidates, eligible where the
plan is automatic. -/
def RetentionEvaluation.selects (e : RetentionEvaluation) (targetId snapshotId : Uuid)
    (automatic : Bool) : Bool :=
  e.targetId == targetId && e.candidates.any fun c =>
    c.snapshotId == snapshotId && (!automatic || c.classification.isEligible)

namespace Retention

variable (db : Db) (request : DeletionPlanRequest)

/-- One of the checks that are made fails: of the numbers, of the snapshot and the target, of the
pins of an automatic plan, or of the rows that are named and the plans that are open. -/
def refuses : Bool :=
  !validateDeletionPlanRequest request ||
  !(db.snapshots.any fun s =>
    s.snapshotId == request.snapshotId && s.targetId == request.targetId) ||
  (request.automatic && db.snapshotIsPinned request.snapshotId) || !planAllowed db request

variable {db request} {m : Moment} {locks : List Lock} {writes : List Write}

end Retention

/-- What of its evidence a plan keeps: the tombstone may be closed later. -/
def Db.Evidences (db : Db) (plan : DeletionPlan) : Prop :=
  (∃ e ∈ db.evaluations, e.evaluationId = plan.evaluationId ∧
    e.selects plan.targetId plan.snapshotId plan.automatic = true) ∧
  ∀ tombstoneId, plan.tombstoneId = some tombstoneId →
    ∃ t ∈ db.tombstones, t.tombstoneId = tombstoneId ∧ t.targetId = plan.targetId

/-- Writes of no new plan. -/
def Write.createsNoPlan : Write → Bool
  | .insertPlan _ => false
  | _ => true

section

variable {m : Moment} {db : Db} {locks : List Lock} {writes : List Write} {plan : DeletionPlan}

/-- Evaluations are append-only, and a tombstone keeps its identity. -/
theorem Db.Evidences.apply (h : db.Evidences plan) (w : Write) : (db.apply w).Evidences plan := by
  obtain ⟨⟨e, he, hid, hselects⟩, htombstone⟩ := h
  have hclosed : ∀ (sel : Tombstone → Bool) (f : Tombstone → Tombstone),
      (∀ t, (f t).tombstoneId = t.tombstoneId ∧ (f t).targetId = t.targetId) →
      ∀ tombstoneId, plan.tombstoneId = some tombstoneId →
        ∃ t ∈ updateWhere sel f db.tombstones,
          t.tombstoneId = tombstoneId ∧ t.targetId = plan.targetId := by
    intro sel f hf tombstoneId hnamed
    obtain ⟨t, ht, hkey, htarget⟩ := htombstone tombstoneId hnamed
    refine ⟨_, mem_updateWhere_of_mem ht, ?_⟩
    split_ifs
    · exact ⟨(hf t).1.trans hkey, (hf t).2.trans htarget⟩
    · exact ⟨hkey, htarget⟩
  cases w with
  | insertEvaluation row => exact ⟨⟨e, List.mem_append_left _ he, hid, hselects⟩, htombstone⟩
  | insertTombstone row =>
    refine ⟨⟨e, he, hid, hselects⟩, fun tombstoneId hnamed => ?_⟩
    obtain ⟨t, ht, hkey, htarget⟩ := htombstone tombstoneId hnamed
    exact ⟨t, List.mem_append_left _ ht, hkey, htarget⟩
  | cancelTombstone tombstoneId at_ =>
    exact ⟨⟨e, he, hid, hselects⟩, hclosed _ _ fun t => ⟨rfl, rfl⟩⟩
  | completeTombstone tombstoneId at_ =>
    exact ⟨⟨e, he, hid, hselects⟩, hclosed _ _ fun t => ⟨rfl, rfl⟩⟩
  | _ => exact ⟨⟨e, he, hid, hselects⟩, htombstone⟩

theorem TransitionStmt.createsNoPlan {request : TransitionRequest} {at_ next : TransitionLoc}
    (h : TransitionStmt request m db at_ locks writes next) :
    ∀ w ∈ writes, w.createsNoPlan = true := by
  cases h <;> simp [Write.createsNoPlan]

theorem CycleStmt.createsNoPlan {at_ next : CycleLoc} (h : CycleStmt m db at_ locks writes next) :
    ∀ w ∈ writes, w.createsNoPlan = true := by
  cases h with
  | transition h => exact h.createsNoPlan
  | _ => simp [Write.createsNoPlan]

theorem CommandStmt.createsNoPlan {at_ next : CommandLoc}
    (h : CommandStmt m db at_ locks writes next) : ∀ w ∈ writes, w.createsNoPlan = true := by
  cases h with
  | apply h => exact h.createsNoPlan
  | _ => simp [Write.createsNoPlan]

theorem StatusAuto.createsNoPlan {targetId : Uuid} {status : TargetStatus}
    (h : StatusAuto m db targetId status locks writes) :
    ∀ w ∈ writes, w.createsNoPlan = true := by
  cases h <;> simp [Write.createsNoPlan]

theorem MirrorStmt.createsNoPlan {settings : MirrorLifecycleSettings} {at_ next : MirrorLoc}
    (h : MirrorStmt settings db at_ locks writes next) : ∀ w ∈ writes, w.createsNoPlan = true := by
  cases h <;> simp [Write.createsNoPlan]

theorem MirrorAuto.createsNoPlan {settings : MirrorLifecycleSettings} {storage : MirrorStorage}
    {at_ next : MirrorLoc} (h : MirrorAuto settings m db storage at_ locks writes next) :
    ∀ w ∈ writes, w.createsNoPlan = true := by
  cases h with
  | started h => exact h.createsNoPlan
  | setStatus h => exact h.createsNoPlan
  | setLfsDegraded h => exact h.createsNoPlan
  | _ => simp [Write.createsNoPlan]

theorem Retention.SessionStmt.createsNoPlan {loc next : Retention.Loc}
    (h : Retention.SessionStmt m db loc locks writes next) :
    ∀ w ∈ writes, w.createsNoPlan = true := by
  cases h with
  | worker h => cases h <;> simp [Write.createsNoPlan]
  | capture h => cases h <;> simp [Write.createsNoPlan]
  | transition h => exact h.createsNoPlan

theorem Retention.SessionAuto.createsNoPlan {loc next : Retention.Loc}
    (h : Retention.SessionAuto m db loc locks writes next) :
    ∀ w ∈ writes, w.createsNoPlan = true := by
  cases h with
  | worker h => cases h <;> simp [Write.createsNoPlan]
  | capture h => simp

end

namespace Vault

section

variable {settings : Settings} {m : Moment} {db : Db} {storage : MirrorStorage} {loc next : Loc}
  {locks : List Lock} {writes : List Write}

theorem SessionStmt.createsNoPlan (h : SessionStmt settings m db loc locks writes next) :
    ∀ w ∈ writes, w.createsNoPlan = true := by
  cases h with
  | command h => exact h.createsNoPlan
  | cycle h => exact h.createsNoPlan
  | mirror h => exact h.createsNoPlan
  | retention h => exact h.createsNoPlan

theorem SessionAuto.createsNoPlan (h : SessionAuto settings m db storage loc locks writes next) :
    ∀ w ∈ writes, w.createsNoPlan = true := by
  cases h with
  | command h => simp
  | cycle h => simp
  | mirror h => exact h.createsNoPlan
  | retention h => exact h.createsNoPlan

/-- The operations other than the creation of a plan. -/
theorem OpWrites.createsNoPlan {o : Op} (h : OpWrites m db o locks writes)
    (ho : ∀ request, o ≠ .retention (.createDeletionPlan request)) :
    ∀ w ∈ writes, w.createsNoPlan = true := by
  cases h with
  | retention h =>
    cases h with
    | protectedPinned => simp
    | planned => exact absurd rfl (ho _)
    | _ => simp [Write.createsNoPlan]
  | undiscovered => simp
  | wikiKnown => exact List.forall_mem_map.mpr fun _ _ => rfl
  | wikiEnrolled =>
    exact List.forall_mem_cons.mpr ⟨rfl, List.forall_mem_map.mpr fun _ _ => rfl⟩
  | evaluated => simp [Write.createsNoPlan]

end

namespace Sample

end Sample

end Vault

end RatatoskrVault
