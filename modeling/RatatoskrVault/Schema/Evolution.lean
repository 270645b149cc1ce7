import RatatoskrVault.Lib.Runs
import RatatoskrVault.Schema.Guards

/-! What replaying a log of row writes can do to each table: inserted rows come from the log,
identities never change, and terminal evidence stays. -/
namespace RatatoskrVault

open Lib

/-- The rows differ at most in their status. -/
def DeletionPlan.SameAs (p p' : DeletionPlan) : Prop := p' = { p with status := p'.status }

namespace DeletionPlan.SameAs

variable {p p' q : DeletionPlan}

theorem refl : p.SameAs p := rfl

theorem trans (h : p.SameAs p') (h' : p'.SameAs q) : p.SameAs q := by
  unfold SameAs at *
  rw [h', h]

theorem planId (h : p.SameAs p') : p'.planId = p.planId := by rw [h]
theorem targetId (h : p.SameAs p') : p'.targetId = p.targetId := by rw [h]
theorem snapshotId (h : p.SameAs p') : p'.snapshotId = p.snapshotId := by rw [h]
theorem tombstoneId (h : p.SameAs p') : p'.tombstoneId = p.tombstoneId := by rw [h]
theorem automatic (h : p.SameAs p') : p'.automatic = p.automatic := by rw [h]
theorem notBefore (h : p.SameAs p') : p'.notBefore = p.notBefore := by rw [h]

end DeletionPlan.SameAs

namespace Db

variable {db : Db} {log : List Write}

theorem applyAll_cons {w : Write} : db.applyAll (w :: log) = (db.apply w).applyAll log := rfl

theorem applyAll_append {log' : List Write} :
    db.applyAll (log ++ log') = (db.applyAll log).applyAll log' := List.foldl_append

theorem applyAll_placements : (db.applyAll log).placements = db.placements := by
  induction log generalizing db with
  | nil => rfl
  | cons w log ih =>
    rw [applyAll_cons, ih]
    cases w <;> rfl

theorem mem_artifacts_applyAll {a : SnapshotArtifact} (h : a ∈ db.artifacts) :
    a ∈ (db.applyAll log).artifacts := by
  refine foldl_invariant (I := fun db : Db => a ∈ db.artifacts) (fun db w _ h => ?_) h
  cases w with
  | insertArtifact row => exact List.mem_append_left _ h
  | _ => exact h

theorem of_mem_artifacts_applyAll {a : SnapshotArtifact} (h : a ∈ (db.applyAll log).artifacts) :
    a ∈ db.artifacts ∨ .insertArtifact a ∈ log := by
  induction log generalizing db with
  | nil => exact Or.inl h
  | cons w log ih =>
    rcases ih h with hmem | hlog
    · cases w with
      | insertArtifact row =>
        rcases List.mem_append.mp hmem with hmem | hmem
        · exact Or.inl hmem
        · rw [List.mem_singleton.mp hmem]; exact Or.inr (List.mem_cons_self ..)
      | _ => exact Or.inl hmem
    · exact Or.inr (List.mem_cons_of_mem _ hlog)

/-- A snapshot after a replay was there before or is inserted, deleted in between or not. -/
theorem of_mem_snapshots_applyAll {s' : Snapshot} (h : s' ∈ (db.applyAll log).snapshots) :
    ∃ s, (s ∈ db.snapshots ∨ .insertSnapshot s ∈ log) ∧
      (s' = s ∨ (s' = { s with status := .deleted } ∧ .setSnapshotDeleted s.snapshotId ∈ log)) := by
  induction log generalizing db with
  | nil => exact ⟨s', Or.inl h, Or.inl rfl⟩
  | cons w log ih =>
    obtain ⟨s, hs, hcase⟩ := ih h
    have hcase' : s' = s ∨ (s' = { s with status := .deleted } ∧
        .setSnapshotDeleted s.snapshotId ∈ w :: log) :=
      hcase.imp_right fun h => ⟨h.1, List.mem_cons_of_mem _ h.2⟩
    rcases hs with hs | hs
    · cases w with
      | insertSnapshot row =>
        rcases List.mem_append.mp hs with hs | hs
        · exact ⟨s, Or.inl hs, hcase'⟩
        · refine ⟨s, Or.inr ?_, hcase'⟩
          rw [List.mem_singleton.mp hs]
          exact List.mem_cons_self ..
      | setSnapshotDeleted id =>
        obtain ⟨s₀, hs₀, ⟨hid, rfl⟩ | ⟨-, rfl⟩⟩ := of_mem_updateWhere hs
        · have hid' : s₀.snapshotId = id := by simpa using hid
          refine ⟨s₀, Or.inl hs₀, Or.inr ⟨?_, ?_⟩⟩
          · rcases hcase with rfl | ⟨rfl, -⟩ <;> rfl
          · rw [hid']; exact List.mem_cons_self ..
        · exact ⟨s, Or.inl hs₀, hcase'⟩
      | _ => exact ⟨s, Or.inl hs, hcase'⟩
    · exact ⟨s, Or.inr (List.mem_cons_of_mem _ hs), hcase'⟩

/-- A snapshot the log does not delete keeps its row. -/
theorem mem_snapshots_applyAll {s : Snapshot} (h : s ∈ db.snapshots)
    (hlog : .setSnapshotDeleted s.snapshotId ∉ log) : s ∈ (db.applyAll log).snapshots := by
  refine foldl_invariant (I := fun db : Db => s ∈ db.snapshots) (fun db w hw h => ?_) h
  cases w with
  | insertSnapshot row => exact List.mem_append_left _ h
  | setSnapshotDeleted id =>
    have hne : s.snapshotId ≠ id := fun hid => hlog (hid ▸ hw)
    have hmem := mem_updateWhere_of_mem (p := fun t : Snapshot => t.snapshotId == id)
      (f := fun t => { t with status := .deleted }) h
    simpa [Db.apply, hne] using hmem
  | _ => exact h

/-- An attempt after a replay was there before or is inserted, and only its outcome can differ. -/
theorem of_mem_attempts_applyAll_eq {a' : StageAttempt} (h : a' ∈ (db.applyAll log).attempts) :
    ∃ a, (a ∈ db.attempts ∨ .insertAttempt a ∈ log) ∧ a' = { a with outcome := a'.outcome } ∧
      (a'.outcome = a.outcome ∨ .finishAttempt a.attemptId a'.outcome ∈ log) := by
  induction log generalizing db with
  | nil => exact ⟨a', Or.inl h, rfl, Or.inl rfl⟩
  | cons w log ih =>
    obtain ⟨a, ha, hsame, houtcome⟩ := ih h
    have houtcome' : a'.outcome = a.outcome ∨ .finishAttempt a.attemptId a'.outcome ∈ w :: log :=
      houtcome.imp_right (List.mem_cons_of_mem _)
    rcases ha with ha | ha
    · cases w with
      | insertAttempt row =>
        rcases List.mem_append.mp ha with ha | ha
        · exact ⟨a, Or.inl ha, hsame, houtcome'⟩
        · refine ⟨a, Or.inr ?_, hsame, houtcome'⟩
          rw [List.mem_singleton.mp ha]
          exact List.mem_cons_self ..
      | finishAttempt id outcome =>
        obtain ⟨a₀, ha₀, ⟨hsel, rfl⟩ | ⟨-, rfl⟩⟩ := of_mem_updateWhere ha
        · refine ⟨a₀, Or.inl ha₀, hsame, Or.inr ?_⟩
          rcases houtcome with heq | hfin
          · have hid' : a₀.attemptId = id := by
              simp only [Bool.and_eq_true, beq_iff_eq] at hsel
              exact hsel.1
            rw [heq, hid']
            exact List.mem_cons_self ..
          · exact List.mem_cons_of_mem _ hfin
        · exact ⟨a, Or.inl ha₀, hsame, houtcome'⟩
      | _ => exact ⟨a, Or.inl ha, hsame, houtcome'⟩
    · exact ⟨a, Or.inr (List.mem_cons_of_mem _ ha), hsame, houtcome'⟩

/-- It keeps its key, its plan and its stage. -/
theorem of_mem_attempts_applyAll {a' : StageAttempt} (h : a' ∈ (db.applyAll log).attempts) :
    ∃ a, (a ∈ db.attempts ∨ .insertAttempt a ∈ log) ∧ a'.attemptId = a.attemptId ∧
      a'.planId = a.planId ∧ a'.stage = a.stage ∧
      (a'.outcome = a.outcome ∨ .finishAttempt a.attemptId a'.outcome ∈ log) := by
  obtain ⟨a, ha, hsame, houtcome⟩ := of_mem_attempts_applyAll_eq h
  refine ⟨a, ha, ?_, ?_, ?_, houtcome⟩
  · rw [hsame]
  · rw [hsame]
  · rw [hsame]

/-- An attempt that runs after a replay has not been finished by it. -/
theorem of_running_applyAll {a : StageAttempt} (h : a ∈ (db.applyAll log).attempts)
    (hrunning : a.outcome = .running) :
    (a ∈ db.attempts ∧ ∀ outcome, .finishAttempt a.attemptId outcome ∈ log → outcome = .running) ∨
      .insertAttempt a ∈ log := by
  induction log generalizing db with
  | nil => exact Or.inl ⟨h, fun _ hw => absurd hw List.not_mem_nil⟩
  | cons w log ih =>
    rcases ih h with ⟨ha, hkept⟩ | hnew
    · have hskip : (∀ outcome, w ≠ .finishAttempt a.attemptId outcome) →
          ∀ outcome, .finishAttempt a.attemptId outcome ∈ w :: log → outcome = .running :=
        fun hw outcome hmem =>
          hkept outcome ((List.mem_cons.mp hmem).resolve_left fun heq => hw outcome heq.symm)
      cases w with
      | insertAttempt row =>
        rcases List.mem_append.mp ha with hold | hrow
        · exact Or.inl ⟨hold, hskip fun _ heq => by cases heq⟩
        · rw [List.mem_singleton.mp hrow]
          exact Or.inr (List.mem_cons_self ..)
      | finishAttempt id outcome =>
        obtain ⟨a₀, ha₀, ⟨hsel, rfl⟩ | ⟨hsel, rfl⟩⟩ := of_mem_updateWhere ha
        · simp only [Bool.and_eq_true, beq_iff_eq] at hsel
          -- the update has changed nothing
          obtain rfl : outcome = .running := hrunning
          have hsame : ({ a₀ with outcome := .running } : StageAttempt) = a₀ := by
            rw [← hsel.2]
          refine Or.inl ⟨hsame.symm ▸ ha₀, fun outcome hmem => ?_⟩
          rcases List.mem_cons.mp hmem with heq | hlog
          · cases heq
            rfl
          · exact hkept outcome hlog
        · refine Or.inl ⟨ha₀, hskip fun outcome heq => ?_⟩
          cases heq
          simp [hrunning] at hsel
      | _ => exact Or.inl ⟨ha, hskip fun _ heq => by cases heq⟩
    · exact Or.inr (List.mem_cons_of_mem _ hnew)

/-- An attempt no write finishes stays as it is. -/
theorem mem_attempts_of_unfinished {a : StageAttempt} (h : a ∈ db.attempts)
    (hnone : ∀ outcome, .finishAttempt a.attemptId outcome ∉ log) :
    a ∈ (db.applyAll log).attempts := by
  refine foldl_invariant (I := fun db : Db => a ∈ db.attempts) (fun db w hw h => ?_) h
  cases w with
  | insertAttempt row => exact List.mem_append_left _ h
  | finishAttempt id outcome =>
    have hid : a.attemptId ≠ id := fun heq => hnone outcome (heq ▸ hw)
    have hmem := mem_updateWhere_of_mem (p := fun a : StageAttempt =>
      a.attemptId == id && a.outcome == .running) (f := fun a => { a with outcome }) h
    simpa [Db.apply, hid] using hmem
  | _ => exact h

/-- A claim no write finishes stays as it is, whether it runs or not. -/
theorem mem_claims_of_unfinished {c : PhysicalObjectClaim} (h : c ∈ db.claims)
    (hnone : c.outcome = .running → ∀ outcome, .finishClaim c.claimId outcome ∉ log) :
    c ∈ (db.applyAll log).claims := by
  refine foldl_invariant (I := fun db : Db => c ∈ db.claims) (fun db w hw h => ?_) h
  cases w with
  | insertClaim row => exact List.mem_append_left _ h
  | finishClaim id outcome =>
    have hid : ¬ (c.claimId = id ∧ c.outcome = .running) := fun heq =>
      hnone heq.2 outcome (heq.1 ▸ hw)
    have hmem := mem_updateWhere_of_mem (p := fun c : PhysicalObjectClaim =>
      c.claimId == id && c.outcome == .running) (f := fun c => { c with outcome }) h
    simpa [Db.apply, hid] using hmem
  | _ => exact h

/-- A claim that is inserted is there after the replay, if no write finishes it. -/
theorem mem_claims_of_insert (db : Db) {c : PhysicalObjectClaim} (h : .insertClaim c ∈ log)
    (hnone : ∀ outcome, .finishClaim c.claimId outcome ∉ log) :
    c ∈ (db.applyAll log).claims := by
  obtain ⟨before, after, rfl⟩ := List.append_of_mem h
  rw [applyAll_append, applyAll_cons]
  refine mem_claims_of_unfinished (List.mem_append_right _ (List.mem_singleton.mpr rfl))
    fun _ outcome hw => hnone outcome ?_
  exact List.mem_append_right _ (List.mem_cons_of_mem _ hw)

/-- An attempt keeps its identity, finished in between or not. -/
theorem exists_mem_attempts_applyAll {a : StageAttempt} (h : a ∈ db.attempts) :
    ∃ a' ∈ (db.applyAll log).attempts, a'.attemptId = a.attemptId ∧ a'.planId = a.planId ∧
      a'.stage = a.stage := by
  refine foldl_invariant (I := fun db : Db => ∃ a' ∈ db.attempts, a'.attemptId = a.attemptId ∧
    a'.planId = a.planId ∧ a'.stage = a.stage) (fun db w _ h => ?_) ⟨a, h, rfl, rfl, rfl⟩
  obtain ⟨a', ha', hsame⟩ := h
  cases w with
  | insertAttempt row => exact ⟨a', List.mem_append_left _ ha', hsame⟩
  | finishAttempt id outcome =>
    refine ⟨_, mem_updateWhere_of_mem ha', ?_⟩
    split_ifs <;> exact hsame
  | _ => exact ⟨a', ha', hsame⟩

/-- An attempt the log inserts is there after the replay. -/
theorem exists_mem_attempts_of_insert (db : Db) {a : StageAttempt} (h : .insertAttempt a ∈ log) :
    ∃ a' ∈ (db.applyAll log).attempts, a'.attemptId = a.attemptId ∧ a'.planId = a.planId ∧
      a'.stage = a.stage := by
  obtain ⟨before, after, rfl⟩ := List.append_of_mem h
  rw [applyAll_append, applyAll_cons]
  exact exists_mem_attempts_applyAll (List.mem_append_right _ (List.mem_singleton.mpr rfl))

/-- Finished attempts are immutable. -/
theorem mem_attempts_applyAll {a : StageAttempt} (h : a ∈ db.attempts)
    (hdone : a.outcome ≠ .running) : a ∈ (db.applyAll log).attempts := by
  refine foldl_invariant (I := fun db : Db => a ∈ db.attempts) (fun db w _ h => ?_) h
  cases w with
  | insertAttempt row => exact List.mem_append_left _ h
  | finishAttempt id outcome =>
    have hmem := mem_updateWhere_of_mem (p := fun a : StageAttempt =>
      a.attemptId == id && a.outcome == .running) (f := fun a => { a with outcome }) h
    simpa [Db.apply, hdone] using hmem
  | _ => exact h

/-- A plan after a replay was there before or is inserted, and has moved only as the log moves
plans of its id. -/
theorem of_mem_plans_applyAll {R : Uuid → PlanStatus → PlanStatus → Prop}
    (hrefl : ∀ id status, R id status status)
    (htrans : ∀ id a b c, R id a b → R id b c → R id a c)
    (hlog : ∀ id fromStatus toStatus, .setPlanStatus id fromStatus toStatus ∈ log →
      R id fromStatus toStatus)
    {p' : DeletionPlan} (h : p' ∈ (db.applyAll log).plans) :
    ∃ p, (p ∈ db.plans ∨ .insertPlan p ∈ log) ∧ p.SameAs p' ∧ R p.planId p.status p'.status := by
  induction log generalizing db with
  | nil => exact ⟨p', Or.inl h, rfl, hrefl _ _⟩
  | cons w log ih =>
    obtain ⟨p, hp, hsame, hmoved⟩ :=
      ih (fun id f t hw => hlog id f t (List.mem_cons_of_mem _ hw)) h
    rcases hp with hp | hp
    · cases w with
      | insertPlan row =>
        rcases List.mem_append.mp hp with hp | hp
        · exact ⟨p, Or.inl hp, hsame, hmoved⟩
        · refine ⟨p, Or.inr ?_, hsame, hmoved⟩
          rw [List.mem_singleton.mp hp]
          exact List.mem_cons_self ..
      | setPlanStatus id fromStatus toStatus =>
        obtain ⟨p₀, hp₀, ⟨hsel, rfl⟩ | ⟨-, rfl⟩⟩ := of_mem_updateWhere hp
        · simp only [Bool.and_eq_true, beq_iff_eq] at hsel
          have hstep : R p₀.planId p₀.status toStatus := by
            rw [hsel.1, hsel.2]
            exact hlog id fromStatus toStatus (List.mem_cons_self ..)
          have hfirst : p₀.SameAs { p₀ with status := toStatus } := rfl
          exact ⟨p₀, Or.inl hp₀, hfirst.trans hsame, htrans _ _ _ _ hstep hmoved⟩
        · exact ⟨p, Or.inl hp₀, hsame, hmoved⟩
      | _ => exact ⟨p, Or.inl hp, hsame, hmoved⟩
    · exact ⟨p, Or.inr (List.mem_cons_of_mem _ hp), hsame, hmoved⟩

/-- A plan that a write of the log moves ends in a status its writes lead to. -/
theorem status_of_mem_applyAll {Q : PlanStatus → Prop} {planId : Uuid}
    {fromStatus toStatus : PlanStatus} (hw : .setPlanStatus planId fromStatus toStatus ∈ log)
    (hQ : ∀ f t, .setPlanStatus planId f t ∈ log → Q t) (hinsert : ∀ p, .insertPlan p ∉ log)
    (h : ∀ p ∈ db.plans, p.planId = planId → p.status = fromStatus ∨ Q p.status) :
    ∀ p ∈ (db.applyAll log).plans, p.planId = planId → Q p.status := by
  refine foldl_establish hw
    (I := fun db : Db => ∀ p ∈ db.plans, p.planId = planId → p.status = fromStatus ∨ Q p.status)
    (P := fun db : Db => ∀ p ∈ db.plans, p.planId = planId → Q p.status)
    (fun db w hmem hI => ?_) (fun db hI p hp hid => ?_) (fun db w hmem _ hP => ?_) h
  · cases w with
    | setPlanStatus id f t =>
      refine forall_updateWhere hI fun p _ _ hsel hid => Or.inr ?_
      simp only [Bool.and_eq_true, beq_iff_eq] at hsel
      have hsame : id = planId := hsel.1.symm.trans hid
      exact hQ f t (hsame ▸ hmem)
    | insertPlan row => exact absurd hmem (hinsert row)
    | _ => exact hI
  · obtain ⟨p₀, hp₀, ⟨-, rfl⟩ | ⟨hsel, rfl⟩⟩ := of_mem_updateWhere hp
    · exact hQ _ _ hw
    · rcases hI p hp₀ hid with hfrom | hdone
      · simp [hid, hfrom] at hsel
      · exact hdone
  · cases w with
    | setPlanStatus id f t =>
      refine forall_updateWhere hP fun p _ _ hsel hid => ?_
      simp only [Bool.and_eq_true, beq_iff_eq] at hsel
      have hsame : id = planId := hsel.1.symm.trans hid
      exact hQ f t (hsame ▸ hmem)
    | insertPlan row => exact absurd hmem (hinsert row)
    | _ => exact hP

theorem planIds_applyAll (hinsert : ∀ p, .insertPlan p ∉ log) :
    (db.applyAll log).plans.map (·.planId) = db.plans.map (·.planId) := by
  refine foldl_invariant (I := fun d : Db => d.plans.map (·.planId) = db.plans.map (·.planId))
    (fun d w hw hd => ?_) rfl
  cases w with
  | setPlanStatus id fromStatus toStatus =>
    rw [← hd]
    exact map_updateWhere fun _ => rfl
  | insertPlan row => exact absurd hw (hinsert row)
  | _ => exact hd

theorem targetIds_applyAll (hinsert : ∀ t, .insertTarget t ∉ log) :
    (db.applyAll log).targets.map (·.targetId) = db.targets.map (·.targetId) := by
  refine foldl_invariant
    (I := fun d : Db => d.targets.map (·.targetId) = db.targets.map (·.targetId))
    (fun d w hw hd => ?_) rfl
  cases w with
  | setTargetStatus id fromStatus toStatus =>
    rw [← hd]
    exact map_updateWhere fun _ => rfl
  | insertTarget row => exact absurd hw (hinsert row)
  | _ => exact hd

/-- A tombstone after a replay was there before or is inserted, cancelled by the log or not. -/
theorem of_mem_tombstones_applyAll {t' : Tombstone} (h : t' ∈ (db.applyAll log).tombstones) :
    ∃ t, (t ∈ db.tombstones ∨ .insertTombstone t ∈ log) ∧ t'.tombstoneId = t.tombstoneId ∧
      t'.targetId = t.targetId ∧ (t'.cancelledAt = t.cancelledAt ∨
        ∃ at_, .cancelTombstone t.tombstoneId at_ ∈ log) := by
  induction log generalizing db with
  | nil => exact ⟨t', Or.inl h, rfl, rfl, Or.inl rfl⟩
  | cons w log ih =>
    obtain ⟨t, ht, hid, htarget, hcase⟩ := ih h
    have hcase' : t'.cancelledAt = t.cancelledAt ∨
        ∃ at_, .cancelTombstone t.tombstoneId at_ ∈ w :: log :=
      hcase.imp_right fun ⟨at_, hat⟩ => ⟨at_, List.mem_cons_of_mem _ hat⟩
    rcases ht with ht | ht
    · cases w with
      | insertTombstone row =>
        rcases List.mem_append.mp ht with ht | ht
        · exact ⟨t, Or.inl ht, hid, htarget, hcase'⟩
        · refine ⟨t, Or.inr ?_, hid, htarget, hcase'⟩
          rw [List.mem_singleton.mp ht]
          exact List.mem_cons_self ..
      | cancelTombstone id at_ =>
        obtain ⟨t₀, ht₀, ⟨hsel, rfl⟩ | ⟨-, rfl⟩⟩ := of_mem_updateWhere ht
        · simp only [Bool.and_eq_true, beq_iff_eq] at hsel
          refine ⟨t₀, Or.inl ht₀, hid, htarget, Or.inr ⟨at_, ?_⟩⟩
          rw [hsel.1]
          exact List.mem_cons_self ..
        · exact ⟨t, Or.inl ht₀, hid, htarget, hcase'⟩
      | completeTombstone id at_ =>
        obtain ⟨t₀, ht₀, ⟨-, rfl⟩ | ⟨-, rfl⟩⟩ := of_mem_updateWhere ht
        · exact ⟨t₀, Or.inl ht₀, hid, htarget, hcase'⟩
        · exact ⟨t, Or.inl ht₀, hid, htarget, hcase'⟩
      | _ => exact ⟨t, Or.inl ht, hid, htarget, hcase'⟩
    · exact ⟨t, Or.inr (List.mem_cons_of_mem _ ht), hid, htarget, hcase'⟩

/-- The row a plan id names keeps its identity. -/
theorem plan?_applyAll (log : List Write) {planId : Uuid} {p : DeletionPlan}
    (h : db.plan? planId = some p) :
    ∃ p', (db.applyAll log).plan? planId = some p' ∧ p.SameAs p' := by
  refine foldl_invariant (I := fun db : Db => ∃ p', db.plan? planId = some p' ∧ p.SameAs p')
    (fun db w _ h => ?_) ⟨p, h, rfl⟩
  obtain ⟨p', hp', hsame⟩ := h
  cases w with
  | insertPlan row =>
    refine ⟨p', ?_, hsame⟩
    have hfind : (db.plans ++ [row]).find? (fun q => q.planId == planId) = some p' := by
      rw [List.find?_append, show db.plans.find? (fun q => q.planId == planId) = some p' from hp']
      rfl
    exact hfind
  | setPlanStatus id fromStatus toStatus =>
    have hfind := find?_updateWhere (t := db.plans)
      (p := fun q : DeletionPlan => q.planId == id && q.status == fromStatus)
      (f := fun q => { q with status := toStatus }) (q := fun q => q.planId == planId)
      (fun _ => rfl)
    rw [show db.plans.find? (fun q => q.planId == planId) = some p' from hp'] at hfind
    refine ⟨_, hfind, ?_⟩
    dsimp only
    split_ifs
    · exact hsame.trans rfl
    · exact hsame
  | _ => exact ⟨p', hp', hsame⟩

/-- A plan the log does not insert was there before. -/
theorem of_plan?_applyAll {planId : Uuid} {p' : DeletionPlan}
    (h : (db.applyAll log).plan? planId = some p') (hinsert : ∀ p, .insertPlan p ∉ log) :
    ∃ p, db.plan? planId = some p ∧ p.SameAs p' := by
  cases hplan : db.plan? planId with
  | some p =>
    obtain ⟨p'', hp'', hsame⟩ := plan?_applyAll log hplan
    rw [hp''] at h
    exact ⟨p, rfl, Option.some.inj h ▸ hsame⟩
  | none =>
    have hnone : planId ∉ (db.applyAll log).plans.map (·.planId) := by
      rw [planIds_applyAll hinsert]
      intro hmem
      obtain ⟨p, hp, hid⟩ := List.mem_map.mp hmem
      exact List.find?_eq_none.mp hplan p hp (beq_iff_eq.mpr hid)
    refine absurd (List.mem_map.mpr ⟨p', List.mem_of_find?_eq_some h, ?_⟩) hnone
    have hid := List.find?_some h
    exact beq_iff_eq.mp hid

end Db

end RatatoskrVault
