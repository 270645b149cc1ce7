import RatatoskrVault.Lib.Keys
import RatatoskrVault.Lib.Rely
import RatatoskrVault.Vault.Evidence

/-! What the committed rows say of the tombstones and of the plans under them, whatever the
sessions do: a target has one active tombstone at most, and a plan that has started has an
attempt. -/
namespace RatatoskrVault

open Lib

/-- A revision that every later cycle can read back as a governing record. -/
def Revision.IsGoverned (row : Revision) : Prop :=
  row.policyRevision ≤ i64Max ∧ row.allowed = true

theorem governedInputs_eq_ok {delivery : ValidatedDelivery} {policyRevision : ℕ} :
    governedInputs delivery = .ok policyRevision ↔
      delivery.policyRevision = some policyRevision ∧ policyRevision ≤ i64Max ∧
        delivery.correlationId.isEmpty = false := by
  unfold governedInputs
  constructor
  · intro h
    split at h
    · cases h
    · rename_i revision hrevision
      split_ifs at h with hrange hempty
      cases h
      exact ⟨hrevision, Nat.le_of_not_lt hrange, by simpa using hempty⟩
  · rintro ⟨hrevision, hrange, hempty⟩
    rw [hrevision]
    simp [Nat.not_lt.mpr hrange, hempty]

theorem Revision.allowed_iff {row : Revision} :
    row.allowed = true ↔ 0 < row.policyRevision ∧
      (1 ≤ row.correlationId.length ∧ row.correlationId.length ≤ 256) ∧
      isStorable row.correlationId = true ∧
      ∀ source ∈ row.source, (1 ≤ source.length ∧ source.length ≤ 64) ∧
        isStorable source = true := by
  unfold Revision.allowed
  cases row.source <;> simp [and_assoc]

theorem governedInputs_governedRecord {policy : Revision} (h : policy.IsGoverned) :
    governedInputs (governedRecord policy) = .ok policy.policyRevision := by
  have hlength : 1 ≤ policy.correlationId.length := (Revision.allowed_iff.mp h.2).2.1.1
  refine governedInputs_eq_ok.mpr ⟨rfl, h.1, ?_⟩
  have hne : policy.correlationId ≠ "" := by
    intro heq
    rw [heq] at hlength
    exact absurd hlength (by decide)
  simpa [governedRecord] using hne

/-- A revision that is stored may be stored again as what it governs. -/
theorem allowed_governedRecord {policy : Revision} (targetId : Uuid) (h : policy.allowed = true) :
    (revisionRow targetId policy.policyRevision (governedRecord policy) none).allowed = true := by
  obtain ⟨hpositive, hlength, hstorable, -⟩ := Revision.allowed_iff.mp h
  exact Revision.allowed_iff.mpr ⟨hpositive, hlength, hstorable, by simp [revisionRow]⟩

/-- So may the one a wiki inherits. -/
theorem allowed_wikiRevision {parent : Revision} (child : Uuid) (h : parent.allowed = true) :
    (wikiRevision child parent).allowed = true := by
  obtain ⟨hpositive, hlength, hstorable, -⟩ := Revision.allowed_iff.mp h
  exact Revision.allowed_iff.mpr ⟨hpositive, hlength, hstorable, by simp [wikiRevision]⟩

theorem isGoverned_revisionRow {targetId : Uuid} {policyRevision : ℕ}
    {governing : ValidatedDelivery} {source : Option String}
    (h : governedInputs governing = .ok policyRevision)
    (hallowed : (revisionRow targetId policyRevision governing source).allowed = true) :
    (revisionRow targetId policyRevision governing source).IsGoverned :=
  ⟨(governedInputs_eq_ok.mp h).2.1, hallowed⟩

/-- What is committed. -/
structure Sound (db : Db) (clock : Time) : Prop where
  governed : ∀ r ∈ db.revisions, r.IsGoverned
  recorded : ∀ t ∈ db.tombstones, t.recordedAt ≤ clock
  single : ∀ t ∈ db.tombstones, ∀ t' ∈ db.tombstones, t.targetId = t'.targetId →
    t.isActive = true → t'.isActive = true → t.tombstoneId = t'.tombstoneId
  attempted : ∀ p ∈ db.plans, p.status.hasStarted = true →
    ∃ a ∈ db.attempts, a.planId = p.planId

/-- Rows that may be written, whatever is committed by then. -/
def Write.IsSound (clock : Time) : Write → Prop
  | .insertRevision row => row.IsGoverned
  | .insertTombstone row => row.recordedAt ≤ clock
  | .insertPlan row => row.status = .planned
  | .setPlanStatus _ fromStatus _ => fromStatus ≠ .cancelled
  | _ => True

/-- Every plan the log starts has an attempt in it. -/
def Backed (log : List Write) (planId : Uuid) : Prop :=
  ∃ attempt, .insertAttempt attempt ∈ log ∧ attempt.planId = planId

section

variable {db : Db} {clock : Time} {log : List Write}

theorem Write.IsSound.mono {w : Write} {clock' : Time} (h : w.IsSound clock)
    (hclock : clock ≤ clock') : w.IsSound clock' := by
  cases w with
  | insertTombstone row => exact le_trans h hclock
  | _ => exact h

/-- Where a tombstone comes from: it has been committed, or the log inserts it. -/
theorem tombstones_foldl (log : List Write) (db : Db) :
    ∀ t ∈ (log.foldl Db.apply db).tombstones,
      (∃ t₀ ∈ db.tombstones, t₀.tombstoneId = t.tombstoneId ∧ t₀.targetId = t.targetId ∧
        t₀.recordedAt = t.recordedAt ∧ (t.isActive = true → t₀.isActive = true)) ∨
      ∃ row, .insertTombstone row ∈ log ∧ row.tombstoneId = t.tombstoneId ∧
        row.targetId = t.targetId ∧ row.recordedAt = t.recordedAt := by
  refine foldl_invariant (I := fun d : Db => ∀ t ∈ d.tombstones,
    (∃ t₀ ∈ db.tombstones, t₀.tombstoneId = t.tombstoneId ∧ t₀.targetId = t.targetId ∧
      t₀.recordedAt = t.recordedAt ∧ (t.isActive = true → t₀.isActive = true)) ∨
    ∃ row, .insertTombstone row ∈ log ∧ row.tombstoneId = t.tombstoneId ∧
      row.targetId = t.targetId ∧ row.recordedAt = t.recordedAt) (fun d w hw hd => ?_)
    fun t ht => Or.inl ⟨t, ht, rfl, rfl, rfl, id⟩
  cases w with
  | insertTombstone row =>
    refine List.forall_mem_append.mpr ⟨hd, List.forall_mem_singleton.mpr (Or.inr ?_)⟩
    exact ⟨row, hw, rfl, rfl, rfl⟩
  | cancelTombstone tombstoneId at_ =>
    refine forall_updateWhere hd fun t _ ht _ => ht.imp_left ?_
    rintro ⟨t₀, hmem, hid, htarget, hrecorded, -⟩
    exact ⟨t₀, hmem, hid, htarget, hrecorded, by simp [Tombstone.isActive]⟩
  | completeTombstone tombstoneId at_ =>
    refine forall_updateWhere hd fun t _ ht _ => ht.imp_left ?_
    rintro ⟨t₀, hmem, hid, htarget, hrecorded, -⟩
    exact ⟨t₀, hmem, hid, htarget, hrecorded, by simp [Tombstone.isActive]⟩
  | _ => exact hd

theorem attempts_apply {db : Db} {planId : Uuid} (w : Write)
    (h : ∃ a ∈ db.attempts, a.planId = planId) :
    ∃ a ∈ (db.apply w).attempts, a.planId = planId := by
  obtain ⟨a, hmem, hid⟩ := h
  cases w with
  | insertAttempt row => exact ⟨a, List.mem_append_left _ hmem, hid⟩
  | finishAttempt attemptId outcome =>
    refine ⟨_, mem_updateWhere_of_mem hmem, ?_⟩
    split_ifs
    · exact hid
    · exact hid
  | _ => exact ⟨a, hmem, hid⟩

theorem attempts_foldl {planId : Uuid} (h : (∃ a ∈ db.attempts, a.planId = planId) ∨
    Backed log planId) : ∃ a ∈ (log.foldl Db.apply db).attempts, a.planId = planId := by
  rcases h with hdb | ⟨attempt, hmem, hid⟩
  · exact foldl_invariant (I := fun d : Db => ∃ a ∈ d.attempts, a.planId = planId)
      (fun d w _ hd => attempts_apply w hd) hdb
  · refine foldl_establish (I := fun _ : Db => True)
      (P := fun d : Db => ∃ a ∈ d.attempts, a.planId = planId) hmem (fun _ _ _ _ => trivial)
      (fun d _ => ?_) (fun d w _ _ hd => attempts_apply w hd) trivial
    exact ⟨attempt, List.mem_append_right _ (List.mem_singleton_self _), hid⟩

/-- A plan of a replayed log has started before, or the log starts it. -/
theorem plans_foldl (hsound : ∀ w ∈ log, w.IsSound clock) :
    ∀ p ∈ (log.foldl Db.apply db).plans, p.status.hasStarted = true →
      (∃ p₀ ∈ db.plans, p₀.planId = p.planId ∧ p₀.status.hasStarted = true) ∨
      ∃ toStatus, .setPlanStatus p.planId .planned toStatus ∈ log ∧
        toStatus.hasStarted = true := by
  refine foldl_invariant (I := fun d : Db => ∀ p ∈ d.plans, p.status.hasStarted = true →
    (∃ p₀ ∈ db.plans, p₀.planId = p.planId ∧ p₀.status.hasStarted = true) ∨
    ∃ toStatus, .setPlanStatus p.planId .planned toStatus ∈ log ∧ toStatus.hasStarted = true)
    (fun d w hw hd => ?_) fun p hp hstarted => Or.inl ⟨p, hp, rfl, hstarted⟩
  cases w with
  | insertPlan row =>
    refine List.forall_mem_append.mpr ⟨hd, List.forall_mem_singleton.mpr fun hstarted => ?_⟩
    have hplanned : row.status = .planned := hsound _ hw
    rw [hplanned] at hstarted
    cases hstarted
  | setPlanStatus planId fromStatus toStatus =>
    refine forall_updateWhere hd fun p hmem hp hsel hstarted => ?_
    simp only [Bool.and_eq_true, beq_iff_eq] at hsel
    have hfrom : fromStatus ≠ .cancelled := hsound _ hw
    by_cases hplanned : fromStatus = .planned
    · refine Or.inr ⟨toStatus, ?_, hstarted⟩
      rw [hsel.1, ← hplanned]
      exact hw
    · refine hp ?_
      rw [hsel.2]
      simp [PlanStatus.hasStarted, hplanned, hfrom]
  | _ => exact hd

theorem revisions_foldl (h : ∀ r ∈ db.revisions, r.IsGoverned)
    (hsound : ∀ w ∈ log, w.IsSound clock) :
    ∀ r ∈ (log.foldl Db.apply db).revisions, r.IsGoverned := by
  refine foldl_invariant (I := fun d : Db => ∀ r ∈ d.revisions, r.IsGoverned)
    (fun d w hw hd => ?_) h
  cases w with
  | insertRevision row =>
    exact List.forall_mem_append.mpr ⟨hd, List.forall_mem_singleton.mpr (hsound _ hw)⟩
  | _ => exact hd

/-- The log of a transaction that may commit. -/
theorem Sound.foldl (h : Sound db clock) (hsound : ∀ w ∈ log, w.IsSound clock)
    (hbacked : ∀ planId toStatus, .setPlanStatus planId .planned toStatus ∈ log →
      toStatus.hasStarted = true → Backed log planId)
    (hnew : ∀ row, .insertTombstone row ∈ log →
      ∀ t ∈ db.tombstones, t.targetId = row.targetId → t.isActive = false)
    (hone : ∀ row row', .insertTombstone row ∈ log → .insertTombstone row' ∈ log → row = row') :
    Sound (log.foldl Db.apply db) clock where
  governed := revisions_foldl h.governed hsound
  recorded t ht := by
    rcases tombstones_foldl log db t ht with ⟨t₀, hmem, -, -, hrecorded, -⟩ |
      ⟨row, hmem, -, -, hrecorded⟩
    · exact hrecorded ▸ h.recorded t₀ hmem
    · exact hrecorded ▸ hsound _ hmem
  single t ht t' ht' htarget hactive hactive' := by
    rcases tombstones_foldl log db t ht with ⟨t₀, hmem, hid, htarget₀, -, hactive₀⟩ |
      ⟨row, hmem, hid, htarget₀, -⟩
    · rcases tombstones_foldl log db t' ht' with ⟨t₁, hmem', hid', htarget₁, -, hactive₁⟩ |
        ⟨row, hmem', -, htarget₁, -⟩
      · rw [← hid, ← hid']
        exact h.single t₀ hmem t₁ hmem' (htarget₀.trans (htarget.trans htarget₁.symm))
          (hactive₀ hactive) (hactive₁ hactive')
      · have hinactive := hnew row hmem' t₀ hmem
          (htarget₀.trans (htarget.trans htarget₁.symm))
        rw [hactive₀ hactive] at hinactive
        cases hinactive
    · rcases tombstones_foldl log db t' ht' with ⟨t₁, hmem', -, htarget₁, -, hactive₁⟩ |
        ⟨row', hmem', hid', -, -⟩
      · have hinactive := hnew row hmem t₁ hmem'
          (htarget₁.trans (htarget.symm.trans htarget₀.symm))
        rw [hactive₁ hactive'] at hinactive
        cases hinactive
      · rw [← hid, ← hid', hone row row' hmem hmem']
  attempted p hp hstarted := by
    refine attempts_foldl ?_
    rcases plans_foldl hsound p hp hstarted with ⟨p₀, hmem, hid, hstarted₀⟩ |
      ⟨toStatus, hmem, hto⟩
    · obtain ⟨a, ha, hplan⟩ := h.attempted p₀ hmem hstarted₀
      exact Or.inl ⟨a, ha, hplan.trans hid⟩
    · exact Or.inr (hbacked p.planId toStatus hmem hto)

end

/-- Writes to no tombstone. -/
def Write.leavesTombstones : Write → Bool
  | .insertTombstone _ => false
  | .cancelTombstone _ _ => false
  | .completeTombstone _ _ => false
  | _ => true

section

variable (H : Lock → Prop) (log : List Write)

/-- A transition inserts a tombstone under the lock of its target, and first of all. -/
def TransitionLoc.Grounded (request : TransitionRequest) : TransitionLoc → Prop
  | .begin => ∀ w ∈ log, w.leavesTombstones = true
  | .insertRevision policyRevision =>
    governedInputs request.governing = .ok policyRevision ∧
      ∀ w ∈ log, w.leavesTombstones = true
  | .lockTarget _ => ∀ w ∈ log, w.leavesTombstones = true
  | .insertTombstone _ _ =>
    H (.target request.targetId) ∧ ∀ w ∈ log, w.leavesTombstones = true
  | _ => True

/-- The inputs of a message have been validated. -/
def CycleLoc.Grounded : CycleLoc → Prop
  | .claimInbox job => governedInputs job.delivery = .ok job.policyRevision
  | .insertTarget job => governedInputs job.delivery = .ok job.policyRevision
  | .enrollEvent job _ => governedInputs job.delivery = .ok job.policyRevision
  | .selectTarget job => governedInputs job.delivery = .ok job.policyRevision
  | .insertRevision job _ => governedInputs job.delivery = .ok job.policyRevision
  | .transition request at_ _ _ => at_.Grounded H log request
  | _ => True

def CommandLoc.Grounded : CommandLoc → Prop
  | .apply _ _ at_ => at_.Grounded H log
  | _ => True

def Vault.Loc.Grounded : Vault.Loc → Prop
  | .policy (.command at_) => at_.Grounded H log
  | .policy (.cycle at_) => at_.Grounded H log
  | .retention (.transition request at_) => at_.Grounded H log request
  | _ => True

/-- The plan a claim has started, until its attempt is inserted. -/
def WorkerLoc.claims? : WorkerLoc → Option Uuid
  | .claim job (.abandonStage _ _) => some job.plan.planId
  | .claim job (.lock _ _) => some job.plan.planId
  | .claim job (.shared _ _) => some job.plan.planId
  | .claim job (.insertShared _ _) => some job.plan.planId
  | .claim job (.abandonClaims _ _) => some job.plan.planId
  | .claim job (.insertClaim _ _) => some job.plan.planId
  | .claim job (.insertAttempt _ _ _) => some job.plan.planId
  | _ => none

def Vault.Loc.claims? : Vault.Loc → Option Uuid
  | .retention (.worker at_) => at_.claims?
  | _ => none

/-- A statement inserts a tombstone by itself, under the lock of its target, before its
transaction has written to another and where it sees no active one. -/
def InsertsTombstone (view : Db) (writes : List Write) : Prop :=
  ∀ row, .insertTombstone row ∈ writes → writes = [.insertTombstone row] ∧
    H (.target row.targetId) ∧ (∀ w ∈ log, w.leavesTombstones = true) ∧
    view.activeTombstone? row.targetId = none

/-- A statement starts no plan. -/
def StartsNone (writes : List Write) : Prop :=
  ∀ planId toStatus, .setPlanStatus planId .planned toStatus ∈ writes →
    toStatus.hasStarted = false

end

section

variable {H : Lock → Prop} {log : List Write} {m : Moment} {db view : Db} {locks : List Lock}
  {writes : List Write}

theorem tombstones_of_leaves (hleaves : ∀ w ∈ log, w.leavesTombstones = true) :
    (log.foldl Db.apply db).tombstones = db.tombstones := by
  refine foldl_invariant (I := fun d : Db => d.tombstones = db.tombstones)
    (fun d w hw hd => ?_) rfl
  have hkeeps := hleaves w hw
  cases w with
  | insertTombstone row => cases hkeeps
  | cancelTombstone tombstoneId at_ => cases hkeeps
  | completeTombstone tombstoneId at_ => cases hkeeps
  | _ => exact hd

theorem InsertsTombstone.of_leaves (h : ∀ w ∈ writes, w.leavesTombstones = true) :
    InsertsTombstone H log view writes := by
  intro row hrow
  have hleaves := h _ hrow
  cases hleaves

theorem TransitionStmt.sound {request : TransitionRequest} {at_ next : TransitionLoc}
    (h : TransitionStmt request m view at_ locks writes next) (hat : at_.Grounded H log request) :
    (∀ w ∈ writes, w.IsSound m.now) ∧ InsertsTombstone H log view writes ∧ StartsNone writes ∧
      next.Grounded (fun l => l ∈ locks ∨ H l) (log ++ writes) request := by
  have hempty : (∀ w ∈ log, w.leavesTombstones = true) →
      ∀ w ∈ log ++ [], w.leavesTombstones = true := by
    intro hlog
    rwa [List.append_nil]
  cases h with
  | begin hinputs =>
    exact ⟨by simp, by simp [InsertsTombstone], by simp [StartsNone], hinputs, hempty hat⟩
  | revisionKnown =>
    exact ⟨by simp, by simp [InsertsTombstone], by simp [StartsNone], hempty hat.2⟩
  | insertRevision _ hallowed =>
    refine ⟨?_, by simp [InsertsTombstone], by simp [StartsNone], ?_⟩
    · exact List.forall_mem_singleton.mpr (isGoverned_revisionRow hat.1 hallowed)
    · exact List.forall_mem_append.mpr ⟨hat.2, List.forall_mem_singleton.mpr rfl⟩
  | lockTarget htarget hnext =>
    refine ⟨by simp, by simp [InsertsTombstone], by simp [StartsNone], ?_⟩
    unfold retentionTransition at hnext
    split at hnext
    · split_ifs at hnext
      cases hnext
      exact ⟨Or.inl (List.mem_singleton_self _), hempty hat⟩
    · split_ifs at hnext <;> cases hnext <;> trivial
    · cases hnext
      trivial
  | insertTombstone hnone =>
    refine ⟨List.forall_mem_singleton.mpr (le_refl m.now), ?_, by simp [StartsNone], trivial⟩
    intro row hrow
    cases List.mem_singleton.mp hrow
    exact ⟨rfl, hat.1, hat.2, hnone⟩
  | cancelPlans =>
    refine ⟨List.forall_mem_map.mpr fun _ _ => by simp [Write.IsSound], ?_, ?_, trivial⟩
    · exact InsertsTombstone.of_leaves (List.forall_mem_map.mpr fun _ _ => rfl)
    · intro planId toStatus hmem
      obtain ⟨p, -, heq⟩ := List.mem_map.mp hmem
      cases heq
      rfl
  | _ =>
    exact ⟨by simp [Write.IsSound], by simp [InsertsTombstone], by simp [StartsNone], trivial⟩

theorem CycleStmt.sound {at_ next : CycleLoc} (h : CycleStmt m view at_ locks writes next)
    (hat : at_.Grounded H log) :
    (∀ w ∈ writes, w.IsSound m.now) ∧ InsertsTombstone H log view writes ∧ StartsNone writes ∧
      next.Grounded (fun l => l ∈ locks ∨ H l) (log ++ writes) := by
  cases h with
  | transition h =>
    rw [resumeTransition_of_not_atRest h.not_atRest]
    exact h.sound hat
  | insertRevision _ hallowed =>
    refine ⟨?_, by simp [InsertsTombstone], by simp [StartsNone], trivial⟩
    exact List.forall_mem_singleton.mpr (isGoverned_revisionRow hat hallowed)
  | revisionKnown =>
    exact ⟨by simp, by simp [InsertsTombstone], by simp [StartsNone], trivial⟩
  | _ => exact ⟨by simp [Write.IsSound], by simp [InsertsTombstone], by simp [StartsNone], hat⟩

theorem CycleRead.grounded {at_ next : CycleLoc} (h : CycleRead db at_ next) :
    next.Grounded H [] := by
  have hnext : ∀ rest : Converging, rest.next.Grounded H [] := by
    intro rest
    unfold Converging.next
    split <;> trivial
  cases h with
  | ingested => exact hnext _
  | validated _ hinputs => exact hinputs
  | ungoverned => exact hnext _
  | converged => exact hnext _
  | exclude => exact fun w hw => absurd hw List.not_mem_nil
  | reactivate => exact fun w hw => absurd hw List.not_mem_nil
  | _ => trivial

theorem CycleCommit.grounded {at_ next : CycleLoc} (h : CycleCommit at_ next) :
    next.Grounded H [] := by
  cases h <;> trivial

theorem CycleRollback.grounded {at_ next : CycleLoc} (h : CycleRollback db at_ next) :
    next.Grounded H [] := by
  cases h <;> trivial

theorem resumeCycle_grounded {command : CommandEnvelope} {decision : PolicyDecision}
    {next : CycleLoc} (h : next.Grounded H log) :
    (resumeCycle command decision next).Grounded H log := by
  cases next with
  | finished result => cases result <;> trivial
  | _ => exact h

theorem CommandStmt.sound {at_ next : CommandLoc} (h : CommandStmt m view at_ locks writes next)
    (hat : at_.Grounded H log) :
    (∀ w ∈ writes, w.IsSound m.now) ∧ InsertsTombstone H log view writes ∧ StartsNone writes ∧
      next.Grounded (fun l => l ∈ locks ∨ H l) (log ++ writes) := by
  cases h with
  | apply h =>
    obtain ⟨hsound, hinserts, hstarts, hnext⟩ := h.sound hat
    exact ⟨hsound, hinserts, hstarts, resumeCycle_grounded hnext⟩
  | _ =>
    exact ⟨by simp [Write.IsSound], by simp [InsertsTombstone], by simp [StartsNone], trivial⟩

/-- Only the first claim of a plan starts it, and its transaction inserts an attempt. -/
theorem WorkerStmt.sound {at_ next : WorkerLoc} (h : WorkerStmt m view at_ locks writes next) :
    (∀ w ∈ writes, w.IsSound m.now) ∧ (∀ row, .insertTombstone row ∉ writes) ∧
      (∀ planId toStatus, .setPlanStatus planId .planned toStatus ∈ writes →
        next.claims? = some planId) ∧
      ∀ planId, at_.claims? = some planId → next.claims? = some planId ∨ Backed writes planId := by
  cases h with
  | abandonStage =>
    refine ⟨List.forall_mem_map.mpr fun _ _ => trivial, by simp, by simp, fun _ h => Or.inl h⟩
  | abandonClaims =>
    refine ⟨List.forall_mem_map.mpr fun _ _ => trivial, by simp, by simp, fun _ h => Or.inl h⟩
  | advancePlanned =>
    refine ⟨by simp [Write.IsSound], by simp, fun planId toStatus hmem => ?_, by simp [WorkerLoc.claims?]⟩
    cases List.mem_singleton.mp hmem
    rfl
  | @insertShared job _ _ attempt _ hplan =>
    refine ⟨by simp [Write.IsSound], by simp, by simp, fun planId hclaims => Or.inr ?_⟩
    cases hclaims
    exact ⟨attempt, List.mem_singleton_self _, hplan⟩
  | @insertAttempt job _ _ _ attempt _ hplan =>
    refine ⟨by simp [Write.IsSound], by simp, by simp, fun planId hclaims => Or.inr ?_⟩
    cases hclaims
    exact ⟨attempt, List.mem_singleton_self _, hplan⟩
  | lockIdentity => exact ⟨by simp, by simp, by simp, fun _ h => Or.inl h⟩
  | shared => exact ⟨by simp, by simp, by simp, fun _ h => Or.inl h⟩
  | notShared => exact ⟨by simp, by simp, by simp, fun _ h => Or.inl h⟩
  | insertClaim => exact ⟨by simp [Write.IsSound], by simp, by simp, fun _ h => Or.inl h⟩
  | _ => exact ⟨by simp [Write.IsSound], by simp, by simp, by simp [WorkerLoc.claims?]⟩

end

namespace Vault

variable {settings : Settings} {s s' : State} {m : Moment} {db view : Db}
  {storage : MirrorStorage} {locks : List Lock} {writes : List Write} {loc next : Loc}
  {H : Lock → Prop} {log : List Write}

/-- What a session has written and may go on to write. -/
structure SessionSound (e : Shared Db MirrorStorage) (H : Lock → Prop) (σ : Session Write Loc) :
    Prop where
  began : ∀ b, σ.began = some b → b ≤ e.clock
  written : ∀ w ∈ σ.log, w.IsSound e.clock
  backed : ∀ planId toStatus, .setPlanStatus planId .planned toStatus ∈ σ.log →
    toStatus.hasStarted = true → σ.loc.claims? = some planId ∨ Backed σ.log planId
  locked : ∀ row, .insertTombstone row ∈ σ.log → H (.target row.targetId) ∧
    ∀ t ∈ e.db.tombstones, t.targetId = row.targetId → t.isActive = false
  one : ∀ row row', .insertTombstone row ∈ σ.log → .insertTombstone row' ∈ σ.log → row = row'
  grounded : σ.loc.Grounded H σ.log

/-- While a session holds a target, nobody else adds a tombstone to it. -/
def LeavesHeld (e e' : Shared Db MirrorStorage) (H : Lock → Prop) : Prop :=
  e.clock ≤ e'.clock ∧ ∀ targetId, H (.target targetId) →
    ∀ t ∈ e'.db.tombstones, t.targetId = targetId → t.isActive = true →
      ∃ t₀ ∈ e.db.tombstones, t₀.targetId = targetId ∧ t₀.isActive = true

theorem Loc.Grounded.mono {H' : Lock → Prop} (h : loc.Grounded H log)
    (hH : ∀ l, H l → H' l) : loc.Grounded H' log := by
  have htransition : ∀ (request : TransitionRequest) (at_ : TransitionLoc),
      at_.Grounded H log request → at_.Grounded H' log request := by
    intro request at_ hat
    cases at_ with
    | insertTombstone policyRevision fromStatus => exact ⟨hH _ hat.1, hat.2⟩
    | _ => exact hat
  have hcycle : ∀ at_ : CycleLoc, at_.Grounded H log → at_.Grounded H' log := by
    intro at_ hat
    cases at_ with
    | transition request at_ items rest => exact htransition request at_ hat
    | _ => exact hat
  cases loc with
  | policy at_ =>
    cases at_ with
    | command at_ =>
      cases at_ with
      | apply command decision at_ => exact hcycle at_ h
      | _ => exact h
    | cycle at_ => exact hcycle at_ h
    | _ => exact h
  | retention at_ =>
    cases at_ with
    | transition request at_ => exact htransition request at_ h
    | _ => exact h
  | _ => exact h

theorem SessionSound.of_nil {e : Shared Db MirrorStorage} (h : loc.Grounded H []) :
    SessionSound e H ⟨loc, [], none⟩ := by
  refine ⟨?_, ?_, ?_, ?_, ?_, h⟩ <;> simp

theorem SessionStmt.sound (h : SessionStmt settings m view loc locks writes next)
    (hloc : loc.Grounded H log) :
    (∀ w ∈ writes, w.IsSound m.now) ∧ InsertsTombstone H log view writes ∧
      (∀ planId toStatus, .setPlanStatus planId .planned toStatus ∈ writes →
        toStatus.hasStarted = true → next.claims? = some planId) ∧
      (∀ planId, loc.claims? = some planId →
        next.claims? = some planId ∨ Backed writes planId) ∧
      next.Grounded (fun l => l ∈ locks ∨ H l) (log ++ writes) := by
  have hpolicy : ∀ {n : Loc}, StartsNone writes →
      ∀ planId toStatus, .setPlanStatus planId .planned toStatus ∈ writes →
        toStatus.hasStarted = true → n.claims? = some planId := by
    intro n hnone planId toStatus hmem hstarted
    rw [hnone planId toStatus hmem] at hstarted
    cases hstarted
  cases h with
  | command h =>
    obtain ⟨hsound, hinserts, hstarts, hnext⟩ := h.sound hloc
    exact ⟨hsound, hinserts, hpolicy hstarts, by simp [Loc.claims?], hnext⟩
  | cycle h =>
    obtain ⟨hsound, hinserts, hstarts, hnext⟩ := h.sound hloc
    exact ⟨hsound, hinserts, hpolicy hstarts, by simp [Loc.claims?], hnext⟩
  | mirror h =>
    cases h <;> exact ⟨by simp [Write.IsSound], by simp [InsertsTombstone], by simp,
      by simp [Loc.claims?], trivial⟩
  | retention h =>
    cases h with
    | worker h =>
      obtain ⟨hsound, hinserts, hstarts, hclaims⟩ := h.sound
      exact ⟨hsound, fun row hrow => absurd hrow (hinserts row),
        fun planId toStatus hmem _ => hstarts planId toStatus hmem, hclaims, trivial⟩
    | capture h =>
      cases h <;> exact ⟨by simp [Write.IsSound], by simp [InsertsTombstone], by simp,
        by simp [Loc.claims?], trivial⟩
    | transition h =>
      obtain ⟨hsound, hinserts, hstarts, hnext⟩ := h.sound hloc
      exact ⟨hsound, hinserts, hpolicy hstarts, by simp [Loc.claims?], hnext⟩

/-- What a session commits by itself starts no plan and inserts no tombstone. -/
theorem SessionAuto.sound (h : SessionAuto settings m db storage loc locks writes next) :
    (∀ w ∈ writes, w.IsSound m.clock) ∧ (∀ row, .insertTombstone row ∉ writes) ∧
      (∀ planId toStatus, .setPlanStatus planId .planned toStatus ∉ writes) ∧
      next.Grounded H [] := by
  cases h with
  | command h =>
    refine ⟨by simp, by simp, by simp, ?_⟩
    cases h with
    | apply h => exact resumeCycle_grounded h.grounded
    | _ => trivial
  | cycle h => exact ⟨by simp, by simp, by simp, h.grounded⟩
  | mirror h =>
    cases h with
    | started h => cases h <;> exact ⟨by simp [Write.IsSound], by simp, by simp, trivial⟩
    | setStatus h => cases h <;> exact ⟨by simp [Write.IsSound], by simp, by simp, trivial⟩
    | setLfsDegraded h => cases h <;> exact ⟨by simp [Write.IsSound], by simp, by simp, trivial⟩
    | _ => exact ⟨by simp [Write.IsSound], by simp, by simp, trivial⟩
  | retention h =>
    cases h with
    | worker h => cases h <;> exact ⟨by simp [Write.IsSound], by simp, by simp, trivial⟩
    | capture h => exact ⟨by simp, by simp, by simp, trivial⟩

theorem SessionCommit.grounded (h : SessionCommit loc next) :
    loc.claims? = none ∧ next.Grounded H [] := by
  cases h with
  | command h =>
    refine ⟨rfl, ?_⟩
    cases h with
    | apply h => exact resumeCycle_grounded h.grounded
    | recorded => trivial
  | cycle h => exact ⟨rfl, h.grounded⟩
  | mirror h => exact ⟨rfl, trivial⟩
  | retention h =>
    cases h with
    | worker h => cases h <;> exact ⟨rfl, trivial⟩
    | capture => exact ⟨rfl, trivial⟩
    | transition => exact ⟨rfl, trivial⟩

theorem SessionRollback.grounded (h : SessionRollback view loc next) : next.Grounded H [] := by
  cases h with
  | command h =>
    cases h with
    | apply h => exact resumeCycle_grounded h.grounded
    | _ => trivial
  | cycle h => exact h.grounded
  | mirror h => trivial
  | @retention _ n hidle =>
    cases n with
    | transition request at_ => cases at_ <;> trivial
    | _ => trivial

theorem SessionCall.grounded {input : MirrorInput} {storage' : MirrorStorage}
    (h : SessionCall settings storage input loc storage' next) : next.Grounded H [] := by
  cases h with
  | mirror h => trivial
  | retention h => cases h <;> trivial

theorem OpWrites.sound {o : Op} (h : OpWrites m db o locks writes) (hdb : Sound db m.clock) :
    (∀ w ∈ writes, w.IsSound m.clock) ∧ (∀ row, .insertTombstone row ∉ writes) ∧
      ∀ planId toStatus, .setPlanStatus planId .planned toStatus ∉ writes := by
  have hwiki : ∀ child parent, ∀ w ∈ (db.wikiRevisions child parent).map Write.insertRevision,
      w.IsSound m.clock := by
    intro child parent
    refine List.forall_mem_map.mpr fun row hrow => ?_
    obtain ⟨policy, hpolicy, rfl⟩ := List.mem_map.mp (List.mem_filter.mp hrow).1
    have hmem : policy ∈ db.revisionsOf parent :=
      List.argmax_mem (Option.mem_toList.mp hpolicy)
    obtain ⟨hrange, hallowed⟩ := hdb.governed policy (List.mem_filter.mp hmem).1
    exact ⟨hrange, allowed_wikiRevision child hallowed⟩
  cases h with
  | retention h =>
    cases h with
    | planned _ _ _ hrow =>
      exact ⟨List.forall_mem_singleton.mpr hrow.status, by simp, by simp⟩
    | _ => exact ⟨by simp [Write.IsSound], by simp, by simp⟩
  | undiscovered => exact ⟨by simp, by simp, by simp⟩
  | wikiKnown => exact ⟨hwiki _ _, by simp, by simp⟩
  | wikiEnrolled =>
    exact ⟨List.forall_mem_cons.mpr ⟨trivial, hwiki _ _⟩, by simp, by simp⟩
  | evaluated => exact ⟨by simp [Write.IsSound], by simp, by simp⟩

theorem start_grounded (proc : Proc) : (start proc).Grounded H [] := by
  cases proc with
  | policy proc => cases proc <;> trivial
  | mirror request => trivial
  | retention proc =>
    cases proc with
    | transition request => exact fun w hw => absurd hw List.not_mem_nil
    | _ => trivial

/-- Replayed writes that insert no tombstone for a held target. -/
theorem LeavesHeld.foldl {e : Shared Db MirrorStorage} (fresh : ℕ)
    (h : ∀ row, .insertTombstone row ∈ log → ¬ H (.target row.targetId)) :
    LeavesHeld e { e with db := log.foldl Db.apply e.db, fresh } H := by
  refine ⟨le_refl _, fun targetId hheld t ht htarget hactive => ?_⟩
  rcases tombstones_foldl log e.db t ht with ⟨t₀, hmem, -, htarget₀, -, hactive₀⟩ |
    ⟨row, hmem, -, htarget₀, -⟩
  · exact ⟨t₀, hmem, htarget₀.trans htarget, hactive₀ hactive⟩
  · refine absurd ?_ (h row hmem)
    rw [htarget₀, htarget]
    exact hheld

theorem SessionSound.stable {e e' : Shared Db MirrorStorage} {σ : Session Write Loc}
    (hR : LeavesHeld e e' H) (h : SessionSound e H σ) : SessionSound e' H σ :=
  { h with
    began := fun b hb => le_trans (h.began b hb) hR.1
    written := fun w hw => (h.written w hw).mono hR.1
    locked := fun row hrow => by
      obtain ⟨hheld, hinactive⟩ := h.locked row hrow
      refine ⟨hheld, fun t ht htarget => ?_⟩
      by_contra hactive
      obtain ⟨t₀, hmem, htarget₀, hactive₀⟩ := hR.2 _ hheld t ht htarget (by simpa using hactive)
      rw [hinactive t₀ hmem htarget₀] at hactive₀
      cases hactive₀ }

theorem SessionSound.mono {e : Shared Db MirrorStorage} {H' : Lock → Prop}
    {σ : Session Write Loc} (hH : ∀ l, H l → H' l) (h : SessionSound e H σ) :
    SessionSound e H' σ :=
  { h with
    locked := fun row hrow => (h.locked row hrow).imp_left (hH _)
    grounded := h.grounded.mono hH }

/-- What the writes of a transaction so far leave of the tombstones. -/
theorem activeTombstone?_of_leaves {targetId : Uuid}
    (hleaves : ∀ w ∈ log, w.leavesTombstones = true)
    (hnone : (log.foldl Db.apply db).activeTombstone? targetId = none) :
    ∀ t ∈ db.tombstones, t.targetId = targetId → t.isActive = false := by
  intro t ht htarget
  unfold Db.activeTombstone? at hnone
  rw [tombstones_of_leaves hleaves, List.find?_eq_none] at hnone
  simpa [htarget] using hnone t ht

/-- One statement more. -/
theorem SessionSound.stmt {e : Shared Db MirrorStorage} {σ : Session Write Loc} {now : ℕ}
    (h : SessionSound e H σ) (hnow : now ≤ e.clock)
    (hstmt : SessionStmt settings { now, clock := e.clock, fresh := e.fresh }
      (σ.log.foldl Db.apply e.db) σ.loc locks writes next) :
    SessionSound e.used (fun l => l ∈ locks ∨ H l) ⟨next, σ.log ++ writes, some now⟩ := by
  obtain ⟨hsound, hinserts, hstarts, hclaims, hnext⟩ := hstmt.sound h.grounded
  refine ⟨fun b hb => ?_, ?_, fun planId toStatus hmem hstarted => ?_, fun row hrow => ?_,
    fun row row' hrow hrow' => ?_, hnext⟩
  · cases hb
    exact hnow
  · exact List.forall_mem_append.mpr ⟨h.written, fun w hw => (hsound w hw).mono hnow⟩
  · have hgrown : ∀ {ws}, (∀ w ∈ ws, w ∈ σ.log ++ writes) → Backed ws planId →
        Backed (σ.log ++ writes) planId := by
      rintro ws hws ⟨attempt, hattempt, hid⟩
      exact ⟨attempt, hws _ hattempt, hid⟩
    rcases List.mem_append.mp hmem with hold | hnew
    · rcases h.backed planId toStatus hold hstarted with hclaim | hback
      · exact (hclaims planId hclaim).imp_right
          (hgrown fun w hw => List.mem_append_right _ hw)
      · exact Or.inr (hgrown (fun w hw => List.mem_append_left _ hw) hback)
    · exact Or.inl (hstarts planId toStatus hnew hstarted)
  · rcases List.mem_append.mp hrow with hold | hnew
    · exact (h.locked row hold).imp_left Or.inr
    · obtain ⟨-, hheld, hleaves, hnone⟩ := hinserts row hnew
      exact ⟨Or.inr hheld, activeTombstone?_of_leaves hleaves hnone⟩
  · have hold : ∀ row, .insertTombstone row ∈ writes → ∀ row', .insertTombstone row' ∉ σ.log := by
      intro row hnew row' hmem
      have hleaves := (hinserts row hnew).2.2.1 _ hmem
      cases hleaves
    rcases List.mem_append.mp hrow with hmem | hnew
    · rcases List.mem_append.mp hrow' with hmem' | hnew'
      · exact h.one row row' hmem hmem'
      · exact absurd hmem (hold row' hnew' row)
    · rcases List.mem_append.mp hrow' with hmem' | hnew'
      · exact absurd hmem' (hold row hnew row')
      · rw [(hinserts row hnew).1] at hnew'
        cases List.mem_singleton.mp hnew'
        rfl

/-- Whatever the sessions do, the committed rows stay sound. -/
theorem sound_step : ∀ s (l : Label) s',
    Machine.Beside (fun e => Sound e.db e.clock) SessionSound s → True →
    (machine settings).step s l = some s' →
    Machine.Beside (fun e => Sound e.db e.clock) SessionSound s' := by
  have hquiet : ∀ {e : Shared Db MirrorStorage} {ws : List Write}, Sound e.db e.clock →
      (∀ w ∈ ws, w.IsSound e.clock) → (∀ row, .insertTombstone row ∉ ws) →
      (∀ planId toStatus, .setPlanStatus planId .planned toStatus ∉ ws) →
      Sound (ws.foldl Db.apply e.db) e.clock := fun hdb hsound hnone hstarts =>
    hdb.foldl hsound (fun planId toStatus hmem => absurd hmem (hstarts planId toStatus))
      (fun row hrow => absurd hrow (hnone row)) fun row _ hrow => absurd hrow (hnone row)
  have hnow : ∀ {s : State} {i : ℕ}, SessionSound s.shared (s.holds i) (s.session i) →
      (s.moment i).now ≤ s.clock := by
    intro s i h
    unfold State.moment
    cases hbegan : (s.session i).began with
    | none => exact le_refl _
    | some b => exact h.began b hbegan
  refine Machine.Beside.step (R := fun e e' H _ => LeavesHeld e e' H)
    (fun e H H' σ hH hS => hS.mono hH) (fun e e' H σ hR hS => hS.stable hR)
    (fun e H σ => ⟨le_refl _, fun _ _ t ht htarget hactive => ⟨t, ht, htarget, hactive⟩⟩)
    (fun e n H σ => ⟨Nat.le_add_right _ _, fun _ _ t ht htarget hactive =>
      ⟨t, ht, htarget, hactive⟩⟩)
    (fun e h => h) (fun e n h => { h with
      recorded := fun t ht => le_trans (h.recorded t ht) (Nat.le_add_right _ _) })
    (fun e => SessionSound.of_nil trivial) ?_ ?_ ?_ ?_ ?_ ?_ ?_
  · intro s i proc h _
    exact SessionSound.of_nil (start_grounded proc)
  · intro s i input locks writes next h _ hact _
    exact (h.sessions i).stmt (hnow (h.sessions i)) (act_stmt hact)
  · intro s i input locks writes next h _ hact _
    obtain ⟨hsound, hnone, hstarts, hnext⟩ := (act_auto hact).sound (H := fun _ => False)
    exact ⟨hquiet h.shared hsound hnone hstarts,
      fun j _ => LeavesHeld.foldl _ fun row hrow => absurd hrow (hnone row),
      SessionSound.of_nil hnext⟩
  · intro s i input next h _ hact
    obtain ⟨hclaims, hnext⟩ := (act_commit hact).grounded (H := fun _ => False)
    have hi := h.sessions i
    refine ⟨h.shared.foldl hi.written (fun planId toStatus hmem hstarted => ?_)
      (fun row hrow => (hi.locked row hrow).2) hi.one, fun j hji => ?_, SessionSound.of_nil hnext⟩
    · refine (hi.backed planId toStatus hmem hstarted).resolve_left fun hclaim => ?_
      rw [hclaims] at hclaim
      cases hclaim
    · refine LeavesHeld.foldl (e := s.shared) _ fun row hrow hheld => hji ?_
      exact h.exclusive _ j i hheld (hi.locked row hrow).1
  · intro s i input next h _ hact
    exact SessionSound.of_nil (act_rollback hact).grounded
  · intro s i input world next h _ hact
    exact ⟨h.shared, fun j _ => ⟨le_refl _, fun _ _ t ht htarget hactive =>
      ⟨t, ht, htarget, hactive⟩⟩, SessionSound.of_nil (act_call hact).grounded⟩
  · intro s o locks writes h _ hop _
    obtain ⟨hsound, hnone, hstarts⟩ := (operate_writes hop).sound h.shared
    exact ⟨hquiet h.shared hsound hnone hstarts,
      fun j => LeavesHeld.foldl _ fun row hrow => absurd hrow (hnone row)⟩

/-- Every state a vault reaches from nothing is sound. -/
theorem sound_of_reach {clock fresh : ℕ} {ok : State → Label → Prop}
    (h : Reach (machine settings).step ok (initial {} storage clock fresh) s) :
    Sound s.db s.clock := by
  have hinitial : Machine.Beside (fun e => Sound e.db e.clock) SessionSound
      (initial {} storage clock fresh) :=
    ⟨by constructor <;> simp [State.shared, initial], fun _ => SessionSound.of_nil trivial,
      fun l i j hi => absurd hi List.not_mem_nil⟩
  exact ((h.mono fun _ _ _ => trivial).invariant hinitial sound_step).shared

section Keys

theorem TransitionStmt.drawn {request : TransitionRequest} {at_ n : TransitionLoc}
    (h : TransitionStmt request m view at_ locks writes n) {row : Tombstone}
    (hrow : .insertTombstone row ∈ writes) :
    writes = [.insertTombstone row] ∧ row.tombstoneId = m.fresh := by
  cases h with
  | insertTombstone =>
    cases List.mem_singleton.mp hrow
    exact ⟨rfl, rfl⟩
  | _ => simp at hrow

theorem SessionStmt.drawnTombstone (h : SessionStmt settings m view loc locks writes next)
    {row : Tombstone} (hrow : .insertTombstone row ∈ writes) :
    writes = [.insertTombstone row] ∧ row.tombstoneId = m.fresh := by
  have hcycle : ∀ {at_ n : CycleLoc}, CycleStmt m view at_ locks writes n →
      writes = [.insertTombstone row] ∧ row.tombstoneId = m.fresh := by
    intro at_ n h
    cases h with
    | transition h => exact TransitionStmt.drawn h hrow
    | _ => simp at hrow
  cases h with
  | command h =>
    cases h with
    | apply h => exact hcycle h
    | _ => simp at hrow
  | cycle h => exact hcycle h
  | mirror h => cases h <;> simp at hrow
  | retention h =>
    cases h with
    | worker h => exact absurd hrow (h.sound.2.1 row)
    | capture h => cases h <;> simp at hrow
    | transition h => exact TransitionStmt.drawn h hrow

def tombstoneKeys : Keys Db Write :=
  { table := fun db => db.tombstones.map (·.tombstoneId)
    added := fun
      | .insertTombstone row => some row.tombstoneId
      | _ => none }

theorem drawn_of_none {fresh : ℕ} (h : ∀ row, .insertTombstone row ∉ writes) :
    tombstoneKeys.Drawn fresh writes := by
  refine Or.inl (List.filterMap_eq_nil_iff.mpr fun w hw => ?_)
  cases w with
  | insertTombstone row => exact absurd hw (h row)
  | _ => rfl

theorem SessionStmt.draws (h : SessionStmt settings m view loc locks writes next) :
    tombstoneKeys.Drawn m.fresh writes := by
  by_cases hsome : ∃ row, .insertTombstone row ∈ writes
  · obtain ⟨row, hrow⟩ := hsome
    obtain ⟨rfl, hid⟩ := h.drawnTombstone hrow
    refine Or.inr ?_
    rw [← hid]
    rfl
  · exact drawn_of_none fun row hrow => hsome ⟨row, hrow⟩

theorem OpWrites.draws {o : Op} (h : OpWrites m db o locks writes) :
    tombstoneKeys.Drawn m.fresh writes := by
  refine drawn_of_none fun row hrow => ?_
  cases h with
  | retention h => cases h <;> simp at hrow
  | _ => simp at hrow

theorem draws_tombstones : (machine settings).Draws tombstoneKeys where
  apply db w := by
    cases w with
    | cancelTombstone tombstoneId at_ =>
      simpa [tombstoneKeys, Db.apply] using map_updateWhere (t := db.tombstones)
        (p := fun t : Tombstone => t.tombstoneId == tombstoneId && t.isActive)
        (f := fun t => { t with cancelledAt := some at_ }) (g := (·.tombstoneId)) fun _ => rfl
    | completeTombstone tombstoneId at_ =>
      simpa [tombstoneKeys, Db.apply] using map_updateWhere (t := db.tombstones)
        (p := fun t : Tombstone => t.tombstoneId == tombstoneId && t.isActive)
        (f := fun t => { t with completedAt := some at_ }) (g := (·.tombstoneId)) fun _ => rfl
    | _ => simp [tombstoneKeys, Db.apply]
  stmt h := (act_stmt h).draws
  auto h := drawn_of_none ((act_auto h).sound (H := fun _ => False)).2.1
  op h := (operate_writes h).draws

/-- No two tombstones share an identifier. -/
theorem tombstoneIds_of_reach {clock fresh : ℕ} {ok : State → Label → Prop}
    (h : Reach (machine settings).step ok (initial {} storage clock fresh) s) :
    IsKey (·.tombstoneId) s.db.tombstones := by
  have hinitial : Keyed tombstoneKeys (initial {} storage clock fresh) := by
    constructor <;> simp [tombstoneKeys, initial, Keys.pending, Keys.addedBy]
  have hreach : Reach (machine settings).step (fun _ _ => True) (initial {} storage clock fresh) s :=
    h.mono fun _ _ _ => trivial
  have hkeyed := hreach.invariant hinitial
    fun s l s' hs _ hstep => Keyed.step draws_tombstones s l s' hs hstep
  intro t ht t' ht' hid
  exact List.inj_on_of_nodup_map hkeyed.nodup ht ht' hid

end Keys

end Vault

end RatatoskrVault
