import RatatoskrVault.Vault.Placed
import RatatoskrVault.Vault.Rest

/-! What is known of the published mirrors at every step of the procedures that move targets, run
mirrors and delete snapshots. -/
namespace RatatoskrVault

open Lib Retention.Exclusion

/-- The cycle a policy session executes. -/
def Policy.Loc.cycle? : Policy.Loc → Option CycleLoc
  | .cycle at_ => some at_
  | .command (.apply _ _ at_) => some at_
  | _ => none

theorem Policy.Loc.cycle?_resumeCycle {command : CommandEnvelope} {decision : PolicyDecision}
    {next n : CycleLoc}
    (h : (Policy.Loc.command (resumeCycle command decision next)).cycle? = some n) : n = next := by
  cases next with
  | finished result => cases result <;> cases h
  | _ => exact (Option.some.inj h).symm

/-- The target a cycle is about to set back to `requested`. -/
def CycleLoc.reactivates? : CycleLoc → Option Uuid
  | .transition request .begin _ _ =>
    if request.toStatus = .requested then some request.targetId else none
  | _ => none

section

variable (settings : MirrorLifecycleSettings) (db : Db) (storage : MirrorStorage) (fresh : ℕ)

/-- Nothing is published at the place of the target. -/
def IsUnpublished (targetId : Uuid) : Prop :=
  storage.mirrors (mirrorRelativePath settings targetId) = false

def IsPublished (targetId : Uuid) : Prop :=
  storage.mirrors (mirrorRelativePath settings targetId) = true

/-- A cycle excludes, or sets a target without a published mirror back to `requested`. -/
def CycleLoc.Knows : CycleLoc → Prop
  | .transition request at_ _ _ =>
    (request.toStatus = .excluded ∨ request.toStatus = .requested) ∧
      (at_ ≠ .begin → request.toStatus = .requested →
        IsUnpublished settings storage request.targetId)
  | _ => True

/-- The target of a run that has been started is not waiting to be cloned. -/
def MirrorRun.Started (run : MirrorRun) : Prop :=
  ∀ row ∈ db.targets, row.targetId = run.request.targetId → row.status ≠ .requested

/-- The target of an admitted run is there. -/
def MirrorRun.Admitted (run : MirrorRun) : Prop :=
  run.Started db ∧ run.request.targetId < fresh

def MirrorLoc.Knows : MirrorLoc → Prop
  | .lockQuota run => run.Started db
  | .targetReserved run => run.Started db
  | .globalReserved run _ => run.Started db
  | .insertReservation run => run.Started db
  | .commitReservation run => run.Admitted db fresh
  | .admitted run => run.Admitted db fresh
  | .clone run => run.Admitted db fresh
  | .fetch run => run.Admitted db fresh
  | .evidence run _ => run.Admitted db fresh
  | .publishStaging run _ => run.Admitted db fresh
  | .collectLfs run result => result.isSuccess = true →
      IsPublished settings storage run.request.targetId
  | .insertRun job => job.result.isSuccess = true →
      IsPublished settings storage job.run.request.targetId
  | .releaseReservation job => job.result.isSuccess = true →
      IsPublished settings storage job.run.request.targetId
  | .commitRun job => job.result.isSuccess = true →
      IsPublished settings storage job.run.request.targetId
  | .ensureMirror job => IsPublished settings storage job.run.request.targetId
  | .recordVerified job => IsPublished settings storage job.run.request.targetId
  | .setStatus job status => status = .degraded ∨
      status = .ready ∧ IsPublished settings storage job.run.request.targetId
  | _ => True

/-- The execution plan still describes its plan row, and the mirror of its target. -/
def Describes (plan : DeletionExecutionPlan) : Prop :=
  (∀ row ∈ db.plans, row.planId = plan.planId →
    row.targetId = plan.targetId ∧ row.tombstoneId = plan.tombstoneId) ∧
  plan.mirrorStoragePath = mirrorRelativePath settings plan.targetId

/-- A tombstoned plan runs in deletion, or finds itself cancelled. -/
def MayRun (plan : DeletionExecutionPlan) : Prop :=
  Describes settings db plan ∧ (plan.tombstoneId.isSome = true → InDeletion db plan.targetId ∨
    ∀ row ∈ db.plans, row.planId = plan.planId → row.status = .cancelled)

/-- The status a claim read shows whether the plan has been cancelled. -/
def ClaimKnows (job : Job) : ClaimLoc → Prop
  | .load => True
  | .commitDeferred => True
  | .commitShared _ => True
  | .refusal row => job.plan.tombstoneId.isSome = true → row.status ≠ .cancelled →
      InDeletion db job.plan.targetId
  | .identity row => job.plan.tombstoneId.isSome = true → row.status ≠ .cancelled →
      InDeletion db job.plan.targetId
  | .advance row _ => job.plan.tombstoneId.isSome = true → row.status ≠ .cancelled →
      InDeletion db job.plan.targetId
  | .commitClaimed _ _ _ => job.unit = .mirror → InDeletion db job.plan.targetId
  | _ => job.plan.tombstoneId.isSome = true → InDeletion db job.plan.targetId

def WorkerLoc.Knows : WorkerLoc → Prop
  | .load _ => True
  | .loadArtifacts plan => Describes settings db plan ∧
      ∀ row ∈ db.plans, row.planId = plan.planId → row.status = plan.status
  | .loadReplicas plan _ => Describes settings db plan ∧
      ∀ row ∈ db.plans, row.planId = plan.planId → row.status = plan.status
  | .gate plan => Describes settings db plan
  | .claim job at_ => MayRun settings db job.plan ∧ ClaimKnows db job at_
  | .effect job _ _ _ => MayRun settings db job.plan ∧
      (job.unit = .mirror → InDeletion db job.plan.targetId)
  | .record job _ _ _ _ _ => MayRun settings db job.plan
  | .advanceRead plan _ => MayRun settings db plan
  | .advanceWrite plan _ _ => MayRun settings db plan
  | .complete _ => True
  | .finished _ => True

/-- A capture is about to record a snapshot of a mirror of its target. -/
def CaptureLoc.Knows : CaptureLoc → Prop
  | .recordParent built => ∃ mirror ∈ db.mirrors,
      mirror.mirrorId = built.source.mirrorId ∧ mirror.targetId = built.source.targetId
  | .insertSnapshot built => ∃ mirror ∈ db.mirrors,
      mirror.mirrorId = built.source.mirrorId ∧ mirror.targetId = built.source.targetId
  | _ => True

/-- What is known where a session of the vault stands. No transition is made but by a cycle. -/
def Vault.Loc.Knows : Vault.Loc → Prop
  | .idle => True
  | .policy at_ => ∀ cycle, at_.cycle? = some cycle → cycle.Knows settings storage
  | .mirror at_ => at_.Knows settings db storage fresh
  | .retention .idle => True
  | .retention (.worker at_) => at_.Knows settings db
  | .retention (.capture at_) => at_.Knows db
  | .retention (.transition _ _) => False

end

section Policy

variable {settings : MirrorLifecycleSettings} {m : Moment} {db : Db} {storage : MirrorStorage}
  {locks : List Lock} {writes : List Write}

theorem TransitionStmt.placed {request : TransitionRequest} {at_ next : TransitionLoc}
    (h : TransitionStmt request m db at_ locks writes next)
    (hplaced : Placed settings db storage m.fresh)
    (hto : request.toStatus = .excluded ∨ request.toStatus = .requested)
    (hclear : at_ ≠ .begin → request.toStatus = .requested →
      IsUnpublished settings storage request.targetId) :
    Placed settings (writes.foldl Db.apply db) storage (m.fresh + 1) := by
  cases h with
  | @updateTarget policyRevision fromStatus target htarget hguard =>
    have hmove := (guard_ok hguard).imp_left Eq.symm
    refine (hplaced.setTargetStatus hmove (hclear (by simp)) fun hheld => ?_).succ
    rcases hto with hto | hto
    · simp [hto] at hheld
    · simp [hto] at hheld
  | cancelPlans =>
    refine (hplaced.quiet fun w hw => ?_).succ
    obtain ⟨p, -, rfl⟩ := List.mem_map.mp hw
    rfl
  | _ => exact (hplaced.quiet (by simp [Write.movesNothing])).succ

theorem CycleStmt.placed {at_ next : CycleLoc} (h : CycleStmt m db at_ locks writes next)
    (hplaced : Placed settings db storage m.fresh) (hat : at_.Knows settings storage)
    (hclear : ∀ t, at_.reactivates? = some t → IsUnpublished settings storage t) :
    Placed settings (writes.foldl Db.apply db) storage (m.fresh + 1) ∧
      next.Knows settings storage := by
  cases h with
  | @transition request loc n items rest _ _ hstmt =>
    refine ⟨hstmt.placed hplaced hat.1 hat.2, ?_⟩
    rw [resumeTransition_of_not_atRest hstmt.not_atRest]
    refine ⟨hat.1, fun _ hto => ?_⟩
    by_cases hbegin : loc = .begin
    · refine hclear _ ?_
      simp [hbegin, CycleLoc.reactivates?, hto]
    · exact hat.2 hbegin hto
  | insertTarget => exact ⟨hplaced.insertTarget rfl rfl, trivial⟩
  | _ => exact ⟨(hplaced.quiet (by simp [Write.movesNothing])).succ, trivial⟩

/-- Where a cycle goes on to the targets that are left. -/
theorem Converging.next_knows {rest : Converging} : rest.next.Knows settings storage := by
  unfold Converging.next
  split <;> trivial

theorem CycleRead.knows {at_ next : CycleLoc} (h : CycleRead db at_ next) :
    next.Knows settings storage := by
  cases h with
  | ingested => exact Converging.next_knows
  | ungoverned => exact Converging.next_knows
  | converged => exact Converging.next_knows
  | exclude => exact ⟨Or.inl rfl, fun hbegin => absurd rfl hbegin⟩
  | reactivate => exact ⟨Or.inr rfl, fun hbegin => absurd rfl hbegin⟩
  | _ => trivial

theorem CycleCommit.knows {at_ next : CycleLoc} (h : CycleCommit at_ next) :
    next.Knows settings storage := by
  cases h <;> trivial

theorem CycleRollback.knows {at_ next : CycleLoc} (h : CycleRollback db at_ next) :
    next.Knows settings storage := by
  cases h <;> trivial

end Policy

section Mirror

variable {settings : MirrorLifecycleSettings} {m : Moment} {db : Db} {storage : MirrorStorage}
  {locks : List Lock} {writes : List Write}

/-- A status write that names the status it found leaves no other row of the target. -/
theorem status_of_written {targetId : Uuid} {target : Target} {status : TargetStatus}
    (hkeys : IsKey (·.targetId) db.targets) (htarget : db.target? targetId = some target) :
    ∀ row ∈ (db.apply (.setTargetStatus targetId target.status status)).targets,
      row.targetId = targetId → row.status = status := by
  have hid : target.targetId = targetId := by simpa using List.find?_some htarget
  have hmem := List.mem_of_find?_eq_some htarget
  intro row hrow hrun
  obtain ⟨row₀, hrow₀, ⟨-, rfl⟩ | ⟨hsel, rfl⟩⟩ := of_mem_updateWhere hrow
  · rfl
  · obtain rfl : row = target := hkeys row hrow₀ target hmem (hrun.trans hid.symm)
    simp [hid] at hsel

/-- A guarded status of a run leaves every mirror where it belongs. -/
theorem StatusAuto.placed {targetId : Uuid} {status : TargetStatus}
    (h : StatusAuto m db targetId status locks writes)
    (hplaced : Placed settings db storage m.fresh) (hne : status ≠ .requested)
    (hheld : status = .ready ∨ status = .healthy → IsPublished settings storage targetId) :
    Placed settings (writes.foldl Db.apply db) storage (m.fresh + 1) := by
  cases h with
  | missing => exact hplaced.succ
  | @written target htarget hguard =>
    have hmove := (guard_ok hguard).imp_left Eq.symm
    exact (hplaced.setTargetStatus hmove (fun hto => absurd hto hne) hheld).succ

theorem StatusAuto.started (run : MirrorRun) {status : TargetStatus}
    (h : StatusAuto m db run.request.targetId status locks writes)
    (hkeys : IsKey (·.targetId) db.targets) (hne : status ≠ .requested) :
    run.Started (writes.foldl Db.apply db) := by
  cases h with
  | missing hnone =>
    intro row hrow hid
    have hother := List.find?_eq_none.mp hnone row hrow
    simp [hid] at hother
  | written htarget =>
    intro row hrow hid
    rw [status_of_written hkeys htarget row hrow hid]
    exact hne

theorem lt_of_target? (h : Placed settings db storage m.fresh) {targetId : Uuid}
    (htarget : (db.target? targetId).isSome = true) : targetId < m.fresh := by
  obtain ⟨target, hfind⟩ := Option.isSome_iff_exists.mp htarget
  have hid : target.targetId = targetId := by simpa using List.find?_some hfind
  exact hid ▸ h.targetIds target (List.mem_of_find?_eq_some hfind)

theorem MirrorRun.Admitted.succ {run : MirrorRun} {fresh : ℕ} (h : run.Admitted db fresh) :
    run.Admitted db (fresh + 1) := ⟨h.1, Nat.lt_succ_of_lt h.2⟩

theorem MirrorStmt.placed {at_ next : MirrorLoc} (h : MirrorStmt settings db at_ locks writes next)
    (hplaced : Placed settings db storage m.fresh) (hat : at_.Knows settings db storage m.fresh) :
    Placed settings (writes.foldl Db.apply db) storage (m.fresh + 1) ∧
      next.Knows settings (writes.foldl Db.apply db) storage (m.fresh + 1) := by
  have hquiet : ∀ w ∈ writes, w.movesNothing = true := by
    cases h <;> simp [Write.movesNothing]
  refine ⟨(hplaced.quiet hquiet).succ, ?_⟩
  cases h with
  | insertReservation htarget =>
    exact ⟨hat, Nat.lt_succ_of_lt (lt_of_target? hplaced htarget)⟩
  | _ => exact hat

theorem MirrorAuto.placed {at_ next : MirrorLoc}
    (h : MirrorAuto settings m db storage at_ locks writes next)
    (hplaced : Placed settings db storage m.fresh) (hat : at_.Knows settings db storage m.fresh) :
    Placed settings (writes.foldl Db.apply db) storage (m.fresh + 1) ∧
      next.Knows settings (writes.foldl Db.apply db) storage (m.fresh + 1) := by
  cases h with
  | toFetch => exact ⟨hplaced.succ, trivial⟩
  | toClone => exact ⟨hplaced.succ, trivial⟩
  | @started request operation _ _ hstatus =>
    have hne : operation.startStatus ≠ .requested := by cases operation <;> decide
    have hheld : ¬ (operation.startStatus = .ready ∨ operation.startStatus = .healthy) := by
      cases operation <;> decide
    refine ⟨hstatus.placed hplaced hne fun hto => absurd hto hheld, ?_⟩
    exact StatusAuto.started { request, operation, runId := m.fresh } hstatus hplaced.targetKeys
      hne
  | mirrorKnown => exact ⟨hplaced.succ, hat⟩
  | insertMirror => exact ⟨hplaced.insertMirror rfl rfl, hat⟩
  | recordVerified =>
    exact ⟨(hplaced.quiet (by simp [Write.movesNothing])).succ, Or.inr ⟨rfl, hat⟩⟩
  | markDegraded =>
    exact ⟨(hplaced.quiet (by simp [Write.movesNothing])).succ, Or.inl rfl⟩
  | setStatus hstatus =>
    refine ⟨hstatus.placed hplaced ?_ ?_, trivial⟩
    · rcases hat with rfl | ⟨rfl, -⟩ <;> decide
    · rcases hat with rfl | ⟨rfl, hpublished⟩
      · simp
      · exact fun _ => hpublished
  | persisted => exact ⟨hplaced.succ, trivial⟩
  | lfsMissing => exact ⟨hplaced.succ, trivial⟩
  | setLfsDegraded hstatus => exact ⟨hstatus.placed hplaced (by decide) (by simp), trivial⟩

theorem MirrorCommit.knows {at_ next : MirrorLoc} (h : MirrorCommit at_ next) {fresh : ℕ}
    (hat : at_.Knows settings db storage fresh) : next.Knows settings db storage fresh := by
  cases h with
  | reserved => exact hat
  | @recorded job =>
    cases hresult : job.result with
    | succeeded objectCount bytesOnDisk =>
      have hobserve : job.observe = .ensureMirror job := by simp [Finishing.observe, hresult]
      rw [hobserve]
      exact hat (by rw [hresult]; rfl)
    | integrityFailed =>
      have hobserve : job.observe = .markDegraded job := by simp [Finishing.observe, hresult]
      rw [hobserve]
      trivial
    | _ =>
      have hobserve : job.observe = .setStatus job .degraded := by
        simp [Finishing.observe, hresult]
      rw [hobserve]
      exact Or.inl rfl

theorem MirrorRollback.knows {view : Db} {at_ next : MirrorLoc}
    (h : MirrorRollback view at_ next) {fresh : ℕ} :
    next.Knows settings db storage fresh := by
  cases h with
  | quotaRefused => exact fun hsuccess => nomatch hsuccess
  | unrecorded => trivial
  | refused => trivial

theorem MirrorCall.placed {at_ next : MirrorLoc} {storage' : MirrorStorage} {git : GitCall}
    (h : MirrorCall settings storage git at_ storage' next)
    (hplaced : Placed settings db storage m.fresh) (hat : at_.Knows settings db storage m.fresh) :
    Placed settings db storage' (m.fresh + 1) ∧
      next.Knows settings db storage' (m.fresh + 1) := by
  cases h with
  | interrupted => exact ⟨hplaced.succ, fun hsuccess => nomatch hsuccess⟩
  | toClone => exact ⟨hplaced.succ, hat.succ⟩
  | toFetch => exact ⟨hplaced.succ, hat.succ⟩
  | cloneFailed hresult =>
    exact ⟨hplaced.succ, fun hsuccess => absurd (hresult.symm.trans hsuccess) (by simp)⟩
  | cloned => exact ⟨hplaced.succ, hat.succ⟩
  | fetchFailed hcall hexit hresult =>
    refine ⟨(hplaced.same ?_).succ,
      fun hsuccess => absurd (hresult.symm.trans hsuccess) (by simp)⟩
    split_ifs
    · rfl
    · rfl
  | fetched =>
    refine ⟨(hplaced.same ?_).succ, hat.succ⟩
    rfl
  | checking => exact ⟨hplaced.succ, hat.succ⟩
  | @verdict run loc failure =>
    refine ⟨hplaced.succ, fun hsuccess => ?_⟩
    cases failure <;> cases hsuccess
  | toPublish => exact ⟨hplaced.succ, hat.succ⟩
  | verified =>
    refine ⟨(hplaced.same ?_).succ, trivial⟩
    rfl
  | publishFailed => exact ⟨hplaced.succ, fun hsuccess => nomatch hsuccess⟩
  | @published run objectCount next hnext =>
    refine ⟨(hplaced.publish hat.2 hat.1).succ, ?_⟩
    rcases hnext with rfl | rfl
    · trivial
    · exact fun hsuccess => nomatch hsuccess
  | unmeasured => exact ⟨hplaced.succ, fun hsuccess => nomatch hsuccess⟩
  | measured hpresent => exact ⟨hplaced.succ, fun _ => hpresent⟩
  | @collected run result lfs storage' hmirrors =>
    refine ⟨(hplaced.same hmirrors).succ, fun hsuccess => ?_⟩
    show storage'.mirrors _ = true
    rw [hmirrors]
    exact hat hsuccess

end Mirror

/-- Writes that leave every plan and every target as it is. -/
def Write.leavesPlans : Write → Bool
  | .insertTarget _ => false
  | .setTargetStatus _ _ _ => false
  | .insertPlan _ => false
  | .setPlanStatus _ _ _ => false
  | _ => true

section Worker

variable {settings : MirrorLifecycleSettings} {m : Moment} {db db' : Db} {storage : MirrorStorage}
  {locks : List Lock} {writes : List Write} {plan : DeletionExecutionPlan}

theorem Db.same_of_leavesPlans (h : ∀ w ∈ writes, w.leavesPlans = true) :
    (writes.foldl Db.apply db).plans = db.plans ∧
      (writes.foldl Db.apply db).targets = db.targets := by
  refine foldl_invariant (I := fun d : Db => d.plans = db.plans ∧ d.targets = db.targets)
    (fun d w hw hd => ?_) ⟨rfl, rfl⟩
  have hleaves := h w hw
  cases w with
  | insertTarget row => cases hleaves
  | setTargetStatus targetId fromStatus toStatus => cases hleaves
  | insertPlan row => cases hleaves
  | setPlanStatus planId fromStatus toStatus => cases hleaves
  | _ => exact hd

theorem inDeletion_congr {targetId : Uuid} (h : InDeletion db targetId)
    (htargets : db'.targets = db.targets) : InDeletion db' targetId := by
  unfold InDeletion
  rw [htargets]
  exact h

theorem MayRun.congr (h : MayRun settings db plan) (hplans : db'.plans = db.plans)
    (htargets : db'.targets = db.targets) : MayRun settings db' plan := by
  unfold MayRun Describes
  rw [hplans]
  exact ⟨h.1, fun htombstone => (h.2 htombstone).imp_left fun hd => inDeletion_congr hd htargets⟩

theorem Describes.setPlanStatus (h : Describes settings db plan) {planId : Uuid}
    {fromStatus toStatus : PlanStatus} :
    Describes settings (db.apply (.setPlanStatus planId fromStatus toStatus)) plan :=
  ⟨forall_updateWhere h.1 fun _ _ hrow _ => hrow, h.2⟩

/-- A move of a plan that is not cancelled. -/
theorem MayRun.setPlanStatus (h : MayRun settings db plan) {planId : Uuid}
    {fromStatus toStatus : PlanStatus} (hfrom : fromStatus ≠ .cancelled) :
    MayRun settings (db.apply (.setPlanStatus planId fromStatus toStatus)) plan := by
  refine ⟨h.1.setPlanStatus, fun htombstone => (h.2 htombstone).imp id fun hcancelled => ?_⟩
  refine forall_updateWhere hcancelled fun row _ hrow hsel hid => ?_
  simp only [Bool.and_eq_true, beq_iff_eq] at hsel
  exact absurd (hsel.2.symm.trans (hrow hid)) hfrom

theorem WorkerLoc.next_knows (h : MayRun settings db plan) {tasks : List Task} :
    (WorkerLoc.next plan tasks).Knows settings db := by
  match tasks with
  | [] => trivial
  | .stage unit :: rest => exact ⟨h, trivial⟩
  | .advance :: rest => exact h
  | .complete :: rest => trivial

/-- The execution plan is made of the rows its plan row refers to. -/
theorem describes_of_executionPlan? (hplaced : Placed settings db storage m.fresh) {planId : Uuid}
    (h : db.executionPlan? planId = some plan) :
    Describes settings db plan ∧
      ∀ row ∈ db.plans, row.planId = plan.planId → row.status = plan.status := by
  obtain ⟨row, hrow, hrest⟩ := Option.bind_eq_some_iff.mp h
  obtain ⟨snapshot, hsnapshot, hrest⟩ := Option.bind_eq_some_iff.mp hrest
  obtain ⟨mirror, hmirror, rfl⟩ := Option.map_eq_some_iff.mp hrest
  have hid : row.planId = planId := by simpa using List.find?_some hrow
  have hmem := List.mem_of_find?_eq_some hrow
  have hsnapshotId : snapshot.snapshotId = row.snapshotId := by
    simpa using List.find?_some hsnapshot
  have hmirrorId : mirror.mirrorId = snapshot.mirrorId := by simpa using List.find?_some hmirror
  have hsame : ∀ row' ∈ db.plans, row'.planId = planId → row' = row := fun row' hmem' hid' =>
    hplaced.planKeys row' hmem' row hmem (hid'.trans hid.symm)
  have htarget : mirror.targetId = row.targetId := by
    obtain ⟨snapshot', hmem', hid', htarget'⟩ := hplaced.planSnapshots row hmem
    obtain rfl : snapshot = snapshot' := hplaced.snapshotKeys _ (List.mem_of_find?_eq_some hsnapshot)
      _ hmem' (hsnapshotId.trans hid'.symm)
    obtain ⟨mirror', hmem'', hid'', htarget''⟩ := hplaced.sources snapshot hmem'
    obtain rfl : mirror = mirror' := hplaced.mirrorKeys _ (List.mem_of_find?_eq_some hmirror)
      _ hmem'' (hmirrorId.trans hid''.symm)
    exact htarget''.trans htarget'
  refine ⟨⟨fun row' hmem' hid' => ?_, ?_⟩, fun row' hmem' hid' => ?_⟩
  · rw [hsame row' hmem' hid']
    exact ⟨rfl, rfl⟩
  · rw [← htarget]
    exact hplaced.places mirror (List.mem_of_find?_eq_some hmirror)
  · rw [hsame row' hmem' hid']

theorem WorkerAuto.placed {at_ next : WorkerLoc} (h : WorkerAuto m db at_ locks writes next)
    (hplaced : Placed settings db storage m.fresh) (hat : at_.Knows settings db) :
    Placed settings (writes.foldl Db.apply db) storage (m.fresh + 1) ∧
      next.Knows settings (writes.foldl Db.apply db) := by
  cases h with
  | load hplan => exact ⟨hplaced.succ, describes_of_executionPlan? hplaced hplan⟩
  | loadArtifacts => exact ⟨hplaced.succ, hat⟩
  | loadReplicas => exact ⟨hplaced.succ, hat⟩
  | completed => exact ⟨hplaced.succ, trivial⟩
  | toGate => exact ⟨hplaced.succ, hat.1⟩
  | @ungated plan hstatus hopen =>
    refine ⟨hplaced.succ, WorkerLoc.next_knows ⟨hat.1, fun htombstone => ?_⟩⟩
    have hplanned : plan.status ≠ .planned := by
      rcases hstatus with hnone | hne
      · simp [hnone] at htombstone
      · exact hne
    by_cases hrow : ∃ row ∈ db.plans, row.planId = plan.planId ∧ row.status ≠ .cancelled
    · obtain ⟨row, hmem, hid, hcancelled⟩ := hrow
      obtain ⟨htarget, hunder⟩ := hat.1.1 row hmem hid
      have hsame := hat.2 row hmem hid
      refine Or.inl (htarget ▸ hplaced.started row hmem (hunder.symm ▸ htombstone) ?_)
      rw [hsame] at hcancelled ⊢
      simp [PlanStatus.hasStarted, hplanned, hcancelled]
    · refine Or.inr fun row hmem hid => ?_
      by_contra hcancelled
      exact hrow ⟨row, hmem, hid, hcancelled⟩
  | gateMissing hnone =>
    refine ⟨hplaced.succ, WorkerLoc.next_knows ⟨hat, fun _ => Or.inl fun row hrow hid => ?_⟩⟩
    have hother := List.find?_eq_none.mp hnone row hrow
    simp [hid] at hother
  | gateRefused => exact ⟨hplaced.succ, trivial⟩
  | @gate plan target htarget hguard =>
    have hmove := (guard_ok hguard).imp_left Eq.symm
    have hrun : MayRun settings
        (db.apply (.setTargetStatus plan.targetId target.status .deleting)) plan :=
      ⟨hat, fun _ => Or.inl fun row hrow hid =>
        Or.inl (status_of_written hplaced.targetKeys htarget row hrow hid)⟩
    exact ⟨(hplaced.setTargetStatus hmove (by simp) (by simp)).succ, WorkerLoc.next_knows hrun⟩
  | advanceRead => exact ⟨hplaced.succ, hat⟩
  | advanceWrite =>
    exact ⟨(hplaced.quiet (by simp [Write.movesNothing, PlanStatus.hasStarted])).succ,
      WorkerLoc.next_knows (MayRun.setPlanStatus hat (by decide))⟩

theorem ClaimKnows.congr {job : Job} {at_ : ClaimLoc} (h : ClaimKnows db job at_)
    (htargets : db'.targets = db.targets) : ClaimKnows db' job at_ := by
  unfold ClaimKnows InDeletion
  rw [htargets]
  exact h

/-- The statements of a worker that write to no plan and to no target. -/
theorem MayRun.claim {job : Job} {at_ : ClaimLoc} (h : MayRun settings db job.plan)
    (hat : ClaimKnows db job at_) (hleaves : ∀ w ∈ writes, w.leavesPlans = true) :
    (WorkerLoc.claim job at_).Knows settings (writes.foldl Db.apply db) := by
  obtain ⟨hplans, htargets⟩ := Db.same_of_leavesPlans hleaves
  exact ⟨h.congr hplans htargets, hat.congr htargets⟩

theorem WorkerStmt.placed {at_ next : WorkerLoc} (h : WorkerStmt m db at_ locks writes next)
    (hplaced : Placed settings db storage m.fresh) (hat : at_.Knows settings db) :
    Placed settings (writes.foldl Db.apply db) storage (m.fresh + 1) ∧
      next.Knows settings (writes.foldl Db.apply db) := by
  have hquiet : (∀ w ∈ writes, w.movesNothing = true) →
      Placed settings (writes.foldl Db.apply db) storage (m.fresh + 1) := fun hmoves =>
    (hplaced.quiet hmoves).succ
  cases h with
  | @claimLoad job plan hplan =>
    refine ⟨hquiet (by simp), hat.1, fun htombstone hcancelled => ?_⟩
    refine (hat.1.2 htombstone).resolve_right fun hall => hcancelled ?_
    exact hall plan (List.mem_of_find?_eq_some hplan) (by simpa using List.find?_some hplan)
  | refuse => exact ⟨hquiet (by simp), hat.1, trivial⟩
  | accept => exact ⟨hquiet (by simp), hat⟩
  | identity => exact ⟨hquiet (by simp), hat⟩
  | @advancePlanned job row object hstatus =>
    have hdeletion : job.plan.tombstoneId.isSome = true → InDeletion db job.plan.targetId :=
      fun htombstone => hat.2 htombstone (by simp [hstatus])
    have hmove : Placed settings
        (db.apply (.setPlanStatus job.plan.planId .planned .localDeleting)) storage m.fresh := by
      refine hplaced.setPlanStatus fun _ _ plan hmem hid htombstone => ?_
      obtain ⟨htarget, hunder⟩ := hat.1.1.1 plan hmem hid
      exact htarget ▸ hdeletion (hunder ▸ htombstone)
    exact ⟨hmove.succ, hat.1.setPlanStatus (by decide), hdeletion⟩
  | advanceStarted hstatus =>
    refine ⟨hquiet (by simp), hat.1, fun htombstone => hat.2 htombstone ?_⟩
    rcases hstatus with hstatus | hstatus <;> simp [hstatus]
  | abandonStage =>
    exact ⟨hquiet (List.forall_mem_map.mpr fun _ _ => rfl),
      hat.1.claim hat.2 (List.forall_mem_map.mpr fun _ _ => rfl)⟩
  | lockIdentity => exact ⟨hquiet (by simp), hat⟩
  | shared => exact ⟨hquiet (by simp), hat⟩
  | notShared => exact ⟨hquiet (by simp), hat⟩
  | insertShared => exact ⟨hquiet (by simp [Write.movesNothing]), hat.1, trivial⟩
  | abandonClaims =>
    exact ⟨hquiet (List.forall_mem_map.mpr fun _ _ => rfl),
      hat.1.claim hat.2 (List.forall_mem_map.mpr fun _ _ => rfl)⟩
  | insertClaim => exact ⟨hquiet (by simp [Write.movesNothing]), hat⟩
  | @insertAttempt job row object claimId attempt hid hplan hstage houtcome hguard =>
    refine ⟨hquiet (by simp [Write.movesNothing]), hat.1, fun hmirror => hat.2 ?_⟩
    -- a mirror is only claimed under a tombstone
    simp only [Db.guardDeletionStageInsert, hplan, hstage, hmirror, StageUnit.stage] at hguard
    split at hguard
    · cases hguard
    · rename_i plan hfind
      split_ifs at hguard with _ hrefused
      have hunder := (hat.1.1.1 plan (List.mem_of_find?_eq_some hfind)
        (by simpa using List.find?_some hfind)).2
      rw [← hunder]
      exact Option.isSome_iff_ne_none.mpr fun hnone => hrefused (Or.inl hnone)
  | recordLock => exact ⟨hquiet (by simp), hat⟩
  | recordAttempt => exact ⟨hquiet (by simp [Write.movesNothing]), hat⟩
  | recordClaim => exact ⟨hquiet (by simp [Write.movesNothing]), hat⟩
  | completeLock => exact ⟨hquiet (by simp), trivial⟩
  | completePlan => exact ⟨hquiet (by simp [Write.movesNothing, PlanStatus.hasStarted]), trivial⟩
  | completeSnapshot => exact ⟨hquiet (by simp [Write.movesNothing]), trivial⟩
  | completeSnapshotUnder => exact ⟨hquiet (by simp [Write.movesNothing]), trivial⟩
  | incomplete => exact ⟨hquiet (by simp), trivial⟩
  | ready => exact ⟨hquiet (by simp), trivial⟩
  | tombstoneMissing => exact ⟨hquiet (by simp), trivial⟩
  | completeTombstone => exact ⟨hquiet (by simp [Write.movesNothing]), trivial⟩
  | targetKept => exact ⟨hquiet (by simp), trivial⟩
  | completeTarget =>
    exact ⟨(hplaced.setTargetStatus (Or.inr (by decide)) (by simp) (by simp)).succ, trivial⟩

theorem WorkerCommit.knows {at_ next : WorkerLoc} (h : WorkerCommit at_ next)
    (hat : at_.Knows settings db) : next.Knows settings db := by
  cases h with
  | deferred => trivial
  | shared => exact WorkerLoc.next_knows hat.1
  | claimed => exact hat
  | recorded => exact WorkerLoc.next_knows hat
  | failed => trivial
  | completed => trivial

/-- The only mirror an effect removes is the one of its execution plan. -/
theorem mirrors_of_deletionEffect (worker : RetentionWorkerSettings) (job : Job)
    (storage : Storage) (io : IoResult) :
    (deletionEffect worker job storage io).1.mirrors = storage.mirrors ∨
      job.unit = .mirror ∧ (deletionEffect worker job storage io).1.mirrors
        = Function.update storage.mirrors job.plan.mirrorStoragePath false := by
  unfold deletionEffect
  cases hunit : job.unit with
  | artifact a => exact Or.inl rfl
  | mirror =>
    cases io with
    | failedBefore => exact Or.inl rfl
    | _ => exact Or.inr ⟨rfl, rfl⟩
  | replica a stored =>
    refine Or.inl ?_
    simp only
    split
    · rfl
    · unfold deleteVerifiedReplica
      split_ifs
      · rfl
      · split
        · rfl
        · rfl
        · split_ifs <;> rfl

theorem placed_deletionEffect (worker : RetentionWorkerSettings) {job : Job} (io : IoResult)
    (hplaced : Placed settings db storage m.fresh) (hmay : MayRun settings db job.plan)
    (hmirror : job.unit = .mirror → InDeletion db job.plan.targetId) :
    Placed settings db
      { storage with toStorage := (deletionEffect worker job storage.toStorage io).1 }
      (m.fresh + 1) := by
  rcases mirrors_of_deletionEffect worker job storage.toStorage io with hsame | ⟨hunit, hremoved⟩
  · exact (hplaced.same hsame).succ
  · rw [hmay.1.2] at hremoved
    exact (hplaced.remove (hmirror hunit) hremoved).succ

end Worker

section Capture

variable {settings : MirrorLifecycleSettings} {m : Moment} {db : Db} {storage : MirrorStorage}
  {locks : List Lock} {writes : List Write}

theorem CaptureStmt.placed {at_ next : CaptureLoc} (h : CaptureStmt m db at_ locks writes next)
    (hplaced : Placed settings db storage m.fresh) (hat : at_.Knows db) :
    Placed settings (writes.foldl Db.apply db) storage (m.fresh + 1) ∧
      next.Knows (writes.foldl Db.apply db) := by
  cases h with
  | recordSource hsource =>
    obtain ⟨mirror, hmem, hmirror⟩ := List.any_eq_true.mp hsource
    simp only [Bool.and_eq_true, beq_iff_eq] at hmirror
    exact ⟨hplaced.succ, mirror, hmem, hmirror.1.1.1.1, hmirror.1.1.1.2⟩
  | recordParent => exact ⟨hplaced.succ, hat⟩
  | insertSnapshot hid htarget hmirror =>
    refine ⟨hplaced.insertSnapshot hid ?_, trivial⟩
    rw [hmirror, htarget]
    exact hat
  | _ => exact ⟨(hplaced.quiet (by simp [Write.movesNothing])).succ, trivial⟩

theorem CaptureAuto.knows {at_ next : CaptureLoc} (h : CaptureAuto db at_ next) :
    next.Knows db := by
  cases h <;> trivial

theorem CapturePublish.knows {cx : Crypto} {capture : SnapshotSettings} {world : Storage}
    {at_ next : CaptureLoc} {reference : BlobRef} {bytes : Bytes}
    (h : CapturePublish cx capture world at_ reference bytes next) : next.Knows db := by
  cases h <;> trivial

theorem mirrors_of_publish {cx : Crypto} {world : Storage} {reference : BlobRef} {bytes : Bytes}
    {io : IoResult} : (publish cx world reference bytes io).1.mirrors = world.mirrors := by
  unfold publish
  split <;> rfl

end Capture

end RatatoskrVault
