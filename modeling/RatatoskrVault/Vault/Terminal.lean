import RatatoskrVault.Lib.Bounded
import RatatoskrVault.Mirror.Steps
import RatatoskrVault.Vault.Evidence
import RatatoskrVault.Vault.Recorded

/-! How a started mirror run ends: after a bounded number of steps, and in its row of evidence
unless one of the early exits after `transition_started` is taken. -/
namespace RatatoskrVault

open Lib

namespace MirrorLoc

/-- The steps a run has still to take. -/
def stepsLeft : MirrorLoc → ℕ
  | begin _ => 23
  | transitionStarted _ _ => 22
  | lockQuota _ => 21
  | targetReserved _ => 20
  | globalReserved _ _ => 19
  | insertReservation _ => 18
  | commitReservation _ => 17
  | admitted _ => 16
  | clone _ => 15
  | fetch _ => 15
  | evidence _ .fsck => 14
  | evidence _ .showRef => 13
  | evidence _ (.revList _) => 12
  | publishStaging _ _ => 11
  | directorySize _ _ => 10
  | collectLfs _ _ => 9
  | insertRun _ => 8
  | releaseReservation _ => 7
  | commitRun _ => 6
  | ensureMirror _ => 5
  | recordVerified _ => 4
  | markDegraded _ => 4
  | setStatus _ _ => 3
  | persistLfs _ => 2
  | setLfsDegraded _ => 1
  | finished _ => 0

/-- A result on its way to the record has counts the record can hold. -/
def Countable : MirrorLoc → Prop
  | collectLfs _ result => result.outcome?.isSome = true
  | insertRun job => job.result.outcome?.isSome = true
  | _ => True

/-- A recorded result whose status is set. -/
def settled : MirrorLoc → Option Finishing
  | persistLfs job => some job
  | setLfsDegraded job => some job
  | _ => none

/-- The status of the target at each place of a run. -/
structure Standing (db : Db) (at_ : MirrorLoc) : Prop where
  underway : ∀ run, at_.underway = some run → ∀ status,
    db.statusOf run.request.targetId = some status → status = run.operation.startStatus
  awaited : ∀ job status, at_ = setStatus job status → status = .ready ∨ status = .degraded
  settled : ∀ job, at_.settled = some job → ∀ status,
    db.statusOf job.run.request.targetId = some status → status = .ready ∨ status = .degraded

variable (settings : MirrorLifecycleSettings) (db : Db) (storage : MirrorStorage)
  (input : MirrorInput)

/-- What the early exits of a run look for: a representable reservation under representable
budgets, representable sums and counts, and the row of the target. -/
def Met : MirrorLoc → Prop
  | lockQuota run =>
    0 < admittedReservation settings run.request ∧
      admittedReservation settings run.request ≤ i64Max ∧ 0 < settings.perMirrorMaxBytes ∧
      settings.perMirrorMaxBytes ≤ i64Max ∧ 0 < settings.globalMaxBytes ∧
      settings.globalMaxBytes ≤ i64Max
  | targetReserved run =>
    reservedBytes (db.reservations.filter fun r => r.targetId == run.request.targetId) ≤ i64Max
  | globalReserved _ _ => reservedBytes db.reservations ≤ i64Max
  | insertReservation run => (db.target? run.request.targetId).isSome = true
  | directorySize run objectCount =>
    storage.mirrors (mirrorRelativePath settings run.request.targetId) = true →
      ∀ bytesOnDisk, input.size = some bytesOnDisk → objectCount ≤ i64Max ∧ bytesOnDisk ≤ i64Max
  | insertRun job => (db.target? job.run.request.targetId).isSome = true
  | _ => True

end MirrorLoc

section

variable {settings : MirrorLifecycleSettings} {m : Moment} {db db' : Db} {storage : MirrorStorage}
  {input : MirrorInput} {at_ next : MirrorLoc} {a : Action MirrorStorage Lock Write MirrorLoc}
  {run : MirrorRun} {locks : List Lock} {writes log : List Write}

theorem isSome_setTargetStatus {targetId : Uuid} {status : TargetStatus} :
    (setTargetStatus m db targetId status next).isSome = true := by
  unfold setTargetStatus failRun
  split
  · rfl
  · split <;> rfl

/-- A run that has not ended has a next step, whatever it is told. -/
theorem isSome_runMirror (hat : ∀ result, at_ ≠ .finished result) :
    (runMirror settings m db storage input at_).isSome = true := by
  cases at_ with
  | finished result => exact absurd rfl (hat result)
  | transitionStarted request operation => exact isSome_setTargetStatus
  | setStatus job status => exact isSome_setTargetStatus
  | setLfsDegraded job => exact isSome_setTargetStatus
  | _ =>
    simp only [runMirror, failRun]
    (repeat' split) <;> rfl

/-- Every step of a run keeps its request, and leaves less to do. -/
theorem runMirror_lowers (h : runMirror settings m db storage input at_ = some a) :
    (∀ run, at_.run? = some run → a.next.run? = some run ∨ ∃ result, a.next = .finished result) ∧
      a.next.stepsLeft < at_.stepsLeft := by
  have hset : ∀ {targetId status n}, setTargetStatus m db targetId status n = some a →
      (∀ run, at_.run? = some run → n.run? = some run ∨ ∃ result, n = .finished result) →
      n.stepsLeft < at_.stepsLeft → 0 < at_.stepsLeft →
      (∀ run, at_.run? = some run → a.next.run? = some run ∨ ∃ result, a.next = .finished result) ∧
        a.next.stepsLeft < at_.stepsLeft := by
    intro targetId status n hn hkeeps hless hsome
    rcases setTargetStatus_next hn with hnext | ⟨e, rfl⟩
    · rw [hnext]
      exact ⟨hkeeps, hless⟩
    · exact ⟨fun _ _ => Or.inr ⟨_, rfl⟩, hsome⟩
  cases at_ with
  | finished result => cases h
  | transitionStarted request operation =>
    exact hset h (fun _ hrun => by cases hrun) (by simp [MirrorLoc.stepsLeft]) (Nat.zero_lt_succ _)
  | setStatus job status =>
    exact hset h (fun _ => Or.inl) (by simp [MirrorLoc.stepsLeft]) (Nat.zero_lt_succ _)
  | setLfsDegraded job =>
    exact hset h (fun _ _ => Or.inr ⟨_, rfl⟩) (by simp [MirrorLoc.stepsLeft]) (Nat.zero_lt_succ _)
  | commitRun job =>
    cases h
    unfold Action.next Finishing.observe
    cases job.result <;> exact ⟨fun _ => Or.inl, by simp [MirrorLoc.stepsLeft]⟩
  | evidence r at_ =>
    have hpast : 11 < (MirrorLoc.evidence r at_).stepsLeft := by
      cases at_ <;> simp [MirrorLoc.stepsLeft]
    simp only [runMirror] at h
    split at h
    · rename_i n hn
      cases h
      refine ⟨fun _ => Or.inl, ?_⟩
      cases at_ <;> simp only [integrityEvidence] at hn <;> (repeat' split at hn) <;> cases hn <;>
        simp [Action.next, MirrorLoc.stepsLeft]
    · cases h
      exact ⟨fun _ => Or.inl, Nat.lt_trans (by simp [Action.next, MirrorLoc.stepsLeft]) hpast⟩
    · split at h <;> cases h
      · exact ⟨fun _ => Or.inl, hpast⟩
      · exact ⟨fun _ => Or.inl, Nat.lt_trans (by simp [Action.next, MirrorLoc.stepsLeft]) hpast⟩
  | _ =>
    simp only [runMirror, failRun] at h
    (repeat' split at h) <;> cases h <;>
      exact ⟨fun _ hrun => (by first | exact Or.inl hrun | exact Or.inr ⟨_, rfl⟩),
        by simp [Action.next, MirrorRun.finish, MirrorLoc.stepsLeft]⟩

/-- A step past an early exit goes on to the record, or ends the run without it. -/
theorem runMirror_exits (h : runMirror settings m db storage input at_ = some a)
    (hexit : ¬ (at_.Countable ∧ at_.Met settings db storage input)) :
    ¬ a.next.Countable ∨ at_.recorded = none ∧ ∃ e, a = .rollback (.finished (.error e)) := by
  cases at_ with
  | lockQuota r =>
    have hunmet : ¬ (0 < admittedReservation settings r.request ∧ _) := fun hmet =>
      hexit ⟨trivial, hmet⟩
    simp only [runMirror, if_neg hunmet] at h
    cases h
    exact Or.inr ⟨rfl, _, rfl⟩
  | targetReserved r =>
    have hunmet : ¬ reservedBytes
        (db.reservations.filter fun r' => r'.targetId == r.request.targetId) ≤ i64Max := fun hmet =>
      hexit ⟨trivial, hmet⟩
    simp only [runMirror, if_neg hunmet] at h
    cases h
    exact Or.inr ⟨rfl, _, rfl⟩
  | globalReserved r reserved =>
    have hunmet : i64Max < reservedBytes db.reservations :=
      Nat.lt_of_not_le fun hmet => hexit ⟨trivial, hmet⟩
    simp only [runMirror, if_pos hunmet] at h
    cases h
    exact Or.inr ⟨rfl, _, rfl⟩
  | insertReservation r =>
    have hunmet : (db.target? r.request.targetId).isNone = true :=
      Option.not_isSome_iff_eq_none.mp (fun hmet => hexit ⟨trivial, hmet⟩) ▸ rfl
    simp only [runMirror, if_pos hunmet] at h
    cases h
    exact Or.inr ⟨rfl, _, rfl⟩
  | directorySize r objectCount =>
    -- the counts go on to the record, which cannot hold them
    have hmeasured : ∃ bytesOnDisk, (if storage.mirrors
        (mirrorRelativePath settings r.request.targetId) then input.size else none)
          = some bytesOnDisk ∧ ¬ (objectCount ≤ i64Max ∧ bytesOnDisk ≤ i64Max) := by
      by_contra hnone
      refine hexit ⟨trivial, fun hpresent bytesOnDisk hsize => ?_⟩
      by_contra hlarge
      exact hnone ⟨bytesOnDisk, by rw [if_pos hpresent, hsize], hlarge⟩
    obtain ⟨bytesOnDisk, hsize, hlarge⟩ := hmeasured
    simp only [runMirror, hsize] at h
    cases h
    refine Or.inl ?_
    simp [Action.next, MirrorLoc.Countable, MirrorResult.outcome?, hlarge]
  | collectLfs r result =>
    have huncounted : ¬ result.outcome?.isSome = true := fun hcount => hexit ⟨hcount, trivial⟩
    simp only [runMirror] at h
    refine Or.inl ?_
    (repeat' split at h) <;> cases h <;> exact huncounted
  | insertRun job =>
    refine Or.inr ⟨rfl, ?_⟩
    simp only [runMirror, failRun] at h
    split at h
    · cases h
      exact ⟨_, rfl⟩
    · rename_i outcome houtcome
      have hunmet : (db.target? job.run.request.targetId).isNone = true := by
        have hcount : job.result.outcome?.isSome = true := by
          rw [houtcome]
          rfl
        exact Option.not_isSome_iff_eq_none.mp (fun hmet => hexit ⟨hcount, hmet⟩) ▸ rfl
      rw [if_pos hunmet] at h
      cases h
      exact ⟨_, rfl⟩
  | _ => exact absurd ⟨trivial, trivial⟩ hexit

theorem runMirror_countable (h : runMirror settings m db storage input at_ = some a)
    (hcount : at_.Countable) (hmet : at_.Met settings db storage input) : a.next.Countable := by
  have hset : ∀ {targetId status n}, setTargetStatus m db targetId status n = some a →
      n.Countable → a.next.Countable := by
    intro targetId status n hn hcountable
    rcases setTargetStatus_next hn with hnext | ⟨e, rfl⟩
    · rw [hnext]
      exact hcountable
    · trivial
  cases at_ with
  | finished result => cases h
  | transitionStarted request operation => exact hset h trivial
  | setStatus job status => exact hset h trivial
  | setLfsDegraded job => exact hset h trivial
  | commitRun job =>
    cases h
    unfold Action.next Finishing.observe
    cases job.result <;> trivial
  | directorySize r objectCount =>
    simp only [runMirror] at h
    split at h
    · cases h
      rfl
    · rename_i bytesOnDisk hsize
      cases h
      split_ifs at hsize with hpresent
      have hfits := hmet hpresent bytesOnDisk hsize
      show (MirrorResult.outcome? _).isSome = true
      simp [MirrorResult.outcome?, hfits]
  | collectLfs r result =>
    simp only [runMirror] at h
    (repeat' split at h) <;> cases h <;> exact hcount
  | evidence r at_ =>
    simp only [runMirror] at h
    split at h
    · cases h
      trivial
    · rename_i failure _
      cases h
      cases failure <;> rfl
    · split at h <;> cases h <;> trivial
  | _ =>
    simp only [runMirror, failRun] at h
    (repeat' split at h) <;> cases h <;> trivial

/-- The guard lets a run record the status its result calls for. -/
theorem guard_of_standing {target : Target} {clock : Time} {status : TargetStatus}
    (hold : (∃ operation : MirrorOperation, target.status = operation.startStatus) ∨
      target.status = .ready ∧ status = .degraded ∨ target.status = status)
    (hnew : status = .ready ∨ status = .degraded) :
    db.targetGuardStatusTransition clock target status = .ok () := by
  have hlegal : target.status = status ∨ Transition.isLegal target.status status = true := by
    rcases hold with ⟨operation, hold⟩ | ⟨hold, rfl⟩ | hold
    · rw [hold]
      rcases hnew with rfl | rfl <;> cases operation <;> exact Or.inr (by decide)
    · rw [hold]
      exact Or.inr (by decide)
    · exact Or.inl hold
  have hdeleting : status ≠ .deleting := by rcases hnew with rfl | rfl <;> decide
  have hdeleted : status ≠ .deleted := by rcases hnew with rfl | rfl <;> decide
  unfold Db.targetGuardStatusTransition
  rcases hlegal with hsame | hlegal
  · simp [hsame]
  · simp [hdeleting, hdeleted, hlegal]

/-- `set_target_status` that the guard lets through. -/
theorem setTargetStatus_of_guard {targetId : Uuid} {status : TargetStatus}
    (hguard : ∀ target, db.target? targetId = some target →
      db.targetGuardStatusTransition m.clock target status = .ok ())
    (h : setTargetStatus m db targetId status next = some a) :
    ∃ locks writes, a = .auto locks writes next ∧ StatusAuto m db targetId status locks writes := by
  unfold setTargetStatus at h
  split at h
  · rename_i hnone
    cases h
    exact ⟨_, _, rfl, .missing hnone⟩
  · rename_i target htarget
    simp only [hguard target htarget] at h
    cases h
    exact ⟨_, _, rfl, .written htarget (hguard target htarget)⟩

theorem statusOf_of_target? {targetId : Uuid} {target : Target}
    (h : db.target? targetId = some target) : db.statusOf targetId = some target.status := by
  unfold Db.statusOf
  rw [h]
  rfl

/-- After `set_target_status` the row, if there is one, has the status. -/
theorem StatusAuto.statusOf {targetId : Uuid} {status status' : TargetStatus}
    (h : StatusAuto m db targetId status locks writes)
    (hstatus : (writes.foldl Db.apply db).statusOf targetId = some status') : status' = status := by
  cases h with
  | missing hnone =>
    have hmissing : db.statusOf targetId = none := by
      unfold Db.statusOf
      rw [hnone]
      rfl
    rw [List.foldl_nil, hmissing] at hstatus
    cases hstatus
  | written htarget hguard =>
    rw [List.foldl_cons, List.foldl_nil, Db.statusOf_setTargetStatus htarget, if_pos rfl] at hstatus
    exact (Option.some.inj hstatus).symm

theorem MirrorLoc.Standing.guard_setStatus {job : Finishing} {status : TargetStatus}
    (h : (MirrorLoc.setStatus job status).Standing db) {clock : Time} (target : Target)
    (htarget : db.target? job.run.request.targetId = some target) :
    db.targetGuardStatusTransition clock target status = .ok () :=
  guard_of_standing
    (Or.inl ⟨job.run.operation, h.underway job.run rfl _ (statusOf_of_target? htarget)⟩)
    (h.awaited job status rfl)

theorem MirrorLoc.Standing.guard_setLfsDegraded {job : Finishing}
    (h : (MirrorLoc.setLfsDegraded job).Standing db) {clock : Time} (target : Target)
    (htarget : db.target? job.run.request.targetId = some target) :
    db.targetGuardStatusTransition clock target .degraded = .ok () := by
  refine guard_of_standing (Or.inr ?_) (Or.inr rfl)
  rcases h.settled job rfl _ (statusOf_of_target? htarget) with hready | hdegraded
  · exact Or.inl ⟨hready, rfl⟩
  · exact Or.inr hdegraded

/-- A run that takes no early exit ends where its status is set. -/
theorem runMirror_records (h : runMirror settings m db storage input at_ = some a)
    (hrun : at_.run? = some run) (hcount : at_.Countable) (hmet : at_.Met settings db storage input)
    (hstanding : at_.Standing db) {result : Except VaultError LifecycleOutcome}
    (hnext : a.next = .finished result) : ∃ job, at_.settled = some job := by
  cases at_ with
  | begin request => cases hrun
  | transitionStarted request operation => cases hrun
  | lockQuota r =>
    simp only [runMirror] at h
    split_ifs at h with hfits
    · cases h
      cases hnext
    · exact absurd hmet hfits
  | targetReserved r =>
    have hfits : reservedBytes
        (db.reservations.filter fun r' => r'.targetId == r.request.targetId) ≤ i64Max := hmet
    simp only [runMirror, if_pos hfits] at h
    cases h
    cases hnext
  | globalReserved r reserved =>
    have hfits : ¬ i64Max < reservedBytes db.reservations := Nat.not_lt.mpr hmet
    simp only [runMirror, if_neg hfits] at h
    split_ifs at h <;> cases h <;> cases hnext
  | insertReservation r =>
    have hpresent : ¬ (db.target? r.request.targetId).isNone = true := fun hnone =>
      Option.isSome_iff_ne_none.mp hmet (Option.isNone_iff_eq_none.mp hnone)
    simp only [runMirror, if_neg hpresent] at h
    cases h
    cases hnext
  | insertRun job =>
    have hpresent : ¬ (db.target? job.run.request.targetId).isNone = true := fun hnone =>
      Option.isSome_iff_ne_none.mp hmet (Option.isNone_iff_eq_none.mp hnone)
    obtain ⟨outcome, houtcome⟩ := Option.isSome_iff_exists.mp hcount
    simp only [runMirror, houtcome, if_neg hpresent] at h
    cases h
    cases hnext
  | setStatus job status =>
    obtain ⟨locks, writes, rfl, -⟩ := setTargetStatus_of_guard hstanding.guard_setStatus h
    cases hnext
  | persistLfs job => exact ⟨job, rfl⟩
  | setLfsDegraded job => exact ⟨job, rfl⟩
  | commitRun job =>
    cases h
    unfold Action.next Finishing.observe at hnext
    cases hresult : job.result <;> rw [hresult] at hnext <;> cases hnext
  | _ =>
    simp only [runMirror] at h
    (repeat' split at h) <;> cases h <;> cases hnext

/-- The last steps of a run leave its target at `ready` or `degraded`. -/
theorem runMirror_settled (h : runMirror settings m db storage input at_ = some a) {job : Finishing}
    (hjob : at_.settled = some job) (hstanding : at_.Standing db) :
    ∃ locks writes, a = .auto locks writes a.next ∧ (∀ w ∈ writes, w.leavesRuns = true) ∧
      ∀ status, (writes.foldl Db.apply db).statusOf job.run.request.targetId = some status →
        status = .ready ∨ status = .degraded := by
  cases at_ with
  | persistLfs other =>
    obtain rfl := Option.some.inj hjob
    cases h
    exact ⟨[], [], rfl, fun w hw => absurd hw List.not_mem_nil, hstanding.settled other rfl⟩
  | setLfsDegraded other =>
    obtain rfl := Option.some.inj hjob
    obtain ⟨locks, writes, rfl, hauto⟩ := setTargetStatus_of_guard hstanding.guard_setLfsDegraded h
    exact ⟨locks, writes, rfl, hauto.leavesRuns, fun status hstatus => Or.inr (hauto.statusOf hstatus)⟩
  | _ => cases hjob

/-- The uncommitted writes of a run are not to its target. -/
theorem MirrorLoc.Logged.statusOf (h : at_.Logged settings log) (targetId : Uuid) :
    (log.foldl Db.apply db).statusOf targetId = db.statusOf targetId := by
  cases at_ with
  | commitReservation r =>
    rw [show log = _ from h]
    rfl
  | releaseReservation job =>
    obtain ⟨row, -, rfl⟩ := h
    rfl
  | commitRun job =>
    obtain ⟨row, -, rfl⟩ := h
    rfl
  | _ =>
    rw [show log = [] from h]
    rfl

theorem MirrorLoc.run?_of_underway (h : at_.underway = some run) : at_.run? = some run := by
  cases at_ <;> cases h <;> rfl

theorem MirrorLoc.run?_of_settled {job : Finishing} (h : at_.settled = some job) :
    at_.run? = some job.run := by
  cases at_ <;> cases h <;> rfl

/-- A place reads only the status of its own target. -/
theorem MirrorLoc.Standing.congr (h : at_.Standing db) (hrun : at_.run? = some run)
    (hstatus : db'.statusOf run.request.targetId = db.statusOf run.request.targetId) :
    at_.Standing db' where
  underway r hr status hat := by
    obtain rfl := Option.some.inj (hrun.symm.trans (run?_of_underway hr))
    rw [hstatus] at hat
    exact h.underway run hr status hat
  awaited := h.awaited
  settled job hjob status hat := by
    obtain rfl := Option.some.inj (hrun.symm.trans (run?_of_settled hjob))
    rw [hstatus] at hat
    exact h.settled job hjob status hat

/-- A place of the same operation before its status is set. -/
theorem MirrorLoc.Standing.moved (h : at_.Standing db) (hunderway : next.underway = at_.underway)
    (hawaited : ∀ job status, next = .setStatus job status → status = .ready ∨ status = .degraded)
    (hsettled : next.settled = none) : next.Standing db where
  underway r hr := h.underway r (hunderway ▸ hr)
  awaited := hawaited
  settled job hjob := by
    rw [hsettled] at hjob
    cases hjob

theorem MirrorLoc.standing_finished {result : Except VaultError LifecycleOutcome} :
    (MirrorLoc.finished result).Standing db where
  underway r hr := by cases hr
  awaited job status hat := by cases hat
  settled job hjob := by cases hjob

theorem MirrorStmt.standing (h : MirrorStmt settings db' at_ locks writes next)
    (hat : at_.Standing db) : next.Standing db := by
  cases h <;> exact hat.moved rfl (fun _ _ heq => by cases heq) rfl

theorem MirrorCommit.standing (h : MirrorCommit at_ next) (hat : at_.Standing db) :
    next.Standing db := by
  cases h with
  | reserved => exact hat.moved rfl (fun _ _ heq => by cases heq) rfl
  | @recorded job =>
    refine hat.moved job.underway_observe (fun job' status heq => ?_) ?_
    · unfold Finishing.observe at heq
      cases hresult : job.result <;> rw [hresult] at heq <;> cases heq <;> exact Or.inr rfl
    · unfold Finishing.observe
      cases job.result <;> rfl

theorem MirrorRollback.standing (h : MirrorRollback db' at_ next) (hat : at_.Standing db) :
    next.Standing db := by
  cases h with
  | quotaRefused => exact hat.moved rfl (fun _ _ heq => by cases heq) rfl
  | unrecorded => exact MirrorLoc.standing_finished
  | refused => exact MirrorLoc.standing_finished

theorem MirrorCall.standing {storage' : MirrorStorage}
    (h : MirrorCall settings storage input.git at_ storage' next) (hat : at_.Standing db) :
    next.Standing db := by
  cases h with
  | published hnext =>
    rcases hnext with rfl | rfl <;> exact hat.moved rfl (fun _ _ heq => by cases heq) rfl
  | _ => exact hat.moved rfl (fun _ _ heq => by cases heq) rfl

theorem MirrorAuto.standing (h : MirrorAuto settings m db storage at_ locks writes next)
    (hat : at_.Standing db) : next.Standing (writes.foldl Db.apply db) := by
  have hcongr : ∀ {d : Db}, (∀ targetId, d.statusOf targetId = db.statusOf targetId) →
      next.underway = at_.underway →
      (∀ job status, next = .setStatus job status → status = .ready ∨ status = .degraded) →
      next.settled = none → next.Standing d := by
    intro d hd hunderway hawaited hsettled
    refine MirrorLoc.Standing.moved ⟨fun r hr status hstatus => ?_, hat.awaited, ?_⟩ hunderway
      hawaited hsettled
    · rw [hd] at hstatus
      exact hat.underway r hr status hstatus
    · intro job hjob status hstatus
      rw [hd] at hstatus
      exact hat.settled job hjob status hstatus
  cases h with
  | toFetch => exact hcongr (fun _ => rfl) rfl (fun _ _ heq => by cases heq) rfl
  | toClone => exact hcongr (fun _ => rfl) rfl (fun _ _ heq => by cases heq) rfl
  | started hstatus =>
    refine ⟨fun r hr status hst => ?_, fun _ _ heq => (by cases heq), fun _ hjob => (by cases hjob)⟩
    obtain rfl := Option.some.inj hr
    exact hstatus.statusOf hst
  | mirrorKnown => exact hcongr (fun _ => rfl) rfl (fun _ _ heq => by cases heq) rfl
  | insertMirror => exact hcongr (fun _ => rfl) rfl (fun _ _ heq => by cases heq) rfl
  | recordVerified =>
    exact hcongr (fun _ => rfl) rfl (fun _ _ heq => by cases heq; exact Or.inl rfl) rfl
  | markDegraded =>
    exact hcongr (fun _ => rfl) rfl (fun _ _ heq => by cases heq; exact Or.inr rfl) rfl
  | @setStatus job status _ _ hstatus =>
    refine ⟨fun _ hr => (by cases hr), fun _ _ heq => (by cases heq), fun other hjob _ hst => ?_⟩
    obtain rfl := Option.some.inj hjob
    rw [hstatus.statusOf hst]
    exact hat.awaited job status rfl
  | persisted => exact MirrorLoc.standing_finished
  | lfsMissing => exact ⟨fun _ hr => (by cases hr), fun _ _ heq => (by cases heq), hat.settled⟩
  | setLfsDegraded => exact MirrorLoc.standing_finished

end

namespace Vault

section

variable {settings : Settings} {s s' : State} {i : ℕ} {run : MirrorRun} {at_ : MirrorLoc}
  {input : MirrorInput} {ls : List Label}

/-- What a started run is to leave: its one row of evidence, no reservation, and a target that no
longer shows it. -/
structure Evidenced (s : State) (run : MirrorRun) : Prop where
  recorded : (s.db.runRows run.runId).length = 1
  released : s.db.reservationRows run.runId = []
  shown : ∀ status, s.db.statusOf run.request.targetId = some status →
    status ≠ .cloning ∧ status ≠ .fetching

/-- A step of another session or an operation leaves the status of a target alone. -/
def LeavesStatus (settings : Settings) (i : ℕ) (targetId : Uuid) (s : State) (l : Label) : Prop :=
  l.session? ≠ some i → ∀ s', (machine settings).step s l = some s' →
    s'.db.statusOf targetId = s.db.statusOf targetId

/-- A step of session `i` finds what its early exits look for. -/
def ExitsMet (settings : Settings) (i : ℕ) (s : State) (l : Label) : Prop :=
  ∀ input at_, l = .exec i input → (s.session i).loc = .mirror at_ →
    at_.Met settings.mirror ((machine settings).view s i) s.world input

/-- Session `i` executes `run`, which is at `at_`. -/
structure Executing (settings : Settings) (s : State) (i : ℕ) (run : MirrorRun) (at_ : MirrorLoc) :
    Prop where
  apart : RunsApart settings s
  loc : (s.session i).loc = .mirror at_
  run : at_.run? = some run
  standing : at_.Standing s.db

theorem exec_mirror (hloc : (s.session i).loc = .mirror at_)
    (hstep : (machine settings).step s (.exec i input) = some s') :
    ∃ a, runMirror settings.mirror (s.moment i) ((machine settings).view s i) s.world input at_
        = some a ∧ (machine settings).perform s i (a.map .mirror) = some s' ∧
      (s'.session i).loc = .mirror a.next := by
  obtain ⟨b, hb, hperform, hnext⟩ := Machine.step_exec hstep
  rw [hloc] at hb
  obtain ⟨a, ha, rfl⟩ := Option.map_eq_some_iff.mp hb
  rw [Action.next_map] at hnext
  exact ⟨a, ha, hperform, hnext⟩

theorem Executing.statusOf_view (h : Executing settings s i run at_) (targetId : Uuid) :
    ((machine settings).view s i).statusOf targetId = s.db.statusOf targetId :=
  (h.apart.recorded.recorded h.loc).logged.statusOf targetId

theorem Executing.standing_view (h : Executing settings s i run at_) :
    at_.Standing ((machine settings).view s i) :=
  h.standing.congr h.run (h.statusOf_view _)

/-- A statement that commits by itself finds the committed database. -/
theorem Executing.view_of_auto (h : Executing settings s i run at_) {m : Moment} {db : Db}
    {locks : List Lock} {writes : List Write} {next : MirrorLoc}
    (hauto : MirrorAuto settings.mirror m db s.world at_ locks writes next) :
    (machine settings).view s i = s.db := by
  have hlogged := (h.apart.recorded.recorded h.loc).logged
  have hlog : (s.session i).log = [] := by
    cases hauto <;> exact hlogged
  unfold Machine.view
  rw [hlog]
  rfl

/-- A step of the run itself, which goes on or has ended. -/
theorem Executing.own (h : Executing settings s i run at_)
    (hstep : (machine settings).step s (.exec i input) = some s') :
    ∃ a, runMirror settings.mirror (s.moment i) ((machine settings).view s i) s.world input at_
        = some a ∧
      (Executing settings s' i run a.next ∨
        ∃ result, a.next = .finished result ∧ (s'.session i).loc = .mirror (.finished result)) := by
  obtain ⟨a, ha, hperform, hloc⟩ := exec_mirror h.loc hstep
  refine ⟨a, ha, ?_⟩
  rcases (runMirror_lowers ha).1 run h.run with hrun | ⟨result, hresult⟩
  · refine Or.inl ⟨runsApart_step _ _ _ h.apart hstep, hloc, hrun, ?_⟩
    cases a with
    | stmt locks writes next =>
      simp only [Action.map, Machine.perform] at hperform
      split_ifs at hperform
      obtain rfl := Option.some.inj hperform
      exact (runMirror_stmt ha).standing h.standing
    | auto locks writes next =>
      have hauto := runMirror_auto ha
      simp only [Action.map, Machine.perform] at hperform
      split_ifs at hperform
      obtain rfl := Option.some.inj hperform
      rw [h.view_of_auto hauto] at hauto
      exact hauto.standing h.standing
    | commit next =>
      obtain rfl := Option.some.inj hperform
      exact (runMirror_commit ha).standing h.standing_view
    | rollback next =>
      obtain rfl := Option.some.inj hperform
      exact (runMirror_rollback ha).standing h.standing
    | call world next =>
      obtain rfl := Option.some.inj hperform
      exact (runMirror_call ha).standing h.standing
  · exact Or.inr ⟨result, hresult, by rw [hloc, hresult]⟩

/-- A step beside the run. -/
theorem Executing.beside (h : Executing settings s i run at_) {l : Label}
    (hl : l.session? ≠ some i) (hleaves : LeavesStatus settings i run.request.targetId s l)
    (hstep : (machine settings).step s l = some s') : Executing settings s' i run at_ where
  apart := runsApart_step _ _ _ h.apart hstep
  loc := by rw [Machine.step_session_of_ne hstep hl]; exact h.loc
  run := h.run
  standing := h.standing.congr h.run (hleaves hl s' hstep)

theorem finished_stays {result : Except VaultError LifecycleOutcome}
    (hloc : (s.session i).loc = .mirror (.finished result)) {l : Label} (hl : l.Continues i)
    (hstep : (machine settings).step s l = some s') :
    (s'.session i).loc = .mirror (.finished result) := by
  by_cases hown : l.session? = some i
  · obtain ⟨input, rfl⟩ := Label.eq_exec hl hown
    obtain ⟨a, ha, -⟩ := exec_mirror hloc hstep
    cases ha
  · rw [Machine.step_session_of_ne hstep hown]
    exact hloc

theorem finished_stays_run {result : Except VaultError LifecycleOutcome}
    (hloc : (s.session i).loc = .mirror (.finished result)) (hcontinues : ∀ l ∈ ls, l.Continues i)
    (hrun : Lib.run (machine settings).step s ls = some s') :
    (s'.session i).loc = .mirror (.finished result) := by
  induction ls generalizing s with
  | nil =>
    obtain rfl : s = s' := by simpa [Lib.run] using hrun
    exact hloc
  | cons l ls ih =>
    obtain ⟨s₁, hs, hrest⟩ := Option.bind_eq_some_iff.mp hrun
    exact ih (finished_stays hloc (hcontinues l (List.mem_cons_self ..)) hs)
      (fun l hl => hcontinues l (List.mem_cons_of_mem _ hl)) hrest

theorem Executing.exitsMet_exec (h : Executing settings s i run at_) :
    ExitsMet settings i s (.exec i input) ↔
      at_.Met settings.mirror ((machine settings).view s i) s.world input := by
  refine ⟨fun hexits => hexits input at_ rfl h.loc, fun hmet input' other hl hother => ?_⟩
  obtain rfl : input = input' := by injection hl
  obtain rfl : at_ = other := by
    rw [h.loc] at hother
    injection hother
  exact hmet

/-- As long as a run has not ended, it is on its way to the record exactly if every early exit so
far was met. -/
theorem Executing.followed (h : Executing settings s i run at_)
    (hcontinues : ∀ l ∈ ls, l.Continues i)
    (hothers : Along (machine settings).step (LeavesStatus settings i run.request.targetId) s ls)
    (hrun : Lib.run (machine settings).step s ls = some s')
    (hopen : ∀ result, (s'.session i).loc ≠ .mirror (.finished result)) :
    ∃ n, Executing settings s' i run n ∧
      (n.Countable ↔ at_.Countable ∧ Along (machine settings).step (ExitsMet settings i) s ls) := by
  induction ls generalizing s at_ with
  | nil =>
    obtain rfl : s = s' := by simpa [Lib.run] using hrun
    exact ⟨at_, h, by simp [Along]⟩
  | cons l ls ih =>
    obtain ⟨s₁, hs, hrest⟩ := Option.bind_eq_some_iff.mp hrun
    have hlater : ∀ l ∈ ls, l.Continues i := fun l hl => hcontinues l (List.mem_cons_of_mem _ hl)
    have halong : Along (machine settings).step (ExitsMet settings i) s (l :: ls) ↔
        ExitsMet settings i s l ∧ Along (machine settings).step (ExitsMet settings i) s₁ ls := by
      refine and_congr_right fun _ => ⟨fun hall => hall s₁ hs, fun hnext s₂ hs₂ => ?_⟩
      rw [hs] at hs₂
      exact Option.some.inj hs₂ ▸ hnext
    by_cases hown : l.session? = some i
    · obtain ⟨input, rfl⟩ := Label.eq_exec (hcontinues l (List.mem_cons_self ..)) hown
      obtain ⟨a, ha, hnext | ⟨result, -, hended⟩⟩ := h.own hs
      · obtain ⟨n, hn, hcount⟩ := ih hnext hlater (hothers.2 s₁ hs) hrest
        refine ⟨n, hn, ?_⟩
        rw [hcount, halong, ← and_assoc]
        refine and_congr_left fun _ => ?_
        rw [h.exitsMet_exec]
        constructor
        · intro hcountable
          by_contra hexit
          rcases runMirror_exits ha hexit with huncounted | ⟨-, e, rfl⟩
          · exact huncounted hcountable
          · cases hnext.run
        · exact fun hboth => runMirror_countable ha hboth.1 hboth.2
      · exact absurd (finished_stays_run hended hlater hrest) (hopen result)
    · obtain ⟨n, hn, hcount⟩ := ih (h.beside hown (hothers.1) hs) hlater (hothers.2 s₁ hs) hrest
      refine ⟨n, hn, ?_⟩
      rw [hcount, halong]
      have hmet : ExitsMet settings i s l := by
        intro input other hl
        rw [hl] at hown
        exact absurd rfl hown
      exact and_congr_right fun _ => (and_iff_right hmet).symm

/-- The last step of a run leaves its evidence exactly if no early exit was taken. -/
theorem Executing.ended (h : Executing settings s i run at_)
    (hstep : (machine settings).step s (.exec i input) = some s')
    {result : Except VaultError LifecycleOutcome}
    (hended : (s'.session i).loc = .mirror (.finished result)) :
    Evidenced s' run ↔ at_.Countable ∧
      at_.Met settings.mirror ((machine settings).view s i) s.world input := by
  obtain ⟨a, ha, hperform, hloc⟩ := exec_mirror h.loc hstep
  have hnext : a.next = .finished result := by
    rw [hloc] at hended
    injection hended
  have hrows := h.apart.recorded.recorded h.loc
  constructor
  · intro hevidence
    by_contra hexit
    rcases runMirror_exits ha hexit with huncounted | ⟨hunrecorded, e, rfl⟩
    · rw [hnext] at huncounted
      exact huncounted trivial
    · obtain rfl := Option.some.inj hperform
      have hnone : s.db.runRows run.runId = [] := by
        have hrun := h.run
        unfold MirrorLoc.run? at hrun
        rw [hunrecorded, Option.or_none] at hrun
        rcases Option.or_eq_some_iff.mp hrun with hreserving | ⟨-, hrun⟩
        · exact (hrows.reserving run hreserving).1
        rcases Option.or_eq_some_iff.mp hrun with hworking | ⟨-, hrun⟩
        · exact hrows.working run hworking
        obtain ⟨job, hjob, rfl⟩ := Option.map_eq_some_iff.mp hrun
        exact hrows.recording job hjob
      have hone : (s.db.runRows run.runId).length = 1 := hevidence.recorded
      rw [hnone] at hone
      cases hone
  · rintro ⟨hcount, hmet⟩
    obtain ⟨job, hjob⟩ := runMirror_records ha h.run hcount hmet h.standing_view hnext
    obtain rfl : run = job.run := Option.some.inj (h.run.symm.trans (MirrorLoc.run?_of_settled hjob))
    obtain ⟨locks, writes, hauto, hleaves, hshown⟩ := runMirror_settled ha hjob h.standing_view
    rw [hauto] at ha hperform
    rw [h.view_of_auto (runMirror_auto ha)] at hshown
    simp only [Action.map, Machine.perform] at hperform
    split_ifs at hperform
    obtain rfl := Option.some.inj hperform
    have hrecorded : at_.recorded = some job := by
      cases at_ <;> cases hjob <;> rfl
    obtain ⟨hone, hreleased⟩ := hrows.recorded job hrecorded
    obtain ⟨hruns, hreservations⟩ :
        (writes.foldl Db.apply s.db).runRows job.run.runId = s.db.runRows job.run.runId ∧
        (writes.foldl Db.apply s.db).reservationRows job.run.runId
          = s.db.reservationRows job.run.runId :=
      rows_of_tables (runs_of_leaves hleaves) job.run.runId
    constructor
    · show ((writes.foldl Db.apply s.db).runRows job.run.runId).length = 1
      rw [hruns]
      exact hone
    · show (writes.foldl Db.apply s.db).reservationRows job.run.runId = []
      rw [hreservations]
      exact hreleased
    · intro status hstatus
      rcases hshown status hstatus with rfl | rfl <;> decide

/-- Every step of a run is one less to take. -/
theorem descends_mirror : (machine settings).Descends (fun loc => ∃ at_, loc = .mirror at_)
    (fun loc => match loc with
      | .mirror at_ => at_.stepsLeft
      | _ => 0) where
  stays := by
    rintro loc m db world input b ⟨at_, rfl⟩ hb
    obtain ⟨a, -, rfl⟩ := Option.map_eq_some_iff.mp hb
    exact ⟨a.next, Action.next_map _ a⟩
  lower := by
    rintro loc m db world input b ⟨at_, rfl⟩ hb
    obtain ⟨a, ha, rfl⟩ := Option.map_eq_some_iff.mp hb
    rw [Action.next_map]
    exact (runMirror_lowers ha).2

/-- `transition_started` has just succeeded. -/
theorem executing_started {s₀ : State} (hapart : RunsApart settings s₀)
    (hstep : (machine settings).step s₀ (.exec i input) = some s)
    (hloc : (s.session i).loc = .mirror (.lockQuota run)) :
    Executing settings s i run (.lockQuota run) := by
  refine ⟨runsApart_step _ _ _ hapart hstep, hloc, rfl, ?_⟩
  obtain ⟨b, hb, hperform, hnext⟩ := Machine.step_exec hstep
  rw [hloc] at hnext
  generalize hbefore : (s₀.session i).loc = loc at hb
  cases b with
  | stmt locks writes next =>
    obtain rfl : Loc.mirror (.lockQuota run) = next := hnext
    cases act_stmt hb with
    | mirror h => cases h
  | auto locks writes next =>
    obtain rfl : Loc.mirror (.lockQuota run) = next := hnext
    cases act_auto hb with
    | mirror h =>
      cases h with
      | started hstatus =>
        have hlogged := (hapart.recorded.recorded hbefore).logged
        have hview : (machine settings).view s₀ i = s₀.db := by
          unfold Machine.view
          rw [show (s₀.session i).log = [] from hlogged]
          rfl
        rw [hview] at hstatus
        simp only [Machine.perform] at hperform
        split_ifs at hperform
        obtain rfl := Option.some.inj hperform
        refine ⟨fun r hr status hst => ?_, fun _ _ heq => (by cases heq),
          fun _ hjob => (by cases hjob)⟩
        obtain rfl := Option.some.inj hr
        exact hstatus.statusOf hst
  | commit next =>
    obtain rfl : Loc.mirror (.lockQuota run) = next := hnext
    cases act_commit hb with
    | mirror h =>
      generalize hlast : MirrorLoc.lockQuota run = last at h
      cases h with
      | reserved => cases hlast
      | recorded =>
        have hunderway := congrArg MirrorLoc.recorded hlast
        unfold Finishing.observe at hunderway
        split at hunderway <;> cases hunderway
  | rollback next =>
    obtain rfl : Loc.mirror (.lockQuota run) = next := hnext
    cases act_rollback hb with
    | mirror h => cases h
  | call world next =>
    obtain rfl : Loc.mirror (.lockQuota run) = next := hnext
    cases act_call hb with
    | mirror h =>
      cases h with
      | published hnext => rcases hnext with heq | heq <;> cases heq

/-- A started run takes at most 21 more steps, is stopped by nothing but a lock before it has ended,
and ends in its evidence exactly if no early exit is taken. -/
theorem started_run_ends_in_evidence {db : Db} {storage : MirrorStorage} {clock fresh : ℕ}
    (hruns : ∀ row ∈ db.mirrorRuns, row.runId < fresh)
    (hreservations : ∀ row ∈ db.reservations, row.runId < fresh)
    (hkeyed : (db.reservations.map (·.runId)).Nodup) {s₀ : State}
    (hreach : Reach (machine settings).step (fun _ _ => True) (initial db storage clock fresh) s₀)
    (hstarted : (machine settings).step s₀ (.exec i input) = some s)
    (hloc : (s.session i).loc = .mirror (.lockQuota run))
    (hcontinues : ∀ l ∈ ls, l.Continues i)
    (hothers : Along (machine settings).step (LeavesStatus settings i run.request.targetId) s ls)
    (hrun : Lib.run (machine settings).step s ls = some s') :
    (ownSteps i ls ≤ 21 ∧ ((∃ result, (s'.session i).loc = .mirror (.finished result)) ∨
        ∀ input', ((machine settings).act (s'.session i).loc (s'.moment i)
          ((machine settings).view s' i) s'.world input').isSome = true)) ∧
      ∀ input' s'' result, (machine settings).step s' (.exec i input') = some s'' →
        (s''.session i).loc = .mirror (.finished result) →
        (Evidenced s'' run ↔
          Along (machine settings).step (ExitsMet settings i) s (ls ++ [.exec i input'])) := by
  have hapart : RunsApart settings s₀ :=
    hreach.invariant (runsApart_initial hruns hreservations hkeyed) fun s l s' h _ hstep =>
      runsApart_step s l s' h hstep
  have hexecuting := executing_started hapart hstarted hloc
  have hdescends : (machine settings).Descends _ _ := descends_mirror
  obtain ⟨⟨at_, hat⟩, hcount⟩ := hdescends.ownSteps_le ⟨_, hloc⟩ hcontinues hrun
  have hleft : ownSteps i ls ≤ 21 := by
    rw [hloc] at hcount
    exact Nat.le_trans (Nat.le_add_right _ _) hcount
  refine ⟨⟨hleft, ?_⟩, fun input' s'' result hlast hended => ?_⟩
  · by_cases hopen : ∃ result, at_ = .finished result
    · obtain ⟨result, rfl⟩ := hopen
      exact Or.inl ⟨result, hat⟩
    · refine Or.inr fun input' => ?_
      rw [hat]
      show (Option.map _ _).isSome = true
      rw [Option.isSome_map]
      exact isSome_runMirror fun result hresult => hopen ⟨result, hresult⟩
  · have hopen : ∀ result, (s'.session i).loc ≠ .mirror (.finished result) := by
      intro result hresult
      obtain ⟨a, ha, -⟩ := exec_mirror hresult hlast
      cases ha
    obtain ⟨n, hn, hcountable⟩ := hexecuting.followed hcontinues hothers hrun hopen
    rw [hn.ended hlast hended, hcountable, along_append hrun, ← hn.exitsMet_exec]
    constructor
    · exact fun ⟨⟨_, halong⟩, hmet⟩ => ⟨halong, hmet, fun _ _ => trivial⟩
    · exact fun ⟨halong, hmet, _⟩ => ⟨⟨trivial, halong⟩, hmet⟩

end

namespace Sample

/-- A clone of the one target, up to its `transition_started`. -/
def starting (reservationBytes : ℕ) : List Label :=
  [.start 0 (.mirror { request with reservationBytes }), .exec 0 answered]

def startedRun (reservationBytes : ℕ) : MirrorRun :=
  { request := { request with reservationBytes }, operation := .initialClone, runId := 11 }

def isFinished (s : State) : Bool :=
  match (s.session 0).loc with
  | .mirror (.finished _) => true
  | _ => false

theorem finished_of_isFinished {s : State} (h : isFinished s = true) :
    ∃ result, (s.session 0).loc = .mirror (.finished result) := by
  unfold isFinished at h
  split at h
  · rename_i result hloc
    exact ⟨result, hloc⟩
  · cases h

/-- The rows that a clone of the one target leaves. -/
def isEvidenced (s : State) (run : MirrorRun) : Bool :=
  decide ((s.db.runRows run.runId).length = 1) && decide (s.db.reservationRows run.runId = []) &&
    decide (s.db.statusOf run.request.targetId = some .ready)

theorem evidenced_of_isEvidenced {s : State} {run : MirrorRun} (h : isEvidenced s run = true) :
    Evidenced s run := by
  simp only [isEvidenced, Bool.and_eq_true, decide_eq_true_eq] at h
  refine ⟨h.1.1, h.1.2, fun status hstatus => ?_⟩
  rw [h.2] at hstatus
  obtain rfl := Option.some.inj hstatus
  decide

end Sample

theorem started_run_ends_in_evidence_cloned : ∃ s₀ s,
    run (machine Sample.settings).step (initial Sample.oneTarget Sample.storage 0 10)
        (Sample.starting 1) = some s₀ ∧
      (machine Sample.settings).step s₀ (.exec 0 Sample.answered) = some s ∧
      Along (machine Sample.settings).step (ExitsMet Sample.settings 0) s
        (List.replicate 19 (.exec 0 Sample.answered) ++ [.exec 0 Sample.answered]) := by
  obtain ⟨s₀, hrun₀, h₀⟩ : ∃ s₀, run (machine Sample.settings).step
      (initial Sample.oneTarget Sample.storage 0 10) (Sample.starting 1) = some s₀ ∧
      ((machine Sample.settings).step s₀ (.exec 0 Sample.answered)).any (fun s =>
        decide ((s.session 0).loc = .mirror (.lockQuota (Sample.startedRun 1))) &&
          (run (machine Sample.settings).step s (List.replicate 19 (.exec 0 Sample.answered))).any
            fun s' => ((machine Sample.settings).step s' (.exec 0 Sample.answered)).any fun s'' =>
              Sample.isFinished s'' && Sample.isEvidenced s'' (Sample.startedRun 1)) = true :=
    exists_of_run_any (by decide +kernel)
  obtain ⟨s, hstarted, hs⟩ := (Option.any_eq_true _ _).mp h₀
  simp only [Bool.and_eq_true, decide_eq_true_eq] at hs
  obtain ⟨s', hrun, hlast⟩ := (Option.any_eq_true _ _).mp hs.2
  obtain ⟨s'', hstep, hends⟩ := (Option.any_eq_true _ _).mp hlast
  simp only [Bool.and_eq_true] at hends
  obtain ⟨result, hended⟩ := Sample.finished_of_isFinished hends.1
  have hreach : Reach (machine Sample.settings).step (fun _ _ => True)
      (initial Sample.oneTarget Sample.storage 0 10) s₀ :=
    Reach.of_run hrun₀ (along_of_forall (fun _ _ _ => trivial) _)
  have hown : ∀ l ∈ List.replicate 19 (Label.exec 0 Sample.answered : Label),
      l = .exec 0 Sample.answered := fun l hl => (List.mem_replicate.mp hl).2
  have hends' := (started_run_ends_in_evidence (by decide) (by decide) (by decide) hreach hstarted hs.1
    (fun l hl => by rw [hown l hl]; trivial)
    (along_of_forall (fun l hl s hother => by rw [hown l hl] at hother; exact absurd rfl hother) _)
    hrun).2 Sample.answered s'' result hstep hended
  exact ⟨s₀, s, hrun₀, hstarted, hends'.mp (Sample.evidenced_of_isEvidenced hends.2)⟩

/-- A reservation of no bytes is refused as an error after the target has been moved. -/
theorem zero_reservation_leaves_no_evidence : ∃ s s',
    run (machine Sample.settings).step (initial Sample.oneTarget Sample.storage 0 10)
        (Sample.starting 0 ++ [.exec 0 Sample.answered]) = some s ∧
      (s.session 0).loc = .mirror (.lockQuota (Sample.startedRun 0)) ∧
      (machine Sample.settings).step s (.exec 0 Sample.answered) = some s' ∧
      (∃ result, (s'.session 0).loc = .mirror (.finished result)) ∧
      ¬ Evidenced s' (Sample.startedRun 0) := by
  obtain ⟨s, hrun, hs⟩ : ∃ s, run (machine Sample.settings).step
      (initial Sample.oneTarget Sample.storage 0 10)
      (Sample.starting 0 ++ [.exec 0 Sample.answered]) = some s ∧
      (decide ((s.session 0).loc = .mirror (.lockQuota (Sample.startedRun 0))) &&
        ((machine Sample.settings).step s (.exec 0 Sample.answered)).any fun s' =>
          Sample.isFinished s' && decide ((s'.db.runRows 11).length = 0)) = true :=
    exists_of_run_any (by decide +kernel)
  simp only [Bool.and_eq_true, decide_eq_true_eq] at hs
  obtain ⟨s', hstep, hends⟩ := (Option.any_eq_true _ _).mp hs.2
  simp only [Bool.and_eq_true, decide_eq_true_eq] at hends
  refine ⟨s, s', hrun, hs.1, hstep, Sample.finished_of_isFinished hends.1, fun hevidence => ?_⟩
  have hone : (s'.db.runRows 11).length = 1 := hevidence.recorded
  rw [hends.2] at hone
  cases hone

end Vault

end RatatoskrVault
