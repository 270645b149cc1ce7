import RatatoskrVault.Lib.Bounded
import RatatoskrVault.Mirror.Lifecycle

/-! Everything one step of a mirror run can do, by kind of step. -/
namespace RatatoskrVault

open Lib

section

variable (settings : MirrorLifecycleSettings) (m : Moment) (db : Db)

/-- The statements inside the two transactions of a run. -/
inductive MirrorStmt : MirrorLoc → List Lock → List Write → MirrorLoc → Prop
  | lockQuota {run : MirrorRun} : MirrorStmt (.lockQuota run) [.quota] [] (.targetReserved run)
  | targetReserved {run : MirrorRun} {reserved : ℕ} :
      MirrorStmt (.targetReserved run) [] [] (.globalReserved run reserved)
  | globalReserved {run : MirrorRun} {reserved : ℕ} :
      MirrorStmt (.globalReserved run reserved) [] [] (.insertReservation run)
  | insertReservation {run : MirrorRun}
      (htarget : (db.target? run.request.targetId).isSome = true) :
      MirrorStmt (.insertReservation run) []
        [.insertReservation
          { runId := run.runId
            targetId := run.request.targetId
            reservedBytes := admittedReservation settings run.request }]
        (.commitReservation run)
  | insertRun {job : Finishing} {outcome : MirrorRunOutcome}
      (houtcome : job.result.outcome? = some outcome) :
      MirrorStmt (.insertRun job) []
        [.insertMirrorRun
          { runId := job.run.runId, targetId := job.run.request.targetId, outcome }]
        (.releaseReservation job)
  | releaseReservation {job : Finishing} :
      MirrorStmt (.releaseReservation job) [] [.releaseReservation job.run.runId] (.commitRun job)

/-- A statement of `set_target_status`: nothing for a target that is not there. -/
inductive StatusAuto (targetId : Uuid) (status : TargetStatus) : List Lock → List Write → Prop
  | missing (hnone : db.target? targetId = none) : StatusAuto targetId status [] []
  | written {target : Target} (htarget : db.target? targetId = some target)
      (hguard : db.targetGuardStatusTransition m.clock target status = .ok ()) :
      StatusAuto targetId status [.target targetId]
        [.setTargetStatus targetId target.status status]

/-- The status a started operation sets. -/
def MirrorOperation.startStatus : MirrorOperation → TargetStatus
  | initialClone => .cloning
  | fetch => .fetching

/-- The statements a run commits by themselves. -/
inductive MirrorAuto (storage : MirrorStorage) :
    MirrorLoc → List Lock → List Write → MirrorLoc → Prop
  | toFetch {request : MirrorRequest} (hsource : sourceAllowed request.source = true)
      (hpublished : storage.mirrors (mirrorRelativePath settings request.targetId) = true) :
      MirrorAuto storage (.begin request) [] [] (.transitionStarted request .fetch)
  | toClone {request : MirrorRequest} (hsource : sourceAllowed request.source = true)
      (hnew : storage.mirrors (mirrorRelativePath settings request.targetId) = false) :
      MirrorAuto storage (.begin request) [] [] (.transitionStarted request .initialClone)
  | started {request : MirrorRequest} {operation : MirrorOperation} {locks : List Lock}
      {writes : List Write}
      (h : StatusAuto m db request.targetId operation.startStatus locks writes) :
      MirrorAuto storage (.transitionStarted request operation) locks writes
        (.lockQuota { request, operation, runId := m.fresh })
  | mirrorKnown {job : Finishing}
      (hknown : (db.mirrors.any fun mirror => mirror.targetId == job.run.request.targetId) = true) :
      MirrorAuto storage (.ensureMirror job) [] [] (.recordVerified job)
  | insertMirror {job : Finishing} :
      MirrorAuto storage (.ensureMirror job) []
        [.insertMirror
          { mirrorId := m.fresh
            targetId := job.run.request.targetId
            status := .initializing
            storagePath := mirrorRelativePath settings job.run.request.targetId
            fsckResult := .unknown }]
        (.recordVerified job)
  | recordVerified {job : Finishing} :
      MirrorAuto storage (.recordVerified job) []
        [.setMirror job.run.request.targetId .ready .ok] (.setStatus job .ready)
  | markDegraded {job : Finishing} :
      MirrorAuto storage (.markDegraded job) []
        [.setMirror job.run.request.targetId .degraded .failed] (.setStatus job .degraded)
  | setStatus {job : Finishing} {status : TargetStatus} {locks : List Lock} {writes : List Write}
      (h : StatusAuto m db job.run.request.targetId status locks writes) :
      MirrorAuto storage (.setStatus job status) locks writes (.persistLfs job)
  | persisted {job : Finishing} {outcome : LifecycleOutcome} :
      MirrorAuto storage (.persistLfs job) [] [] (.finished (.ok outcome))
  | lfsMissing {job : Finishing} {failure : FailureClass} (hlfs : job.lfs = some (.failed failure)) :
      MirrorAuto storage (.persistLfs job) [] [] (.setLfsDegraded job)
  | setLfsDegraded {job : Finishing} {locks : List Lock} {writes : List Write}
      {outcome : LifecycleOutcome}
      (h : StatusAuto m db job.run.request.targetId .degraded locks writes) :
      MirrorAuto storage (.setLfsDegraded job) locks writes (.finished (.ok outcome))

/-- The commits of a run. -/
inductive MirrorCommit : MirrorLoc → MirrorLoc → Prop
  | reserved {run : MirrorRun} : MirrorCommit (.commitReservation run) (.admitted run)
  | recorded {job : Finishing} : MirrorCommit (.commitRun job) job.observe

/-- The transactions a run drops. -/
inductive MirrorRollback : MirrorLoc → MirrorLoc → Prop
  | quotaRefused {run : MirrorRun} {reserved : ℕ} :
      MirrorRollback (.globalReserved run reserved) (run.finish .quotaRefused)
  | unrecorded {job : Finishing} {e : VaultError}
      (hwhy : job.result.outcome? = none ∨ db.target? job.run.request.targetId = none) :
      MirrorRollback (.insertRun job) (.finished (.error e))
  | refused {at_ : MirrorLoc} {e : VaultError}
      (hat : (∃ request, at_ = .begin request) ∨
        (∃ request operation, at_ = .transitionStarted request operation) ∨
        (∃ run, at_ = .lockQuota run ∨ at_ = .targetReserved run ∨ at_ = .insertReservation run) ∨
        (∃ run reserved, at_ = .globalReserved run reserved) ∨
        ∃ job, (∃ status, at_ = .setStatus job status) ∨ at_ = .setLfsDegraded job) :
      MirrorRollback at_ (.finished (.error e))

/-- The calls outside the database. -/
inductive MirrorCall (storage : MirrorStorage) (git : GitCall) :
    MirrorLoc → MirrorStorage → MirrorLoc → Prop
  | interrupted {run : MirrorRun} :
      MirrorCall storage git (.admitted run) storage (run.finish run.interrupted)
  | toClone {run : MirrorRun} (hoperation : run.operation = .initialClone) :
      MirrorCall storage git (.admitted run) storage (.clone run)
  | toFetch {run : MirrorRun} (hoperation : run.operation = .fetch) :
      MirrorCall storage git (.admitted run) storage (.fetch run)
  | cloneFailed {run : MirrorRun} {result : MirrorResult} (hresult : result.isSuccess = false)
      (hintact : result ≠ .integrityFailed) :
      MirrorCall storage git (.clone run) storage (.collectLfs run result)
  | cloned {run : MirrorRun} : MirrorCall storage git (.clone run) storage (.evidence run .fsck)
  | fetchFailed {run : MirrorRun} {result : MirrorResult} {call : GitCall}
      (hcall : call = runGit storage (mirrorRelativePath settings run.request.targetId) git)
      (hexit : call.isZeroExit = false) (hresult : result.isSuccess = false)
      (hintact : result ≠ .integrityFailed) :
      MirrorCall storage git (.fetch run)
        (if call.started then storage.changed (mirrorRelativePath settings run.request.targetId)
         else storage)
        (.collectLfs run result)
  | fetched {run : MirrorRun} :
      MirrorCall storage git (.fetch run)
        (storage.changed (mirrorRelativePath settings run.request.targetId)) (.evidence run .fsck)
  | checking {run : MirrorRun} {at_ next : EvidenceLoc} :
      MirrorCall storage git (.evidence run at_) storage (.evidence run next)
  | verdict {run : MirrorRun} {at_ : EvidenceLoc} {failure : IntegrityFailure}
      (hverdict : integrityEvidence (checkGit settings storage run git) at_
        = .inr (.error failure)) :
      MirrorCall storage git (.evidence run at_) storage
        (.collectLfs run (failure.result run.operation))
  | toPublish {run : MirrorRun} {at_ : EvidenceLoc} {objectCount : ℕ}
      (hoperation : run.operation = .initialClone) :
      MirrorCall storage git (.evidence run at_) storage (.publishStaging run objectCount)
  | verified {run : MirrorRun} {at_ : EvidenceLoc} {objectCount : ℕ}
      (hoperation : run.operation = .fetch) :
      MirrorCall storage git (.evidence run at_)
        (storage.verified (mirrorRelativePath settings run.request.targetId))
        (.directorySize run objectCount)
  | publishFailed {run : MirrorRun} {objectCount : ℕ} :
      MirrorCall storage git (.publishStaging run objectCount) storage
        (.collectLfs run (.failed .dependencyUnavailable))
  | published {run : MirrorRun} {objectCount : ℕ} {next : MirrorLoc}
      (hnext : next = .directorySize run objectCount ∨
        next = .collectLfs run (.failed .dependencyUnavailable)) :
      MirrorCall storage git (.publishStaging run objectCount)
        (storage.published (mirrorRelativePath settings run.request.targetId)) next
  | unmeasured {run : MirrorRun} {objectCount : ℕ} :
      MirrorCall storage git (.directorySize run objectCount) storage
        (.collectLfs run (.failed .dependencyUnavailable))
  | measured {run : MirrorRun} {objectCount bytesOnDisk : ℕ}
      (hpresent : storage.mirrors (mirrorRelativePath settings run.request.targetId) = true) :
      MirrorCall storage git (.directorySize run objectCount) storage
        (.collectLfs run (.succeeded objectCount bytesOnDisk))
  | collected {run : MirrorRun} {result : MirrorResult} {lfs : Option LfsTerminal}
      {storage' : MirrorStorage} (hmirrors : storage'.mirrors = storage.mirrors)
      (hchecked : storage'.checked = storage.checked) (hlfs : result.isSuccess = false → lfs = none) :
      MirrorCall storage git (.collectLfs run result) storage' (.insertRun { run, result, lfs })

end

variable {settings : MirrorLifecycleSettings} {m : Moment} {db : Db} {storage : MirrorStorage}
  {input : MirrorInput} {at_ next : MirrorLoc} {locks : List Lock} {writes : List Write}

theorem setTargetStatus_next {targetId : Uuid} {status : TargetStatus} {n : MirrorLoc}
    {a : Action MirrorStorage Lock Write MirrorLoc}
    (h : setTargetStatus m db targetId status n = some a) :
    a.next = n ∨ ∃ e, a = .rollback (.finished (.error e)) := by
  unfold setTargetStatus failRun at h
  split at h
  · cases h
    exact Or.inl rfl
  · split at h
    · cases h
      exact Or.inr ⟨_, rfl⟩
    · cases h
      exact Or.inl rfl

private theorem setTargetStatus_cases {targetId : Uuid} {status : TargetStatus} {n : MirrorLoc}
    {a : Action MirrorStorage Lock Write MirrorLoc}
    (h : setTargetStatus m db targetId status n = some a) :
    (∃ locks writes, a = .auto locks writes n ∧ StatusAuto m db targetId status locks writes) ∨
      ∃ e, a = .rollback (.finished (.error e)) := by
  simp only [setTargetStatus, failRun] at h
  split at h
  · rename_i hnone
    cases h
    exact Or.inl ⟨_, _, rfl, .missing hnone⟩
  · rename_i target htarget
    split at h
    · cases h
      exact Or.inr ⟨_, rfl⟩
    · rename_i hguard
      cases h
      exact Or.inl ⟨_, _, rfl, .written htarget hguard⟩

theorem runMirror_stmt
    (h : runMirror settings m db storage input at_ = some (.stmt locks writes next)) :
    MirrorStmt settings db at_ locks writes next := by
  cases at_ with
  | lockQuota run =>
    simp only [runMirror, failRun] at h
    split_ifs at h
    · cases h; exact .lockQuota
    · cases h
  | targetReserved run =>
    simp only [runMirror, failRun] at h
    split_ifs at h
    · cases h; exact .targetReserved
    · cases h
  | globalReserved run reserved =>
    simp only [runMirror, failRun] at h
    split_ifs at h
    · cases h
    · cases h
    · cases h; exact .globalReserved
  | insertReservation run =>
    simp only [runMirror, failRun] at h
    split_ifs at h with hnone
    · cases h
    · cases h
      exact .insertReservation (by simpa [Option.isSome_iff_ne_none] using hnone)
  | insertRun job =>
    simp only [runMirror, failRun] at h
    split at h
    · cases h
    · rename_i outcome houtcome
      split_ifs at h
      · cases h
      · cases h; exact .insertRun houtcome
  | releaseReservation job => cases h; exact .releaseReservation
  | transitionStarted request operation =>
    rcases setTargetStatus_cases h with ⟨_, _, ha, -⟩ | ⟨_, ha⟩ <;> cases ha
  | setStatus job status =>
    rcases setTargetStatus_cases h with ⟨_, _, ha, -⟩ | ⟨_, ha⟩ <;> cases ha
  | setLfsDegraded job =>
    rcases setTargetStatus_cases h with ⟨_, _, ha, -⟩ | ⟨_, ha⟩ <;> cases ha
  | _ =>
    simp only [runMirror, failRun] at h
    (repeat' split at h) <;> cases h

theorem runMirror_auto
    (h : runMirror settings m db storage input at_ = some (.auto locks writes next)) :
    MirrorAuto settings m db storage at_ locks writes next := by
  cases at_ with
  | begin request =>
    simp only [runMirror, failRun] at h
    split_ifs at h with hsource hio hpublished
    · cases h
    · cases h
      exact .toFetch (by simpa using hsource) hpublished
    · cases h
      exact .toClone (by simpa using hsource) (by simpa using hpublished)
    · cases h
  | transitionStarted request operation =>
    rcases setTargetStatus_cases h with ⟨_, _, ha, hstatus⟩ | ⟨_, ha⟩
    · cases ha
      cases operation with
      | initialClone => exact .started hstatus
      | fetch => exact .started hstatus
    · cases ha
  | ensureMirror job =>
    simp only [runMirror] at h
    split_ifs at h with hknown
    · cases h; exact .mirrorKnown hknown
    · cases h; exact .insertMirror
  | recordVerified job => cases h; exact .recordVerified
  | markDegraded job => cases h; exact .markDegraded
  | setStatus job status =>
    rcases setTargetStatus_cases h with ⟨_, _, ha, hstatus⟩ | ⟨_, ha⟩
    · cases ha; exact .setStatus hstatus
    · cases ha
  | persistLfs job =>
    simp only [runMirror] at h
    split at h
    · rename_i failure hlfs
      cases h
      exact .lfsMissing hlfs
    · cases h
      exact .persisted
  | setLfsDegraded job =>
    rcases setTargetStatus_cases h with ⟨_, _, ha, hstatus⟩ | ⟨_, ha⟩
    · cases ha; exact .setLfsDegraded hstatus
    · cases ha
  | _ =>
    simp only [runMirror, failRun] at h
    (repeat' split at h) <;> cases h

theorem runMirror_commit (h : runMirror settings m db storage input at_ = some (.commit next)) :
    MirrorCommit at_ next := by
  cases at_ with
  | commitReservation run => cases h; exact .reserved
  | commitRun job => cases h; exact .recorded
  | transitionStarted request operation =>
    rcases setTargetStatus_cases h with ⟨_, _, ha, -⟩ | ⟨_, ha⟩ <;> cases ha
  | setStatus job status =>
    rcases setTargetStatus_cases h with ⟨_, _, ha, -⟩ | ⟨_, ha⟩ <;> cases ha
  | setLfsDegraded job =>
    rcases setTargetStatus_cases h with ⟨_, _, ha, -⟩ | ⟨_, ha⟩ <;> cases ha
  | _ =>
    simp only [runMirror, failRun] at h
    (repeat' split at h) <;> cases h

/-- What a run drops is a refused reservation, or the run itself. -/
theorem runMirror_rollback (h : runMirror settings m db storage input at_ = some (.rollback next)) :
    MirrorRollback db at_ next := by
  cases at_ with
  | begin request =>
    simp only [runMirror, failRun] at h
    (repeat' split at h) <;> cases h <;> exact .refused (by simp)
  | lockQuota run =>
    simp only [runMirror, failRun] at h
    (repeat' split at h) <;> cases h
    exact .refused (by simp)
  | targetReserved run =>
    simp only [runMirror, failRun] at h
    (repeat' split at h) <;> cases h
    exact .refused (by simp)
  | globalReserved run reserved =>
    simp only [runMirror, failRun] at h
    split_ifs at h
    · cases h; exact .refused (by simp)
    · cases h; exact .quotaRefused
    · cases h
  | insertReservation run =>
    simp only [runMirror, failRun] at h
    (repeat' split at h) <;> cases h
    exact .refused (by simp)
  | insertRun job =>
    simp only [runMirror, failRun] at h
    split at h
    · rename_i hnone
      cases h
      exact .unrecorded (Or.inl hnone)
    · split_ifs at h with hnone
      · cases h
        exact .unrecorded (Or.inr (by simpa using hnone))
      · cases h
  | transitionStarted request operation =>
    rcases setTargetStatus_cases h with ⟨_, _, ha, -⟩ | ⟨_, ha⟩ <;> cases ha
    exact .refused (by simp)
  | setStatus job status =>
    rcases setTargetStatus_cases h with ⟨_, _, ha, -⟩ | ⟨_, ha⟩ <;> cases ha
    exact .refused (by simp)
  | setLfsDegraded job =>
    rcases setTargetStatus_cases h with ⟨_, _, ha, -⟩ | ⟨_, ha⟩ <;> cases ha
    exact .refused (by simp)
  | _ =>
    simp only [runMirror] at h
    (repeat' split at h) <;> cases h

theorem runMirror_call {storage' : MirrorStorage}
    (h : runMirror settings m db storage input at_ = some (.call storage' next)) :
    MirrorCall settings storage input.git at_ storage' next := by
  cases at_ with
  | admitted run =>
    simp only [runMirror] at h
    split_ifs at h
    · cases h; exact .interrupted
    · cases hoperation : run.operation with
      | initialClone => rw [hoperation] at h; cases h; exact .toClone hoperation
      | fetch => rw [hoperation] at h; cases h; exact .toFetch hoperation
  | clone run =>
    simp only [runMirror] at h
    (repeat' split at h) <;> cases h <;>
      first
        | exact .cloned
        | exact .cloneFailed rfl (by simp [MirrorRun.interrupted])
  | fetch run =>
    simp only [runMirror] at h
    generalize hcall : runGit storage (mirrorRelativePath settings run.request.targetId) input.git
      = call at h
    have hfailed : ∀ result : MirrorResult, call.isZeroExit = false → result.isSuccess = false →
        result ≠ .integrityFailed → MirrorCall settings storage input.git (.fetch run)
          (if call.started then
            storage.changed (mirrorRelativePath settings run.request.targetId) else storage)
          (.collectLfs run result) := fun result hexit hresult hintact =>
      .fetchFailed hcall.symm hexit hresult hintact
    cases call with
    | cancelled started => cases h; exact hfailed _ rfl rfl (by simp [MirrorRun.interrupted])
    | runner started => cases h; exact hfailed _ rfl rfl (by simp)
    | exited outcome =>
      simp only at h
      split_ifs at h with hstarted hexit hexit
      · cases h; exact .fetched
      · cases h
        have hfail := hfailed (.failed .remoteUnavailable) (by simpa using hexit) rfl (by simp)
        rwa [if_pos hstarted] at hfail
      · exact absurd rfl hstarted
      · exact absurd rfl hstarted
  | evidence run loc =>
    simp only [runMirror] at h
    cases hverdict : integrityEvidence (checkGit settings storage run input.git) loc with
    | inl rest => rw [hverdict] at h; cases h; exact .checking
    | inr result =>
      rw [hverdict] at h
      cases result with
      | error failure =>
        cases h
        exact .verdict hverdict
      | ok objectCount =>
        cases hoperation : run.operation with
        | initialClone =>
          simp only [hoperation] at h
          cases h
          exact .toPublish hoperation
        | fetch =>
          simp only [hoperation] at h
          cases h
          exact .verified hoperation
  | publishStaging run objectCount =>
    simp only [runMirror] at h
    split at h
    · cases h; exact .publishFailed
    · split_ifs at h with hpresent hio
      · cases h; exact .publishFailed
      · cases h; exact .published (Or.inl rfl)
      · cases h; exact .published (Or.inr rfl)
  | directorySize run objectCount =>
    simp only [runMirror] at h
    cases hpresent : storage.mirrors (mirrorRelativePath settings run.request.targetId) with
    | false => rw [hpresent] at h; cases h; exact .unmeasured
    | true =>
      cases hsize : input.size with
      | none => simp only [hpresent, hsize] at h; cases h; exact .unmeasured
      | some bytes => simp only [hpresent, hsize] at h; cases h; exact .measured hpresent
  | collectLfs run result =>
    simp only [runMirror, MirrorRun.finish] at h
    split_ifs at h with hskip hcollector
    · cases h; exact .collected rfl rfl (fun _ => rfl)
    · cases h
      exact .collected rfl rfl (fun hfailed => absurd (Or.inl (by simp [hfailed])) hskip)
    · cases h
      exact .collected rfl rfl (fun hfailed => absurd (Or.inl (by simp [hfailed])) hskip)
  | transitionStarted request operation =>
    rcases setTargetStatus_cases h with ⟨_, _, ha, -⟩ | ⟨_, ha⟩ <;> cases ha
  | setStatus job status =>
    rcases setTargetStatus_cases h with ⟨_, _, ha, -⟩ | ⟨_, ha⟩ <;> cases ha
  | setLfsDegraded job =>
    rcases setTargetStatus_cases h with ⟨_, _, ha, -⟩ | ⟨_, ha⟩ <;> cases ha
  | _ =>
    simp only [runMirror, failRun] at h
    (repeat' split at h) <;> cases h

end RatatoskrVault
