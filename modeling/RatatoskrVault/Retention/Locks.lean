import RatatoskrVault.Lib.Locking
import RatatoskrVault.Persistence.TransitionSteps
import RatatoskrVault.Retention.CaptureSteps
import RatatoskrVault.Retention.WorkerSteps

/-! The locks a session holds at each point of a transaction. Every row an open transaction has
updated is locked, so no other session can have changed it when the transaction commits. -/
namespace RatatoskrVault

open Lib

/-- The lock an uncommitted write is made under. -/
def Write.locks : Write → List Lock
  | .setTargetStatus targetId _ _ => [.target targetId]
  | .setSnapshotDeleted snapshotId => [.snapshot snapshotId]
  | .insertArtifact row => [.identity (.localDigest row.sha256Hash)]
  | .cancelTombstone tombstoneId _ => [.tombstone tombstoneId]
  | .completeTombstone tombstoneId _ => [.tombstone tombstoneId]
  | .setPlanStatus planId _ _ => [.plan planId]
  | .finishClaim claimId _ => [.claim claimId]
  | .finishAttempt attemptId _ => [.attempt attemptId]
  | _ => []

def ClaimLoc.locks (job : Job) : ClaimLoc → List Lock
  | .load => []
  | .commitDeferred => []
  | .refusal row => [.plan job.plan.planId, .snapshot row.snapshotId]
  | .identity row => [.plan job.plan.planId, .snapshot row.snapshotId]
  | .advance row _ => [.plan job.plan.planId, .snapshot row.snapshotId]
  | .abandonStage row _ => [.plan job.plan.planId, .snapshot row.snapshotId]
  | .lock row _ => [.plan job.plan.planId, .snapshot row.snapshotId]
  | .shared row object =>
    [.plan job.plan.planId, .snapshot row.snapshotId, .identity object]
  | .insertShared row object =>
    [.plan job.plan.planId, .snapshot row.snapshotId, .identity object]
  | .abandonClaims row object =>
    [.plan job.plan.planId, .snapshot row.snapshotId, .identity object]
  | .insertClaim row object =>
    [.plan job.plan.planId, .snapshot row.snapshotId, .identity object]
  | .insertAttempt row object _ =>
    [.plan job.plan.planId, .snapshot row.snapshotId, .identity object]
  | .commitShared object => [.plan job.plan.planId, .identity object]
  | .commitClaimed object _ _ => [.plan job.plan.planId, .identity object]

def CompleteLoc.locks : CompleteLoc → List Lock
  | .lock _ => []
  | .updatePlan row => [.plan row.planId]
  | .updateSnapshot row => [.plan row.planId]
  | .ready row _ => [.plan row.planId]
  | .updateTombstone row _ => [.plan row.planId]
  | .updateTarget row _ => [.plan row.planId]
  | .commit row => [.plan row.planId]

def WorkerLoc.locks : WorkerLoc → List Lock
  | .claim job at_ => at_.locks job
  | .record _ _ _ attemptId _ .attempt => [.attempt attemptId]
  | .complete at_ => at_.locks
  | _ => []

def TransitionLoc.locks (targetId : Uuid) : TransitionLoc → List Lock
  | .begin => []
  | .insertRevision _ => []
  | .lockTarget _ => []
  | .insertTombstone _ _ => [.target targetId]
  | .lockTombstone _ _ => [.target targetId]
  | .stageStarted _ _ tombstoneId => [.target targetId, .tombstone tombstoneId]
  | .cancelPlans _ _ tombstoneId => [.target targetId, .tombstone tombstoneId]
  | .cancelTombstone _ _ tombstoneId => [.target targetId, .tombstone tombstoneId]
  | .updateTarget _ _ => [.target targetId]
  | .insertEvent _ _ => [.target targetId]
  | .commit => [.target targetId]
  | .finished _ => []

/-- No transaction is open. -/
def WorkerLoc.atRest : WorkerLoc → Bool
  | .claim _ .load => true
  | .claim _ _ => false
  | .record _ _ _ _ _ .lock => true
  | .record _ _ _ _ _ _ => false
  | .complete (.lock _) => true
  | .complete _ => false
  | _ => true

def CaptureLoc.atRest : CaptureLoc → Bool
  | .recordParent _ => false
  | .insertSnapshot _ => false
  | .artifactStart _ _ _ => false
  | .artifactLock _ _ _ _ _ _ => false
  | .insertManifest _ _ => false
  | .commit _ _ => false
  | _ => true

def TransitionLoc.atRest : TransitionLoc → Bool
  | .begin => true
  | .finished _ => true
  | _ => false

section

variable {m : Moment} {db : Db} {locks : List Lock} {writes : List Write} {l : Lock}

theorem WorkerStmt.mem_locks {at_ next : WorkerLoc} (h : WorkerStmt m db at_ locks writes next)
    (hl : l ∈ next.locks) : l ∈ at_.locks ∨ l ∈ locks := by
  cases h with
  | @claimLoad job plan hplan =>
    have hid : plan.planId = job.plan.planId := by simpa using List.find?_some hplan
    rw [hid]
    exact Or.inr hl
  | lockIdentity =>
    simp only [WorkerLoc.locks, ClaimLoc.locks, List.mem_cons, List.not_mem_nil, or_false] at hl ⊢
    tauto
  | refuse => simp [WorkerLoc.locks, ClaimLoc.locks] at hl
  | insertShared =>
    simp only [WorkerLoc.locks, ClaimLoc.locks, List.mem_cons, List.not_mem_nil, or_false] at hl ⊢
    tauto
  | insertAttempt =>
    simp only [WorkerLoc.locks, ClaimLoc.locks, List.mem_cons, List.not_mem_nil, or_false] at hl ⊢
    tauto
  | recordLock =>
    simp only [WorkerLoc.locks, List.mem_cons, List.not_mem_nil, or_false] at hl ⊢
    tauto
  | recordAttempt => simp [WorkerLoc.locks] at hl
  | recordClaim => simp [WorkerLoc.locks] at hl
  | completeLock => exact Or.inr hl
  | _ => exact Or.inl hl

theorem WorkerStmt.not_atRest {at_ next : WorkerLoc} (h : WorkerStmt m db at_ locks writes next) :
    next.atRest = false := by
  cases h <;> rfl

theorem WorkerStmt.writes_locked {at_ next : WorkerLoc}
    (h : WorkerStmt m db at_ locks writes next) {w : Write} (hw : w ∈ writes)
    (hl : l ∈ w.locks) : l ∈ at_.locks ∨ l ∈ locks := by
  cases h <;> simp only [List.mem_singleton, List.not_mem_nil, List.mem_map] at hw
  case advancePlanned =>
    subst hw
    simp only [Write.locks, WorkerLoc.locks, ClaimLoc.locks, List.mem_cons, List.not_mem_nil,
      or_false] at hl ⊢
    tauto
  case abandonStage =>
    obtain ⟨a, ha, rfl⟩ := hw
    simp only [Write.locks, List.mem_singleton] at hl
    exact Or.inr (List.mem_map.mpr ⟨a, ha, hl.symm⟩)
  case abandonClaims =>
    obtain ⟨c, hc, rfl⟩ := hw
    simp only [Write.locks, List.mem_singleton] at hl
    exact Or.inr (List.mem_map.mpr ⟨c, hc, hl.symm⟩)
  case insertShared => subst hw; simp [Write.locks] at hl
  case insertClaim => subst hw; simp [Write.locks] at hl
  case insertAttempt => subst hw; simp [Write.locks] at hl
  all_goals
    subst hw
    first
      | exact Or.inl hl
      | exact Or.inr hl

theorem WorkerLoc.locks_next {plan : DeletionExecutionPlan} {tasks : List Task} :
    (WorkerLoc.next plan tasks).locks = [] := by
  match tasks with
  | [] => rfl
  | .stage unit :: rest => rfl
  | .advance :: rest => rfl
  | .complete :: rest => rfl

theorem WorkerAuto.locks_next {at_ next : WorkerLoc} (h : WorkerAuto m db at_ locks writes next) :
    next.locks = [] := by
  cases h <;> first | rfl | exact WorkerLoc.locks_next

theorem WorkerCommit.locks_next {at_ next : WorkerLoc} (h : WorkerCommit at_ next) :
    next.locks = [] := by
  cases h <;> first | rfl | exact WorkerLoc.locks_next

theorem CaptureStmt.not_atRest {at_ next : CaptureLoc}
    (h : CaptureStmt m db at_ locks writes next) : next.atRest = false := by
  cases h <;> rfl

theorem CaptureStmt.writes_locked {at_ next : CaptureLoc}
    (h : CaptureStmt m db at_ locks writes next) {w : Write} (hw : w ∈ writes)
    (hl : l ∈ w.locks) : l ∈ locks := by
  cases h <;> simp only [List.mem_singleton, List.not_mem_nil] at hw
  all_goals
    subst hw
    exact hl

theorem retentionTransition_locks {request : TransitionRequest} {policyRevision : ℕ}
    {target : Target} {next : TransitionLoc}
    (h : retentionTransition request policyRevision target = .ok next) :
    next.locks request.targetId = [.target request.targetId] := by
  unfold retentionTransition at h
  split at h
  · split_ifs at h
    cases h
    rfl
  · split_ifs at h <;> cases h <;> rfl
  · cases h
    rfl

theorem TransitionStmt.not_atRest {request : TransitionRequest} {at_ next : TransitionLoc}
    (h : TransitionStmt request m db at_ locks writes next) : next.atRest = false := by
  cases h with
  | lockTarget _ hnext =>
    unfold retentionTransition at hnext
    split at hnext
    · split_ifs at hnext
      cases hnext
      rfl
    · split_ifs at hnext <;> cases hnext <;> rfl
    · cases hnext
      rfl
  | _ => rfl

theorem TransitionStmt.mem_locks {request : TransitionRequest} {at_ next : TransitionLoc}
    (h : TransitionStmt request m db at_ locks writes next)
    (hl : l ∈ next.locks request.targetId) : l ∈ at_.locks request.targetId ∨ l ∈ locks := by
  cases h with
  | begin => simp [TransitionLoc.locks] at hl
  | revisionKnown => simp [TransitionLoc.locks] at hl
  | insertRevision => simp [TransitionLoc.locks] at hl
  | lockTarget _ hnext =>
    rw [retentionTransition_locks hnext] at hl
    exact Or.inr hl
  | lockTombstone =>
    simp only [TransitionLoc.locks, List.mem_cons, List.not_mem_nil, or_false] at hl ⊢
    tauto
  | tombstoneMissing =>
    simp only [TransitionLoc.locks, List.mem_cons, List.not_mem_nil, or_false] at hl ⊢
    tauto
  | cancelTombstone =>
    simp only [TransitionLoc.locks, List.mem_cons, List.not_mem_nil, or_false] at hl ⊢
    tauto
  | _ => exact Or.inl hl

theorem TransitionStmt.writes_locked {request : TransitionRequest} {at_ next : TransitionLoc}
    (h : TransitionStmt request m db at_ locks writes next) {w : Write} (hw : w ∈ writes)
    (hl : l ∈ w.locks) : l ∈ at_.locks request.targetId ∨ l ∈ locks := by
  cases h <;> simp only [List.mem_singleton, List.not_mem_nil, List.mem_map] at hw
  case cancelPlans =>
    obtain ⟨p, hp, rfl⟩ := hw
    simp only [Write.locks, List.mem_singleton] at hl
    exact Or.inr (List.mem_map.mpr ⟨p, hp, hl.symm⟩)
  case cancelTombstone =>
    subst hw
    simp only [Write.locks, TransitionLoc.locks, List.mem_cons, List.not_mem_nil,
      or_false] at hl ⊢
    tauto
  case updateTarget => subst hw; exact Or.inr hl
  all_goals
    subst hw
    exact absurd hl List.not_mem_nil

end

namespace Retention

def Loc.locks : Loc → List Lock
  | .worker at_ => at_.locks
  | .transition request at_ => at_.locks request.targetId
  | _ => []

/-- The locks of the location and of every uncommitted write. -/
def needs (loc : Loc) (log : List Write) : List Lock := loc.locks ++ log.flatMap Write.locks

def Loc.atRest : Loc → Bool
  | .idle => true
  | .worker at_ => at_.atRest
  | .capture at_ => at_.atRest
  | .transition _ at_ => at_.atRest

def discipline : Discipline Loc Write Lock := { rest := Loc.atRest, needs }

variable {settings : Settings} {m : Moment} {db : Db} {storage storage' : Storage} {io : IoResult}
  {locks : List Lock} {writes : List Write} {next : Loc}

theorem act_capture_stmt {at_ : CaptureLoc}
    (h : act settings (.capture at_) m db storage io = some (.stmt locks writes next)) :
    ∃ n, next = .capture n ∧ CaptureStmt m db at_ locks writes n := by
  obtain ⟨n, hn, rfl⟩ := map_eq_stmt h
  exact ⟨n, rfl, captureSnapshot_stmt hn⟩

theorem act_capture_auto {at_ : CaptureLoc}
    (h : act settings (.capture at_) m db storage io = some (.auto locks writes next)) :
    ∃ n, next = .capture n ∧ locks = [] ∧ writes = [] ∧ CaptureAuto db at_ n := by
  obtain ⟨n, hn, rfl⟩ := map_eq_auto h
  exact ⟨n, rfl, captureSnapshot_auto hn⟩

theorem act_capture_commit {at_ : CaptureLoc}
    (h : act settings (.capture at_) m db storage io = some (.commit next)) :
    ∃ built snapshotId, at_ = .commit built snapshotId ∧
      next = .capture (.finished (some snapshotId)) := by
  obtain ⟨n, hn, rfl⟩ := map_eq_commit h
  obtain ⟨built, snapshotId, hat, rfl⟩ := captureSnapshot_commit hn
  exact ⟨built, snapshotId, hat, rfl⟩

theorem act_capture_rollback {at_ : CaptureLoc}
    (h : act settings (.capture at_) m db storage io = some (.rollback next)) :
    next = .capture (.finished none) := by
  obtain ⟨n, hn, rfl⟩ := map_eq_rollback h
  rw [captureSnapshot_rollback hn]

theorem act_capture_call {at_ : CaptureLoc}
    (h : act settings (.capture at_) m db storage io = some (.call storage' next)) :
    ∃ reference bytes n,
      CapturePublish settings.worker.crypto settings.capture storage at_ reference bytes n ∧
      storage' = (publish settings.worker.crypto storage reference bytes io).1 ∧
      next = .capture (if (publish settings.worker.crypto storage reference bytes io).2 then n
        else .finished none) := by
  obtain ⟨n, hn, rfl⟩ := map_eq_call h
  obtain ⟨reference, bytes, n', hpub, hstorage, rfl⟩ := captureSnapshot_call hn
  exact ⟨reference, bytes, n', hpub, hstorage, rfl⟩

theorem act_transition_stmt {request : TransitionRequest} {at_ : TransitionLoc}
    (h : act settings (.transition request at_) m db storage io
      = some (.stmt locks writes next)) :
    ∃ n, next = .transition request n ∧ TransitionStmt request m db at_ locks writes n := by
  obtain ⟨n, hn, rfl⟩ := map_eq_stmt h
  exact ⟨n, rfl, applyTransition_stmt hn⟩

theorem act_transition_commit {request : TransitionRequest} {at_ : TransitionLoc}
    (h : act settings (.transition request at_) m db storage io = some (.commit next)) :
    at_ = .commit ∧ next = .transition request (.finished (.ok ())) := by
  obtain ⟨n, hn, rfl⟩ := map_eq_commit h
  obtain ⟨hat, rfl⟩ := applyTransition_commit hn
  exact ⟨hat, rfl⟩

theorem act_transition_rollback {request : TransitionRequest} {at_ : TransitionLoc}
    (h : act settings (.transition request at_) m db storage io = some (.rollback next)) :
    ∃ e, next = .transition request (.finished (.error e)) := by
  obtain ⟨n, hn, rfl⟩ := map_eq_rollback h
  obtain ⟨e, rfl⟩ := applyTransition_rollback hn
  exact ⟨e, rfl⟩

section

variable (m : Moment) (db : Db)

/-- The statements of a session, by what it executes. -/
inductive SessionStmt : Loc → List Lock → List Write → Loc → Prop
  | worker {at_ n : WorkerLoc} {locks : List Lock} {writes : List Write}
      (h : WorkerStmt m db at_ locks writes n) : SessionStmt (.worker at_) locks writes (.worker n)
  | capture {at_ n : CaptureLoc} {locks : List Lock} {writes : List Write}
      (h : CaptureStmt m db at_ locks writes n) :
      SessionStmt (.capture at_) locks writes (.capture n)
  | transition {request : TransitionRequest} {at_ n : TransitionLoc} {locks : List Lock}
      {writes : List Write} (h : TransitionStmt request m db at_ locks writes n) :
      SessionStmt (.transition request at_) locks writes (.transition request n)

/-- The statements a session commits by themselves. -/
inductive SessionAuto : Loc → List Lock → List Write → Loc → Prop
  | worker {at_ n : WorkerLoc} {locks : List Lock} {writes : List Write}
      (h : WorkerAuto m db at_ locks writes n) : SessionAuto (.worker at_) locks writes (.worker n)
  | capture {at_ n : CaptureLoc} (h : CaptureAuto db at_ n) :
      SessionAuto (.capture at_) [] [] (.capture n)

end

inductive SessionCommit : Loc → Loc → Prop
  | worker {at_ n : WorkerLoc} (h : WorkerCommit at_ n) : SessionCommit (.worker at_) (.worker n)
  | capture {built : BuiltSnapshot} {snapshotId : Uuid} :
      SessionCommit (.capture (.commit built snapshotId)) (.capture (.finished (some snapshotId)))
  | transition {request : TransitionRequest} :
      SessionCommit (.transition request .commit) (.transition request (.finished (.ok ())))

/-- The storage calls of a session. -/
inductive SessionCall (settings : Settings) (storage : Storage) (io : IoResult) :
    Loc → Storage → Loc → Prop
  | worker {job : Job} {object : PhysicalIdentity} {claimId attemptId : Uuid} :
      SessionCall settings storage io (.worker (.effect job object claimId attemptId))
        (deletionEffect settings.worker job storage io).1
        (.worker (.record job object claimId attemptId
          (deletionEffect settings.worker job storage io).2 .lock))
  | capture {at_ n n' : CaptureLoc} {reference : BlobRef} {bytes : Bytes}
      (h : CapturePublish settings.worker.crypto settings.capture storage at_ reference bytes n)
      (hn' : n' = if (publish settings.worker.crypto storage reference bytes io).2 then n
        else .finished none) :
      SessionCall settings storage io (.capture at_)
        (publish settings.worker.crypto storage reference bytes io).1 (.capture n')

theorem act_stmt {loc : Loc} (h : act settings loc m db storage io = some (.stmt locks writes next)) :
    SessionStmt m db loc locks writes next := by
  cases loc with
  | idle => cases h
  | worker at_ =>
    obtain ⟨n, rfl, hstmt⟩ := act_worker_stmt h
    exact .worker hstmt
  | capture at_ =>
    obtain ⟨n, rfl, hstmt⟩ := act_capture_stmt h
    exact .capture hstmt
  | transition request at_ =>
    obtain ⟨n, rfl, hstmt⟩ := act_transition_stmt h
    exact .transition hstmt

theorem act_auto {loc : Loc} (h : act settings loc m db storage io = some (.auto locks writes next)) :
    SessionAuto m db loc locks writes next := by
  cases loc with
  | idle => cases h
  | worker at_ =>
    obtain ⟨n, rfl, hauto⟩ := act_worker_auto h
    exact .worker hauto
  | capture at_ =>
    obtain ⟨n, rfl, rfl, rfl, hauto⟩ := act_capture_auto h
    exact .capture hauto
  | transition request at_ =>
    obtain ⟨n, hn, -⟩ := map_eq_auto h
    exact absurd hn applyTransition_ne_auto

theorem SessionAuto.atRest {loc : Loc} (h : SessionAuto m db loc locks writes next) :
    loc.atRest = true := by
  cases h with
  | worker h => cases h <;> rfl
  | capture h => cases h <;> rfl

theorem act_commit {loc : Loc} (h : act settings loc m db storage io = some (.commit next)) :
    SessionCommit loc next := by
  cases loc with
  | idle => cases h
  | worker at_ =>
    obtain ⟨n, rfl, hcommit⟩ := act_worker_commit h
    exact .worker hcommit
  | capture at_ =>
    obtain ⟨built, snapshotId, rfl, rfl⟩ := act_capture_commit h
    exact .capture
  | transition request at_ =>
    obtain ⟨rfl, rfl⟩ := act_transition_commit h
    exact .transition

theorem act_call {loc : Loc} (h : act settings loc m db storage io = some (.call storage' next)) :
    SessionCall settings storage io loc storage' next := by
  cases loc with
  | idle => cases h
  | worker at_ =>
    obtain ⟨job, object, claimId, attemptId, rfl, rfl, rfl⟩ := act_worker_call h
    exact .worker
  | capture at_ =>
    obtain ⟨reference, bytes, n, hpublish, rfl, rfl⟩ := act_capture_call h
    exact .capture hpublish rfl
  | transition request at_ =>
    obtain ⟨n, hn, -⟩ := map_eq_call h
    exact absurd hn applyTransition_ne_call

/-- A transaction that is dropped ends its procedure. -/
theorem isIdle_of_rollback {loc : Loc}
    (h : act settings loc m db storage io = some (.rollback next)) : next.isIdle = true := by
  cases loc with
  | idle => cases h
  | worker at_ => rw [act_worker_rollback h]; rfl
  | capture at_ => rw [act_capture_rollback h]; rfl
  | transition request at_ =>
    obtain ⟨e, rfl⟩ := act_transition_rollback h
    rfl

/-- A session that takes a step is not idle. -/
theorem busy_of_act {loc : Loc} {a : Action Storage Lock Write Loc}
    (h : act settings loc m db storage io = some a) : loc.isIdle = false := by
  cases loc with
  | idle => cases h
  | worker at_ =>
    cases at_ with
    | finished outcome => cases h
    | _ => rfl
  | capture at_ =>
    cases at_ with
    | finished result => cases h
    | _ => rfl
  | transition request at_ =>
    cases at_ with
    | finished result => cases h
    | _ => rfl

section

variable (db : Db) (m : Moment)

/-- The plan row of a request. -/
structure PlannedAs (request : DeletionPlanRequest) (row : DeletionPlan) : Prop where
  planId : row.planId = m.fresh
  targetId : row.targetId = request.targetId
  snapshotId : row.snapshotId = request.snapshotId
  tombstoneId : row.tombstoneId = request.tombstoneId
  automatic : row.automatic = request.automatic
  notBefore : row.notBefore = request.notBefore
  status : row.status = .planned

/-- What the operations write. -/
inductive OpWrites : Op → List Lock → List Write → Prop
  | protectedPinned {request : DeletionPlanRequest} :
      OpWrites (.createDeletionPlan request) [.snapshot request.snapshotId] []
  | planned {request : DeletionPlanRequest} {row : DeletionPlan}
      (hsnapshot : ∃ snapshot ∈ db.snapshots, snapshot.snapshotId = request.snapshotId ∧
        snapshot.targetId = request.targetId)
      (hpin : request.automatic = true → db.snapshotIsPinned request.snapshotId = false)
      (hallowed : planAllowed db request = true) (hrow : PlannedAs m request row) :
      OpWrites (.createDeletionPlan request)
        (.snapshot request.snapshotId :: request.tombstoneId.toList.map .tombstone)
        [.insertPlan row]
  | pinKept {snapshotId : Uuid} {source : PinSource} {sourceReference : String} :
      OpWrites (.pinSnapshot snapshotId source sourceReference) [.snapshot snapshotId] []
  | pinned {snapshotId : Uuid} {source : PinSource} {sourceReference : String} :
      OpWrites (.pinSnapshot snapshotId source sourceReference) [.snapshot snapshotId]
        [.insertPin
          { pinId := m.fresh, snapshotId, source, sourceReference, revokedAt := none }]
  | revoked {pinId : Uuid} {pin : SnapshotPin} (hpin : pin ∈ db.pins) :
      OpWrites (.revokeSnapshotPin pinId) [.pin pinId, .snapshot pin.snapshotId]
        [.revokePin pinId m.now]

end

theorem operate_writes {db : Db} {m : Moment} {o : Op} {locks : List Lock} {writes : List Write}
    (h : operate db m o = some (locks, writes)) : OpWrites db m o locks writes := by
  cases o with
  | createDeletionPlan request =>
    simp only [operate, createDeletionPlan] at h
    split_ifs at h with _ hsnapshot hprotected hallowed
    · cases h
      exact .protectedPinned
    · cases h
      refine .planned ?_ ?_ (by simpa using hallowed) ⟨rfl, rfl, rfl, rfl, rfl, rfl, rfl⟩
      · simpa using hsnapshot
      · simpa using hprotected
  | pinSnapshot snapshotId source sourceReference =>
    simp only [operate] at h
    split_ifs at h
    · cases h
      exact .pinKept
    · cases h
      exact .pinned
  | revokeSnapshotPin pinId =>
    simp only [operate] at h
    split at h
    · cases h
    · rename_i pin hfind
      cases h
      exact .revoked (List.mem_of_find?_eq_some hfind)

theorem mem_needs_of_write {loc : Loc} {log : List Write} {w : Write} {l : Lock} (hw : w ∈ log)
    (hl : l ∈ w.locks) : l ∈ needs loc log :=
  List.mem_append_right _ (List.mem_flatMap.mpr ⟨w, hw, hl⟩)

theorem mem_needs_of_loc {loc : Loc} {log : List Write} {l : Lock} (hl : l ∈ loc.locks) :
    l ∈ needs loc log :=
  List.mem_append_left _ hl

theorem needs_stmt {loc : Loc} {log : List Write} {l : Lock}
    (h : act settings loc m db storage io = some (.stmt locks writes next))
    (hl : l ∈ needs next (log ++ writes)) : l ∈ needs loc log ∨ l ∈ locks := by
  have hloc : ∀ l ∈ next.locks, l ∈ loc.locks ∨ l ∈ locks := by
    intro l hl
    cases loc with
    | idle => cases h
    | worker at_ =>
      obtain ⟨n, rfl, hstmt⟩ := act_worker_stmt h
      exact hstmt.mem_locks hl
    | capture at_ =>
      obtain ⟨n, rfl, -⟩ := act_capture_stmt h
      exact absurd hl List.not_mem_nil
    | transition request at_ =>
      obtain ⟨n, rfl, hstmt⟩ := act_transition_stmt h
      exact hstmt.mem_locks hl
  have hwrites : ∀ w ∈ writes, ∀ l ∈ w.locks, l ∈ loc.locks ∨ l ∈ locks := by
    intro w hw l hl
    cases loc with
    | idle => cases h
    | worker at_ =>
      obtain ⟨n, -, hstmt⟩ := act_worker_stmt h
      exact hstmt.writes_locked hw hl
    | capture at_ =>
      obtain ⟨n, -, hstmt⟩ := act_capture_stmt h
      exact Or.inr (hstmt.writes_locked hw hl)
    | transition request at_ =>
      obtain ⟨n, -, hstmt⟩ := act_transition_stmt h
      exact hstmt.writes_locked hw hl
  rcases List.mem_append.mp hl with hl | hl
  · exact (hloc l hl).imp_left mem_needs_of_loc
  · obtain ⟨w, hw, hl⟩ := List.mem_flatMap.mp hl
    rcases List.mem_append.mp hw with hw | hw
    · exact Or.inl (mem_needs_of_write hw hl)
    · exact (hwrites w hw l hl).imp_left mem_needs_of_loc

/-- Where a session stands outside a transaction it needs no lock. -/
theorem respects : (machine settings).Respects discipline where
  start proc := by cases proc <;> rfl
  aborted := rfl
  rest {loc} {m} {db} {storage} {io} {locks} {writes} {next} h := by
    cases loc with
    | idle => cases h
    | worker at_ => obtain ⟨n, rfl, hstmt⟩ := act_worker_stmt h; exact hstmt.not_atRest
    | capture at_ => obtain ⟨n, rfl, hstmt⟩ := act_capture_stmt h; exact hstmt.not_atRest
    | transition request at_ =>
      obtain ⟨n, hn, rfl⟩ := map_eq_stmt h
      exact (applyTransition_stmt hn).not_atRest
  stmt log h l hl := needs_stmt h hl
  auto {loc} {m} {db} {storage} {io} {locks} {writes} {next} h := by
    cases loc with
    | idle => cases h
    | worker at_ =>
      obtain ⟨n, rfl, hauto⟩ := act_worker_auto h
      simpa [discipline, needs, Loc.locks] using hauto.locks_next
    | capture at_ => obtain ⟨n, rfl, -⟩ := act_capture_auto h; rfl
    | transition request at_ =>
      obtain ⟨n, hn, -⟩ := map_eq_auto h
      exact absurd hn applyTransition_ne_auto
  commit {loc} {m} {db} {storage} {io} {next} h := by
    change act settings loc m db storage io = _ at h
    cases loc with
    | idle => cases h
    | worker at_ =>
      obtain ⟨n, rfl, hcommit⟩ := act_worker_commit h
      simpa [discipline, needs, Loc.locks] using hcommit.locks_next
    | capture at_ => obtain ⟨_, _, -, rfl⟩ := act_capture_commit h; rfl
    | transition request at_ => obtain ⟨-, rfl⟩ := act_transition_commit h; rfl
  rollback {loc} {m} {db} {storage} {io} {next} h := by
    change act settings loc m db storage io = _ at h
    cases loc with
    | idle => cases h
    | worker at_ => obtain rfl := act_worker_rollback h; rfl
    | capture at_ => obtain rfl := act_capture_rollback h; rfl
    | transition request at_ => obtain ⟨e, rfl⟩ := act_transition_rollback h; rfl
  call {loc} {m} {db} {storage} {io} {storage'} {next} h := by
    cases loc with
    | idle => cases h
    | worker at_ => obtain ⟨_, _, _, _, -, -, rfl⟩ := act_worker_call h; rfl
    | capture at_ => obtain ⟨_, _, _, -, -, rfl⟩ := act_capture_call h; rfl
    | transition request at_ =>
      obtain ⟨n, hn, -⟩ := map_eq_call h
      exact absurd hn applyTransition_ne_call

theorem locked_initial (db : Db) (storage : Storage) (clock fresh : ℕ) :
    Locked discipline (initial db storage clock fresh) :=
  ⟨fun _ _ _ h => absurd h List.not_mem_nil, fun _ _ h => absurd h List.not_mem_nil,
    fun _ _ => rfl⟩

end Retention

end RatatoskrVault
