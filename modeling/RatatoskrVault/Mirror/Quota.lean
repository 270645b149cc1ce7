import RatatoskrVault.Lib.Rely
import RatatoskrVault.Mirror.Lifecycle

/-! `reserve_mirror_quota` and `record_mirror_run` as transactions of their own, one statement at a
time: any number of calls with any arguments, under one pair of limits. -/
namespace RatatoskrVault.MirrorQuota

open Lib

structure Limits where
  perMirrorMaxBytes : ℕ
  globalMaxBytes : ℕ

structure ReserveCall where
  targetId : Uuid
  runId : Uuid
  requestedBytes : ℕ
  deriving DecidableEq

structure RecordCall where
  targetId : Uuid
  runId : Uuid
  result : MirrorResult
  deriving DecidableEq

/-- The advisory lock of the sums, and the keys of the two tables. -/
inductive Lock
  | quota
  | reservationKey (runId : Uuid)
  | runKey (runId : Uuid)
  deriving DecidableEq

inductive Proc
  | reserve (call : ReserveCall)
  | record (call : RecordCall)
  deriving DecidableEq

inductive ReserveLoc
  | lock
  | targetReserved
  | globalReserved (targetReserved : ℕ)
  | key
  | insert
  | commit
  deriving DecidableEq

inductive RecordLoc
  | key | insert | release | commit
  deriving DecidableEq

inductive Loc
  | idle
  | reserve (call : ReserveCall) (at_ : ReserveLoc)
  | record (call : RecordCall) (at_ : RecordLoc)
  | reserved (call : ReserveCall)
  | quotaExceeded (call : ReserveCall)
  | recorded (call : RecordCall)
  | failed (e : VaultError)
  deriving DecidableEq

def Loc.isIdle : Loc → Bool
  | .reserve _ _ => false
  | .record _ _ => false
  | _ => true

def start : Proc → Loc
  | .reserve call => .reserve call .lock
  | .record call => .record call .key

def targetReserved (db : Db) (targetId : Uuid) : ℕ :=
  reservedBytes (db.reservations.filter fun r => r.targetId == targetId)

def ReserveCall.row (call : ReserveCall) : MirrorQuotaReservation :=
  { runId := call.runId, targetId := call.targetId, reservedBytes := call.requestedBytes }

def fail : Option (Action Unit Lock Write Loc) :=
  some (.rollback (.failed .storageFailed))

section

variable (limits : Limits) (db : Db)

/-- `reserve_mirror_quota`; the insertion waits for its key before it looks at it. -/
def reserveMirrorQuota (call : ReserveCall) : ReserveLoc → Option (Action Unit Lock Write Loc)
  | .lock =>
    if 0 < call.requestedBytes ∧ call.requestedBytes ≤ i64Max ∧ 0 < limits.perMirrorMaxBytes ∧
        limits.perMirrorMaxBytes ≤ i64Max ∧ 0 < limits.globalMaxBytes ∧
        limits.globalMaxBytes ≤ i64Max then
      some (.stmt [.quota] [] (.reserve call .targetReserved))
    else fail
  | .targetReserved =>
    let reserved := targetReserved db call.targetId
    if reserved ≤ i64Max then some (.stmt [] [] (.reserve call (.globalReserved reserved)))
    else fail
  | .globalReserved targetReserved =>
    let reserved := reservedBytes db.reservations
    if i64Max < reserved then fail
    else if limits.perMirrorMaxBytes < min i64Max (targetReserved + call.requestedBytes) ∨
        limits.globalMaxBytes < min i64Max (reserved + call.requestedBytes) then
      some (.rollback (.quotaExceeded call))
    else some (.stmt [] [] (.reserve call .key))
  | .key => some (.stmt [.reservationKey call.runId] [] (.reserve call .insert))
  | .insert =>
    if (db.reservations.any fun r => r.runId == call.runId) ∨ (db.target? call.targetId).isNone then
      fail
    else some (.stmt [] [.insertReservation call.row] (.reserve call .commit))
  | .commit => some (.commit (.reserved call))

/-- `record_mirror_run`: the evidence row, and the release of the reservation it can see. -/
def recordMirrorRun (call : RecordCall) : RecordLoc → Option (Action Unit Lock Write Loc)
  | .key =>
    match call.result.outcome? with
    | none => fail
    | some _ => some (.stmt [.runKey call.runId] [] (.record call .insert))
  | .insert =>
    match call.result.outcome? with
    | none => fail
    | some outcome =>
      if (db.mirrorRuns.any fun r => r.runId == call.runId) ∨ (db.target? call.targetId).isNone then
        fail
      else
        some (.stmt [] [.insertMirrorRun { runId := call.runId, targetId := call.targetId, outcome }]
          (.record call .release))
  | .release =>
    if db.reservations.any fun r => r.runId == call.runId then
      some (.stmt [.reservationKey call.runId] [.releaseReservation call.runId]
        (.record call .commit))
    else some (.stmt [] [] (.record call .commit))
  | .commit => some (.commit (.recorded call))

def act (loc : Loc) : Option (Action Unit Lock Write Loc) :=
  match loc with
  | .reserve call at_ => reserveMirrorQuota limits db call at_
  | .record call at_ => recordMirrorRun db call at_
  | _ => none

end

abbrev machine (limits : Limits) : Machine Db Unit Lock Write Loc Unit Proc Empty :=
  { apply := Db.apply
    act := fun loc _ db _ _ => act limits db loc
    start
    isIdle := Loc.isIdle
    aborted := .failed .storageFailed
    op := fun _ _ _ _ => none }

abbrev State := Lib.State Db Unit Lock Write Loc
abbrev Label := Lib.Label Unit Proc Empty

def initial (db : Db) (clock fresh : ℕ) : State :=
  { db, world := (), clock, fresh, held := []
    session := fun _ => { loc := .idle, log := [], began := none } }

/-- What one statement of a call can do. -/
inductive Stmt (limits : Limits) (db : Db) : Loc → List Lock → List Write → Loc → Prop
  | lock {call : ReserveCall} (hper : limits.perMirrorMaxBytes ≤ i64Max)
      (hglobal : limits.globalMaxBytes ≤ i64Max) :
      Stmt limits db (.reserve call .lock) [.quota] [] (.reserve call .targetReserved)
  | targetReserved {call : ReserveCall} :
      Stmt limits db (.reserve call .targetReserved) [] []
        (.reserve call (.globalReserved (targetReserved db call.targetId)))
  | admitted {call : ReserveCall} {target : ℕ}
      (hper : min i64Max (target + call.requestedBytes) ≤ limits.perMirrorMaxBytes)
      (hglobal : min i64Max (reservedBytes db.reservations + call.requestedBytes)
        ≤ limits.globalMaxBytes) :
      Stmt limits db (.reserve call (.globalReserved target)) [] [] (.reserve call .key)
  | key {call : ReserveCall} :
      Stmt limits db (.reserve call .key) [.reservationKey call.runId] [] (.reserve call .insert)
  | insert {call : ReserveCall} :
      Stmt limits db (.reserve call .insert) [] [.insertReservation call.row]
        (.reserve call .commit)
  | runKey {call : RecordCall} :
      Stmt limits db (.record call .key) [.runKey call.runId] [] (.record call .insert)
  | insertRun {call : RecordCall} {row : MirrorLifecycleRun} (hrow : row.runId = call.runId)
      (hnew : ∀ r ∈ db.mirrorRuns, r.runId ≠ call.runId) :
      Stmt limits db (.record call .insert) [] [.insertMirrorRun row] (.record call .release)
  | release {call : RecordCall} :
      Stmt limits db (.record call .release) [.reservationKey call.runId]
        [.releaseReservation call.runId] (.record call .commit)
  | unreserved {call : RecordCall} :
      Stmt limits db (.record call .release) [] [] (.record call .commit)

/-- What a call drops: a request that does not fit, or the call itself. -/
inductive Rollback (limits : Limits) (db : Db) : Loc → Loc → Prop
  | quotaExceeded {call : ReserveCall} {target : ℕ}
      (hexceeds : limits.perMirrorMaxBytes < target + call.requestedBytes ∨
        limits.globalMaxBytes < reservedBytes db.reservations + call.requestedBytes) :
      Rollback limits db (.reserve call (.globalReserved target)) (.quotaExceeded call)
  | failed {loc : Loc} {e : VaultError} : Rollback limits db loc (.failed e)

variable {limits : Limits} {db : Db} {loc next : Loc} {locks : List Lock} {writes : List Write}

theorem act_stmt (h : act limits db loc = some (.stmt locks writes next)) :
    Stmt limits db loc locks writes next := by
  cases loc with
  | reserve call at_ =>
    cases at_ with
    | lock =>
      simp only [act, reserveMirrorQuota, fail] at h
      split_ifs at h with hvalid
      · cases h
        exact .lock hvalid.2.2.2.1 hvalid.2.2.2.2.2
      · cases h
    | targetReserved =>
      simp only [act, reserveMirrorQuota, fail] at h
      split_ifs at h
      · cases h
        exact .targetReserved
      · cases h
    | globalReserved target =>
      simp only [act, reserveMirrorQuota, fail] at h
      split_ifs at h with hsum hexceeds
      · cases h
      · cases h
      · cases h
        have hfits := not_or.mp hexceeds
        exact .admitted (Nat.le_of_not_lt hfits.1) (Nat.le_of_not_lt hfits.2)
    | key => cases h; exact .key
    | insert =>
      simp only [act, reserveMirrorQuota, fail] at h
      split_ifs at h
      · cases h
      · cases h
        exact .insert
    | commit => cases h
  | record call at_ =>
    cases at_ with
    | key =>
      simp only [act, recordMirrorRun, fail] at h
      split at h
      · cases h
      · cases h
        exact .runKey
    | insert =>
      simp only [act, recordMirrorRun, fail] at h
      split at h
      · cases h
      · split_ifs at h with hknown
        · cases h
        · cases h
          refine .insertRun rfl fun r hr heq => hknown (Or.inl ?_)
          exact List.any_eq_true.mpr ⟨r, hr, beq_iff_eq.mpr heq⟩
    | release =>
      simp only [act, recordMirrorRun] at h
      split_ifs at h
      · cases h
        exact .release
      · cases h
        exact .unreserved
    | commit => cases h
  | _ => cases h

theorem act_rollback (h : act limits db loc = some (.rollback next)) :
    Rollback limits db loc next := by
  cases loc with
  | reserve call at_ =>
    cases at_ with
    | globalReserved target =>
      simp only [act, reserveMirrorQuota, fail] at h
      split_ifs at h with hsum hexceeds
      · cases h
        exact .failed
      · cases h
        exact .quotaExceeded (hexceeds.imp (fun hlt => by omega) fun hlt => by omega)
      · cases h
    | _ =>
      simp only [act, reserveMirrorQuota, fail] at h
      (repeat' split at h) <;> cases h <;> exact .failed
  | record call at_ =>
    cases at_ <;> simp only [act, recordMirrorRun, fail] at h <;> (repeat' split at h) <;> cases h <;>
      exact .failed
  | _ => cases h

/-- A transaction commits what it came to, and no statement commits by itself. -/
theorem act_commit (h : act limits db loc = some (.commit next)) :
    (∃ call, loc = .reserve call .commit ∧ next = .reserved call) ∨
      ∃ call, loc = .record call .commit ∧ next = .recorded call := by
  cases loc with
  | reserve call at_ =>
    cases at_ with
    | commit => cases h; exact Or.inl ⟨call, rfl, rfl⟩
    | _ =>
      simp only [act, reserveMirrorQuota, fail] at h
      (repeat' split at h) <;> cases h
  | record call at_ =>
    cases at_ with
    | commit => cases h; exact Or.inr ⟨call, rfl, rfl⟩
    | _ =>
      simp only [act, recordMirrorRun, fail] at h
      (repeat' split at h) <;> cases h
  | _ => cases h

theorem act_auto : act limits db loc ≠ some (.auto locks writes next) := by
  intro h
  cases loc with
  | reserve call at_ =>
    cases at_ <;> simp only [act, reserveMirrorQuota, fail] at h <;> (repeat' split at h) <;> cases h
  | record call at_ =>
    cases at_ <;> simp only [act, recordMirrorRun, fail] at h <;> (repeat' split at h) <;> cases h
  | _ => cases h

theorem act_call : act limits db loc ≠ some (.call () next) := by
  intro h
  cases loc with
  | reserve call at_ =>
    cases at_ <;> simp only [act, reserveMirrorQuota, fail] at h <;> (repeat' split at h) <;> cases h
  | record call at_ =>
    cases at_ <;> simp only [act, recordMirrorRun, fail] at h <;> (repeat' split at h) <;> cases h
  | _ => cases h

section MirrorRuns

/-! A mirror run makes these calls under a run identifier no row has. -/

variable (settings : MirrorLifecycleSettings) (run : MirrorRun) (job : Finishing)

def limitsOf : Limits :=
  { perMirrorMaxBytes := settings.perMirrorMaxBytes, globalMaxBytes := settings.globalMaxBytes }

def reserveCall : ReserveCall :=
  { targetId := run.request.targetId
    runId := run.runId
    requestedBytes := admittedReservation settings run.request }

def recordCall : RecordCall :=
  { targetId := job.run.request.targetId, runId := job.run.runId, result := job.result }

/-- The lock that a run takes for one of a call: nobody else waits for the keys of its own rows. -/
def mirrorLock : Lock → List RatatoskrVault.Lock
  | .quota => [.quota]
  | _ => []

/-- Where a run stands while it reserves. -/
def reservingLoc : Loc → MirrorLoc
  | .reserve _ .lock => .lockQuota run
  | .reserve _ .targetReserved => .targetReserved run
  | .reserve _ (.globalReserved target) => .globalReserved run target
  | .reserve _ .key => .insertReservation run
  | .reserve _ .insert => .insertReservation run
  | .reserve _ .commit => .commitReservation run
  | .reserved _ => .admitted run
  | .quotaExceeded _ => run.finish .quotaRefused
  | .failed e => .finished (.error e)
  | _ => .finished (.error .storageFailed)

/-- Where a run stands while it records its result. -/
def recordingLoc : Loc → MirrorLoc
  | .record _ .key => .insertRun job
  | .record _ .insert => .insertRun job
  | .record _ .release => .releaseReservation job
  | .record _ .commit => .commitRun job
  | .recorded _ => job.observe
  | .failed e => .finished (.error e)
  | _ => .finished (.error .storageFailed)

def mirrorAction (place : Loc → MirrorLoc) :
    Action Unit Lock Write Loc → Action MirrorStorage RatatoskrVault.Lock Write MirrorLoc
  | .stmt locks writes next => .stmt (locks.flatMap mirrorLock) writes (place next)
  | .auto locks writes next => .auto (locks.flatMap mirrorLock) writes (place next)
  | .commit next => .commit (place next)
  | .rollback next => .rollback (place next)
  | .call _ next => .rollback (place next)

variable (m : Moment) (db : Db) (storage : MirrorStorage) (input : MirrorInput)

end MirrorRuns

end RatatoskrVault.MirrorQuota
