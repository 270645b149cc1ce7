import RatatoskrVault.Lib.Carried
import RatatoskrVault.Lib.Rely
import RatatoskrVault.Vault.Serial

/-! The rows of a mirror run: its identifier is its own, no reservation or evidence of it is there
before it is admitted or recorded, and its one row of evidence takes its reservation away. -/
namespace RatatoskrVault

open Lib

namespace MirrorLoc

/-- A result on its way to `record_mirror_run`, or inside it. -/
def recording : MirrorLoc → Option Finishing
  | insertRun job => some job
  | releaseReservation job => some job
  | commitRun job => some job
  | _ => none

/-- A result that is recorded. -/
def recorded : MirrorLoc → Option Finishing
  | ensureMirror job => some job
  | recordVerified job => some job
  | markDegraded job => some job
  | setStatus job _ => some job
  | persistLfs job => some job
  | setLfsDegraded job => some job
  | _ => none

/-- The run of a call since its `transition_started`. -/
def run? (at_ : MirrorLoc) : Option MirrorRun :=
  at_.reserving.or (at_.working.or ((at_.recording.or at_.recorded).map (·.run)))

def runId? (at_ : MirrorLoc) : Option Uuid := at_.run?.map (·.runId)

end MirrorLoc

def MirrorRun.reservation (settings : MirrorLifecycleSettings) (run : MirrorRun) :
    MirrorQuotaReservation :=
  { runId := run.runId
    targetId := run.request.targetId
    reservedBytes := admittedReservation settings run.request }

def Db.runRows (db : Db) (runId : Uuid) : List MirrorLifecycleRun :=
  db.mirrorRuns.filter fun row => row.runId == runId

def Db.reservationRows (db : Db) (runId : Uuid) : List MirrorQuotaReservation :=
  db.reservations.filter fun row => row.runId == runId

/-- Writes to no evidence of a run and to no reservation. -/
def Write.leavesRuns : Write → Bool
  | .insertMirrorRun _ => false
  | .insertReservation _ => false
  | .releaseReservation _ => false
  | _ => true

section

variable (settings : MirrorLifecycleSettings)

/-- The uncommitted writes of a run at each place. -/
def MirrorLoc.Logged (log : List Write) : MirrorLoc → Prop
  | .commitReservation run => log = [.insertReservation (run.reservation settings)]
  | .releaseReservation job =>
    ∃ row : MirrorLifecycleRun, row.runId = job.run.runId ∧ log = [.insertMirrorRun row]
  | .commitRun job =>
    ∃ row : MirrorLifecycleRun, row.runId = job.run.runId ∧
      log = [.insertMirrorRun row, .releaseReservation job.run.runId]
  | _ => log = []

/-- What the committed rows of a run say at each place. -/
structure MirrorLoc.Recorded (db : Db) (log : List Write) (at_ : MirrorLoc) : Prop where
  logged : at_.Logged settings log
  reserving : ∀ run, at_.reserving = some run →
    db.runRows run.runId = [] ∧ db.reservationRows run.runId = []
  working : ∀ run, at_.working = some run → db.runRows run.runId = []
  recording : ∀ job, at_.recording = some job → db.runRows job.run.runId = []
  recorded : ∀ job, at_.recorded = some job →
    (db.runRows job.run.runId).length = 1 ∧ db.reservationRows job.run.runId = []

end

section

variable {settings : MirrorLifecycleSettings} {db db' : Db} {log : List Write} {at_ : MirrorLoc}

theorem runs_of_leaves (hleaves : ∀ w ∈ log, w.leavesRuns = true) :
    (log.foldl Db.apply db).mirrorRuns = db.mirrorRuns ∧
      (log.foldl Db.apply db).reservations = db.reservations := by
  refine foldl_invariant
    (I := fun d : Db => d.mirrorRuns = db.mirrorRuns ∧ d.reservations = db.reservations)
    (fun d w hw hd => ?_) ⟨rfl, rfl⟩
  have hkeeps := hleaves w hw
  cases w with
  | insertMirrorRun row => cases hkeeps
  | insertReservation row => cases hkeeps
  | releaseReservation runId => cases hkeeps
  | _ => exact hd

theorem MirrorLoc.runId?_of_reserving {run : MirrorRun} (h : at_.reserving = some run) :
    at_.runId? = some run.runId := by
  unfold runId? run?
  rw [h]
  rfl

theorem MirrorLoc.runId?_of_working {run : MirrorRun} (h : at_.working = some run) :
    at_.runId? = some run.runId := by
  cases at_ <;> cases h <;> rfl

theorem MirrorLoc.runId?_of_recording {job : Finishing} (h : at_.recording = some job) :
    at_.runId? = some job.run.runId := by
  cases at_ <;> cases h <;> rfl

theorem MirrorLoc.runId?_of_recorded {job : Finishing} (h : at_.recorded = some job) :
    at_.runId? = some job.run.runId := by
  cases at_ <;> cases h <;> rfl

/-- The places of a run read only its own rows. -/
theorem MirrorLoc.Recorded.congr (h : at_.Recorded settings db log)
    (hrows : ∀ k, at_.runId? = some k →
      db'.runRows k = db.runRows k ∧ db'.reservationRows k = db.reservationRows k) :
    at_.Recorded settings db' log where
  logged := h.logged
  reserving run hrun := by
    obtain ⟨hruns, hreservations⟩ := hrows _ (runId?_of_reserving hrun)
    rw [hruns, hreservations]
    exact h.reserving run hrun
  working run hrun := by
    rw [(hrows _ (runId?_of_working hrun)).1]
    exact h.working run hrun
  recording job hjob := by
    rw [(hrows _ (runId?_of_recording hjob)).1]
    exact h.recording job hjob
  recorded job hjob := by
    obtain ⟨hruns, hreservations⟩ := hrows _ (runId?_of_recorded hjob)
    rw [hruns, hreservations]
    exact h.recorded job hjob

section Places

variable (hlogged : at_.Logged settings log)

include hlogged

theorem MirrorLoc.Recorded.of_reserving {run : MirrorRun} (hloc : at_.reserving = some run)
    (hrows : db.runRows run.runId = [] ∧ db.reservationRows run.runId = []) :
    at_.Recorded settings db log where
  logged := hlogged
  reserving other hother := by
    obtain rfl := Option.some.inj (hloc.symm.trans hother)
    exact hrows
  working other hother := by cases at_ <;> cases hloc <;> cases hother
  recording job hjob := by cases at_ <;> cases hloc <;> cases hjob
  recorded job hjob := by cases at_ <;> cases hloc <;> cases hjob

theorem MirrorLoc.Recorded.of_working {run : MirrorRun} (hloc : at_.working = some run)
    (hrows : db.runRows run.runId = []) : at_.Recorded settings db log where
  logged := hlogged
  reserving other hother := by cases at_ <;> cases hloc <;> cases hother
  working other hother := by
    obtain rfl := Option.some.inj (hloc.symm.trans hother)
    exact hrows
  recording job hjob := by cases at_ <;> cases hloc <;> cases hjob
  recorded job hjob := by cases at_ <;> cases hloc <;> cases hjob

theorem MirrorLoc.Recorded.of_recording {job : Finishing} (hloc : at_.recording = some job)
    (hrows : db.runRows job.run.runId = []) : at_.Recorded settings db log where
  logged := hlogged
  reserving other hother := by cases at_ <;> cases hloc <;> cases hother
  working other hother := by cases at_ <;> cases hloc <;> cases hother
  recording other hother := by
    obtain rfl := Option.some.inj (hloc.symm.trans hother)
    exact hrows
  recorded other hother := by cases at_ <;> cases hloc <;> cases hother

theorem MirrorLoc.Recorded.of_recorded {job : Finishing} (hloc : at_.recorded = some job)
    (hrows : (db.runRows job.run.runId).length = 1 ∧ db.reservationRows job.run.runId = []) :
    at_.Recorded settings db log where
  logged := hlogged
  reserving other hother := by cases at_ <;> cases hloc <;> cases hother
  working other hother := by cases at_ <;> cases hloc <;> cases hother
  recording other hother := by cases at_ <;> cases hloc <;> cases hother
  recorded other hother := by
    obtain rfl := Option.some.inj (hloc.symm.trans hother)
    exact hrows

end Places

/-- A place that carries no run and has written nothing. -/
theorem MirrorLoc.Recorded.of_none (hlogged : at_.Logged settings []) (hnone : at_.runId? = none) :
    at_.Recorded settings db [] where
  logged := hlogged
  reserving run hrun := by rw [runId?_of_reserving hrun] at hnone; cases hnone
  working run hrun := by rw [runId?_of_working hrun] at hnone; cases hnone
  recording job hjob := by rw [runId?_of_recording hjob] at hnone; cases hnone
  recorded job hjob := by rw [runId?_of_recorded hjob] at hnone; cases hnone

end

section Rows

variable {db : Db} {k : Uuid}

theorem reservationRows_insert_of_ne {row : MirrorQuotaReservation} (h : row.runId ≠ k) :
    (db.apply (.insertReservation row)).reservationRows k = db.reservationRows k := by
  simp only [Db.reservationRows, Db.apply, List.filter_append]
  rw [List.filter_cons_of_neg (by simpa using h), List.filter_nil, List.append_nil]

theorem runRows_insert (row : MirrorLifecycleRun) :
    (db.apply (.insertMirrorRun row)).runRows k
      = db.runRows k ++ if row.runId = k then [row] else [] := by
  simp only [Db.runRows, Db.apply, List.filter_append]
  by_cases h : row.runId = k
  · rw [List.filter_cons_of_pos (by simpa using h), List.filter_nil, if_pos h]
  · rw [List.filter_cons_of_neg (by simpa using h), List.filter_nil, if_neg h]

theorem reservationRows_release_self :
    (db.apply (.releaseReservation k)).reservationRows k = [] := by
  simp only [Db.reservationRows, Db.apply, List.filter_filter]
  exact List.filter_eq_nil_iff.mpr fun row _ => by simp

theorem reservationRows_release_of_ne {runId : Uuid} (h : runId ≠ k) :
    (db.apply (.releaseReservation runId)).reservationRows k = db.reservationRows k := by
  simp only [Db.reservationRows, Db.apply, List.filter_filter]
  refine List.filter_congr fun row _ => ?_
  by_cases hrow : row.runId = k
  · simp [hrow, h.symm]
  · simp [hrow]

end Rows

section Leaves

variable {m : Moment} {db : Db} {locks : List Lock} {writes : List Write}

theorem TransitionStmt.leavesRuns {request : TransitionRequest} {at_ next : TransitionLoc}
    (h : TransitionStmt request m db at_ locks writes next) :
    ∀ w ∈ writes, w.leavesRuns = true := by
  cases h <;> simp [Write.leavesRuns]

theorem CycleStmt.leavesRuns {at_ next : CycleLoc} (h : CycleStmt m db at_ locks writes next) :
    ∀ w ∈ writes, w.leavesRuns = true := by
  cases h with
  | transition h => exact h.leavesRuns
  | _ => simp [Write.leavesRuns]

theorem CommandStmt.leavesRuns {at_ next : CommandLoc} (h : CommandStmt m db at_ locks writes next) :
    ∀ w ∈ writes, w.leavesRuns = true := by
  cases h with
  | apply h => exact h.leavesRuns
  | _ => simp [Write.leavesRuns]

theorem StatusAuto.leavesRuns {targetId : Uuid} {status : TargetStatus}
    (h : StatusAuto m db targetId status locks writes) : ∀ w ∈ writes, w.leavesRuns = true := by
  cases h <;> simp [Write.leavesRuns]

theorem MirrorAuto.leavesRuns {settings : MirrorLifecycleSettings} {storage : MirrorStorage}
    {at_ next : MirrorLoc} (h : MirrorAuto settings m db storage at_ locks writes next) :
    ∀ w ∈ writes, w.leavesRuns = true := by
  cases h with
  | started h => exact h.leavesRuns
  | setStatus h => exact h.leavesRuns
  | setLfsDegraded h => exact h.leavesRuns
  | _ => simp [Write.leavesRuns]

theorem Retention.SessionStmt.leavesRuns {loc next : Retention.Loc}
    (h : Retention.SessionStmt m db loc locks writes next) : ∀ w ∈ writes, w.leavesRuns = true := by
  cases h with
  | worker h => cases h <;> simp [Write.leavesRuns]
  | capture h => cases h <;> simp [Write.leavesRuns]
  | transition h => exact h.leavesRuns

theorem Retention.SessionAuto.leavesRuns {loc next : Retention.Loc}
    (h : Retention.SessionAuto m db loc locks writes next) : ∀ w ∈ writes, w.leavesRuns = true := by
  cases h with
  | worker h => cases h <;> simp [Write.leavesRuns]
  | capture h => simp

end Leaves

namespace Vault

section

variable (settings : Settings)

/-- The identifier of the mirror run a session executes. -/
def Loc.runId? : Loc → Option Uuid
  | .mirror at_ => at_.runId?
  | _ => none

/-- What a session keeps of the run it executes, if any. -/
def SessionRecorded (db : Db) (σ : Session Write Loc) : Prop :=
  match σ.loc with
  | .mirror at_ => at_.Recorded settings.mirror db σ.log
  | _ => ∀ w ∈ σ.log, w.leavesRuns = true

/-- The identifiers of runs that have been drawn, one reservation for each. -/
structure RunsDrawn (e : Shared Db MirrorStorage) : Prop where
  runs : ∀ row ∈ e.db.mirrorRuns, row.runId < e.fresh
  reservations : ∀ row ∈ e.db.reservations, row.runId < e.fresh
  keyed : (e.db.reservations.map (·.runId)).Nodup

/-- The rows of the run that a session executes stay as they are. -/
def RunKept (e e' : Shared Db MirrorStorage) (_ : Lock → Prop) (σ : Session Write Loc) : Prop :=
  ∀ k, σ.loc.runId? = some k →
    e'.db.runRows k = e.db.runRows k ∧ e'.db.reservationRows k = e.db.reservationRows k

abbrev RunsRecorded : State → Prop :=
  Machine.Beside RunsDrawn fun e _ σ => SessionRecorded settings e.db σ

end

section

variable {settings : Settings} {s s' : State} {m : Moment} {db db' : Db}
  {storage storage' : MirrorStorage} {input : MirrorInput} {loc next : Loc} {locks : List Lock}
  {writes : List Write} {i : ℕ}

theorem SessionStmt.runId? (h : SessionStmt settings m db loc locks writes next) :
    next.runId? = loc.runId? := by
  cases h with
  | mirror h => cases h <;> rfl
  | _ => rfl

theorem SessionAuto.runId? (h : SessionAuto settings m db storage loc locks writes next) :
    next.runId? = none ∨ next.runId? = loc.runId? ∨ next.runId? = some m.fresh := by
  cases h with
  | mirror h =>
    cases h with
    | started => exact Or.inr (Or.inr rfl)
    | toFetch => exact Or.inl rfl
    | toClone => exact Or.inl rfl
    | persisted => exact Or.inl rfl
    | setLfsDegraded => exact Or.inl rfl
    | _ => exact Or.inr (Or.inl rfl)
  | _ => exact Or.inl rfl

theorem runId?_observe (job : Finishing) : job.observe.runId? = some job.run.runId := by
  unfold Finishing.observe
  cases job.result <;> rfl

theorem SessionCommit.runId? (h : SessionCommit loc next) : next.runId? = loc.runId? := by
  cases h with
  | mirror h =>
    cases h with
    | reserved => rfl
    | recorded => exact runId?_observe _
  | _ => rfl

theorem SessionRollback.runId? (h : SessionRollback db loc next) :
    next.runId? = none ∨ next.runId? = loc.runId? := by
  cases h with
  | mirror h =>
    cases h with
    | quotaRefused => exact Or.inr rfl
    | _ => exact Or.inl rfl
  | _ => exact Or.inl rfl

theorem SessionCall.runId? (h : SessionCall settings storage input loc storage' next) :
    next.runId? = loc.runId? := by
  cases h with
  | mirror h =>
    cases h with
    | published hnext => rcases hnext with rfl | rfl <;> rfl
    | _ => rfl
  | retention h => rfl

theorem carries_runId? : (machine settings).Carries Loc.runId? where
  start proc := by cases proc <;> rfl
  aborted := rfl
  stmt h := Or.inr (Or.inl (act_stmt h).runId?)
  auto h := (act_auto h).runId?
  commit h := Or.inr (act_commit h).runId?
  rollback h := (act_rollback h).runId?
  call h := Or.inr (Or.inl (act_call h).runId?)

theorem SessionRecorded.congr {σ : Session Write Loc} (h : SessionRecorded settings db σ)
    (hrows : ∀ k, σ.loc.runId? = some k →
      db'.runRows k = db.runRows k ∧ db'.reservationRows k = db.reservationRows k) :
    SessionRecorded settings db' σ := by
  unfold SessionRecorded at h ⊢
  cases hloc : σ.loc with
  | mirror at_ =>
    simp only [hloc] at h ⊢
    exact h.congr fun k hk => hrows k (by rw [hloc]; exact hk)
  | _ => simpa only [hloc] using h

/-- A session outside a mirror run. -/
theorem SessionRecorded.of_leaves {log : List Write} {began : Option ℕ}
    (hloc : ∀ at_, loc ≠ .mirror at_) (h : ∀ w ∈ log, w.leavesRuns = true) :
    SessionRecorded settings db ⟨loc, log, began⟩ := by
  cases loc with
  | mirror at_ => exact absurd rfl (hloc at_)
  | _ => exact h

/-- The session of a mirror run. -/
theorem RunsRecorded.recorded {at_ : MirrorLoc} (h : RunsRecorded settings s)
    (hloc : (s.session i).loc = .mirror at_) :
    at_.Recorded settings.mirror s.db (s.session i).log := by
  have hsession := h.sessions i
  unfold SessionRecorded at hsession
  rw [hloc] at hsession
  exact hsession

theorem RunsRecorded.leavesRuns (h : RunsRecorded settings s)
    (hloc : ∀ at_, (s.session i).loc ≠ .mirror at_) :
    ∀ w ∈ (s.session i).log, w.leavesRuns = true := by
  have hsession := h.sessions i
  unfold SessionRecorded at hsession
  cases hs : (s.session i).loc with
  | mirror at_ => exact absurd hs (hloc at_)
  | _ => simpa only [hs] using hsession

/-- A statement of a run moves to a place that its log has come to. -/
theorem MirrorStmt.recorded {log : List Write} {at_ n : MirrorLoc}
    (h : MirrorStmt settings.mirror db' at_ locks writes n)
    (hat : at_.Recorded settings.mirror db log) : n.Recorded settings.mirror db (log ++ writes) := by
  have hlogged := hat.logged
  cases h with
  | lockQuota =>
    obtain rfl : log = [] := hlogged
    exact .of_reserving rfl rfl (hat.reserving _ rfl)
  | targetReserved =>
    obtain rfl : log = [] := hlogged
    exact .of_reserving rfl rfl (hat.reserving _ rfl)
  | globalReserved =>
    obtain rfl : log = [] := hlogged
    exact .of_reserving rfl rfl (hat.reserving _ rfl)
  | insertReservation =>
    obtain rfl : log = [] := hlogged
    exact .of_reserving rfl rfl (hat.reserving _ rfl)
  | insertRun =>
    obtain rfl : log = [] := hlogged
    exact .of_recording ⟨_, rfl, rfl⟩ rfl (hat.recording _ rfl)
  | releaseReservation =>
    obtain ⟨row, hrow, rfl⟩ := hlogged
    exact .of_recording ⟨row, hrow, rfl⟩ rfl (hat.recording _ rfl)

theorem SessionStmt.recorded {log : List Write} {began began' : Option ℕ}
    (h : SessionStmt settings m db' loc locks writes next)
    (hσ : SessionRecorded settings db ⟨loc, log, began⟩) :
    SessionRecorded settings db ⟨next, log ++ writes, began'⟩ := by
  cases h with
  | mirror h => exact MirrorStmt.recorded h hσ
  | command h => exact List.forall_mem_append.mpr ⟨hσ, h.leavesRuns⟩
  | cycle h => exact List.forall_mem_append.mpr ⟨hσ, h.leavesRuns⟩
  | retention h => exact List.forall_mem_append.mpr ⟨hσ, h.leavesRuns⟩

theorem SessionAuto.leavesRuns (h : SessionAuto settings m db storage loc locks writes next) :
    ∀ w ∈ writes, w.leavesRuns = true := by
  cases h with
  | mirror h => exact h.leavesRuns
  | retention h => exact h.leavesRuns
  | command h => simp
  | cycle h => simp

theorem OpWrites.leavesRuns {o : Op} (h : OpWrites m db o locks writes) :
    ∀ w ∈ writes, w.leavesRuns = true := by
  cases h with
  | retention h => cases h <;> simp [Write.leavesRuns]
  | undiscovered => simp
  | wikiKnown => exact List.forall_mem_map.mpr fun _ _ => rfl
  | wikiEnrolled =>
    exact List.forall_mem_cons.mpr ⟨rfl, List.forall_mem_map.mpr fun _ _ => rfl⟩
  | evaluated => simp [Write.leavesRuns]

/-- A fresh run has no row. -/
theorem RunsDrawn.unopened {e : Shared Db MirrorStorage} (h : RunsDrawn e) :
    e.db.runRows e.fresh = [] ∧ e.db.reservationRows e.fresh = [] := by
  constructor
  · refine List.filter_eq_nil_iff.mpr fun row hrow heq => ?_
    exact (h.runs row hrow).ne (beq_iff_eq.mp heq)
  · refine List.filter_eq_nil_iff.mpr fun row hrow heq => ?_
    exact (h.reservations row hrow).ne (beq_iff_eq.mp heq)

/-- What a step that writes to no run leaves. -/
theorem RunsDrawn.of_tables {e e' : Shared Db MirrorStorage} (h : RunsDrawn e)
    (hdb : e'.db.mirrorRuns = e.db.mirrorRuns ∧ e'.db.reservations = e.db.reservations)
    (hfresh : e.fresh ≤ e'.fresh) : RunsDrawn e' := by
  refine ⟨fun row hrow => ?_, fun row hrow => ?_, ?_⟩
  · rw [hdb.1] at hrow
    exact Nat.lt_of_lt_of_le (h.runs row hrow) hfresh
  · rw [hdb.2] at hrow
    exact Nat.lt_of_lt_of_le (h.reservations row hrow) hfresh
  · rw [hdb.2]
    exact h.keyed

theorem rows_of_tables {db db' : Db}
    (hdb : db'.mirrorRuns = db.mirrorRuns ∧ db'.reservations = db.reservations) (k : Uuid) :
    db'.runRows k = db.runRows k ∧ db'.reservationRows k = db.reservationRows k := by
  unfold Db.runRows Db.reservationRows
  rw [hdb.1, hdb.2]
  exact ⟨rfl, rfl⟩

/-- The place a statement that commits by itself leads to. -/
theorem SessionAuto.recorded (h : SessionAuto settings m db storage loc locks writes next)
    {log : List Write} {began : Option ℕ} (hσ : SessionRecorded settings db' ⟨loc, log, began⟩)
    (hfresh : db'.runRows m.fresh = [] ∧ db'.reservationRows m.fresh = []) :
    SessionRecorded settings db' ⟨next, [], none⟩ := by
  cases h with
  | command h => exact fun w hw => absurd hw List.not_mem_nil
  | cycle h => exact fun w hw => absurd hw List.not_mem_nil
  | retention h => exact fun w hw => absurd hw List.not_mem_nil
  | @mirror at_ n _ _ h =>
    have hat : at_.Recorded settings.mirror db' log := hσ
    show n.Recorded settings.mirror db' []
    cases h with
    | toFetch => exact .of_none rfl rfl
    | toClone => exact .of_none rfl rfl
    | started => exact .of_reserving rfl rfl hfresh
    | mirrorKnown => exact .of_recorded rfl rfl (hat.recorded _ rfl)
    | insertMirror => exact .of_recorded rfl rfl (hat.recorded _ rfl)
    | recordVerified => exact .of_recorded rfl rfl (hat.recorded _ rfl)
    | markDegraded => exact .of_recorded rfl rfl (hat.recorded _ rfl)
    | setStatus => exact .of_recorded rfl rfl (hat.recorded _ rfl)
    | persisted => exact .of_none rfl rfl
    | lfsMissing => exact .of_recorded rfl rfl (hat.recorded _ rfl)
    | setLfsDegraded => exact .of_none rfl rfl

theorem SessionRollback.recorded (h : SessionRollback db loc next) {log : List Write}
    {began : Option ℕ} (hσ : SessionRecorded settings db' ⟨loc, log, began⟩) :
    SessionRecorded settings db' ⟨next, [], none⟩ := by
  cases h with
  | command h => exact fun w hw => absurd hw List.not_mem_nil
  | cycle h => exact fun w hw => absurd hw List.not_mem_nil
  | retention h => exact fun w hw => absurd hw List.not_mem_nil
  | @mirror at_ n h =>
    have hat : at_.Recorded settings.mirror db' log := hσ
    show n.Recorded settings.mirror db' []
    cases h with
    | quotaRefused => exact .of_recording rfl rfl (hat.reserving _ rfl).1
    | unrecorded => exact .of_none rfl rfl
    | refused => exact .of_none rfl rfl

theorem SessionCall.recorded (h : SessionCall settings storage input loc storage' next)
    {log : List Write} {began : Option ℕ} (hσ : SessionRecorded settings db' ⟨loc, log, began⟩) :
    SessionRecorded settings db' ⟨next, [], none⟩ := by
  cases h with
  | retention h => exact fun w hw => absurd hw List.not_mem_nil
  | @mirror at_ n _ h =>
    have hat : at_.Recorded settings.mirror db' log := hσ
    show n.Recorded settings.mirror db' []
    cases h with
    | interrupted => exact .of_recording rfl rfl (hat.working _ rfl)
    | collected => exact .of_recording rfl rfl (hat.working _ rfl)
    | published hnext =>
      have hrows := hat.working _ rfl
      rcases hnext with rfl | rfl
      · exact .of_working rfl rfl hrows
      · exact .of_working rfl rfl hrows
    | _ => exact .of_working rfl rfl (hat.working _ rfl)

/-- What a commit does to the rows of runs: nothing, the reservation of a run that has no row, or
the evidence of a run without its reservation. -/
theorem RunsRecorded.commit (h : RunsRecorded settings s)
    (hact : SessionCommit (s.session i).loc next) :
    (((machine settings).view s i).mirrorRuns = s.db.mirrorRuns ∧
        ((machine settings).view s i).reservations = s.db.reservations ∧
        SessionRecorded settings s.db ⟨next, [], none⟩) ∨
      (∃ run, (s.session i).loc = .mirror (.commitReservation run) ∧
        next = .mirror (.admitted run) ∧
        (machine settings).view s i
          = s.db.apply (.insertReservation (run.reservation settings.mirror)) ∧
        s.db.runRows run.runId = [] ∧ s.db.reservationRows run.runId = []) ∨
      ∃ (job : Finishing) (row : MirrorLifecycleRun),
        (s.session i).loc = .mirror (.commitRun job) ∧ next = .mirror job.observe ∧
        row.runId = job.run.runId ∧
        (machine settings).view s i
          = (s.db.apply (.insertMirrorRun row)).apply (.releaseReservation job.run.runId) ∧
        s.db.runRows job.run.runId = [] := by
  generalize hloc : (s.session i).loc = loc at hact
  have hquiet : (∀ at_, (s.session i).loc ≠ .mirror at_) →
      ((machine settings).view s i).mirrorRuns = s.db.mirrorRuns ∧
        ((machine settings).view s i).reservations = s.db.reservations := fun hother =>
    runs_of_leaves (h.leavesRuns hother)
  cases hact with
  | command hcommit =>
    obtain ⟨hruns, hreservations⟩ := hquiet fun at_ hat => by rw [hloc] at hat; cases hat
    exact Or.inl ⟨hruns, hreservations, fun w hw => absurd hw List.not_mem_nil⟩
  | cycle hcommit =>
    obtain ⟨hruns, hreservations⟩ := hquiet fun at_ hat => by rw [hloc] at hat; cases hat
    exact Or.inl ⟨hruns, hreservations, fun w hw => absurd hw List.not_mem_nil⟩
  | retention hcommit =>
    obtain ⟨hruns, hreservations⟩ := hquiet fun at_ hat => by rw [hloc] at hat; cases hat
    exact Or.inl ⟨hruns, hreservations, fun w hw => absurd hw List.not_mem_nil⟩
  | mirror hcommit =>
    have hat := h.recorded hloc
    cases hcommit with
    | @reserved run =>
      have hlog : (s.session i).log = [.insertReservation (run.reservation settings.mirror)] :=
        hat.logged
      obtain ⟨hruns, hreservations⟩ := hat.reserving run rfl
      refine Or.inr (Or.inl ⟨run, rfl, rfl, ?_, hruns, hreservations⟩)
      unfold Machine.view
      rw [hlog]
      rfl
    | @recorded job =>
      obtain ⟨row, hrow, hlog⟩ := hat.logged
      refine Or.inr (Or.inr ⟨job, row, rfl, rfl, hrow, ?_, hat.recording job rfl⟩)
      unfold Machine.view
      rw [hlog]
      rfl

/-- Another session executes another run. -/
theorem runId_ne (hcarried : Carried Loc.runId? s) {j : ℕ} {k k' : Uuid} (hji : j ≠ i)
    (hk : (s.session i).loc.runId? = some k) (hk' : (s.session j).loc.runId? = some k') :
    k ≠ k' := by
  intro hsame
  rw [← hsame] at hk'
  exact hji (hcarried.apart j i k hk' hk)

theorem RunsRecorded.committed (h : RunsRecorded settings s) (hcarried : Carried Loc.runId? s)
    (hact : SessionCommit (s.session i).loc next) :
    let e' := { s.shared with db := (machine settings).view s i }
    RunsDrawn e' ∧ (∀ j, j ≠ i → RunKept s.shared e' (s.holds j) (s.session j)) ∧
      SessionRecorded settings e'.db ⟨next, [], none⟩ := by
  rcases h.commit hact with ⟨hruns, hreservations, hnext⟩ |
    ⟨run, hloc, rfl, hview, hrows, hnone⟩ | ⟨job, row, hloc, rfl, hrow, hview, hrows⟩
  · exact ⟨h.shared.of_tables ⟨hruns, hreservations⟩ (Nat.le_refl _),
      fun j _ k _ => rows_of_tables ⟨hruns, hreservations⟩ k,
      hnext.congr fun k _ => rows_of_tables ⟨hruns, hreservations⟩ k⟩
  · have hcarries : (s.session i).loc.runId? = some run.runId := by rw [hloc]; rfl
    show RunsDrawn { s.shared with db := (machine settings).view s i } ∧ _
    rw [hview]
    refine ⟨⟨h.shared.runs, ?_, ?_⟩, fun j hji k hk => ⟨rfl, ?_⟩, ?_⟩
    · refine List.forall_mem_append.mpr ⟨h.shared.reservations, ?_⟩
      exact List.forall_mem_singleton.mpr (hcarried.below i _ hcarries)
    · show ((s.db.reservations ++ [run.reservation settings.mirror]).map (·.runId)).Nodup
      rw [List.map_append, List.map_singleton]
      refine List.nodup_append.mpr ⟨h.shared.keyed, List.nodup_singleton _, ?_⟩
      intro k hk k' hk' hsame
      obtain ⟨other, hother, rfl⟩ := List.mem_map.mp hk
      rw [List.mem_singleton.mp hk'] at hsame
      exact List.filter_eq_nil_iff.mp hnone other hother (beq_iff_eq.mpr hsame)
    · exact reservationRows_insert_of_ne (runId_ne hcarried hji hcarries hk)
    · exact .of_working rfl rfl hrows
  · have hcarries : (s.session i).loc.runId? = some job.run.runId := by rw [hloc]; rfl
    show RunsDrawn { s.shared with db := (machine settings).view s i } ∧ _
    rw [hview]
    refine ⟨⟨?_, ?_, ?_⟩, fun j hji k hk => ⟨?_, ?_⟩, ?_⟩
    · refine List.forall_mem_append.mpr ⟨h.shared.runs, List.forall_mem_singleton.mpr ?_⟩
      rw [hrow]
      exact hcarried.below i _ hcarries
    · exact fun r hr => h.shared.reservations r (List.mem_filter.mp hr).1
    · exact h.shared.keyed.sublist (List.filter_sublist.map _)
    · have hother := runId_ne hcarried hji hcarries hk
      show (s.db.apply (.insertMirrorRun row)).runRows k = s.db.runRows k
      rw [runRows_insert, if_neg (hrow ▸ hother), List.append_nil]
    · exact reservationRows_release_of_ne (runId_ne hcarried hji hcarries hk)
    · have hone : ((s.db.apply (.insertMirrorRun row)).runRows job.run.runId).length = 1 := by
        rw [runRows_insert, hrows, if_pos hrow]
        rfl
      have hclosed : ((s.db.apply (.insertMirrorRun row)).apply
          (.releaseReservation job.run.runId)).reservationRows job.run.runId = [] :=
        reservationRows_release_self
      have hrecorded : job.observe.recorded = some job := by
        unfold Finishing.observe
        cases job.result <;> rfl
      have hlogged : job.observe.Logged settings.mirror [] := by
        unfold Finishing.observe
        cases job.result <;> exact rfl
      exact MirrorLoc.Recorded.of_recorded hlogged hrecorded ⟨hone, hclosed⟩

theorem runsRecorded_step : ∀ (s : State) (l : Label) s', RunsRecorded settings s →
    Carried Loc.runId? s → (machine settings).step s l = some s' → RunsRecorded settings s' := by
  have hsame : ∀ {e e' : Shared Db MirrorStorage}, e'.db = e.db → ∀ H (σ : Session Write Loc),
      RunKept e e' H σ := fun heq _ _ k _ => by rw [heq]; exact ⟨rfl, rfl⟩
  have hself : ∀ (s : State) i, RunsRecorded settings s → SessionRecorded settings s.db
      ⟨(s.session i).loc, (s.session i).log, (s.session i).began⟩ := fun s i h => h.sessions i
  refine Machine.Beside.step (R := RunKept) ?_ ?_ ?_ ?_ ?_ ?_ ?_ ?_ ?_ ?_ ?_ ?_ ?_ ?_
  · exact fun e H H' σ _ h => h
  · exact fun e e' H σ hR h => h.congr hR
  · exact fun e H σ => hsame rfl H σ
  · exact fun e n H σ => hsame rfl H σ
  · exact fun e h => h.of_tables ⟨rfl, rfl⟩ (Nat.le_succ _)
  · exact fun e n h => h.of_tables ⟨rfl, rfl⟩ (Nat.le_refl _)
  · exact fun e w hw => absurd hw List.not_mem_nil
  · intro s i proc _ _
    cases proc with
    | mirror request => exact MirrorLoc.Recorded.of_none rfl rfl
    | policy proc => exact fun w hw => absurd hw List.not_mem_nil
    | retention proc => exact fun w hw => absurd hw List.not_mem_nil
  · intro s i input locks writes next h _ hact _
    exact (act_stmt hact).recorded (hself s i h)
  · intro s i input locks writes next h _ hact _
    have hauto := act_auto hact
    have htables : (writes.foldl Db.apply s.db).mirrorRuns = s.db.mirrorRuns ∧ _ :=
      runs_of_leaves hauto.leavesRuns
    refine ⟨h.shared.of_tables htables (Nat.le_succ _),
      fun j _ k _ => rows_of_tables htables k, ?_⟩
    exact (hauto.recorded (hself s i h) h.shared.unopened).congr fun k _ =>
      rows_of_tables htables k
  · intro s i input next h hcarried hact
    exact RunsRecorded.committed h hcarried (act_commit hact)
  · intro s i input next h _ hact
    exact (act_rollback hact).recorded (hself s i h)
  · intro s i input world next h _ hact
    exact ⟨h.shared.of_tables ⟨rfl, rfl⟩ (Nat.le_succ _), fun j _ => hsame rfl (s.holds j) _,
      (act_call hact).recorded (hself s i h)⟩
  · intro s o locks writes h _ hop _
    have htables : (writes.foldl Db.apply s.db).mirrorRuns = s.db.mirrorRuns ∧ _ :=
      runs_of_leaves (operate_writes hop).leavesRuns
    exact ⟨h.shared.of_tables htables (Nat.le_succ _), fun j k _ => rows_of_tables htables k⟩

/-- Every run is of one session, and its rows are as its session says. -/
structure RunsApart (settings : Settings) (s : State) : Prop where
  carried : Carried Loc.runId? s
  recorded : RunsRecorded settings s

theorem runsApart_step (s : State) (l : Label) (s' : State) (h : RunsApart settings s)
    (hstep : (machine settings).step s l = some s') : RunsApart settings s' :=
  ⟨Carried.step carries_runId? s l s' h.carried hstep,
    runsRecorded_step s l s' h.recorded h.carried hstep⟩

theorem runsApart_initial {clock fresh : ℕ} (hruns : ∀ row ∈ db.mirrorRuns, row.runId < fresh)
    (hreservations : ∀ row ∈ db.reservations, row.runId < fresh)
    (hkeyed : (db.reservations.map (·.runId)).Nodup) :
    RunsApart settings (initial db storage clock fresh) where
  carried := ⟨fun i k hk => (by cases hk), fun i j k hk => (by cases hk)⟩
  recorded := ⟨⟨hruns, hreservations, hkeyed⟩, fun i w hw => absurd hw List.not_mem_nil,
    fun l i j h => absurd h List.not_mem_nil⟩

end

end Vault

end RatatoskrVault
