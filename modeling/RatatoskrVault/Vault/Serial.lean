import RatatoskrVault.Lib.Sequential
import RatatoskrVault.Vault.Steps

/-! How many mirror operations of one target are under way at a time. -/
namespace RatatoskrVault

open Lib

namespace MirrorLoc

/-- A run inside `reserve_mirror_quota`. -/
def reserving : MirrorLoc → Option MirrorRun
  | lockQuota run => some run
  | targetReserved run => some run
  | globalReserved run _ => some run
  | insertReservation run => some run
  | commitReservation run => some run
  | _ => none

/-- A result inside `finish`. -/
def finishing : MirrorLoc → Option Finishing
  | insertRun job => some job
  | releaseReservation job => some job
  | commitRun job => some job
  | ensureMirror job => some job
  | recordVerified job => some job
  | markDegraded job => some job
  | setStatus job _ => some job
  | _ => none

/-- A run between its admission and `finish`. -/
def working : MirrorLoc → Option MirrorRun
  | admitted run => some run
  | clone run => some run
  | fetch run => some run
  | evidence run _ => some run
  | publishStaging run _ => some run
  | directorySize run _ => some run
  | collectLfs run _ => some run
  | _ => none

variable (at_ : MirrorLoc)

/-- An operation between `transition_started` and the end of `finish`. -/
def underway : Option MirrorRun :=
  at_.reserving.or (at_.working.or (at_.finishing.map (·.run)))

/-- An operation under way that was admitted. -/
def operates : Option MirrorRun :=
  at_.working.or ((at_.finishing.filter (·.result != .quotaRefused)).map (·.run))

/-- The published directory in which Git works, or which a staged mirror is about to become. -/
def worksIn (settings : MirrorLifecycleSettings) : Option String :=
  match at_ with
  | fetch run => some (mirrorRelativePath settings run.request.targetId)
  | publishStaging run _ => some (mirrorRelativePath settings run.request.targetId)
  | _ => none

variable {at_} {run : MirrorRun}

theorem underway_of_operates (h : at_.operates = some run) : at_.underway = some run := by
  have hfinishing : ∀ job : Finishing,
      ((some job).filter (·.result != .quotaRefused)).map (·.run) = some run → job.run = run := by
    intro job hjob
    obtain ⟨kept, hkept, rfl⟩ := Option.map_eq_some_iff.mp hjob
    rw [Option.some.inj (Option.filter_eq_some_iff.mp hkept).1]
  cases at_ with
  | insertRun job => exact congrArg some (hfinishing job h)
  | releaseReservation job => exact congrArg some (hfinishing job h)
  | commitRun job => exact congrArg some (hfinishing job h)
  | ensureMirror job => exact congrArg some (hfinishing job h)
  | recordVerified job => exact congrArg some (hfinishing job h)
  | markDegraded job => exact congrArg some (hfinishing job h)
  | setStatus job status => exact congrArg some (hfinishing job h)
  | _ => first | exact h | cases h

theorem underway_of_worksIn {settings : MirrorLifecycleSettings} {path : String}
    (h : at_.worksIn settings = some path) :
    ∃ run, at_.underway = some run ∧ path = mirrorRelativePath settings run.request.targetId := by
  cases at_ with
  | fetch run => exact ⟨run, rfl, (Option.some.inj h).symm⟩
  | publishStaging run objectCount => exact ⟨run, rfl, (Option.some.inj h).symm⟩
  | _ => cases h

end MirrorLoc

theorem Finishing.underway_observe (job : Finishing) : job.observe.underway = some job.run := by
  unfold Finishing.observe
  cases job.result <;> rfl

/-- A status that shows an operation under way admits no other operation. -/
theorem not_isLegal_startStatus {status : TargetStatus} {operation : MirrorOperation}
    (h : status = .cloning ∨ status = .fetching) :
    Transition.isLegal status operation.startStatus = false := by
  rcases h with rfl | rfl <;> cases operation <;> decide

namespace Vault

section

variable {settings : Settings} {s : State} {m : Moment} {db : Db} {storage storage' : MirrorStorage}
  {input : MirrorInput} {loc next : Loc} {locks : List Lock} {writes : List Write}

/-- The mirror operation a session is in, between its `transition_started` and its `finish`. -/
def Loc.underway : Loc → Option MirrorRun
  | .mirror at_ => at_.underway
  | _ => none

def Loc.operates : Loc → Option MirrorRun
  | .mirror at_ => at_.operates
  | _ => none

def Loc.worksIn (settings : MirrorLifecycleSettings) : Loc → Option String
  | .mirror at_ => at_.worksIn settings
  | _ => none

theorem SessionStmt.underway (h : SessionStmt settings m db loc locks writes next) :
    next.underway = loc.underway := by
  cases h with
  | mirror h => cases h <;> rfl
  | _ => rfl

/-- Only `transition_started` brings an operation under way. -/
theorem SessionAuto.underway (h : SessionAuto settings m db storage loc locks writes next) :
    (∃ request operation, loc = .mirror (.transitionStarted request operation) ∧
        StatusAuto m db request.targetId operation.startStatus locks writes ∧
        next.underway = some { request, operation, runId := m.fresh }) ∨
      next.underway = none ∨ next.underway = loc.underway := by
  cases h with
  | mirror h =>
    cases h with
    | started hstatus => exact Or.inl ⟨_, _, rfl, hstatus, rfl⟩
    | toFetch => exact Or.inr (Or.inl rfl)
    | toClone => exact Or.inr (Or.inl rfl)
    | mirrorKnown => exact Or.inr (Or.inr rfl)
    | insertMirror => exact Or.inr (Or.inr rfl)
    | recordVerified => exact Or.inr (Or.inr rfl)
    | markDegraded => exact Or.inr (Or.inr rfl)
    | setStatus => exact Or.inr (Or.inl rfl)
    | persisted => exact Or.inr (Or.inl rfl)
    | lfsMissing => exact Or.inr (Or.inl rfl)
    | setLfsDegraded => exact Or.inr (Or.inl rfl)
  | _ => exact Or.inr (Or.inl rfl)

theorem SessionCommit.underway (h : SessionCommit loc next) : next.underway = loc.underway := by
  cases h with
  | mirror h =>
    cases h with
    | reserved => rfl
    | recorded => exact Finishing.underway_observe _
  | _ => rfl

theorem SessionRollback.underway (h : SessionRollback db loc next) :
    next.underway = none ∨ next.underway = loc.underway := by
  cases h with
  | mirror h =>
    cases h with
    | quotaRefused => exact Or.inr rfl
    | _ => exact Or.inl rfl
  | _ => exact Or.inl rfl

theorem SessionCall.underway (h : SessionCall settings storage input loc storage' next) :
    next.underway = loc.underway := by
  cases h with
  | mirror h =>
    cases h with
    | published hnext => rcases hnext with rfl | rfl <;> rfl
    | _ => rfl
  | retention h => rfl

/-- At most one operation of a target is under way. -/
def OneUnderway (s : State) : Prop :=
  ∀ i j a b, (s.session i).loc.underway = some a → (s.session j).loc.underway = some b →
    a.request.targetId = b.request.targetId → i = j

/-- At most one admitted operation of a target is under way, and at most one Git process or
publication works in a published directory. -/
structure Serialized (settings : Settings) (s : State) : Prop where
  operations : ∀ i j a b, (s.session i).loc.operates = some a → (s.session j).loc.operates = some b →
    a.request.targetId = b.request.targetId → i = j
  directories : ∀ i j path, (s.session i).loc.worksIn settings.mirror = some path →
    (s.session j).loc.worksIn settings.mirror = some path → i = j

theorem Loc.underway_of_operates {run : MirrorRun} (h : loc.operates = some run) :
    loc.underway = some run := by
  cases loc with
  | mirror at_ => exact MirrorLoc.underway_of_operates h
  | _ => cases h

theorem Loc.underway_of_worksIn {path : String} (h : loc.worksIn settings.mirror = some path) :
    ∃ run, loc.underway = some run ∧
      path = mirrorRelativePath settings.mirror run.request.targetId := by
  cases loc with
  | mirror at_ => exact MirrorLoc.underway_of_worksIn h
  | _ => cases h

theorem OneUnderway.serialized (h : OneUnderway s) : Serialized settings s := by
  refine ⟨fun i j a b hi hj => h i j a b (Loc.underway_of_operates hi) (Loc.underway_of_operates hj),
    fun i j path hi hj => ?_⟩
  obtain ⟨a, ha, hpath⟩ := Loc.underway_of_worksIn hi
  obtain ⟨b, hb, hsame⟩ := Loc.underway_of_worksIn hj
  exact h i j a b ha hb (mirrorRelativePath_injective settings.mirror (hpath.symm.trans hsame))

/-- An operation starts beside another of its target only where the row still shows that one, in a
status the start does not set itself. -/
def StartsShown (settings : Settings) (s : State) : Label → Prop
  | .exec i _ => ∀ request operation,
      (s.session i).loc = .mirror (.transitionStarted request operation) →
      ∀ j run, (s.session j).loc.underway = some run → run.request.targetId = request.targetId →
        ∃ target, ((machine settings).view s i).target? request.targetId = some target ∧
          (target.status = .cloning ∨ target.status = .fetching) ∧
          target.status ≠ operation.startStatus
  | _ => True

/-- The guard refuses a start that the row shows to be the second. -/
theorem not_statusAuto_of_shown {targetId : Uuid} {operation : MirrorOperation} {target : Target}
    (htarget : db.target? targetId = some target)
    (hshown : target.status = .cloning ∨ target.status = .fetching)
    (hother : target.status ≠ operation.startStatus)
    (h : StatusAuto m db targetId operation.startStatus locks writes) : False := by
  cases h with
  | missing hnone =>
    rw [hnone] at htarget
    cases htarget
  | @written row hrow hguard =>
    obtain rfl : row = target := Option.some.inj (hrow.symm.trans htarget)
    unfold Db.targetGuardStatusTransition at hguard
    rw [if_neg hother.symm, not_isLegal_startStatus hshown, if_neg Bool.false_ne_true] at hguard
    split_ifs at hguard

theorem OneUnderway.moved {s' : State} {i : ℕ} {σ : Session Write Loc} (h : OneUnderway s)
    (hsession : s'.session = (s.setSession i σ).session)
    (hσ : ∀ run, σ.loc.underway = some run → ∀ j other, j ≠ i →
      (s.session j).loc.underway = some other → other.request.targetId ≠ run.request.targetId) :
    OneUnderway s' := by
  intro j k a b ha hb hsame
  rw [hsession] at ha hb
  by_cases hji : j = i
  · by_cases hki : k = i
    · rw [hji, hki]
    · rw [hji, State.setSession_session_self] at ha
      rw [State.setSession_session_of_ne hki] at hb
      exact absurd hsame.symm (hσ a ha k b hki hb)
  · rw [State.setSession_session_of_ne hji] at ha
    by_cases hki : k = i
    · rw [hki, State.setSession_session_self] at hb
      exact absurd hsame (hσ b hb j a hji ha)
    · rw [State.setSession_session_of_ne hki] at hb
      exact h j k a b ha hb hsame

/-- A session that keeps its operation, or has none any more. -/
theorem OneUnderway.kept {s' : State} {i : ℕ} {σ : Session Write Loc} (h : OneUnderway s)
    (hsession : s'.session = (s.setSession i σ).session)
    (hσ : σ.loc.underway = none ∨ σ.loc.underway = (s.session i).loc.underway) :
    OneUnderway s' := by
  refine h.moved hsession fun run hrun j other hji hother hsame => ?_
  rcases hσ with hnone | hkept
  · rw [hnone] at hrun
    cases hrun
  · exact hji (h j i other run hother (hkept ▸ hrun) hsame)

theorem oneUnderway_step : ∀ (s : State) (l : Label) s', OneUnderway s → StartsShown settings s l →
    (machine settings).step s l = some s' → OneUnderway s' := by
  refine Machine.step_induction ?_ ?_ ?_ ?_ ?_ ?_ ?_ ?_ ?_
  · intro s i proc h _ _
    refine h.kept (i := i) rfl (Or.inl ?_)
    cases proc <;> rfl
  · intro s i input locks writes next h _ hact _
    exact h.kept (i := i) rfl (Or.inr (act_stmt hact).underway)
  · intro s i input locks writes next h hshown hact _
    rcases (act_auto hact).underway with ⟨request, operation, hloc, hstatus, hnext⟩ | hkept
    · refine h.moved (i := i) rfl fun run hrun j other _ hother hsame => ?_
      obtain rfl := Option.some.inj (hnext.symm.trans hrun)
      obtain ⟨target, htarget, hstarted, hdiffers⟩ :=
        hshown request operation hloc j other hother hsame
      exact not_statusAuto_of_shown htarget hstarted hdiffers hstatus
    · exact h.kept (i := i) rfl hkept
  · intro s i input next h _ hact
    exact h.kept (i := i) rfl (Or.inr (act_commit hact).underway)
  · intro s i input next h _ hact
    exact h.kept (i := i) rfl (act_rollback hact).underway
  · intro s i input world next h _ hact
    exact h.kept (i := i) rfl (Or.inr (act_call hact).underway)
  · intro s i h _
    exact h.kept (i := i) rfl (Or.inl rfl)
  · intro s o locks writes h _ _ _
    exact h
  · intro s n h _
    exact h

/-- In every run whose operations start as shown, the operations of a target are serialized. -/
theorem operations_serialized {storage : MirrorStorage} {clock fresh : ℕ}
    (h : Reach (machine settings).step (StartsShown settings) (initial db storage clock fresh) s) :
    Serialized settings s := by
  have hone : OneUnderway s :=
    h.invariant (fun i j a b ha => by cases ha) oneUnderway_step
  exact hone.serialized

end

namespace Sample

/-- Two mirrored targets. -/
def twoMirrors : Db :=
  { targets := [1, 2].map fun targetId =>
      { targetId, provider := "github", externalRepositoryId := "r", status := .ready } }

def mirrored : MirrorStorage := { storage with mirrors := fun _ => true }

/-- Session `i` fetches a target, up to the call of Git. -/
def fetching (i : ℕ) (targetId : Uuid) : List Label :=
  .start i (.mirror { request with targetId }) :: List.replicate 8 (.exec i answered)

/-- Two targets at a time, and one of them again once its operation has ended. -/
def serialRuns : List Label :=
  fetching 0 1 ++ fetching 1 2 ++ List.replicate 13 (.exec 0 answered) ++ fetching 0 1

/-- No other of two sessions has an operation of the target under way. -/
def isStartApart (s : State) : Label → Bool
  | .exec i _ =>
    match (s.session i).loc with
    | .mirror (.transitionStarted request _) =>
      (List.range 2).all fun j =>
        (s.session j).loc.underway.all fun run => run.request.targetId != request.targetId
    | _ => true
  | _ => true

theorem startsShown_of_isStartApart {s : State} {l : Label}
    (hrest : ∀ j, 2 ≤ j → (s.session j).loc.underway = none) (h : isStartApart s l = true) :
    StartsShown settings s l := by
  cases l with
  | exec i input =>
    intro request operation hloc j run hrun hsame
    simp only [isStartApart, hloc, List.all_eq_true, List.mem_range] at h
    by_cases hj : j < 2
    · have hapart := h j hj
      rw [hrun] at hapart
      exact absurd hsame (by simpa using hapart)
    · rw [hrest j (Nat.le_of_not_lt hj)] at hrun
      cases hrun
  | _ => trivial

end Sample

theorem operations_serialized_serialRuns : ∃ s,
    run (machine Sample.settings).step (initial Sample.twoMirrors Sample.mirrored 0 10)
        Sample.serialRuns = some s ∧
      ((s.session 0).loc.operates.isSome && (s.session 1).loc.operates.isSome) = true ∧
      Serialized Sample.settings s := by
  obtain ⟨s, hrun, hbusy⟩ : ∃ s, run (machine Sample.settings).step
      (initial Sample.twoMirrors Sample.mirrored 0 10) Sample.serialRuns = some s ∧
      ((s.session 0).loc.operates.isSome && (s.session 1).loc.operates.isSome) = true :=
    exists_of_run_any (by decide +kernel)
  have hmeets : meets (machine Sample.settings).step Sample.isStartApart
      (initial Sample.twoMirrors Sample.mirrored 0 10) Sample.serialRuns = true := by decide +kernel
  have halong : Along (machine Sample.settings).step (StartsShown Sample.settings)
      (initial Sample.twoMirrors Sample.mirrored 0 10) Sample.serialRuns := by
    refine Machine.along_of_check (n := 2) (fun s l hrest hcheck => ?_) (by decide +kernel) hmeets
    refine Sample.startsShown_of_isStartApart (fun j hj => ?_) hcheck
    rw [hrest j hj]
    rfl
  exact ⟨s, hrun, hbusy, operations_serialized (Reach.of_run hrun halong)⟩

/-- The guard lets the second `transition_started` write the status that is there, and both runs
fetch into one directory. -/
theorem two_fetches_of_one_target : ∃ s,
    run (machine Sample.settings).step (initial Sample.twoMirrors Sample.mirrored 0 10)
        (Sample.fetching 0 1 ++ Sample.fetching 1 1) = some s ∧
      ¬ Serialized Sample.settings s := by
  obtain ⟨s, hrun, hboth⟩ : ∃ s, run (machine Sample.settings).step
      (initial Sample.twoMirrors Sample.mirrored 0 10)
      (Sample.fetching 0 1 ++ Sample.fetching 1 1) = some s ∧
      decide ((s.session 0).loc.worksIn Sample.settings.mirror
          = some (mirrorRelativePath Sample.settings.mirror 1) ∧
        (s.session 1).loc.worksIn Sample.settings.mirror
          = some (mirrorRelativePath Sample.settings.mirror 1)) = true :=
    exists_of_run_any (by decide +kernel)
  have hpaths := of_decide_eq_true hboth
  exact ⟨s, hrun, fun h => absurd (h.directories 0 1 _ hpaths.1 hpaths.2) (by decide)⟩

end Vault

end RatatoskrVault
