import RatatoskrVault.Lib.Rely
import RatatoskrVault.Lib.Sequential
import RatatoskrVault.Retention.Rows

/-! Repeated passes over a plan: `run_plan` walks the stages from the status of the plan, so a
stage is executed again by a later pass exactly when that status does not show its success. -/
namespace RatatoskrVault

open Lib

def Succeeded (db : Db) (planId : Uuid) (stage : Stage) : Prop :=
  ∃ a ∈ db.attempts, a.planId = planId ∧ a.stage = stage ∧ a.outcome = .succeeded

/-- The stages a pass walks when it finds the plan in this status. -/
def PlanStatus.walks : PlanStatus → Stage → Bool
  | .completed, _ => false
  | .replicaDeleting, .replica _ _ _ => true
  | .replicaDeleting, _ => false
  | _, _ => true

theorem PlanStatus.walks_of_isLegal {old new : PlanStatus} {stage : Stage}
    (h : PlanStatus.isLegal old new = true) (hwalks : new.walks stage = true) :
    old.walks stage = true := by
  cases old <;> cases new <;> simp only [isLegal, Bool.false_eq_true] at h <;>
    cases stage <;> first | rfl | exact hwalks

def Task.stage? : Task → Option Stage
  | .stage unit => some unit.stage
  | _ => none

def Job.stages (job : Job) : List Stage := job.unit.stage :: job.rest.filterMap Task.stage?

/-- The plan a pass is executing. -/
def WorkerLoc.pass? : WorkerLoc → Option Uuid
  | .load planId => some planId
  | .loadArtifacts plan => some plan.planId
  | .loadReplicas plan _ => some plan.planId
  | .gate plan => some plan.planId
  | .claim job _ => some job.plan.planId
  | .effect job _ _ _ => some job.plan.planId
  | .record job _ _ _ _ _ => some job.plan.planId
  | .advanceRead plan _ => some plan.planId
  | .advanceWrite plan _ _ => some plan.planId
  | .complete _ => none
  | .finished _ => none

/-- The entries of a plan projection name every object once. -/
structure Distinct (entries : List DeletionExecutionArtifact) : Prop where
  artifacts : (entries.map (·.artifactId)).Nodup
  placements : ∀ a ∈ entries, (a.replicas.map (·.placementId)).Nodup

/-- A pass walks every stage at most once. -/
theorem DeletionExecutionPlan.nodup_stages {plan : DeletionExecutionPlan}
    (h : Distinct plan.artifacts) : (plan.tasks.filterMap Task.stage?).Nodup := by
  have hlocal : (plan.artifacts.map fun a => Stage.artifact a.artifactId).Nodup := by
    have hmap := h.artifacts.map (f := Stage.artifact) fun _ _ heq => Stage.artifact.inj heq
    rwa [List.map_map] at hmap
  have hremote : (plan.artifacts.flatMap fun a => a.replicas.map fun stored =>
      Stage.replica a.artifactId stored.replicaTargetId stored.placementId).Nodup := by
    refine List.nodup_flatMap.mpr ⟨fun a ha => ?_, ?_⟩
    · refine List.pairwise_map.mpr ((List.pairwise_map.mp (h.placements a ha)).imp ?_)
      intro x y hne heq
      exact hne (Stage.replica.inj heq).2.2
    · refine (List.pairwise_map.mp h.artifacts).imp fun {a b} hne => ?_
      intro stage ha hb
      obtain ⟨x, -, rfl⟩ := List.mem_map.mp ha
      obtain ⟨y, -, heq⟩ := List.mem_map.mp hb
      exact hne (Stage.replica.inj heq).1.symm
  have hstages : plan.tasks.filterMap Task.stage? =
      (if plan.status = .replicaDeleting then []
        else plan.artifacts.map (fun a => Stage.artifact a.artifactId) ++
          (if plan.tombstoneId.isSome then [.mirror] else [])) ++
      plan.artifacts.flatMap fun a => a.replicas.map fun stored =>
        Stage.replica a.artifactId stored.replicaTargetId stored.placementId := by
    have hstage : ∀ unit, Task.stage? (.stage unit) = some unit.stage := fun _ => rfl
    have hadvance : Task.stage? .advance = none := rfl
    have hcomplete : Task.stage? .complete = none := rfl
    unfold DeletionExecutionPlan.tasks
    split_ifs <;>
      simp [List.filterMap_append, List.filterMap_flatMap, List.filterMap_map, hstage, hadvance,
        hcomplete, StageUnit.stage, Function.comp_def]
  rw [hstages]
  refine List.Nodup.append ?_ hremote fun stage hleft hright => ?_
  · split_ifs
    · exact List.nodup_nil
    · refine List.Nodup.append hlocal (List.nodup_singleton _) fun stage hleft hright => ?_
      obtain ⟨a, -, rfl⟩ := List.mem_map.mp hleft
      cases List.mem_singleton.mp hright
    · simpa using hlocal
  · obtain ⟨a, -, hstored⟩ := List.mem_flatMap.mp hright
    obtain ⟨stored, -, rfl⟩ := List.mem_map.mp hstored
    split_ifs at hleft <;> simp at hleft

/-- What a pass walks is what the status of its plan stands for. -/
theorem DeletionExecutionPlan.walks_of_mem {plan : DeletionExecutionPlan} {stage : Stage}
    (hopen : plan.status ≠ .completed) (h : stage ∈ plan.tasks.filterMap Task.stage?) :
    plan.status.walks stage = true := by
  obtain ⟨task, htask, hstage⟩ := List.mem_filterMap.mp h
  unfold DeletionExecutionPlan.tasks at htask
  simp only [List.mem_append, List.mem_flatMap, List.mem_map, List.mem_singleton] at htask
  obtain (hlocal | ⟨a, ha, stored, hstored, rfl⟩) | rfl := htask
  · split_ifs at hlocal with hstatus
    · exact absurd hlocal List.not_mem_nil
    all_goals
      cases hplan : plan.status <;> first | rfl | exact absurd hplan hstatus | exact absurd hplan hopen
  · cases hstage
    cases hplan : plan.status <;> first | rfl | exact absurd hplan hopen
  · cases hstage

namespace Retention

def Loc.pass? : Loc → Option Uuid
  | .worker at_ => at_.pass?
  | _ => none

/-- The attempts of the stage that succeeded. -/
def successes (db : Db) (planId : Uuid) (stage : Stage) : List StageAttempt :=
  db.attempts.filter fun a => a.planId == planId && a.stage == stage && a.outcome == .succeeded

/-- No stage has succeeded twice, and no storage call is next for a stage that has succeeded. -/
structure NotRepeated (s : State) : Prop where
  once : ∀ planId stage, (successes s.db planId stage).length ≤ 1
  effect : ∀ i job identity claimId attemptId,
    (s.session i).loc = .worker (.effect job identity claimId attemptId) →
    ¬ Succeeded s.db job.plan.planId job.unit.stage

/-- A pass over a plan begins when no other pass over it is under way. -/
def PassesInSequence (s : State) : Label → Prop
  | .start _ (.runPlan planId) => ∀ j, (s.session j).loc.pass? ≠ some planId
  | _ => True

/-- A pass begins only while no stage that it walks has succeeded. -/
def NothingToRepeat (s : State) : Label → Prop
  | .start _ (.runPlan planId) => ∀ plan ∈ s.db.plans, plan.planId = planId →
      ∀ stage, Succeeded s.db planId stage → plan.status.walks stage = false
  | _ => True

/-- A catalogue with primary and foreign keys in which no stage has succeeded twice. -/
structure BeforePasses (db : Db) (fresh : ℕ) : Prop where
  keys : FreshKeys db fresh
  placements : (db.placements.map (·.placementId)).Nodup
  attempts : ∀ a ∈ db.attempts, a.planId < fresh
  once : ∀ planId stage, (successes db planId stage).length ≤ 1

namespace Retries

/-- At most one session executes a pass over a plan. -/
def OnePass (s : State) : Prop :=
  ∀ i j planId, (s.session i).loc.pass? = some planId → (s.session j).loc.pass? = some planId → i = j

section

variable {m : Moment} {db : Db} {locks : List Lock} {writes : List Write} {loc next : Loc}
  {plan : DeletionExecutionPlan}

theorem pass?_next {tasks : List Task} :
    (WorkerLoc.next plan tasks).pass? = some plan.planId ∨
      (WorkerLoc.next plan tasks).pass? = none := by
  match tasks with
  | [] => exact Or.inr rfl
  | .stage unit :: rest => exact Or.inl rfl
  | .advance :: rest => exact Or.inl rfl
  | .complete :: rest => exact Or.inr rfl

theorem pass?_stmt (h : SessionStmt m db loc locks writes next) : next.pass? = loc.pass? := by
  cases h with
  | worker h => cases h <;> rfl
  | capture h => rfl
  | transition h => rfl

theorem planId_of_executionPlan? {planId : Uuid} (h : db.executionPlan? planId = some plan) :
    plan.planId = planId ∧ plan.artifacts = [] ∧
      ∃ row ∈ db.plans, row.planId = planId ∧ row.status = plan.status := by
  unfold Db.executionPlan? at h
  simp only [Option.bind_eq_some_iff, Option.map_eq_some_iff] at h
  obtain ⟨row, hrow, _, _, _, _, rfl⟩ := h
  have hid : row.planId = planId := by simpa using List.find?_some hrow
  exact ⟨rfl, rfl, row, List.mem_of_find?_eq_some hrow, hid, rfl⟩

theorem pass?_auto (h : SessionAuto m db loc locks writes next) :
    next.pass? = loc.pass? ∨ next.pass? = none := by
  cases h with
  | worker h =>
    cases h with
    | load hplan =>
      refine Or.inl ?_
      show some _ = some _
      rw [(planId_of_executionPlan? hplan).1]
    | completed => exact Or.inr rfl
    | gateRefused => exact Or.inr rfl
    | ungated => exact pass?_next
    | gateMissing => exact pass?_next
    | gate => exact pass?_next
    | advanceWrite => exact pass?_next
    | _ => exact Or.inl rfl
  | capture h => exact Or.inl rfl

theorem pass?_commit (h : SessionCommit loc next) :
    next.pass? = loc.pass? ∨ next.pass? = none := by
  cases h with
  | worker h =>
    cases h with
    | shared => exact pass?_next
    | recorded => exact pass?_next
    | claimed => exact Or.inl rfl
    | _ => exact Or.inr rfl
  | capture => exact Or.inl rfl
  | transition => exact Or.inl rfl

theorem pass?_idle (h : loc.isIdle = true) : loc.pass? = none := by
  cases loc with
  | worker at_ =>
    cases at_ with
    | finished outcome => rfl
    | _ => cases h
  | _ => rfl

end

theorem OnePass.moved {s s' : State} {i : ℕ} {σ : Session Write Loc} (h : OnePass s)
    (hsession : s'.session = (s.setSession i σ).session)
    (hpass : ∀ planId, σ.loc.pass? = some planId → ∀ j, j ≠ i →
      (s.session j).loc.pass? ≠ some planId) : OnePass s' := by
  intro j k planId hj hk
  rw [hsession] at hj hk
  by_cases hji : j = i
  · by_cases hki : k = i
    · rw [hji, hki]
    · rw [hji, State.setSession_session_self] at hj
      rw [State.setSession_session_of_ne hki] at hk
      exact absurd hk (hpass planId hj k hki)
  · rw [State.setSession_session_of_ne hji] at hj
    by_cases hki : k = i
    · rw [hki, State.setSession_session_self] at hk
      exact absurd hj (hpass planId hk j hji)
    · rw [State.setSession_session_of_ne hki] at hk
      exact h j k planId hj hk

theorem onePass_step {settings : Settings} : ∀ s l s', OnePass s → PassesInSequence s l →
    (machine settings).step s l = some s' → OnePass s' := by
  have hsame : ∀ (s : State) i (next : Loc), OnePass s →
      (next.pass? = (s.session i).loc.pass? ∨ next.pass? = none) →
      ∀ planId, next.pass? = some planId → ∀ j, j ≠ i → (s.session j).loc.pass? ≠ some planId := by
    intro s i next h hnext planId hplan j hji hj
    rcases hnext with heq | hnone
    · exact hji (h j i planId hj (heq ▸ hplan))
    · rw [hnone] at hplan
      cases hplan
  refine Machine.step_induction ?_ ?_ ?_ ?_ ?_ ?_ ?_ ?_ ?_
  · intro s i proc h hok _
    refine h.moved (i := i) rfl fun planId hplan j _ => ?_
    cases proc with
    | runPlan id =>
      obtain rfl : id = planId := Option.some.inj hplan
      exact hok j
    | completePlan id => cases hplan
    | capture request => cases hplan
    | transition request => cases hplan
  · intro s i io locks writes next h _ hact _
    exact h.moved (i := i) rfl (hsame s i next h (Or.inl (pass?_stmt (act_stmt hact))))
  · intro s i io locks writes next h _ hact _
    exact h.moved (i := i) rfl (hsame s i next h (pass?_auto (act_auto hact)))
  · intro s i io next h _ hact
    exact h.moved (i := i) rfl (hsame s i next h (pass?_commit (act_commit hact)))
  · intro s i io next h _ hact
    have hnone : next.pass? = none := pass?_idle (isIdle_of_rollback hact)
    exact h.moved (i := i) rfl (hsame s i next h (Or.inr hnone))
  · intro s i io world next h _ hact
    change act settings (s.session i).loc (s.moment i) _ s.world io = _ at hact
    refine h.moved (i := i) rfl (hsame s i next h (Or.inl ?_))
    generalize (s.session i).loc = loc at hact
    cases act_call hact with
    | worker => rfl
    | capture => rfl
  · intro s i h _
    exact h.moved (i := i) rfl (hsame s i .idle h (Or.inr rfl))
  · intro s o locks writes h _ _ _
    exact h
  · intro s n h _
    exact h

/-- The session that records the outcome of the attempt. -/
def recording? : Loc → Option Uuid
  | .worker (.record _ _ _ attemptId _ _) => some attemptId
  | _ => none

theorem record_of_recording? {loc : Loc} {attemptId : Uuid}
    (h : recording? loc = some attemptId) : ∃ job identity claimId succeeded at_,
      loc = .worker (.record job identity claimId attemptId succeeded at_) := by
  cases loc with
  | worker at_ =>
    cases at_ with
    | record job identity claimId id succeeded at_ =>
      obtain rfl : id = attemptId := Option.some.inj h
      exact ⟨job, identity, claimId, succeeded, at_, rfl⟩
    | _ => cases h
  | _ => cases h

def WriteOk (fresh : ℕ) (loc : Loc) : Write → Prop
  | .insertPlan _ => False
  | .setPlanStatus _ fromStatus toStatus => PlanStatus.isLegal fromStatus toStatus = true
  | .insertAttempt a => a.outcome ≠ .succeeded ∧ a.planId < fresh
  | .finishAttempt attemptId outcome => outcome = .succeeded → recording? loc = some attemptId
  | _ => True

/-- No stage the status stands for has succeeded. -/
def Ahead (db : Db) (planId : Uuid) (status : PlanStatus) : Prop :=
  ∀ stage, Succeeded db planId stage → status.walks stage = false

/-- The stages are different ones and none of them has succeeded. -/
structure Undone (db : Db) (planId : Uuid) (stages : List Stage) : Prop where
  nodup : stages.Nodup
  undone : ∀ stage ∈ stages, ¬ Succeeded db planId stage

/-- The attempt of the job has been committed. -/
def Attempted (db : Db) (job : Job) (attemptId : Uuid) : Prop :=
  ∃ a ∈ db.attempts, a.attemptId = attemptId ∧ a.planId = job.plan.planId ∧
    a.stage = job.unit.stage

def LocOk (db : Db) (log : List Write) : Loc → Prop
  | .worker (.load planId) => ∀ p ∈ db.plans, p.planId = planId → Ahead db planId p.status
  | .worker (.loadArtifacts plan) => Ahead db plan.planId plan.status ∧ plan.artifacts = []
  | .worker (.loadReplicas plan todo) =>
    Ahead db plan.planId plan.status ∧
      (plan.artifacts.map (·.artifactId) ++ todo.map (·.artifactId)).Nodup ∧
      ∀ a ∈ plan.artifacts, (a.replicas.map (·.placementId)).Nodup
  | .worker (.gate plan) =>
    Ahead db plan.planId plan.status ∧ Distinct plan.artifacts ∧ plan.status = .planned
  | .worker (.claim job at_) => Undone db job.plan.planId job.stages ∧
      ∀ identity claimId attemptId, at_ = .commitClaimed identity claimId attemptId →
        ∃ a, .insertAttempt a ∈ log ∧ a.attemptId = attemptId ∧ a.planId = job.plan.planId ∧
          a.stage = job.unit.stage
  | .worker (.effect job _ _ attemptId) =>
    Undone db job.plan.planId job.stages ∧ Attempted db job attemptId
  | .worker (.record job _ _ attemptId _ _) =>
    Undone db job.plan.planId job.stages ∧ Attempted db job attemptId
  | .worker (.advanceRead plan rest) => Undone db plan.planId (rest.filterMap Task.stage?)
  | .worker (.advanceWrite plan rest _) => Undone db plan.planId (rest.filterMap Task.stage?)
  | _ => True

structure SharedOk (e : Shared Db Storage) : Prop where
  placements : (e.db.placements.map (·.placementId)).Nodup
  attempts : ∀ a ∈ e.db.attempts, a.planId < e.fresh
  once : ∀ a ∈ e.db.attempts, ∀ b ∈ e.db.attempts, a.outcome = .succeeded →
    b.outcome = .succeeded → a.planId = b.planId → a.stage = b.stage → a.attemptId = b.attemptId

structure SessionOk (e : Shared Db Storage) (_ : Lock → Prop) (σ : Session Write Loc) : Prop where
  log : ∀ w ∈ σ.log, WriteOk e.fresh σ.loc w
  loc : LocOk e.db σ.log σ.loc

/-- Plans move on, attempts stay, and the stages of a plan under way do not succeed elsewhere. -/
structure Keeps (e e' : Shared Db Storage) (_ : Lock → Prop) (σ : Session Write Loc) : Prop where
  fresh : e.fresh ≤ e'.fresh
  plans : ∀ p' ∈ e'.db.plans, (∃ p ∈ e.db.plans, p.planId = p'.planId ∧
    ∀ stage, p.status.walks stage = false → p'.status.walks stage = false) ∨
    ∀ a ∈ e'.db.attempts, a.planId ≠ p'.planId
  attempts : ∀ a ∈ e.db.attempts, ∃ a' ∈ e'.db.attempts, a'.attemptId = a.attemptId ∧
    a'.planId = a.planId ∧ a'.stage = a.stage
  succeeded : ∀ planId stage, σ.loc.pass? = some planId → Succeeded e'.db planId stage →
    Succeeded e.db planId stage

variable {e e' : Shared Db Storage} {H : Lock → Prop} {σ : Session Write Loc} {db : Db}
  {m : Moment} {locks : List Lock} {log writes : List Write} {fresh : ℕ} {loc next : Loc}

theorem Undone.keeps {planId : Uuid} {stages : List Stage} (h : Undone e.db planId stages)
    (hkeeps : Keeps e e' H σ) (hpass : σ.loc.pass? = some planId) : Undone e'.db planId stages :=
  ⟨h.nodup, fun stage hmem hdone => h.undone stage hmem (hkeeps.succeeded planId stage hpass hdone)⟩

theorem Ahead.keeps {planId : Uuid} {status : PlanStatus} (h : Ahead e.db planId status)
    (hkeeps : Keeps e e' H σ) (hpass : σ.loc.pass? = some planId) : Ahead e'.db planId status :=
  fun stage hdone => h stage (hkeeps.succeeded planId stage hpass hdone)

theorem Attempted.keeps {job : Job} {attemptId : Uuid} (h : Attempted e.db job attemptId)
    (hkeeps : Keeps e e' H σ) : Attempted e'.db job attemptId := by
  obtain ⟨a, ha, hid, hplan, hstage⟩ := h
  obtain ⟨a', ha', hid', hplan', hstage'⟩ := hkeeps.attempts a ha
  exact ⟨a', ha', hid'.trans hid, hplan'.trans hplan, hstage'.trans hstage⟩

theorem WriteOk.mono {fresh' : ℕ} {w : Write} (h : WriteOk fresh loc w) (hle : fresh ≤ fresh') :
    WriteOk fresh' loc w := by
  cases w with
  | insertAttempt a => exact ⟨h.1, Nat.lt_of_lt_of_le h.2 hle⟩
  | _ => exact h

theorem stable (e e' : Shared Db Storage) (H : Lock → Prop) (σ : Session Write Loc)
    (hkeeps : Keeps e e' H σ) (h : SessionOk e H σ) : SessionOk e' H σ := by
  refine ⟨fun w hw => (h.log w hw).mono hkeeps.fresh, ?_⟩
  obtain ⟨loc, log, began⟩ := σ
  have hloc : LocOk e.db log loc := h.loc
  show LocOk e'.db log loc
  cases loc with
  | worker at_ =>
    cases at_ with
    | load planId =>
      intro p' hp' hid stage hdone
      rcases hkeeps.plans p' hp' with ⟨p, hp, hsame, hwalks⟩ | hnone
      · exact hwalks stage (hloc p hp (hsame.trans hid) stage
          (hkeeps.succeeded planId stage rfl hdone))
      · obtain ⟨a, ha, hplan, -⟩ := hdone
        exact absurd (hplan.trans hid.symm) (hnone a ha)
    | loadArtifacts plan => exact ⟨hloc.1.keeps hkeeps rfl, hloc.2⟩
    | loadReplicas plan todo => exact ⟨hloc.1.keeps hkeeps rfl, hloc.2⟩
    | gate plan => exact ⟨hloc.1.keeps hkeeps rfl, hloc.2⟩
    | claim job at_ => exact ⟨hloc.1.keeps hkeeps rfl, hloc.2⟩
    | effect job identity claimId attemptId =>
      exact ⟨hloc.1.keeps hkeeps rfl, hloc.2.keeps hkeeps⟩
    | record job identity claimId attemptId succeeded at_ =>
      exact ⟨hloc.1.keeps hkeeps rfl, hloc.2.keeps hkeeps⟩
    | advanceRead plan rest => exact Undone.keeps hloc hkeeps rfl
    | advanceWrite plan rest terminal => exact Undone.keeps hloc hkeeps rfl
    | _ => trivial
  | _ => trivial

theorem locOk_next {plan : DeletionExecutionPlan} {tasks : List Task}
    (h : Undone db plan.planId (tasks.filterMap Task.stage?)) :
    LocOk db log (.worker (WorkerLoc.next plan tasks)) := by
  match tasks with
  | [] => trivial
  | .stage unit :: rest =>
    have hstages : (Task.stage unit :: rest).filterMap Task.stage?
        = Job.stages { plan, unit, rest } := rfl
    rw [hstages] at h
    exact ⟨h, fun _ _ _ hat => by cases hat⟩
  | .advance :: rest => exact h
  | .complete :: rest => trivial

theorem locOk_idle (h : loc.isIdle = true) : LocOk db log loc := by
  cases loc with
  | worker at_ =>
    cases at_ with
    | finished outcome => trivial
    | _ => cases h
  | _ => trivial

/-- The tasks of a plan that is not completed have nothing done ahead of them. -/
theorem Ahead.undone {plan : DeletionExecutionPlan} (h : Ahead db plan.planId plan.status)
    (hdistinct : Distinct plan.artifacts) (hopen : plan.status ≠ .completed) :
    Undone db plan.planId (plan.tasks.filterMap Task.stage?) := by
  refine ⟨DeletionExecutionPlan.nodup_stages hdistinct, fun stage hmem hdone => ?_⟩
  have hwalks := DeletionExecutionPlan.walks_of_mem hopen hmem
  rw [h stage hdone] at hwalks
  cases hwalks

theorem recording?_stmt {attemptId : Uuid} (h : SessionStmt m db loc locks writes next)
    (hrec : recording? loc = some attemptId) : recording? next = some attemptId := by
  cases h with
  | worker h => cases h <;> exact hrec
  | capture h => cases hrec
  | transition h => cases hrec

/-- The insert guard has found the plan of the attempt. -/
theorem planId_lt_of_guard {attempt : StageAttempt} {clock : Time}
    (hplans : ∀ p ∈ db.plans, p.planId < fresh) (hlog : ∀ w ∈ log, WriteOk fresh loc w)
    (h : (db.applyAll log).guardDeletionStageInsert clock attempt = .ok ()) :
    attempt.planId < fresh := by
  unfold Db.guardDeletionStageInsert at h
  cases hplan : (db.applyAll log).plan? attempt.planId with
  | none => rw [hplan] at h; cases h
  | some plan =>
    have hinsert : ∀ p, .insertPlan p ∉ log := fun p hp => hlog _ hp
    obtain ⟨p, hp, -⟩ := Db.of_plan?_applyAll hplan hinsert
    have hid : p.planId = attempt.planId := by simpa using List.find?_some hp
    rw [← hid]
    exact hplans p (List.mem_of_find?_eq_some hp)

theorem writes_stmt (hplans : ∀ p ∈ db.plans, p.planId < fresh)
    (hlog : ∀ w ∈ log, WriteOk fresh loc w)
    (hstmt : SessionStmt m (db.applyAll log) loc locks writes next) :
    ∀ w ∈ writes, WriteOk fresh next w := by
  cases hstmt with
  | worker h =>
    cases h with
    | insertShared hid hplan hstage houtcome hguard =>
      intro w hw
      rw [List.mem_singleton.mp hw]
      exact ⟨by rw [houtcome]; decide, planId_lt_of_guard hplans hlog hguard⟩
    | insertAttempt hid hplan hstage houtcome hguard =>
      intro w hw
      rw [List.mem_singleton.mp hw]
      exact ⟨by rw [houtcome]; decide, planId_lt_of_guard hplans hlog hguard⟩
    | abandonStage =>
      intro w hw
      obtain ⟨a, -, rfl⟩ := List.mem_map.mp hw
      intro hsucceeded
      cases hsucceeded
    | abandonClaims =>
      intro w hw
      obtain ⟨c, -, rfl⟩ := List.mem_map.mp hw
      trivial
    | recordAttempt =>
      intro w hw
      rw [List.mem_singleton.mp hw]
      exact fun _ => rfl
    | _ => simp [WriteOk, PlanStatus.isLegal]
  | capture h => cases h <;> simp [WriteOk]
  | transition h =>
    cases h with
    | cancelPlans =>
      intro w hw
      obtain ⟨p, -, rfl⟩ := List.mem_map.mp hw
      rfl
    | _ => simp [WriteOk]

theorem locOk_stmt (h : LocOk db log loc)
    (hstmt : SessionStmt m (db.applyAll log) loc locks writes next) :
    LocOk db (log ++ writes) next := by
  cases hstmt with
  | worker hstmt =>
    cases hstmt with
    | @insertAttempt job row identity claimId attempt hid hplan hstage =>
      refine ⟨h.1, fun identity' claimId' attemptId' hat => ?_⟩
      cases hat
      exact ⟨attempt, List.mem_append_right _ (List.mem_singleton.mpr rfl), hid, hplan, hstage⟩
    | recordLock => exact h
    | recordAttempt => exact h
    | recordClaim => exact h
    | completeLock => trivial
    | completePlan => trivial
    | completeSnapshot => trivial
    | completeSnapshotUnder => trivial
    | incomplete => trivial
    | ready => trivial
    | tombstoneMissing => trivial
    | completeTombstone => trivial
    | targetKept => trivial
    | completeTarget => trivial
    | _ => exact ⟨h.1, fun _ _ _ hat => by cases hat⟩
  | capture hstmt => trivial
  | transition hstmt => trivial

/-- A success after a replay was there before, or is the one the session records. -/
theorem of_succeeded_applyAll (hlog : ∀ w ∈ log, WriteOk fresh loc w) {a' : StageAttempt}
    (ha' : a' ∈ (db.applyAll log).attempts) (hdone : a'.outcome = .succeeded) :
    (∃ a ∈ db.attempts, a.attemptId = a'.attemptId ∧ a.planId = a'.planId ∧ a.stage = a'.stage ∧
      a.outcome = .succeeded) ∨
    (recording? loc = some a'.attemptId ∧ ∃ a, (a ∈ db.attempts ∨ .insertAttempt a ∈ log) ∧
      a.attemptId = a'.attemptId ∧ a.planId = a'.planId ∧ a.stage = a'.stage) := by
  obtain ⟨a, ha, hid, hplan, hstage, houtcome⟩ := Db.of_mem_attempts_applyAll ha'
  rcases houtcome with hsame | hfinished
  · rcases ha with hold | hnew
    · exact Or.inl ⟨a, hold, hid.symm, hplan.symm, hstage.symm, hsame.symm.trans hdone⟩
    · exact absurd (hsame.symm.trans hdone) (hlog _ hnew).1
  · rw [hdone] at hfinished
    refine Or.inr ⟨?_, a, ha, hid.symm, hplan.symm, hstage.symm⟩
    rw [hid]
    exact hlog _ hfinished rfl

theorem succeeded_of_not_recording (hlog : ∀ w ∈ log, WriteOk fresh loc w)
    (hrec : recording? loc = none) {planId : Uuid} {stage : Stage}
    (h : Succeeded (db.applyAll log) planId stage) : Succeeded db planId stage := by
  obtain ⟨a', ha', rfl, rfl, hdone⟩ := h
  rcases of_succeeded_applyAll hlog ha' hdone with ⟨a, ha, -, hplan, hstage, hsucceeded⟩ | ⟨hrec', -⟩
  · exact ⟨a, ha, hplan, hstage, hsucceeded⟩
  · rw [hrec] at hrec'
    cases hrec'

/-- What a commit may make succeed: nothing, or the stage of the job whose outcome it records. -/
theorem new_success {s : State} {i : ℕ} (hlog : ∀ w ∈ (s.session i).log, WriteOk s.fresh
      (s.session i).loc w) (hloc : LocOk s.db (s.session i).log (s.session i).loc)
    (hkeys : Keyed KeyedTable.attempts.keys s) {a' : StageAttempt}
    (ha' : a' ∈ (s.db.applyAll (s.session i).log).attempts) (hdone : a'.outcome = .succeeded) :
    (∃ a ∈ s.db.attempts, a.attemptId = a'.attemptId ∧ a.planId = a'.planId ∧ a.stage = a'.stage ∧
      a.outcome = .succeeded) ∨
    ∃ job identity claimId succeeded at_,
      (s.session i).loc = .worker (.record job identity claimId a'.attemptId succeeded at_) ∧
      a'.planId = job.plan.planId ∧ a'.stage = job.unit.stage ∧
      Undone s.db job.plan.planId job.stages := by
  rcases of_succeeded_applyAll hlog ha' hdone with hold | ⟨hrec, a, ha, hid, hplan, hstage⟩
  · exact Or.inl hold
  · right
    obtain ⟨job, identity, claimId, succeeded, at_, hat⟩ := record_of_recording? hrec
    rw [hat] at hloc
    obtain ⟨hundone, b, hb, hbid, hbplan, hbstage⟩ := hloc
    -- the row of the recorded attempt is the one the claim has committed
    have hsame : a = b := by
      rcases ha with hmem | hnew
      · exact List.inj_on_of_nodup_map hkeys.nodup hmem hb (hid.trans hbid.symm)
      · refine absurd (List.mem_map.mpr ⟨b, hb, hbid⟩) (hkeys.uncommitted i _ ?_)
        exact List.mem_filterMap.mpr ⟨_, hnew, congrArg some hid⟩
    refine ⟨job, identity, claimId, succeeded, at_, hat, ?_, ?_, hundone⟩
    · rw [← hplan, hsame, hbplan]
    · rw [← hstage, hsame, hbstage]

/-- Plans only move on, so a pass never has more stages to walk. -/
theorem of_mem_plans (hlog : ∀ w ∈ log, WriteOk fresh loc w) {p' : DeletionPlan}
    (hp' : p' ∈ (db.applyAll log).plans) : ∃ p ∈ db.plans, p.planId = p'.planId ∧
      ∀ stage, p.status.walks stage = false → p'.status.walks stage = false := by
  have hlegal : ∀ id old new, .setPlanStatus id old new ∈ log → ∀ stage,
      old.walks stage = false → new.walks stage = false := by
    intro id old new hw stage hfalse
    cases hnew : new.walks stage with
    | false => rfl
    | true =>
      rw [PlanStatus.walks_of_isLegal (hlog _ hw) hnew] at hfalse
      exact hfalse
  obtain ⟨p, hp, hsame, hwalks⟩ := Db.of_mem_plans_applyAll
    (R := fun _ old new => ∀ stage, old.walks stage = false → new.walks stage = false)
    (fun _ _ _ h => h) (fun _ _ _ _ h h' stage hfalse => h' stage (h stage hfalse)) hlegal hp'
  rcases hp with hold | hnew
  · exact ⟨p, hold, hsame.planId.symm, hwalks⟩
  · exact (hlog _ hnew).elim

theorem keeps_commit {s : State} {i j : ℕ} (hlog : ∀ w ∈ (s.session i).log, WriteOk s.fresh
      (s.session i).loc w) (hloc : LocOk s.db (s.session i).log (s.session i).loc)
    (hkeys : Keyed KeyedTable.attempts.keys s) (hone : OnePass s) (hji : j ≠ i) :
    Keeps s.shared { s.shared with db := s.db.applyAll (s.session i).log } H (s.session j) := by
  refine ⟨Nat.le_refl _, fun p' hp' => Or.inl (of_mem_plans hlog hp'),
    fun a ha => Db.exists_mem_attempts_applyAll ha, ?_⟩
  · rintro planId stage hpass ⟨a', ha', rfl, rfl, hdone⟩
    rcases new_success hlog hloc hkeys ha' hdone with
      ⟨a, ha, -, hplan, hstage, hsucceeded⟩ | ⟨job, identity, claimId, succeeded, at_, hat, hplan, -⟩
    · exact ⟨a, ha, hplan, hstage, hsucceeded⟩
    · refine absurd (hone j i a'.planId hpass ?_) hji
      rw [hat, hplan]
      rfl

theorem sharedOk_commit {s : State} {i : ℕ} (hlog : ∀ w ∈ (s.session i).log, WriteOk s.fresh
      (s.session i).loc w) (hloc : LocOk s.db (s.session i).log (s.session i).loc)
    (hkeys : Keyed KeyedTable.attempts.keys s) (h : SharedOk s.shared) :
    SharedOk { s.shared with db := s.db.applyAll (s.session i).log } := by
  refine ⟨?_, fun a' ha' => ?_, fun a' ha' b' hb' hadone hbdone hplan hstage => ?_⟩
  · show ((s.db.applyAll _).placements.map (·.placementId)).Nodup
    rw [Db.applyAll_placements]
    exact h.placements
  · obtain ⟨a, ha, -, hplan, -⟩ := Db.of_mem_attempts_applyAll ha'
    show a'.planId < s.fresh
    rw [hplan]
    rcases ha with hold | hnew
    · exact h.attempts a hold
    · exact (hlog _ hnew).2
  · rcases new_success hlog hloc hkeys ha' hadone with
      ⟨a, ha, haid, haplan, hastage, hasucceeded⟩ | ⟨job, _, _, _, _, hat, hjplan, hjstage, hundone⟩
    · rcases new_success hlog hloc hkeys hb' hbdone with
        ⟨b, hb, hbid, hbplan, hbstage, hbsucceeded⟩ | ⟨job, _, _, _, _, -, hjplan, hjstage, hundone⟩
      · rw [← haid, ← hbid]
        exact h.once a ha b hb hasucceeded hbsucceeded
          (haplan.trans (hplan.trans hbplan.symm)) (hastage.trans (hstage.trans hbstage.symm))
      · exact absurd ⟨a, ha, haplan.trans (hplan.trans hjplan),
          hastage.trans (hstage.trans hjstage), hasucceeded⟩
          (hundone.undone _ (List.mem_cons_self ..))
    · rcases new_success hlog hloc hkeys hb' hbdone with
        ⟨b, hb, hbid, hbplan, hbstage, hbsucceeded⟩ | ⟨_, _, _, _, _, hbt, -⟩
      · exact absurd ⟨b, hb, hbplan.trans (hplan.symm.trans hjplan),
          hbstage.trans (hstage.symm.trans hjstage), hbsucceeded⟩
          (hundone.undone _ (List.mem_cons_self ..))
      · have hsame := hat.symm.trans hbt
        simp only [Loc.worker.injEq, WorkerLoc.record.injEq] at hsame
        exact hsame.2.2.2.1

/-- After its commit a pass has the stages ahead that it had before, less the one it recorded. -/
theorem locOk_commit {s : State} {i : ℕ} (hlog : ∀ w ∈ (s.session i).log, WriteOk s.fresh
      (s.session i).loc w) (hloc : LocOk s.db (s.session i).log (s.session i).loc)
    (hkeys : Keyed KeyedTable.attempts.keys s) (hcommit : SessionCommit (s.session i).loc next) :
    LocOk (s.db.applyAll (s.session i).log) [] next := by
  have hnew : ∀ a' ∈ (s.db.applyAll (s.session i).log).attempts, a'.outcome = .succeeded → _ :=
    fun a' => new_success hlog hloc hkeys
  have hkept : recording? (s.session i).loc = none → ∀ planId stages, Undone s.db planId stages →
      Undone (s.db.applyAll (s.session i).log) planId stages := fun hrec _ _ hundone =>
    ⟨hundone.nodup, fun stage hmem hdone =>
      hundone.undone stage hmem (succeeded_of_not_recording hlog hrec hdone)⟩
  generalize (s.session i).log = log at hlog hloc hnew hkept ⊢
  generalize (s.session i).loc = loc at hlog hloc hnew hkept hcommit
  cases hcommit with
  | worker hcommit =>
    cases hcommit with
    | deferred => trivial
    | shared =>
      have hundone := hkept rfl _ _ hloc.1
      exact locOk_next ⟨(List.nodup_cons.mp hundone.nodup).2,
        fun stage hmem => hundone.undone stage (List.mem_cons_of_mem _ hmem)⟩
    | @claimed job identity claimId attemptId =>
      obtain ⟨a, ha, rfl, hplan, hstage⟩ := hloc.2 identity claimId attemptId rfl
      obtain ⟨a', ha', hid', hplan', hstage'⟩ := Db.exists_mem_attempts_of_insert s.db ha
      exact ⟨hkept rfl _ _ hloc.1, a', ha', hid', hplan'.trans hplan, hstage'.trans hstage⟩
    | @recorded job identity claimId attemptId =>
      have hstages := List.nodup_cons.mp hloc.1.nodup
      refine locOk_next ⟨hstages.2, fun stage hmem hdone => ?_⟩
      obtain ⟨a', ha', hplan, rfl, hsucceeded⟩ := hdone
      rcases hnew a' ha' hsucceeded with
        ⟨a, ha, -, haplan, hastage, hadone⟩ | ⟨job', _, _, _, _, hat, -, hstage, -⟩
      · exact hloc.1.undone _ (List.mem_cons_of_mem _ hmem)
          ⟨a, ha, haplan.trans hplan, hastage, hadone⟩
      · simp only [Loc.worker.injEq, WorkerLoc.record.injEq] at hat
        rw [hstage, ← hat.1] at hmem
        exact hstages.1 hmem
    | failed => trivial
    | completed => trivial
  | capture => trivial
  | transition => trivial

/-- A statement outside a transaction moves at most a plan, and makes nothing succeed. -/
theorem auto_writes (h : SessionAuto m db loc locks writes next) :
    ∀ w ∈ writes, ∀ fresh σ, WriteOk fresh σ w := by
  cases h with
  | worker h => cases h <;> simp [WriteOk, PlanStatus.isLegal]
  | capture h => simp

theorem locOk_auto (h : SharedOk e) (hartifacts : (e.db.artifacts.map (·.artifactId)).Nodup)
    (hloc : LocOk e.db [] loc) (hauto : SessionAuto m e.db loc locks writes next) :
    LocOk e.db [] next := by
  cases hauto with
  | worker hauto =>
    cases hauto with
    | load hplan =>
      obtain ⟨rfl, hnil, row, hrow, hid, hstatus⟩ := planId_of_executionPlan? hplan
      refine ⟨?_, hnil⟩
      rw [← hstatus]
      exact hloc row hrow hid
    | @loadArtifacts plan =>
      refine ⟨hloc.1, ?_, fun a ha => ?_⟩
      · rw [hloc.2]
        have hperm : ((e.db.sortedArtifacts plan.snapshotId).map (·.artifactId)).Perm
            ((e.db.artifactsOf plan.snapshotId).map (·.artifactId)) :=
          (List.perm_insertionSort _ _).map _
        exact hperm.nodup_iff.mpr (hartifacts.sublist (List.filter_sublist.map _))
      · rw [hloc.2] at ha
        exact absurd ha List.not_mem_nil
    | @loadReplicas plan a todo =>
      refine ⟨hloc.1, ?_, fun entry hentry => ?_⟩
      · have hids := hloc.2.1
        simp only [List.map_append, List.map_cons, List.map_nil, Db.executionArtifact,
          List.append_assoc, List.singleton_append] at hids ⊢
        exact hids
      · rcases List.mem_append.mp hentry with hold | hnew
        · exact hloc.2.2 entry hold
        · rw [List.mem_singleton.mp hnew]
          have hmap : ((e.db.executionArtifact a).replicas.map (·.placementId))
              = (e.db.sortedPlacements a.artifactId).map (·.placementId) := by
            simp [Db.executionArtifact, Function.comp_def]
          have hperm : ((e.db.sortedPlacements a.artifactId).map (·.placementId)).Perm
              ((e.db.placements.filter fun p => p.artifactId == a.artifactId).map
                (·.placementId)) := (List.perm_insertionSort _ _).map _
          rw [hmap]
          exact hperm.nodup_iff.mpr (h.placements.sublist (List.filter_sublist.map _))
    | completed => trivial
    | toGate hstatus =>
      have hids := hloc.2.1
      rw [List.map_nil, List.append_nil] at hids
      exact ⟨hloc.1, ⟨hids, hloc.2.2⟩, hstatus⟩
    | ungated hstatus hopen =>
      have hids := hloc.2.1
      rw [List.map_nil, List.append_nil] at hids
      exact locOk_next (hloc.1.undone ⟨hids, hloc.2.2⟩ hopen)
    | gateMissing =>
      exact locOk_next (hloc.1.undone hloc.2.1 (by rw [hloc.2.2]; decide))
    | gateRefused => trivial
    | gate =>
      exact locOk_next (hloc.1.undone hloc.2.1 (by rw [hloc.2.2]; decide))
    | advanceRead => exact hloc
    | advanceWrite => exact locOk_next hloc
  | capture hauto => trivial

/-- A replay that leaves the attempts alone and only moves plans on. -/
theorem keeps_of_plans (loc : Loc) (log : List Write) {fresh' : ℕ} {world : Storage}
    (hlog : ∀ w ∈ log, WriteOk e.fresh loc w)
    (hattempts : (e.db.applyAll log).attempts = e.db.attempts) (hle : e.fresh ≤ fresh') :
    Keeps e { e with db := e.db.applyAll log, fresh := fresh', world } H σ := by
  refine ⟨hle, fun p' hp' => Or.inl (of_mem_plans hlog hp'),
    fun a ha => ⟨a, ?_, rfl, rfl, rfl⟩, ?_⟩
  · rw [← hattempts] at ha
    exact ha
  · rintro planId stage - ⟨a, ha, hdone⟩
    exact ⟨a, hattempts ▸ ha, hdone⟩

theorem attempts_auto (h : SessionAuto m db loc locks writes next) :
    (db.applyAll writes).attempts = db.attempts := by
  cases h with
  | worker h => cases h <;> rfl
  | capture h => rfl

theorem attempts_operate {o : Op} (h : OpWrites db m o locks writes) :
    (db.applyAll writes).attempts = db.attempts := by
  cases h <;> rfl

theorem keeps_operate {o : Op} (h : SharedOk e) (hfresh : m.fresh = e.fresh)
    (hop : OpWrites e.db m o locks writes) :
    Keeps e { e.used with db := e.db.applyAll writes } H σ := by
  have hle : e.fresh ≤ e.fresh + 1 := Nat.le_succ _
  cases hop with
  | planned hsnapshot hpin hallowed hrow =>
    refine ⟨hle, fun p' hp' => ?_, fun a ha => ⟨a, ha, rfl, rfl, rfl⟩, fun _ _ _ hdone => hdone⟩
    rcases List.mem_append.mp hp' with hold | hnew
    · exact Or.inl ⟨p', hold, rfl, fun _ hwalks => hwalks⟩
    · rw [List.mem_singleton.mp hnew, hrow.planId, hfresh]
      exact Or.inr fun a ha => Nat.ne_of_lt (h.attempts a ha)
  | protectedPinned => exact keeps_of_plans .idle [] (by simp) rfl hle
  | pinKept => exact keeps_of_plans .idle [] (by simp) rfl hle
  | pinned =>
    refine keeps_of_plans .idle _ (fun w hw => ?_) rfl hle
    rw [List.mem_singleton.mp hw]
    trivial
  | revoked =>
    refine keeps_of_plans .idle _ (fun w hw => ?_) rfl hle
    rw [List.mem_singleton.mp hw]
    trivial

theorem SharedOk.of_attempts (h : SharedOk e) (log : List Write) (world : Storage)
    (hattempts : (e.db.applyAll log).attempts = e.db.attempts) :
    SharedOk { e.used with db := e.db.applyAll log, world } := by
  refine ⟨?_, fun a ha => ?_, ?_⟩
  · show ((e.db.applyAll log).placements.map (·.placementId)).Nodup
    rw [Db.applyAll_placements]
    exact h.placements
  · exact Nat.lt_succ_of_lt (h.attempts a (hattempts ▸ ha))
  · show ∀ a ∈ (e.db.applyAll log).attempts, ∀ b ∈ (e.db.applyAll log).attempts, _
    rw [hattempts]
    exact h.once

/-- What is known of the state beside the invariant: distinct keys, locks, passes in sequence. -/
structure Context (s : State) : Prop where
  keys : ∀ T : KeyedTable, Keyed T.keys s
  locked : Locked discipline s
  one : OnePass s

def Inv : State → Prop := Machine.Beside SharedOk SessionOk

theorem sessionOk_rest (h : LocOk e.db [] loc) : SessionOk e H ⟨loc, [], none⟩ := ⟨by simp, h⟩

theorem inv_step {settings : Settings} : ∀ s l s', Inv s → NothingToRepeat s l ∧ Context s →
    (machine settings).step s l = some s' → Inv s' := by
  have hused : ∀ (e : Shared Db Storage) H σ (world : Storage),
      Keeps e { e.used with world } H σ := fun e H σ world =>
    keeps_of_plans .idle [] (by simp) rfl (Nat.le_succ _)
  have hplans : ∀ s : State, Context s → ∀ p ∈ s.db.plans, p.planId < s.fresh :=
    fun s hcontext p hp => (hcontext.keys .plans).below _ (List.mem_map.mpr ⟨p, hp, rfl⟩)
  refine Machine.Beside.step (R := Keeps) (fun _ _ _ _ _ h => ⟨h.log, h.loc⟩) stable ?_ ?_ ?_ ?_
    (fun _ => sessionOk_rest trivial) ?_ ?_ ?_ ?_ ?_ ?_ ?_
  · exact fun e H σ => hused e H σ e.world
  · exact fun e n H σ => ⟨Nat.le_refl _, fun p' hp' => Or.inl ⟨p', hp', rfl, fun _ hw => hw⟩,
      fun a ha => ⟨a, ha, rfl, rfl, rfl⟩, fun _ _ _ hdone => hdone⟩
  · exact fun e h => h.of_attempts [] e.world rfl
  · exact fun e n h => ⟨h.placements, h.attempts, h.once⟩
  · intro s i proc _ hok
    cases proc with
    | runPlan planId => exact sessionOk_rest fun p hp hid => hok.1 p hp hid
    | completePlan planId => exact sessionOk_rest trivial
    | capture request => exact sessionOk_rest trivial
    | transition request => exact sessionOk_rest trivial
  · intro s i io locks writes next h hok hact _
    change act settings (s.session i).loc (s.moment i) _ s.world io = _ at hact
    have hσ := h.sessions i
    have hstmt := act_stmt hact
    refine ⟨fun w hw => WriteOk.mono ?_ (Nat.le_succ _), locOk_stmt hσ.loc hstmt⟩
    rcases List.mem_append.mp hw with hold | hnew
    · have hwrite := hσ.log w hold
      cases w with
      | finishAttempt attemptId outcome =>
        exact fun hsucceeded => recording?_stmt hstmt (hwrite hsucceeded)
      | _ => exact hwrite
    · exact writes_stmt (hplans s hok.2) hσ.log hstmt w hnew
  · intro s i io locks writes next h hok hact _
    change act settings (s.session i).loc (s.moment i) _ s.world io = _ at hact
    have hauto := act_auto hact
    have hnil := hok.2.locked.unwritten i hauto.atRest
    have hloc := (h.sessions i).loc
    rw [Machine.view, hnil] at hauto
    rw [hnil] at hloc
    have hattempts := attempts_auto hauto
    have hwrites : ∀ w ∈ writes, WriteOk s.fresh .idle w :=
      fun w hw => auto_writes hauto w hw _ _
    have hnext := locOk_auto h.shared (hok.2.keys .artifacts).nodup hloc hauto
    have hkeeps : ∀ H σ, Keeps s.shared { s.shared.used with db := s.db.applyAll writes } H σ :=
      fun H σ => keeps_of_plans .idle writes hwrites hattempts (Nat.le_succ _)
    exact ⟨h.shared.of_attempts writes s.world hattempts, fun j _ => hkeeps _ _,
      stable _ _ _ _ (hkeeps _ ⟨next, [], none⟩) (sessionOk_rest hnext)⟩
  · intro s i io next h hok hact
    change act settings (s.session i).loc (s.moment i) _ s.world io = _ at hact
    have hσ := h.sessions i
    have hkeys := hok.2.keys .attempts
    exact ⟨sharedOk_commit hσ.log hσ.loc hkeys h.shared,
      fun j hji => keeps_commit hσ.log hσ.loc hkeys hok.2.one hji,
      sessionOk_rest (locOk_commit hσ.log hσ.loc hkeys (act_commit hact))⟩
  · intro s i io next h _ hact
    change act settings (s.session i).loc (s.moment i) _ s.world io = _ at hact
    exact sessionOk_rest (locOk_idle (isIdle_of_rollback hact))
  · intro s i io world next h _ hact
    change act settings (s.session i).loc (s.moment i) _ s.world io = _ at hact
    have hloc := (h.sessions i).loc
    refine ⟨h.shared.of_attempts [] world rfl, fun j _ => hused _ _ _ _,
      sessionOk_rest ?_⟩
    generalize (s.session i).loc = loc at hact hloc
    cases act_call hact with
    | worker => exact hloc
    | capture => trivial
  · intro s o locks writes h _ hop _
    have hwrites := operate_writes hop
    exact ⟨h.shared.of_attempts writes s.world (attempts_operate hwrites),
      fun j => keeps_operate h.shared rfl hwrites⟩

theorem context_step {settings : Settings} : ∀ s l s', Context s → PassesInSequence s l →
    (machine settings).step s l = some s' → Context s' := fun s l s' h hok hstep =>
  ⟨fun T => Keyed.step (draws T) s l s' (h.keys T) hstep,
    Locked.step respects s l s' h.locked hstep, onePass_step s l s' h.one hok hstep⟩

/-- Rows with one key are one row. -/
theorem length_successes_le {planId : Uuid} {stage : Stage} (h : SharedOk e)
    (hnodup : (e.db.attempts.map (·.attemptId)).Nodup) :
    (successes e.db planId stage).length ≤ 1 := by
  have hkey : ∀ a ∈ successes e.db planId stage, ∀ b ∈ successes e.db planId stage,
      a.attemptId = b.attemptId := by
    intro a ha b hb
    simp only [successes, List.mem_filter, Bool.and_eq_true, beq_iff_eq] at ha hb
    exact h.once a ha.1 b hb.1 ha.2.2 hb.2.2 (ha.2.1.1.trans hb.2.1.1.symm)
      (ha.2.1.2.trans hb.2.1.2.symm)
  have hids : ((successes e.db planId stage).map (·.attemptId)).Nodup :=
    hnodup.sublist (List.filter_sublist.map _)
  match hlist : successes e.db planId stage with
  | [] => exact Nat.zero_le _
  | [a] => exact Nat.le_refl _
  | a :: b :: rest =>
    rw [hlist] at hkey hids
    have hsame := hkey a (List.mem_cons_self ..) b (List.mem_cons_of_mem _ (List.mem_cons_self ..))
    simp [hsame] at hids

end Retries

/-- Passes that begin while nothing they walk has succeeded repeat no completed effect. -/
theorem nothing_repeated (settings : Settings) {db : Db} {fresh : ℕ} (h : BeforePasses db fresh)
    (storage : Storage) (clock : ℕ) (s : State)
    (hreach : Reach (machine settings).step
      (fun s l => PassesInSequence s l ∧ NothingToRepeat s l)
      (initial db storage clock fresh) s) : NotRepeated s := by
  have hcontext : Retries.Context (initial db storage clock fresh) :=
    ⟨keyed_initial h.keys storage clock, locked_initial db storage clock fresh,
      fun _ _ _ hpass => by cases hpass⟩
  have honce : ∀ a ∈ db.attempts, ∀ b ∈ db.attempts, a.outcome = .succeeded →
      b.outcome = .succeeded → a.planId = b.planId → a.stage = b.stage →
      a.attemptId = b.attemptId := by
    intro a ha b hb hadone hbdone hplan hstage
    have hmem : ∀ x ∈ db.attempts, x.outcome = .succeeded → x.planId = a.planId →
        x.stage = a.stage → x ∈ successes db a.planId a.stage := by
      intro x hx hdone hplan hstage
      simp [successes, hx, hdone, hplan, hstage]
    have hlength := h.once a.planId a.stage
    have ha' := hmem a ha hadone rfl rfl
    have hb' := hmem b hb hbdone hplan.symm hstage.symm
    match hlist : successes db a.planId a.stage with
    | [] => rw [hlist] at ha'; cases ha'
    | [x] =>
      rw [hlist] at ha' hb'
      rw [List.mem_singleton.mp ha', List.mem_singleton.mp hb']
    | x :: y :: rest => rw [hlist] at hlength; simp at hlength
  have hinitial : Retries.Inv (initial db storage clock fresh) :=
    ⟨⟨h.placements, h.attempts, honce⟩, fun _ => Retries.sessionOk_rest trivial,
      fun _ _ _ hl => absurd hl List.not_mem_nil⟩
  have hboth : Retries.Context s ∧ Retries.Inv s := by
    refine Reach.invariant (I := fun s => Retries.Context s ∧ Retries.Inv s) ⟨hcontext, hinitial⟩
      ?_ hreach
    rintro x l y ⟨hx, hinv⟩ ⟨hsequence, hnothing⟩ hstep
    exact ⟨Retries.context_step x l y hx hsequence hstep,
      Retries.inv_step x l y hinv ⟨hnothing, hx⟩ hstep⟩
  obtain ⟨hs, hinv⟩ := hboth
  refine ⟨fun planId stage => Retries.length_successes_le hinv.shared (hs.keys .attempts).nodup,
    fun i job identity claimId attemptId hloc => ?_⟩
  have hσ := (hinv.sessions i).loc
  rw [hloc] at hσ
  exact hσ.1.undone _ (List.mem_cons_self ..)

namespace Sample

/-- A plan of snapshot 4, whose only artifact is number 6. -/
def artifactPlan : Label :=
  .op (.createDeletionPlan
    { evaluationId := 0, targetId := 1, snapshotId := 4, tombstoneId := none, automatic := true
      tombstonedAt := 0, notBefore := 1, estimatedBytes := 0, correlationId := 0 })

/-- A pass up to the record of its first stage, whose storage call ends with `io`. -/
def firstStage (io : IoResult) : List Label :=
  .start 0 (.runPlan 100) :: List.replicate 15 (.exec 0 .ok) ++ .exec 0 io ::
    List.replicate 4 (.exec 0 .ok)

/-- Session 0 is at no pass when a pass begins. -/
def isFree (s : State) : Label → Bool
  | .start _ (.runPlan _) => (s.session 0).loc.pass?.isNone
  | _ => true

theorem passesInSequence_of_check {s : State} {l : Label}
    (hrest : ∀ j, 1 ≤ j → (s.session j).loc.pass? = none) (h : isFree s l = true) :
    PassesInSequence s l := by
  have hnone : (s.session 0).loc.pass? = none → ∀ j planId,
      (s.session j).loc.pass? ≠ some planId := by
    intro hzero j planId hj
    have hfree : (s.session j).loc.pass? = none := by
      rcases Nat.eq_zero_or_pos j with rfl | hpos
      · exact hzero
      · exact hrest j hpos
    rw [hfree] at hj
    cases hj
  cases l with
  | start i proc =>
    cases proc with
    | runPlan planId => exact fun j => hnone (Option.isNone_iff_eq_none.mp h) j planId
    | _ => trivial
  | _ => trivial

/-- Nothing has succeeded when a pass begins. -/
def nothingSucceeded (s : State) : Label → Bool
  | .start _ (.runPlan _) => s.db.attempts.all fun a => a.outcome != .succeeded
  | _ => true

theorem nothingToRepeat_of_check {s : State} {l : Label} (h : nothingSucceeded s l = true) :
    NothingToRepeat s l := by
  cases l with
  | start i proc =>
    cases proc with
    | runPlan planId =>
      rintro plan hplan hid stage ⟨a, ha, -, -, hdone⟩
      have hnot := List.all_eq_true.mp h a ha
      rw [hdone] at hnot
      cases hnot
    | _ => trivial
  | _ => trivial

theorem beforePasses_twoSnapshots : BeforePasses twoSnapshots 100 := by
  refine ⟨fun T => ?_, by decide, ?_, fun _ _ => Nat.zero_le _⟩
  · cases T <;> decide
  · intro a ha
    cases ha

end Sample

/-- The session stops after the first stage has been recorded; the next pass executes it again. -/
theorem repeated_after_stop :
    ¬ ∀ s, Reach (machine Sample.settings).step PassesInSequence
      (initial Sample.twoSnapshots Sample.storage 10 100) s → NotRepeated s := by
  intro h
  let labels : List Label :=
    Sample.artifactPlan :: Sample.firstStage .ok ++ .abort 0 :: Sample.firstStage .ok
  obtain ⟨s, hrun, hs⟩ : ∃ s, run (machine Sample.settings).step
      (initial Sample.twoSnapshots Sample.storage 10 100) labels = some s ∧
      decide (2 ≤ (successes s.db 100 (.artifact 6)).length) = true :=
    exists_of_run_any (by decide +kernel)
  have hok : Along (machine Sample.settings).step PassesInSequence
      (initial Sample.twoSnapshots Sample.storage 10 100) labels :=
    Machine.along_of_check (n := 1)
      (fun s l hsame => Sample.passesInSequence_of_check fun j hj => by rw [hsame j hj]; rfl)
      (by decide) (by decide +kernel)
  have honce := (h s (Reach.of_run hrun hok)).once 100 (.artifact 6)
  have htwo := of_decide_eq_true hs
  omega

/-- A first pass whose storage call fails, and a second one that succeeds. -/
theorem nothing_repeated_two_snapshots :
    BeforePasses Sample.twoSnapshots 100 ∧
      ∃ s, Reach (machine Sample.settings).step
          (fun s l => PassesInSequence s l ∧ NothingToRepeat s l)
          (initial Sample.twoSnapshots Sample.storage 10 100) s ∧
        (successes s.db 100 (.artifact 6)).length = 1 ∧ NotRepeated s := by
  refine ⟨Sample.beforePasses_twoSnapshots, ?_⟩
  let labels : List Label :=
    Sample.artifactPlan :: Sample.firstStage .failedBefore ++ Sample.firstStage .ok
  obtain ⟨s, hrun, hs⟩ : ∃ s, run (machine Sample.settings).step
      (initial Sample.twoSnapshots Sample.storage 10 100) labels = some s ∧
      decide ((successes s.db 100 (.artifact 6)).length = 1) = true :=
    exists_of_run_any (by decide +kernel)
  have hok : Along (machine Sample.settings).step
      (fun s l => PassesInSequence s l ∧ NothingToRepeat s l)
      (initial Sample.twoSnapshots Sample.storage 10 100) labels := by
    refine Along.and ?_ (along_of_meets (fun s l => Sample.nothingToRepeat_of_check)
      (by decide +kernel))
    exact Machine.along_of_check (n := 1)
      (fun s l hsame => Sample.passesInSequence_of_check fun j hj => by rw [hsame j hj]; rfl)
      (by decide) (by decide +kernel)
  have hreach := Reach.of_run hrun hok
  exact ⟨s, hreach, of_decide_eq_true hs,
    nothing_repeated Sample.settings Sample.beforePasses_twoSnapshots _ _ s hreach⟩

end Retention

end RatatoskrVault
