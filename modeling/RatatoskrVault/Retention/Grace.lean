import RatatoskrVault.Lib.Rely
import RatatoskrVault.Lib.Sequential
import RatatoskrVault.Retention.Locks
import RatatoskrVault.Schema.Evolution

/-! The grace window: how long after its creation a plan is first executed, in terms of the
deadlines its creators ask for. -/
namespace RatatoskrVault.Retention

open Lib

/-- A stage attempt of the plan has been inserted, or a storage delete of the plan is next. -/
def Executed (s : State) (planId : Uuid) : Prop :=
  (∃ a ∈ s.db.attempts, a.planId = planId) ∨
  (∃ i a, .insertAttempt a ∈ (s.session i).log ∧ a.planId = planId) ∨
  ∃ i job identity claimId attemptId,
    (s.session i).loc = .worker (.effect job identity claimId attemptId) ∧ job.plan.planId = planId

/-- Deadlines do not change, and no plan is executed before the grace window has passed since it
was created, nor before the deadline of its tombstone. -/
structure GraceKept (ok : State → Label → Prop) (settings : Settings) (s₀ : State) : Prop where
  deadline : ∀ s s' planId plan, Reach (machine settings).step ok s₀ s →
    Reach (machine settings).step ok s s' → s.db.plan? planId = some plan →
    ∃ plan', s'.db.plan? planId = some plan' ∧ plan'.notBefore = plan.notBefore
  window : ∀ s request s₁ s' plan, Reach (machine settings).step ok s₀ s →
    ok s (.op (.createDeletionPlan request)) →
    (machine settings).step s (.op (.createDeletionPlan request)) = some s₁ →
    plan ∈ s₁.db.plans → plan ∉ s.db.plans → Reach (machine settings).step ok s₁ s' →
    Executed s' plan.planId →
    s.clock + graceSeconds ≤ s'.clock ∧
      ∀ tombstone ∈ s.db.tombstones, plan.tombstoneId = some tombstone.tombstoneId →
        tombstone.notBefore ≤ s'.clock

/-- A plan is created only with a deadline that leaves the grace window. -/
def DeadlinesLeaveGrace (s : State) : Label → Prop
  | .op (.createDeletionPlan request) => s.clock + graceSeconds ≤ request.notBefore
  | _ => True

/-- The deadline of the plan has passed. -/
def Due (db : Db) (clock : Time) (planId : Uuid) : Prop :=
  ∃ p, db.plan? planId = some p ∧ p.notBefore ≤ clock

/-- A catalogue in which no attempt is early and no tombstone is dated ahead of its grace window. -/
structure Dated (db : Db) (clock fresh : ℕ) : Prop where
  plan_ids : ∀ p ∈ db.plans, p.planId < fresh
  tombstones : ∀ t ∈ db.tombstones, t.notBefore ≤ clock + graceSeconds
  attempts : ∀ a ∈ db.attempts, Due db clock a.planId

namespace Grace

def WriteOk (db : Db) (clock : Time) : Write → Prop
  | .insertPlan _ => False
  | .insertAttempt a => Due db clock a.planId
  | .insertTombstone t => t.notBefore ≤ clock + graceSeconds
  | _ => True

def LocOk (db : Db) (clock : Time) : Loc → Prop
  | .worker (.claim job (.commitClaimed _ _ _)) => Due db clock job.plan.planId
  | .worker (.effect job _ _ _) => Due db clock job.plan.planId
  | _ => True

structure SessionOk (e : Shared Db Storage) (_ : Lock → Prop) (σ : Session Write Loc) : Prop where
  began : ∀ t, σ.began = some t → t ≤ e.clock
  log : ∀ w ∈ σ.log, WriteOk e.db e.clock w
  loc : LocOk e.db e.clock σ.loc

/-- Time goes on, and no deadline changes. -/
structure Keeps (e e' : Shared Db Storage) (_ : Lock → Prop) (_ : Session Write Loc) : Prop where
  clock : e.clock ≤ e'.clock
  plans : ∀ planId p, e.db.plan? planId = some p →
    ∃ p', e'.db.plan? planId = some p' ∧ p'.notBefore = p.notBefore

variable {db : Db} {clock : Time} {fresh : ℕ} {e e' : Shared Db Storage}
  {H : Lock → Prop} {σ : Session Write Loc} {m : Moment} {locks : List Lock}
  {log writes : List Write}

theorem due_applyAll {planId : Uuid} (h : Due db clock planId) :
    Due (db.applyAll log) clock planId := by
  obtain ⟨p, hp, hdue⟩ := h
  obtain ⟨p', hp', hsame⟩ := Db.plan?_applyAll log hp
  exact ⟨p', hp', hsame.notBefore ▸ hdue⟩

theorem keeps_applyAll {world : Storage} (log : List Write) :
    Keeps e { e with db := e.db.applyAll log, world, fresh } H σ := by
  refine ⟨Nat.le_refl _, fun planId p hp => ?_⟩
  obtain ⟨p', hp', hsame⟩ := Db.plan?_applyAll log hp
  exact ⟨p', hp', hsame.notBefore⟩

theorem due_keeps (hkeeps : Keeps e e' H σ) {planId : Uuid} (h : Due e.db e.clock planId) :
    Due e'.db e'.clock planId := by
  obtain ⟨p, hp, hdue⟩ := h
  obtain ⟨p', hp', hsame⟩ := hkeeps.plans planId p hp
  refine ⟨p', hp', ?_⟩
  rw [hsame]
  exact Nat.le_trans hdue hkeeps.clock

theorem locOk_keeps (hkeeps : Keeps e e' H σ) {loc : Loc} (h : LocOk e.db e.clock loc) :
    LocOk e'.db e'.clock loc := by
  unfold LocOk at h ⊢
  split
  · exact due_keeps hkeeps h
  · exact due_keeps hkeeps h
  · trivial

theorem stable (e e' : Shared Db Storage) (H : Lock → Prop) (σ : Session Write Loc)
    (hkeeps : Keeps e e' H σ) (h : SessionOk e H σ) : SessionOk e' H σ := by
  refine ⟨fun t ht => Nat.le_trans (h.began t ht) hkeeps.clock, fun w hw => ?_,
    locOk_keeps hkeeps h.loc⟩
  have hold := h.log w hw
  cases w with
  | insertPlan row => exact hold
  | insertAttempt a => exact due_keeps hkeeps hold
  | insertTombstone t => exact Nat.le_trans hold (Nat.add_le_add_right hkeeps.clock _)
  | _ => trivial

theorem no_insertPlan (h : ∀ w ∈ log, WriteOk db clock w) : ∀ p, .insertPlan p ∉ log :=
  fun _ hmem => h _ hmem

/-- The insert guard has read a plan whose deadline has passed. -/
theorem due_of_guard {attempt : StageAttempt} (hlog : ∀ w ∈ log, WriteOk db clock w)
    (h : (db.applyAll log).guardDeletionStageInsert clock attempt = .ok ()) :
    Due db clock attempt.planId := by
  unfold Db.guardDeletionStageInsert at h
  cases hplan : (db.applyAll log).plan? attempt.planId with
  | none => rw [hplan] at h; cases h
  | some plan =>
    rw [hplan] at h
    have hdue : ¬ clock < plan.notBefore := by
      intro hearly
      simp only [hearly, if_true] at h
      cases h
    obtain ⟨p, hp, hsame⟩ := Db.of_plan?_applyAll hplan (no_insertPlan hlog)
    refine ⟨p, hp, ?_⟩
    rw [← hsame.notBefore]
    exact Nat.le_of_not_lt hdue

theorem session_stmt {loc next : Loc} (hnow : m.now ≤ clock) (hclock : m.clock = clock)
    (hlog : ∀ w ∈ log, WriteOk db clock w)
    (hstmt : SessionStmt m (db.applyAll log) loc locks writes next) :
    (∀ w ∈ writes, WriteOk db clock w) ∧ LocOk db clock next := by
  cases hstmt with
  | worker h =>
    cases h with
    | insertShared hid hplan hstage houtcome hguard =>
      rw [hclock] at hguard
      refine ⟨fun w hw => ?_, trivial⟩
      rw [List.mem_singleton.mp hw]
      exact due_of_guard hlog hguard
    | @insertAttempt job row identity claimId attempt hid hplan hstage houtcome hguard =>
      rw [hclock] at hguard
      have hdue := due_of_guard hlog hguard
      refine ⟨fun w hw => ?_, ?_⟩
      · rw [List.mem_singleton.mp hw]
        exact hdue
      · rw [hplan] at hdue
        exact hdue
    | abandonStage =>
      refine ⟨fun w hw => ?_, trivial⟩
      obtain ⟨a, -, rfl⟩ := List.mem_map.mp hw
      trivial
    | abandonClaims =>
      refine ⟨fun w hw => ?_, trivial⟩
      obtain ⟨c, -, rfl⟩ := List.mem_map.mp hw
      trivial
    | _ => exact ⟨by simp [WriteOk], trivial⟩
  | capture h => cases h <;> exact ⟨by simp [WriteOk], trivial⟩
  | transition h =>
    cases h with
    | insertTombstone =>
      refine ⟨fun w hw => ?_, trivial⟩
      rw [List.mem_singleton.mp hw]
      exact Nat.add_le_add_right hnow _
    | cancelPlans =>
      refine ⟨fun w hw => ?_, trivial⟩
      obtain ⟨p, -, rfl⟩ := List.mem_map.mp hw
      trivial
    | _ => exact ⟨by simp [WriteOk], trivial⟩

theorem dated_applyAll (h : Dated db clock fresh) (hlog : ∀ w ∈ log, WriteOk db clock w) :
    Dated (db.applyAll log) clock fresh := by
  refine ⟨fun p hp => ?_, ?_, fun a ha => due_applyAll ?_⟩
  · have hmem : p.planId ∈ db.plans.map (·.planId) := by
      rw [← Db.planIds_applyAll (no_insertPlan hlog)]
      exact List.mem_map.mpr ⟨p, hp, rfl⟩
    obtain ⟨p₀, hp₀, hid⟩ := List.mem_map.mp hmem
    rw [← hid]
    exact h.plan_ids p₀ hp₀
  · refine foldl_invariant
      (I := fun d : Db => ∀ t ∈ d.tombstones, t.notBefore ≤ clock + graceSeconds)
      (fun d w hw hd => ?_) h.tombstones
    have hok := hlog w hw
    cases w with
    | insertTombstone row =>
      intro t ht
      rcases List.mem_append.mp ht with hold | hnew
      · exact hd t hold
      · rw [List.mem_singleton.mp hnew]
        exact hok
    | cancelTombstone id at_ => exact forall_updateWhere hd fun t _ ht _ => ht
    | completeTombstone id at_ => exact forall_updateWhere hd fun t _ ht _ => ht
    | _ => exact hd
  · obtain ⟨a₀, ha₀, -, hplan, -⟩ := Db.of_mem_attempts_applyAll ha
    rw [hplan]
    rcases ha₀ with hold | hnew
    · exact h.attempts a₀ hold
    · exact hlog _ hnew

theorem dated_mono {clock' fresh' : ℕ} (h : Dated db clock fresh) (hclock : clock ≤ clock')
    (hfresh : fresh ≤ fresh') : Dated db clock' fresh' := by
  refine ⟨fun p hp => Nat.lt_of_lt_of_le (h.plan_ids p hp) hfresh,
    fun t ht => Nat.le_trans (h.tombstones t ht) (Nat.add_le_add_right hclock _), fun a ha => ?_⟩
  obtain ⟨p, hp, hdue⟩ := h.attempts a ha
  exact ⟨p, hp, Nat.le_trans hdue hclock⟩

theorem dated_operate {o : Op} (hfresh : m.fresh = fresh) (h : Dated db clock fresh)
    (hop : OpWrites db m o locks writes) : Dated (db.applyAll writes) clock (fresh + 1) := by
  have hmono := dated_mono h (Nat.le_refl clock) (Nat.le_succ fresh)
  cases hop with
  | protectedPinned => exact hmono
  | planned hsnapshot hpin hallowed hrow =>
    refine ⟨fun p hp => ?_, hmono.tombstones, fun a ha => due_applyAll (h.attempts a ha)⟩
    rcases List.mem_append.mp hp with hold | hnew
    · exact hmono.plan_ids p hold
    · rw [List.mem_singleton.mp hnew, hrow.planId, hfresh]
      exact Nat.lt_succ_self _
  | pinKept => exact hmono
  | pinned => exact ⟨hmono.plan_ids, hmono.tombstones, hmono.attempts⟩
  | revoked => exact ⟨hmono.plan_ids, hmono.tombstones, hmono.attempts⟩

def Inv : State → Prop := Machine.Beside (fun e => Dated e.db e.clock e.fresh) SessionOk

theorem sessionOk_rest {loc : Loc} (h : LocOk e.db e.clock loc) : SessionOk e H ⟨loc, [], none⟩ :=
  ⟨by simp, by simp, h⟩

theorem locOk_idle {loc : Loc} (h : loc.isIdle = true) : LocOk db clock loc := by
  unfold LocOk
  split
  · cases h
  · cases h
  · trivial

theorem locOk_next {plan : DeletionExecutionPlan} {tasks : List Task} :
    LocOk db clock (.worker (WorkerLoc.next plan tasks)) := by
  match tasks with
  | [] => trivial
  | .stage unit :: rest => trivial
  | .advance :: rest => trivial
  | .complete :: rest => trivial

theorem now_le {s : State} {i : ℕ} (h : SessionOk s.shared H (s.session i)) :
    (s.moment i).now ≤ s.clock := by
  unfold State.moment
  cases hbegan : (s.session i).began with
  | none => exact Nat.le_refl _
  | some t => exact h.began t hbegan

theorem inv_step {settings : Settings} : ∀ s l s', Inv s → True →
    (machine settings).step s l = some s' → Inv s' := by
  refine Machine.Beside.step (R := Keeps) (fun _ _ _ _ _ h => ⟨h.began, h.log, h.loc⟩) stable
    ?_ ?_ ?_ ?_ (fun _ => sessionOk_rest trivial)
    ?_ ?_ ?_ ?_ ?_ ?_ ?_
  · exact fun e H σ => ⟨Nat.le_refl _, fun _ p hp => ⟨p, hp, rfl⟩⟩
  · exact fun e n H σ => ⟨Nat.le_add_right _ _, fun _ p hp => ⟨p, hp, rfl⟩⟩
  · exact fun e h => dated_mono h (Nat.le_refl _) (Nat.le_succ _)
  · exact fun e n h => dated_mono h (Nat.le_add_right _ _) (Nat.le_refl _)
  · intro s i proc _ _
    cases proc <;> exact sessionOk_rest trivial
  · intro s i io locks writes next h _ hact _
    change act settings (s.session i).loc (s.moment i) _ s.world io = _ at hact
    have hσ := h.sessions i
    obtain ⟨hwrites, hnext⟩ := session_stmt (now_le hσ) rfl hσ.log (act_stmt hact)
    refine ⟨?_, fun w hw => ?_, hnext⟩
    · rintro t ht
      obtain rfl := Option.some.inj ht
      exact now_le hσ
    · rcases List.mem_append.mp hw with hold | hnew
      · exact hσ.log w hold
      · exact hwrites w hnew
  · intro s i io locks writes next h _ hact _
    change act settings (s.session i).loc (s.moment i) _ s.world io = _ at hact
    have hauto := act_auto hact
    generalize (s.session i).loc = loc at hauto
    have hwrites : ∀ w ∈ writes, WriteOk s.db s.clock w := by
      cases hauto with
      | worker hauto => cases hauto <;> simp [WriteOk]
      | capture hauto => simp
    have hnext : ∀ d, LocOk d s.clock next := by
      intro d
      cases hauto with
      | worker hauto =>
        cases hauto with
        | ungated => exact locOk_next
        | gateMissing => exact locOk_next
        | gate => exact locOk_next
        | advanceWrite => exact locOk_next
        | _ => trivial
      | capture hauto => trivial
    refine ⟨dated_mono (dated_applyAll h.shared hwrites) (Nat.le_refl _) (Nat.le_succ _),
      fun j _ => keeps_applyAll writes, sessionOk_rest (hnext _)⟩
  · intro s i io next h _ hact
    change act settings (s.session i).loc (s.moment i) _ s.world io = _ at hact
    have hσ := h.sessions i
    have hloc := hσ.loc
    refine ⟨dated_applyAll h.shared hσ.log, fun j _ => keeps_applyAll _, sessionOk_rest ?_⟩
    generalize (s.session i).loc = loc at hact hloc
    cases act_commit hact with
    | worker hcommit =>
      cases hcommit with
      | claimed => exact due_applyAll hloc
      | shared => exact locOk_next
      | recorded => exact locOk_next
      | _ => trivial
    | capture => trivial
    | transition => trivial
  · intro s i io next h _ hact
    change act settings (s.session i).loc (s.moment i) _ s.world io = _ at hact
    exact sessionOk_rest (locOk_idle (isIdle_of_rollback hact))
  · intro s i io world next h _ hact
    change act settings (s.session i).loc (s.moment i) _ s.world io = _ at hact
    refine ⟨dated_mono h.shared (Nat.le_refl _) (Nat.le_succ _), fun j _ => ?_, sessionOk_rest ?_⟩
    · exact keeps_applyAll (e := s.shared) []
    · generalize (s.session i).loc = loc at hact
      cases act_call hact with
      | worker => trivial
      | capture => trivial
  · intro s o locks writes h _ hop _
    exact ⟨dated_operate rfl h.shared (operate_writes hop), fun j => keeps_applyAll writes⟩

theorem plan_kept {settings : Settings} {ok : State → Label → Prop} {s s' : State} {planId : Uuid}
    {plan : DeletionPlan} (hreach : Reach (machine settings).step ok s s')
    (hplan : s.db.plan? planId = some plan) :
    ∃ plan', s'.db.plan? planId = some plan' ∧ plan'.notBefore = plan.notBefore := by
  refine Reach.invariant (I := fun y : State => ∃ plan', y.db.plan? planId = some plan' ∧
    plan'.notBefore = plan.notBefore) ⟨plan, hplan, rfl⟩ ?_ hreach
  rintro x l y ⟨p, hp, hsame⟩ _ hstep
  have hwrites : ∃ log, y.db = x.db.applyAll log := by
    rcases Machine.step_db hstep with hdb | ⟨_, _, _, writes, _, _, _, hdb⟩ | ⟨i, _, _, _, _, hdb⟩ |
      ⟨_, _, writes, _, _, hdb⟩
    · exact ⟨[], hdb⟩
    · exact ⟨writes, hdb⟩
    · exact ⟨(x.session i).log, hdb⟩
    · exact ⟨writes, hdb⟩
  obtain ⟨log, hdb⟩ := hwrites
  obtain ⟨p', hp', hkept⟩ := Db.plan?_applyAll log hp
  exact ⟨p', hdb ▸ hp', hkept.notBefore.trans hsame⟩

theorem due_of_executed {s : State} {planId : Uuid} (h : Inv s) (hexecuted : Executed s planId) :
    Due s.db s.clock planId := by
  rcases hexecuted with ⟨a, ha, rfl⟩ | ⟨i, a, hw, rfl⟩ | ⟨i, job, identity, claimId, attemptId, hloc,
    rfl⟩
  · exact h.shared.attempts a ha
  · exact (h.sessions i).log _ hw
  · have hdue := (h.sessions i).loc
    rw [hloc] at hdue
    exact hdue

end Grace

/-- Deadlines that leave the grace window are enough: no statement or storage call comes early. -/
theorem grace_kept (settings : Settings) {db : Db} {clock fresh : ℕ} (h : Dated db clock fresh)
    (storage : Storage) :
    GraceKept DeadlinesLeaveGrace settings (initial db storage clock fresh) := by
  have hinv : ∀ s, Reach (machine settings).step DeadlinesLeaveGrace
      (initial db storage clock fresh) s → Grace.Inv s := by
    intro s hreach
    have hinitial : Grace.Inv (initial db storage clock fresh) :=
      ⟨h, fun _ => Grace.sessionOk_rest trivial, fun _ _ _ hl => absurd hl List.not_mem_nil⟩
    exact Reach.invariant hinitial (fun x l y hx _ => Grace.inv_step x l y hx trivial) hreach
  refine ⟨fun s s' planId plan _ hreach hplan => Grace.plan_kept hreach hplan, ?_⟩
  intro s request s₁ s' plan hreach hok hstep hmem hnew hreach' hexecuted
  have hs := hinv s hreach
  have hs' := hinv s' ((hreach.tail hok hstep).trans hreach')
  -- the plan is the row the request was turned into
  obtain ⟨⟨locks, writes⟩, hop, hp⟩ := Option.bind_eq_some_iff.mp hstep
  simp only at hp
  split_ifs at hp
  obtain rfl := Option.some.inj hp
  have hwrites := operate_writes (o := .createDeletionPlan request) hop
  have hrow : PlannedAs { now := s.clock, clock := s.clock, fresh := s.fresh } request plan ∧
      writes = [.insertPlan plan] := by
    cases hwrites with
    | protectedPinned => exact absurd hmem hnew
    | planned hsnapshot hpin hallowed hrow =>
      rcases List.mem_append.mp hmem with hold | hplan
      · exact absurd hold hnew
      · rw [List.mem_singleton.mp hplan]
        exact ⟨hrow, rfl⟩
  obtain ⟨hrow, rfl⟩ := hrow
  have hfind : (s.db.apply (.insertPlan plan)).plan? plan.planId = some plan := by
    have hnone : s.db.plans.find? (fun p => p.planId == plan.planId) = none := by
      refine List.find?_eq_none.mpr fun p hp hid => ?_
      have hlt := hs.shared.plan_ids p hp
      rw [beq_iff_eq.mp hid, hrow.planId] at hlt
      exact Nat.lt_irrefl _ hlt
    unfold Db.plan?
    simp [Db.apply, List.find?_append, hnone]
  obtain ⟨plan', hplan', hsame⟩ := Grace.plan_kept hreach' hfind
  obtain ⟨p, hp, hdue⟩ := Grace.due_of_executed hs' hexecuted
  have hnotBefore : request.notBefore ≤ s'.clock := by
    rw [← hrow.notBefore, ← hsame, ← Option.some.inj (hp.symm.trans hplan')]
    exact hdue
  have hgrace : s.clock + graceSeconds ≤ s'.clock := Nat.le_trans hok hnotBefore
  exact ⟨hgrace, fun tombstone ht _ => Nat.le_trans (hs.shared.tombstones tombstone ht) hgrace⟩

namespace Sample

/-- A plan for one of two snapshots whose deadline has passed when it is created. -/
def pastDeadline : DeletionPlanRequest :=
  { evaluationId := 0, targetId := 1, snapshotId := 4, tombstoneId := none, automatic := true
    tombstonedAt := 0, notBefore := 1, estimatedBytes := 0, correlationId := 0 }

end Sample

/-- The first storage delete is next at the time at which the plan was created. -/
theorem executed_without_grace :
    ¬ GraceKept (fun _ _ => True) Sample.settings
      (initial Sample.twoSnapshots Sample.storage 10 100) := by
  intro h
  obtain ⟨s₁, hstep, hs₁⟩ : ∃ s₁, run (machine Sample.settings).step
      (initial Sample.twoSnapshots Sample.storage 10 100)
      [.op (.createDeletionPlan Sample.pastDeadline)] = some s₁ ∧
      (s₁.db.plans.any (fun p => p.planId == 100) &&
        (run (machine Sample.settings).step s₁
          (.start 0 (.runPlan 100) :: List.replicate 15 (.exec 0 .ok))).any fun s' =>
            s'.clock == 10 && s'.db.attempts.any fun a => a.planId == 100) = true :=
    exists_of_run_any (by decide +kernel)
  simp only [Bool.and_eq_true, List.any_eq_true, Option.any_eq_true, beq_iff_eq] at hs₁
  obtain ⟨⟨plan, hplan, hid⟩, s', hrun, hclock, a, ha, hattempt⟩ := hs₁
  obtain ⟨s₂, hop, hsame⟩ := Option.bind_eq_some_iff.mp hstep
  obtain rfl : s₂ = s₁ := Option.some.inj hsame
  have hreach : Reach (machine Sample.settings).step (fun _ _ => True) s₂ s' :=
    Reach.of_run hrun (along_of_forall (fun _ _ _ => trivial) _)
  have hexecuted : Executed s' plan.planId := Or.inl ⟨a, ha, hattempt.trans hid.symm⟩
  obtain ⟨hgrace, -⟩ := h.window _ _ s₂ s' plan .refl trivial hop hplan List.not_mem_nil hreach
    hexecuted
  rw [hclock] at hgrace
  exact absurd hgrace (by decide)

theorem grace_kept_two_snapshots :
    Dated Sample.twoSnapshots 10 100 ∧
      GraceKept DeadlinesLeaveGrace Sample.settings
        (initial Sample.twoSnapshots Sample.storage 10 100) := by
  have h : Dated Sample.twoSnapshots 10 100 := by
    refine ⟨?_, ?_, ?_⟩
    · intro p hp
      cases hp
    · intro t ht
      cases ht
    · intro a ha
      cases ha
  exact ⟨h, grace_kept Sample.settings h Sample.storage⟩

end RatatoskrVault.Retention
