import RatatoskrVault.Lib.Rely
import RatatoskrVault.Retention.Locks
import RatatoskrVault.Schema.Evolution

/-! Pins and physical effects: a claim holds the snapshot row until it commits, so a pin comes
before the claim's check or after its commit, and what is left is the time between the commit and
the storage call. -/
namespace RatatoskrVault.Retention

open Lib

/-- The storage call of session `i` is next, for an automatic plan of the snapshot. -/
def AboutToDelete (s : State) (i : ℕ) (snapshotId : Uuid) : Prop :=
  ∃ job identity claimId attemptId plan,
    (s.session i).loc = .worker (.effect job identity claimId attemptId) ∧
    s.db.plan? job.plan.planId = some plan ∧ plan.automatic = true ∧ plan.snapshotId = snapshotId

/-- No storage call of an automatic plan is made while the plan's snapshot has an active pin. -/
def EffectsUnpinned (s : State) : Prop :=
  ∀ i snapshotId, AboutToDelete s i snapshotId → s.db.snapshotIsPinned snapshotId = false

/-- A pin waits for the storage calls already claimed against its snapshot. -/
def PinsWait (s : State) : Label → Prop
  | .op (.pinSnapshot snapshotId _ _) => ∀ i, ¬ AboutToDelete s i snapshotId
  | _ => True

namespace Pins

/-- Plans are created and pins changed by operations of their own. -/
def Foreign : Write → Prop
  | .insertPlan _ => False
  | .insertPin _ => False
  | .revokePin _ _ => False
  | _ => True

variable {db : Db} {m : Moment} {locks : List Lock} {log writes : List Write}

theorem foreign_stmt {loc next : Loc} (h : SessionStmt m db loc locks writes next) :
    ∀ w ∈ writes, Foreign w := by
  cases h with
  | worker h =>
    cases h with
    | abandonStage =>
      intro w hw
      obtain ⟨a, -, rfl⟩ := List.mem_map.mp hw
      trivial
    | abandonClaims =>
      intro w hw
      obtain ⟨c, -, rfl⟩ := List.mem_map.mp hw
      trivial
    | _ => simp [Foreign]
  | capture h => cases h <;> simp [Foreign]
  | transition h =>
    cases h with
    | cancelPlans =>
      intro w hw
      obtain ⟨p, -, rfl⟩ := List.mem_map.mp hw
      trivial
    | _ => simp [Foreign]

theorem foreign_auto {loc next : Loc} (h : SessionAuto m db loc locks writes next) :
    ∀ w ∈ writes, Foreign w := by
  cases h with
  | worker h => cases h <;> simp [Foreign]
  | capture h => simp

theorem snapshotIsPinned_applyAll (h : ∀ w ∈ log, Foreign w) (snapshotId : Uuid) :
    (db.applyAll log).snapshotIsPinned snapshotId = db.snapshotIsPinned snapshotId := by
  refine foldl_invariant
    (I := fun d : Db => d.snapshotIsPinned snapshotId = db.snapshotIsPinned snapshotId)
    (fun d w hw hd => ?_) rfl
  have hw' := h w hw
  cases w with
  | insertPin row => exact hw'.elim
  | revokePin pinId at_ => exact hw'.elim
  | _ => exact hd

/-- The claim has found the plan due and its snapshot free of pins. -/
def Cleared (db : Db) (H : Lock → Prop) (planId : Uuid) : Prop :=
  ∃ p, db.plan? planId = some p ∧ H (.snapshot p.snapshotId) ∧
    (p.automatic = true → db.snapshotIsPinned p.snapshotId = false)

def LocOk (db : Db) (H : Lock → Prop) : Loc → Prop
  | .worker (.claim _ .load) => True
  | .worker (.claim _ .commitDeferred) => True
  | .worker (.claim _ (.commitShared _)) => True
  | .worker (.claim job (.refusal row)) =>
    ∃ p, db.plan? job.plan.planId = some p ∧ H (.snapshot p.snapshotId) ∧
      row.snapshotId = p.snapshotId ∧ row.automatic = p.automatic
  | .worker (.claim job _) => Cleared db H job.plan.planId
  | .worker (.effect job _ _ _) => Cleared db (fun _ => True) job.plan.planId
  | _ => True

structure SessionOk (e : Shared Db Storage) (H : Lock → Prop) (σ : Session Write Loc) : Prop where
  log : ∀ w ∈ σ.log, Foreign w
  loc : LocOk e.db H σ.loc

/-- The session is about to delete an object of an automatic plan of the snapshot. -/
def Deletes (db : Db) (loc : Loc) (snapshotId : Uuid) : Prop :=
  ∃ job identity claimId attemptId plan,
    loc = .worker (.effect job identity claimId attemptId) ∧
    db.plan? job.plan.planId = some plan ∧ plan.automatic = true ∧ plan.snapshotId = snapshotId

/-- Plans keep their identity, and no pin is added under a lock or before a claimed call. -/
structure Keeps (e e' : Shared Db Storage) (H : Lock → Prop) (σ : Session Write Loc) : Prop where
  plans : ∀ planId p, e.db.plan? planId = some p →
    ∃ p', e'.db.plan? planId = some p' ∧ p.SameAs p'
  pins : ∀ snapshotId, H (.snapshot snapshotId) ∨ Deletes e.db σ.loc snapshotId →
    e.db.snapshotIsPinned snapshotId = false → e'.db.snapshotIsPinned snapshotId = false

variable {e e' : Shared Db Storage} {H : Lock → Prop} {σ : Session Write Loc}

theorem keeps_applyAll (log : List Write) {world : Storage} {fresh : ℕ} (h : ∀ w ∈ log, Foreign w) :
    Keeps e { e with db := e.db.applyAll log, world, fresh } H σ := by
  refine ⟨fun planId p hp => Db.plan?_applyAll log hp, fun snapshotId _ hfree => ?_⟩
  rw [← hfree]
  exact snapshotIsPinned_applyAll h snapshotId

theorem cleared_keeps {K : Lock → Prop} {planId : Uuid} (hkeeps : Keeps e e' H σ)
    (hK : ∀ p, e.db.plan? planId = some p → p.automatic = true → K (.snapshot p.snapshotId) →
      H (.snapshot p.snapshotId) ∨ Deletes e.db σ.loc p.snapshotId)
    (h : Cleared e.db K planId) : Cleared e'.db K planId := by
  obtain ⟨p, hp, hheld, hfree⟩ := h
  obtain ⟨p', hp', hsame⟩ := hkeeps.plans planId p hp
  refine ⟨p', hp', ?_, fun hauto => ?_⟩
  · rw [hsame.snapshotId]
    exact hheld
  · rw [hsame.automatic] at hauto
    rw [hsame.snapshotId]
    exact hkeeps.pins p.snapshotId (hK p hp hauto hheld) (hfree hauto)

theorem stable (e e' : Shared Db Storage) (H : Lock → Prop) (σ : Session Write Loc)
    (hkeeps : Keeps e e' H σ) (h : SessionOk e H σ) : SessionOk e' H σ := by
  refine ⟨h.log, ?_⟩
  obtain ⟨loc, log, began⟩ := σ
  have hloc : LocOk e.db H loc := h.loc
  show LocOk e'.db H loc
  cases loc with
  | worker at_ =>
    cases at_ with
    | claim job at_ =>
      cases at_ with
      | load => trivial
      | commitDeferred => trivial
      | commitShared identity => trivial
      | refusal row =>
        obtain ⟨p, hp, hheld, hid, hauto⟩ := hloc
        obtain ⟨p', hp', hsame⟩ := hkeeps.plans _ p hp
        refine ⟨p', hp', ?_, hid.trans hsame.snapshotId.symm, hauto.trans hsame.automatic.symm⟩
        rw [hsame.snapshotId]
        exact hheld
      | _ => exact cleared_keeps hkeeps (fun _ _ _ hheld => Or.inl hheld) hloc
    | effect job identity claimId attemptId =>
      have hcleared : Cleared e.db (fun _ => True) job.plan.planId := hloc
      refine cleared_keeps hkeeps (fun p hp hauto _ => Or.inr ?_) hcleared
      exact ⟨job, identity, claimId, attemptId, p, rfl, hp, hauto, rfl⟩
    | _ => trivial
  | _ => trivial

theorem mono (e : Shared Db Storage) (H H' : Lock → Prop) (σ : Session Write Loc)
    (hH : ∀ l, H l → H' l) (h : SessionOk e H σ) : SessionOk e H' σ := by
  refine ⟨h.log, ?_⟩
  have hloc := h.loc
  generalize σ.loc = loc at hloc ⊢
  cases loc with
  | worker at_ =>
    cases at_ with
    | claim job at_ =>
      cases at_ with
      | load => trivial
      | commitDeferred => trivial
      | commitShared identity => trivial
      | refusal row =>
        obtain ⟨p, hp, hheld, hrow⟩ := hloc
        exact ⟨p, hp, hH _ hheld, hrow⟩
      | _ =>
        obtain ⟨p, hp, hheld, hfree⟩ := hloc
        exact ⟨p, hp, hH _ hheld, hfree⟩
    | effect job identity claimId attemptId => exact hloc
    | _ => trivial
  | _ => trivial

theorem locOk_next {plan : DeletionExecutionPlan} {tasks : List Task} :
    LocOk db H (.worker (WorkerLoc.next plan tasks)) := by
  match tasks with
  | [] => trivial
  | .stage unit :: rest => trivial
  | .advance :: rest => trivial
  | .complete :: rest => trivial

theorem locOk_idle {loc : Loc} (h : loc.isIdle = true) : LocOk db H loc := by
  unfold LocOk
  split <;> trivial

/-- The check of the claim reads the committed pins under the lock it has taken. -/
theorem locOk_stmt {loc next : Loc} (hlog : ∀ w ∈ log, Foreign w) (h : LocOk db H loc)
    (hstmt : SessionStmt m (db.applyAll log) loc locks writes next) :
    LocOk db (fun l => l ∈ locks ∨ H l) next := by
  have hheld : ∀ {planId}, Cleared db H planId →
      Cleared db (fun l => l ∈ locks ∨ H l) planId := fun ⟨p, hp, hsnapshot, hfree⟩ =>
    ⟨p, hp, Or.inr hsnapshot, hfree⟩
  cases hstmt with
  | worker hstmt =>
    cases hstmt with
    | @claimLoad job plan hplan =>
      have hinsert : ∀ p, .insertPlan p ∉ log := fun p hp => hlog _ hp
      obtain ⟨p, hp, hsame⟩ := Db.of_plan?_applyAll hplan hinsert
      refine ⟨p, hp, Or.inl ?_, hsame.snapshotId, hsame.automatic⟩
      rw [hsame.snapshotId]
      exact List.mem_cons_of_mem _ (List.mem_singleton.mpr rfl)
    | accept hgrace hpin =>
      obtain ⟨p, hp, hsnapshot, hid, hauto⟩ := h
      refine ⟨p, hp, Or.inr hsnapshot, fun hp' => ?_⟩
      rw [hid, snapshotIsPinned_applyAll hlog] at hpin
      exact hpin (hauto.trans hp')
    | refuse => trivial
    | identity => exact hheld h
    | advancePlanned => exact hheld h
    | advanceStarted => exact hheld h
    | abandonStage => exact hheld h
    | lockIdentity => exact hheld h
    | shared => exact hheld h
    | notShared => exact hheld h
    | abandonClaims => exact hheld h
    | insertClaim => exact hheld h
    | insertAttempt => exact hheld h
    | _ => trivial
  | capture hstmt => trivial
  | transition hstmt => trivial

/-- An operation adds no pin to a snapshot whose row is locked, or whose deletion is next. -/
theorem keeps_operate {o : Op} (hop : OpWrites e.db m o locks writes)
    (hlocks : ∀ l, H l → l ∉ locks)
    (hpin : ∀ snapshotId source sourceReference, o = .pinSnapshot snapshotId source sourceReference →
      ¬ Deletes e.db σ.loc snapshotId) :
    Keeps e { e.used with db := e.db.applyAll writes } H σ := by
  refine ⟨fun planId p hp => Db.plan?_applyAll writes hp, fun snapshotId hguarded hfree => ?_⟩
  cases hop with
  | protectedPinned => exact hfree
  | planned => exact hfree
  | pinKept => exact hfree
  | @pinned pinnedId source sourceReference =>
    have hne : pinnedId ≠ snapshotId := by
      rintro rfl
      rcases hguarded with hheld | hdeletes
      · exact hlocks _ hheld (List.mem_singleton.mpr rfl)
      · exact hpin _ source sourceReference rfl hdeletes
    simpa [Db.applyAll, Db.apply, Db.snapshotIsPinned, hne] using hfree
  | @revoked pinId pin hmem =>
    have hnone : ∀ pin ∈ e.db.pins, pin.snapshotId = snapshotId → pin.revokedAt ≠ none := by
      simpa [Db.snapshotIsPinned] using hfree
    have hkept := forall_updateWhere
      (p := fun q : SnapshotPin => q.pinId == pinId && q.revokedAt.isNone)
      (f := fun q => { q with revokedAt := some m.now }) hnone fun q _ _ _ _ => by simp
    simpa [Db.applyAll, Db.apply, Db.snapshotIsPinned] using hkept

def Inv : State → Prop := Machine.Beside (fun _ => True) SessionOk

theorem sessionOk_rest {loc : Loc} (h : LocOk e.db H loc) : SessionOk e H ⟨loc, [], none⟩ :=
  ⟨by simp, h⟩

theorem inv_step {settings : Settings} : ∀ s l s', Inv s → PinsWait s l →
    (machine settings).step s l = some s' → Inv s' := by
  refine Machine.Beside.step (R := Keeps) mono stable ?_ ?_ (fun _ _ => trivial)
    (fun _ _ _ => trivial) (fun _ => sessionOk_rest trivial) ?_ ?_ ?_ ?_ ?_ ?_ ?_
  · exact fun e H σ => ⟨fun _ p hp => ⟨p, hp, rfl⟩, fun _ _ hfree => hfree⟩
  · exact fun e n H σ => ⟨fun _ p hp => ⟨p, hp, rfl⟩, fun _ _ hfree => hfree⟩
  · intro s i proc _ _
    cases proc <;> exact sessionOk_rest trivial
  · intro s i io locks writes next h _ hact _
    change act settings (s.session i).loc (s.moment i) _ s.world io = _ at hact
    have hσ := h.sessions i
    have hstmt := act_stmt hact
    refine ⟨fun w hw => ?_, locOk_stmt hσ.log hσ.loc hstmt⟩
    rcases List.mem_append.mp hw with hold | hnew
    · exact hσ.log w hold
    · exact foreign_stmt hstmt w hnew
  · intro s i io locks writes next h _ hact _
    change act settings (s.session i).loc (s.moment i) _ s.world io = _ at hact
    have hauto := act_auto hact
    refine ⟨trivial, fun j _ => keeps_applyAll writes (foreign_auto hauto), sessionOk_rest ?_⟩
    generalize (s.session i).loc = loc at hauto
    cases hauto with
    | worker hauto =>
      cases hauto with
      | ungated => exact locOk_next
      | gateMissing => exact locOk_next
      | gate => exact locOk_next
      | advanceWrite => exact locOk_next
      | _ => trivial
    | capture hauto => trivial
  · intro s i io next h _ hact
    change act settings (s.session i).loc (s.moment i) _ s.world io = _ at hact
    have hσ := h.sessions i
    have hloc := hσ.loc
    have hkeeps : Keeps s.shared { s.shared with db := s.db.applyAll (s.session i).log }
        (s.holds i) (s.session i) := keeps_applyAll _ hσ.log
    refine ⟨trivial, fun j _ => keeps_applyAll _ hσ.log, sessionOk_rest ?_⟩
    generalize (s.session i).loc = loc at hact hloc
    cases act_commit hact with
    | worker hcommit =>
      cases hcommit with
      | claimed =>
        obtain ⟨p, hp, hheld, hfree⟩ := hloc
        obtain ⟨p', hp', hsame⟩ := hkeeps.plans _ p hp
        refine ⟨p', hp', trivial, fun hauto => ?_⟩
        rw [hsame.automatic] at hauto
        rw [hsame.snapshotId]
        exact hkeeps.pins _ (Or.inl hheld) (hfree hauto)
      | shared => exact locOk_next
      | recorded => exact locOk_next
      | _ => trivial
    | capture => trivial
    | transition => trivial
  · intro s i io next h _ hact
    change act settings (s.session i).loc (s.moment i) _ s.world io = _ at hact
    exact sessionOk_rest (locOk_idle (isIdle_of_rollback hact))
  · intro s i io world next h _ hact
    change act settings (s.session i).loc (s.moment i) _ s.world io = _ at hact
    refine ⟨trivial, fun j _ => keeps_applyAll (e := s.shared) [] (by simp),
      sessionOk_rest ?_⟩
    generalize (s.session i).loc = loc at hact
    cases act_call hact with
    | worker => trivial
    | capture => trivial
  · intro s o locks writes h hok hop hfree
    refine ⟨trivial, fun j => keeps_operate (operate_writes hop) (fun l hl => hfree l j hl) ?_⟩
    rintro snapshotId source sourceReference rfl ⟨job, identity, claimId, attemptId, plan, hdeletes⟩
    exact hok j ⟨job, identity, claimId, attemptId, plan, hdeletes⟩

end Pins

/-- As long as pins wait for the storage calls already claimed, an active pin blocks them all. -/
theorem pin_blocks_effects (settings : Settings) (db : Db) (storage : Storage) (clock fresh : ℕ)
    (s : State)
    (hreach : Reach (machine settings).step PinsWait (initial db storage clock fresh) s) :
    EffectsUnpinned s := by
  have hinitial : Pins.Inv (initial db storage clock fresh) :=
    ⟨trivial, fun _ => Pins.sessionOk_rest trivial, fun _ _ _ hl => absurd hl List.not_mem_nil⟩
  have hinv : Pins.Inv s := Reach.invariant hinitial Pins.inv_step hreach
  rintro i snapshotId ⟨job, identity, claimId, attemptId, plan, hloc, hplan, hauto, rfl⟩
  have hcleared := (hinv.sessions i).loc
  rw [hloc] at hcleared
  obtain ⟨p, hp, -, hfree⟩ := hcleared
  obtain rfl : p = plan := Option.some.inj (hp.symm.trans hplan)
  exact hfree hauto

namespace Sample

/-- An automatic plan of snapshot 4, past its deadline, up to its first storage call. -/
def untilEffect : List Label :=
  .op (.createDeletionPlan
    { evaluationId := 0, targetId := 1, snapshotId := 4, tombstoneId := none, automatic := true
      tombstonedAt := 0, notBefore := 1, estimatedBytes := 0, correlationId := 0 }) ::
    .start 0 (.runPlan 100) :: List.replicate 15 (.exec 0 .ok)

def isAboutToDelete (s : State) : Bool :=
  match (s.session 0).loc with
  | .worker (.effect job _ _ _) =>
    (s.db.plan? job.plan.planId).any fun plan => plan.automatic && plan.snapshotId == 4
  | _ => false

theorem aboutToDelete_of_check {s : State} (h : isAboutToDelete s = true) :
    AboutToDelete s 0 4 := by
  unfold isAboutToDelete at h
  split at h
  · rename_i job identity claimId attemptId hloc
    obtain ⟨plan, hplan, hrow⟩ := Option.any_eq_true _ _ |>.mp h
    simp only [Bool.and_eq_true, beq_iff_eq] at hrow
    exact ⟨job, identity, claimId, attemptId, plan, hloc, hplan, hrow.1, hrow.2⟩
  · cases h

end Sample

/-- A pin that commits between the claim and the storage call does not stop the call. -/
theorem pinned_before_effect :
    ¬ ∀ s, Reach (machine Sample.settings).step (fun _ _ => True)
      (initial Sample.twoSnapshots Sample.storage 10 100) s → EffectsUnpinned s := by
  intro h
  obtain ⟨s, hrun, hs⟩ : ∃ s, run (machine Sample.settings).step
      (initial Sample.twoSnapshots Sample.storage 10 100)
      (Sample.untilEffect ++ [.op (.pinSnapshot 4 .operator "o")]) = some s ∧
      (Sample.isAboutToDelete s && s.db.snapshotIsPinned 4) = true :=
    exists_of_run_any (by decide +kernel)
  simp only [Bool.and_eq_true] at hs
  have hreach : Reach (machine Sample.settings).step (fun _ _ => True) _ s :=
    Reach.of_run hrun (along_of_forall (fun _ _ _ => trivial) _)
  have hfree := h s hreach 0 4 (Sample.aboutToDelete_of_check hs.1)
  rw [hs.2] at hfree
  cases hfree

/-- A pin revoked before the claim; the storage call is reached without one. -/
theorem pin_blocks_effects_revoked :
    ∃ s, Reach (machine Sample.settings).step PinsWait
        (initial Sample.twoSnapshots Sample.storage 10 98) s ∧
      AboutToDelete s 0 4 ∧ EffectsUnpinned s := by
  obtain ⟨s, hrun, hs⟩ : ∃ s, run (machine Sample.settings).step
      (initial Sample.twoSnapshots Sample.storage 10 98)
      (.op (.pinSnapshot 4 .operator "o") :: .op (.revokeSnapshotPin 98) :: Sample.untilEffect)
        = some s ∧ Sample.isAboutToDelete s = true :=
    exists_of_run_any (by decide +kernel)
  have hok : Along (machine Sample.settings).step PinsWait
      (initial Sample.twoSnapshots Sample.storage 10 98)
      (.op (.pinSnapshot 4 .operator "o") :: .op (.revokeSnapshotPin 98) ::
        Sample.untilEffect) := by
    refine ⟨?_, fun s₁ _ => along_of_forall (fun l hl t => ?_) s₁⟩
    · rintro i ⟨job, identity, claimId, attemptId, plan, hloc, -⟩
      cases hloc
    · simp only [Sample.untilEffect, List.mem_cons, List.mem_replicate] at hl
      rcases hl with rfl | rfl | rfl | ⟨-, rfl⟩ <;> trivial
  have hreach := Reach.of_run hrun hok
  exact ⟨s, hreach, Sample.aboutToDelete_of_check hs,
    pin_blocks_effects Sample.settings _ _ _ _ s hreach⟩

end RatatoskrVault.Retention
