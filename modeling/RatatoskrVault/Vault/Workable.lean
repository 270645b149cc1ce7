import RatatoskrVault.Vault.PlacedSteps

/-! When every managed target can be worked: a run of the mirror lifecycle chooses its operation
from what is published, and the status of the target admits it. -/
namespace RatatoskrVault

open Lib

namespace Vault

section

variable {settings : Settings} {s : State} {m : Moment} {db : Db} {storage : MirrorStorage}
  {locks : List Lock} {writes : List Write}

/-- Every transition is made by a cycle. -/
def ByCycles : Label → Prop
  | .start _ (.retention (.transition _)) => False
  | _ => True

/-- A target is only set back to `requested` once its mirror has been removed. -/
def ReactivatesUnpublished (settings : Settings) (s : State) : Label → Prop
  | .exec i _ => ∀ at_ cycle t, (s.session i).loc = .policy at_ → at_.cycle? = some cycle →
      cycle.reactivates? = some t → IsUnpublished settings.mirror s.world t
  | _ => True

/-- Procedures one after another, none of which reactivates a target with a published mirror. -/
structure Orderly (settings : Settings) (s : State) (l : Label) : Prop where
  alone : (machine settings).Alone s l
  byCycles : ByCycles l
  clear : ReactivatesUnpublished settings s l

theorem start_knows {proc : Proc} {fresh i : ℕ} (h : ByCycles (.start i proc)) :
    (start proc).Knows settings.mirror db storage fresh := by
  cases proc with
  | policy proc =>
    intro cycle hcycle
    cases proc with
    | command command => cases hcycle
    | cycle deliveries => cases hcycle; trivial
  | mirror request => trivial
  | retention proc =>
    cases proc with
    | transition request => exact h.elim
    | _ => trivial

theorem SessionStmt.placed {loc next : Loc} (h : SessionStmt settings m db loc locks writes next)
    (hplaced : Placed settings.mirror db storage m.fresh)
    (hloc : loc.Knows settings.mirror db storage m.fresh)
    (hclear : ∀ at_ cycle t, loc = .policy at_ → at_.cycle? = some cycle →
      cycle.reactivates? = some t → IsUnpublished settings.mirror storage t) :
    Placed settings.mirror (writes.foldl Db.apply db) storage (m.fresh + 1) ∧
      next.Knows settings.mirror (writes.foldl Db.apply db) storage (m.fresh + 1) := by
  cases h with
  | command h =>
    cases h with
    | apply h =>
      obtain ⟨hnext, hknows⟩ := h.placed hplaced (hloc _ rfl) fun t ht => hclear _ _ t rfl rfl ht
      refine ⟨hnext, fun cycle hcycle => ?_⟩
      rw [Policy.Loc.cycle?_resumeCycle hcycle]
      exact hknows
    | _ =>
      refine ⟨(hplaced.quiet (by simp [Write.movesNothing])).succ, fun cycle hcycle => ?_⟩
      cases hcycle
  | cycle h =>
    obtain ⟨hnext, hknows⟩ := h.placed hplaced (hloc _ rfl) fun t ht => hclear _ _ t rfl rfl ht
    refine ⟨hnext, fun cycle hcycle => ?_⟩
    cases hcycle
    exact hknows
  | mirror h => exact h.placed hplaced hloc
  | retention h =>
    cases h with
    | worker h => exact h.placed hplaced hloc
    | capture h => exact h.placed hplaced hloc
    | transition h => exact hloc.elim

theorem SessionAuto.placed {loc next : Loc}
    (h : SessionAuto settings m db storage loc locks writes next)
    (hplaced : Placed settings.mirror db storage m.fresh)
    (hloc : loc.Knows settings.mirror db storage m.fresh) :
    Placed settings.mirror (writes.foldl Db.apply db) storage (m.fresh + 1) ∧
      next.Knows settings.mirror (writes.foldl Db.apply db) storage (m.fresh + 1) := by
  cases h with
  | command h =>
    refine ⟨hplaced.succ, fun cycle hcycle => ?_⟩
    cases h with
    | governed => cases hcycle; trivial
    | apply h => rw [Policy.Loc.cycle?_resumeCycle hcycle]; exact h.knows
    | _ => cases hcycle
  | cycle h =>
    refine ⟨hplaced.succ, fun cycle hcycle => ?_⟩
    cases hcycle
    exact h.knows
  | mirror h => exact h.placed hplaced hloc
  | retention h =>
    cases h with
    | worker h => exact h.placed hplaced hloc
    | capture h => exact ⟨hplaced.succ, h.knows⟩

theorem SessionCommit.knows {loc next : Loc} (h : SessionCommit loc next) {fresh : ℕ}
    (hloc : loc.Knows settings.mirror db storage fresh) :
    next.Knows settings.mirror db storage fresh := by
  cases h with
  | command h =>
    intro cycle hcycle
    cases h with
    | apply h => rw [Policy.Loc.cycle?_resumeCycle hcycle]; exact h.knows
    | recorded => cases hcycle
  | cycle h =>
    intro cycle hcycle
    cases hcycle
    exact h.knows
  | mirror h => exact h.knows hloc
  | retention h =>
    cases h with
    | worker h => exact h.knows hloc
    | capture => trivial
    | transition => exact hloc.elim

theorem SessionRollback.knows {view : Db} {loc next : Loc} (h : SessionRollback view loc next)
    {fresh : ℕ} (hbusy : next.isIdle = false) : next.Knows settings.mirror db storage fresh := by
  cases h with
  | command h =>
    intro cycle hcycle
    cases h with
    | apply h => rw [Policy.Loc.cycle?_resumeCycle hcycle]; exact h.knows
    | alreadyRecorded => cases hcycle
    | failed => cases hcycle
  | cycle h =>
    intro cycle hcycle
    cases hcycle
    exact h.knows
  | mirror h => exact h.knows
  | retention hidle => exact absurd (hidle.symm.trans hbusy) (by simp)

theorem SessionCall.placed {loc next : Loc} {storage' : MirrorStorage} {input : MirrorInput}
    (h : SessionCall settings storage input loc storage' next)
    (hplaced : Placed settings.mirror db storage m.fresh)
    (hloc : loc.Knows settings.mirror db storage m.fresh) :
    Placed settings.mirror db storage' (m.fresh + 1) ∧
      next.Knows settings.mirror db storage' (m.fresh + 1) := by
  cases h with
  | mirror h => exact h.placed hplaced hloc
  | retention h =>
    cases h with
    | worker => exact ⟨placed_deletionEffect _ _ hplaced hloc.1 hloc.2, hloc.1⟩
    | @capture at_ n n' reference bytes h hn =>
      refine ⟨(hplaced.same ?_).succ, ?_⟩
      · exact mirrors_of_publish
      · rw [hn]
        show (CaptureLoc.Knows db (if _ then n else .finished none))
        split_ifs
        · exact h.knows
        · trivial

theorem OpWrites.placed {o : Op} (h : OpWrites m db o locks writes)
    (hplaced : Placed settings.mirror db storage m.fresh) :
    Placed settings.mirror (writes.foldl Db.apply db) storage (m.fresh + 1) := by
  have hrevisions : ∀ rows : List Revision, ∀ w ∈ rows.map Write.insertRevision,
      w.movesNothing = true := fun rows => List.forall_mem_map.mpr fun _ _ => rfl
  cases h with
  | retention h =>
    cases h with
    | @planned request row hsnapshot hpin hallowed hrow =>
      refine hplaced.insertPlan hrow.planId hrow.status ?_ ?_
      · simp only [Retention.planAllowed, Bool.and_eq_true] at hallowed
        rw [hrow.targetId]
        exact hallowed.1.1.2
      · rw [hrow.snapshotId, hrow.targetId]
        exact hsnapshot
    | _ => exact (hplaced.quiet (by simp [Write.movesNothing])).succ
  | undiscovered => exact hplaced.succ
  | wikiKnown => exact (hplaced.quiet (hrevisions _)).succ
  | wikiEnrolled hid _ _ hstatus => exact (hplaced.insertTarget hid hstatus).quiet (hrevisions _)
  | evaluated => exact (hplaced.quiet (by simp [Write.movesNothing])).succ

/-- What is committed says where every published mirror belongs, at every step of a procedure. -/
theorem outline : (machine settings).Outline (Orderly settings)
    (fun db storage fresh => Placed settings.mirror db storage fresh)
    (fun _ view storage fresh loc => Placed settings.mirror view storage fresh ∧
      loc.Knows settings.mirror view storage fresh) where
  fresh h := h.succ
  start s i proc hok h := ⟨h, start_knows hok.byCycles⟩
  stmt s i input locks writes next hok _ hF hact :=
    (act_stmt hact).placed (m := s.moment i) hF.1 hF.2 hok.clear
  auto s i input locks writes next _ _ hF hact := by
    have hnext := (act_auto hact).placed hF.1 hF.2
    exact ⟨hnext.1, hnext⟩
  commit s i input next _ _ hF hact := ⟨hF.1, hF.1, (act_commit hact).knows hF.2⟩
  rollback s i input next _ h _ hact hbusy := ⟨h, (act_rollback hact).knows hbusy⟩
  call s i input world next _ _ hF hact := by
    have hnext := SessionCall.placed (m := s.moment i) (act_call hact) hF.1 hF.2
    exact ⟨hnext.1, hnext⟩
  op s o locks writes _ h hop := (operate_writes hop).placed h

/-- `run` with an accepted URL chooses an operation, and the status it starts with is written. -/
def PassesTransitionStarted (settings : Settings) (db : Db) (storage : MirrorStorage)
    (request : MirrorRequest) : Prop :=
  ∀ (m : Moment) (input : MirrorInput), input.io = .ok →
    ∃ operation, runMirror settings.mirror m db storage input (.begin request)
        = some (.auto [] [] (.transitionStarted request operation)) ∧
      ∀ (m' : Moment) (input' : MirrorInput), ∃ locks writes next,
        runMirror settings.mirror m' db storage input' (.transitionStarted request operation)
          = some (.auto locks writes next)

/-- Every target that an active revision governs and whose status is one a run starts from. -/
def EveryActiveTargetWorkable (settings : Settings) (s : State) : Prop :=
  ∀ target ∈ s.db.targets,
    (∃ policy, s.db.governing? target.targetId = some policy ∧ policy.preservationLevel ≠ .none) →
    (target.status = .requested ∨ target.status = .ready ∨ target.status = .degraded ∨
      target.status = .healthy) →
    ∀ request : MirrorRequest, request.targetId = target.targetId →
      sourceAllowed request.source = true →
      PassesTransitionStarted settings s.db s.world request

theorem guard_startStatus {target : Target} {operation : MirrorOperation} {clock : Time}
    (hmove : Transition.isLegal target.status operation.startStatus = true) :
    db.targetGuardStatusTransition clock target operation.startStatus = .ok () := by
  have hdeleting : operation.startStatus ≠ .deleting := by cases operation <;> decide
  have hdeleted : operation.startStatus ≠ .deleted := by cases operation <;> decide
  unfold Db.targetGuardStatusTransition
  simp [hdeleting, hdeleted, hmove]

theorem runMirror_transitionStarted {request : MirrorRequest} {operation : MirrorOperation}
    {input : MirrorInput} :
    runMirror settings.mirror m db storage input (.transitionStarted request operation)
      = setTargetStatus m db request.targetId operation.startStatus
          (.lockQuota { request, operation, runId := m.fresh }) := by
  cases operation <;> rfl

theorem target?_of_mem (hkeys : IsKey (·.targetId) db.targets) {target : Target}
    (hmem : target ∈ db.targets) : db.target? target.targetId = some target :=
  find?_of_mem hmem (by simp) fun row hrow hid => hkeys row hrow target hmem (by simpa using hid)

theorem passesTransitionStarted (h : Placed settings.mirror db storage m.fresh) {target : Target}
    (hmem : target ∈ db.targets) (hstatus : target.status = .requested ∨ target.status = .ready ∨
      target.status = .degraded ∨ target.status = .healthy)
    {request : MirrorRequest} (hrequest : request.targetId = target.targetId)
    (hsource : sourceAllowed request.source = true) :
    PassesTransitionStarted settings db storage request := by
  intro m' input hio
  have hfind : db.target? request.targetId = some target := by
    rw [hrequest]
    exact target?_of_mem h.targetKeys hmem
  have hstarts : ∀ operation : MirrorOperation,
      Transition.isLegal target.status operation.startStatus = true →
      ∀ (m' : Moment) (input' : MirrorInput), ∃ locks writes next,
        runMirror settings.mirror m' db storage input' (.transitionStarted request operation)
          = some (.auto locks writes next) := by
    intro operation hmove m' input'
    rw [runMirror_transitionStarted]
    simp only [setTargetStatus, hfind, guard_startStatus hmove]
    exact ⟨_, _, _, rfl⟩
  cases hpublished : storage.mirrors (mirrorRelativePath settings.mirror request.targetId) with
  | true =>
    refine ⟨.fetch, by simp [runMirror, hsource, hio, hpublished], hstarts .fetch ?_⟩
    rcases hstatus with hstatus | hstatus | hstatus | hstatus
    · rw [hrequest, h.requested target hmem hstatus] at hpublished
      cases hpublished
    all_goals
      rw [hstatus]
      rfl
  | false =>
    refine ⟨.initialClone, by simp [runMirror, hsource, hio, hpublished], hstarts .initialClone ?_⟩
    rcases hstatus with hstatus | hstatus | hstatus | hstatus
    · rw [hstatus]
      rfl
    · rw [hrequest, h.held target hmem (Or.inl hstatus)] at hpublished
      cases hpublished
    · rw [hstatus]
      rfl
    · rw [hrequest, h.held target hmem (Or.inr hstatus)] at hpublished
      cases hpublished

/-- An empty vault, in which a target is only reactivated once its mirror has been removed, never
leaves an active target that a run cannot start on. -/
theorem every_active_target_workable {clock fresh : ℕ}
    (hstorage : ∀ path, storage.mirrors path = false)
    (h : Reach (machine settings).step (Orderly settings) (initial {} storage clock fresh) s) :
    EveryActiveTargetWorkable settings s := by
  have hinitial : Placed settings.mirror {} storage fresh := by
    constructor <;> simp [IsKey, hstorage]
  have hserial := outline.reach rests (fun _ _ hok => hok.alone) hinitial (fun _ => rfl) h
  intro target hmem _ hstatus request hrequest hsource
  exact passesTransitionStarted (m := { now := 0, clock := 0, fresh := s.fresh }) hserial.shared
    hmem hstatus hrequest hsource

end

namespace Sample

/-- One message for one repository; its revision is its identifier too. -/
def delivery (preservationLevel : String) (policyRevision : ℕ) : IncomingDelivery :=
  { provider
    externalRepositoryId := "r"
    source := "s"
    messageId := policyRevision
    delivery :=
      { preservationLevel
        pinned := none
        includeWiki := none
        includeReleases := none
        includeIssues := none
        offsiteRequired := none
        correlationId := "c"
        policyRevision := some policyRevision } }

/-- A cycle over one message, in the number of steps it takes. -/
def cycle (preservationLevel : String) (policyRevision steps : ℕ) : List Label :=
  .start 0 (.policy (.cycle [delivery preservationLevel policyRevision])) ::
    List.replicate steps (.exec 0 answered)

/-- A run on the target the first cycle enrolled. -/
def enrolledRequest : MirrorRequest := { request with targetId := 2 }

def enrolledRun : List Label :=
  .start 0 (.mirror enrolledRequest) :: List.replicate 22 (.exec 0 answered)

def isByCycles : Label → Bool
  | .start _ (.retention (.transition _)) => false
  | _ => true

theorem byCycles_of_check {l : Label} (h : isByCycles l = true) : ByCycles l := by
  cases l with
  | start i proc =>
    cases proc with
    | retention proc =>
      cases proc with
      | transition request => cases h
      | _ => trivial
    | _ => trivial
  | _ => trivial

/-- The target a session is about to reactivate. -/
def reactivates? : Loc → Option Uuid
  | .policy at_ => at_.cycle?.bind (·.reactivates?)
  | _ => none

def isReactivatingUnpublished (s : State) : Label → Bool
  | .exec i _ => (reactivates? (s.session i).loc).all fun t =>
      !s.world.mirrors (mirrorRelativePath settings.mirror t)
  | _ => true

theorem reactivatesUnpublished_of_check {s : State} {l : Label}
    (h : isReactivatingUnpublished s l = true) : ReactivatesUnpublished settings s l := by
  cases l with
  | exec i input =>
    intro at_ cycle t hloc hcycle ht
    simpa [isReactivatingUnpublished, reactivates?, hloc, hcycle, ht, IsUnpublished] using h
  | _ => trivial

/-- The only target is active again, and its run does not start. -/
def isStuck (s : State) : Bool :=
  s.db.targets.any fun target =>
    target.targetId == 2 && target.status == .requested &&
      (s.db.governing? 2).any (fun policy => policy.preservationLevel != .none) &&
      s.world.mirrors (mirrorRelativePath settings.mirror 2) &&
      match runMirror settings.mirror { now := 0, clock := 0, fresh := 0 } s.db s.world answered
          (.transitionStarted enrolledRequest .fetch) with
      | some (.rollback _) => true
      | _ => false

end Sample

/-- A target whose mirror was published before its exclusion. -/
theorem stuck_after_reactivation :
    ¬ ∀ s, Reach (machine Sample.settings).step
        (fun s l => (machine Sample.settings).Alone s l ∧ ByCycles l)
        (initial {} Sample.storage 0 0) s →
      EveryActiveTargetWorkable Sample.settings s := by
  intro h
  obtain ⟨s, hrun, hs⟩ : ∃ s, run (machine Sample.settings).step (initial {} Sample.storage 0 0)
      (Sample.cycle "git_mirror" 1 10 ++ Sample.enrolledRun ++ Sample.cycle "none" 2 18 ++
        Sample.cycle "git_mirror" 3 21) = some s ∧ Sample.isStuck s = true :=
    exists_of_run_any (by decide +kernel)
  have hmeets : meets (machine Sample.settings).step (fun _ l => Sample.isByCycles l)
      (initial {} Sample.storage 0 0)
      (Sample.cycle "git_mirror" 1 10 ++ Sample.enrolledRun ++ Sample.cycle "none" 2 18 ++
        Sample.cycle "git_mirror" 3 21) = true := by decide +kernel
  have halong : Along (machine Sample.settings).step
      (fun s l => (machine Sample.settings).Alone s l ∧ ByCycles l)
      (initial {} Sample.storage 0 0)
      (Sample.cycle "git_mirror" 1 10 ++ Sample.enrolledRun ++ Sample.cycle "none" 2 18 ++
        Sample.cycle "git_mirror" 3 21) :=
    (Machine.along_alone (n := 1) (fun _ _ => rfl) (by decide +kernel) (by decide +kernel)).and
      (along_of_meets (fun _ _ hcheck => Sample.byCycles_of_check hcheck) hmeets)
  simp only [Sample.isStuck, List.any_eq_true, Bool.and_eq_true, beq_iff_eq, Option.any_eq_true,
    bne_iff_ne] at hs
  obtain ⟨target, hmem, ⟨⟨⟨hid, hstatus⟩, policy, hpolicy, hlevel⟩, hpublished⟩, hrefused⟩ := hs
  obtain ⟨operation, hbegin, hstarts⟩ := h s (Reach.of_run hrun halong) target hmem
    ⟨policy, hid ▸ hpolicy, hlevel⟩ (Or.inl hstatus) Sample.enrolledRequest hid.symm
    (by decide +kernel) { now := 0, clock := 0, fresh := 0 } Sample.answered rfl
  -- the published mirror makes it a fetch, which a requested target does not admit
  have hfetch : operation = .fetch := by
    have hallowed : sourceAllowed Sample.enrolledRequest.source = true := by decide +kernel
    have hplace : s.world.mirrors (mirrorRelativePath Sample.settings.mirror
        Sample.enrolledRequest.targetId) = true := hpublished
    simp only [runMirror, hallowed, hplace, Sample.answered] at hbegin
    simpa using hbegin.symm
  rw [hfetch] at hstarts
  obtain ⟨locks, writes, next, hauto⟩ := hstarts { now := 0, clock := 0, fresh := 0 } Sample.answered
  rw [hauto] at hrefused
  cases hrefused

/-- A target excluded and reactivated before its first clone. -/
theorem every_active_target_workable_cloned :
    ∃ s, (∃ target ∈ s.db.targets, target.status = .ready) ∧
      EveryActiveTargetWorkable Sample.settings s ∧
      Reach (machine Sample.settings).step (Orderly Sample.settings)
        (initial {} Sample.storage 0 0) s := by
  obtain ⟨s, hrun, hs⟩ : ∃ s, run (machine Sample.settings).step (initial {} Sample.storage 0 0)
      (Sample.cycle "git_mirror" 1 10 ++ Sample.cycle "none" 2 18 ++
        Sample.cycle "git_mirror" 3 21 ++ Sample.enrolledRun) = some s ∧
      (s.db.targets.any fun target => target.status == .ready) = true :=
    exists_of_run_any (by decide +kernel)
  have hmeets : meets (machine Sample.settings).step (fun s l =>
      (machine Sample.settings).isAlone 1 s l && Sample.isByCycles l &&
        Sample.isReactivatingUnpublished s l) (initial {} Sample.storage 0 0)
      (Sample.cycle "git_mirror" 1 10 ++ Sample.cycle "none" 2 18 ++
        Sample.cycle "git_mirror" 3 21 ++ Sample.enrolledRun) = true := by decide +kernel
  have halong : Along (machine Sample.settings).step (Orderly Sample.settings) _ _ :=
    Machine.along_of_check (n := 1)
      (fun s' l hrest hcheck => by
        simp only [Bool.and_eq_true] at hcheck
        exact ⟨Machine.alone_of_isAlone (fun j hj => by rw [hrest j hj]; rfl) hcheck.1.1,
          Sample.byCycles_of_check hcheck.1.2,
          Sample.reactivatesUnpublished_of_check hcheck.2⟩)
      (by decide +kernel) hmeets
  have hreach := Reach.of_run hrun halong
  obtain ⟨target, hmem, hstatus⟩ := List.any_eq_true.mp hs
  exact ⟨s, ⟨target, hmem, by simpa using hstatus⟩,
    every_active_target_workable (fun _ => rfl) hreach, hreach⟩

end Vault

end RatatoskrVault
