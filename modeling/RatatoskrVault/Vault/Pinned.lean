import RatatoskrVault.Vault.Evidence

/-! A pin of the governing policy against the moves that retire a target: its exclusion by a
cycle, the start of a deletion and its completion. -/
namespace RatatoskrVault

open Lib

/-- Excluded, in deletion or deleted. -/
def TargetStatus.isRetired : TargetStatus → Bool
  | .excluded => true
  | .deleting => true
  | .deleted => true
  | _ => false

/-- The highest recorded revision of the target pins it. -/
def Db.PolicyPinned (db : Db) (targetId : Uuid) : Prop :=
  ∃ policy, db.governing? targetId = some policy ∧ policy.pinned = true

/-- Between the two databases no target that is pinned in the first has been retired further. -/
def KeepsPinned (db view : Db) : Prop :=
  ∀ t status, db.PolicyPinned t → status.isRetired = true → view.statusOf t = some status →
    db.statusOf t = some status

/-- Writes to no target. -/
def Write.leavesTargets : Write → Bool
  | .insertTarget _ => false
  | .setTargetStatus _ _ _ => false
  | _ => true

section

variable {db view : Db} {targetId : Uuid} {writes : List Write}

theorem KeepsPinned.refl (db : Db) : KeepsPinned db db := fun _ _ _ _ hstatus => hstatus

theorem targets_of_leavesTargets (hleaves : ∀ w ∈ writes, w.leavesTargets = true) :
    (writes.foldl Db.apply db).targets = db.targets := by
  refine foldl_invariant (I := fun d : Db => d.targets = db.targets) (fun d w hw hd => ?_) rfl
  have hkeeps := hleaves w hw
  cases w with
  | insertTarget row => cases hkeeps
  | setTargetStatus targetId fromStatus toStatus => cases hkeeps
  | _ => exact hd

theorem KeepsPinned.quiet (h : KeepsPinned db view)
    (hleaves : ∀ w ∈ writes, w.leavesTargets = true) :
    KeepsPinned db (writes.foldl Db.apply view) := by
  intro t status hpinned hretired hstatus
  refine h t status hpinned hretired ?_
  unfold Db.statusOf Db.target? at hstatus ⊢
  rwa [targets_of_leavesTargets hleaves] at hstatus

/-- A target is enrolled as `requested`. -/
theorem KeepsPinned.insertTarget (h : KeepsPinned db view) {row : Target}
    (hrow : row.status = .requested) : KeepsPinned db (view.apply (.insertTarget row)) := by
  intro t status hpinned hretired hstatus
  have hfind : (view.apply (.insertTarget row)).target? t
      = (view.target? t).or (if row.targetId == t then some row else none) := by
    simp [Db.target?, Db.apply, List.find?_append, List.find?_singleton]
  rw [Db.statusOf, hfind] at hstatus
  cases hold : view.target? t with
  | none =>
    rw [hold, Option.none_or] at hstatus
    split_ifs at hstatus
    · rw [Option.map_some, hrow] at hstatus
      cases hstatus
      cases hretired
    · cases hstatus
  | some target =>
    rw [hold, Option.some_or] at hstatus
    refine h t status hpinned hretired ?_
    rw [Db.statusOf, hold]
    exact hstatus

/-- The write of a status that retires nothing the governing policy pins. -/
theorem KeepsPinned.setTargetStatus (h : KeepsPinned db view) (toStatus : TargetStatus)
    {target : Target} (htarget : view.target? targetId = some target)
    (hfree : toStatus.isRetired = true → target.status ≠ toStatus → ¬ db.PolicyPinned targetId) :
    KeepsPinned db (view.apply (.setTargetStatus targetId target.status toStatus)) := by
  intro t status hpinned hretired hstatus
  rw [Db.statusOf_setTargetStatus htarget] at hstatus
  split_ifs at hstatus with hsame
  · cases hstatus
    rw [hsame] at hpinned ⊢
    have hkept : target.status = toStatus := by
      by_contra hmoved
      exact hfree hretired hmoved hpinned
    refine h targetId toStatus hpinned hretired ?_
    rw [Db.statusOf, htarget, Option.map_some, hkept]
  · exact h t status hpinned hretired hstatus

end

section

variable (db : Db)

/-- The revision a cycle has read governs its target, and only a target that is not pinned is
excluded. -/
def CycleLoc.Respects : CycleLoc → Prop
  | .readObserved t desired _ =>
    ∃ policy, db.governing? t = some policy ∧ desired = governedRecord policy
  | .items t _ planned _ =>
    (planned.head? = some .exclude → ¬ db.PolicyPinned t) ∧ .exclude ∉ planned.tail
  | .transition request _ planned _ =>
    (request.toStatus.isRetired = true → ¬ db.PolicyPinned request.targetId) ∧ .exclude ∉ planned
  | _ => True

def CommandLoc.Respects : CommandLoc → Prop
  | .apply _ _ at_ => at_.Respects db
  | _ => True

/-- A run retires nothing. -/
def MirrorLoc.Respects : MirrorLoc → Prop
  | .setStatus _ status => status.isRetired = false
  | _ => True

/-- What a session is about to do to a pinned target. No transition is made but by a cycle. -/
def Vault.Loc.Respects : Vault.Loc → Prop
  | .policy (.command at_) => at_.Respects db
  | .policy (.cycle at_) => at_.Respects db
  | .mirror at_ => at_.Respects
  | .retention (.transition _ _) => False
  | _ => True

end

section

variable {m : Moment} {db view : Db} {locks : List Lock} {writes : List Write}

/-- At most the first item a record plans excludes, and then the record is not pinned. -/
theorem planItems_respects {desired : ValidatedDelivery} {observed : Option TargetStatus} :
    ((planItems desired observed).head? = some .exclude → desired.pinned ≠ some true) ∧
      WorkItem.exclude ∉ (planItems desired observed).tail := by
  constructor
  · intro hhead
    cases observed with
    | none =>
      unfold planItems at hhead
      split_ifs at hhead <;> cases hhead
    | some status => exact (exclude_mem_planItems_iff.mp (List.mem_of_mem_head? hhead)).2.2
  · unfold planItems
    split <;> split_ifs <;> simp

theorem TransitionStmt.keepsPinned {request : TransitionRequest} {at_ next : TransitionLoc}
    (h : TransitionStmt request m view at_ locks writes next) (hview : KeepsPinned db view)
    (hfree : request.toStatus.isRetired = true → ¬ db.PolicyPinned request.targetId) :
    KeepsPinned db (writes.foldl Db.apply view) := by
  cases h with
  | updateTarget htarget hguard =>
    exact hview.setTargetStatus _ htarget fun hretired _ => hfree hretired
  | cancelPlans => exact hview.quiet (List.forall_mem_map.mpr fun _ _ => rfl)
  | _ => exact hview.quiet (by simp [Write.leavesTargets])

theorem CycleStmt.keepsPinned {at_ next : CycleLoc} (h : CycleStmt m view at_ locks writes next)
    (hview : KeepsPinned db view) (hat : at_.Respects db) :
    KeepsPinned db (writes.foldl Db.apply view) ∧ next.Respects db := by
  cases h with
  | insertTarget => exact ⟨hview.insertTarget rfl, trivial⟩
  | transition h =>
    refine ⟨h.keepsPinned hview hat.1, ?_⟩
    rw [resumeTransition_of_not_atRest h.not_atRest]
    exact hat
  | _ => exact ⟨hview.quiet (by simp [Write.leavesTargets]), trivial⟩

theorem Converging.next_respects {rest : Converging} : rest.next.Respects db := by
  unfold Converging.next
  split <;> trivial

theorem CycleRead.respects {at_ next : CycleLoc} (h : CycleRead db at_ next)
    (hat : at_.Respects db) : next.Respects db := by
  cases h with
  | ingested => exact Converging.next_respects
  | ungoverned => exact Converging.next_respects
  | converged => exact Converging.next_respects
  | governed hpolicy => exact ⟨_, hpolicy, rfl⟩
  | observed =>
    obtain ⟨policy, hpolicy, rfl⟩ := hat
    refine ⟨fun hhead hpinned => ?_, planItems_respects.2⟩
    obtain ⟨policy', hpolicy', hpin⟩ := hpinned
    rw [hpolicy] at hpolicy'
    cases hpolicy'
    exact planItems_respects.1 hhead (congrArg some hpin)
  | exclude => exact ⟨fun _ => hat.1 rfl, hat.2⟩
  | reactivate =>
    refine ⟨fun hretired => ?_, hat.2⟩
    cases hretired
  | counted =>
    refine ⟨fun hhead => absurd (List.mem_of_mem_head? hhead) hat.2, fun hexclude => ?_⟩
    exact hat.2 (List.mem_of_mem_tail hexclude)
  | _ => trivial

theorem CycleCommit.respects {at_ next : CycleLoc} (h : CycleCommit at_ next)
    (hat : at_.Respects db) (db' : Db) : next.Respects db' := by
  cases h with
  | ingested => trivial
  | transition =>
    refine ⟨fun hhead => absurd (List.mem_of_mem_head? hhead) hat.2, fun hexclude => ?_⟩
    exact hat.2 (List.mem_of_mem_tail hexclude)

theorem CycleRollback.respects {at_ next : CycleLoc} (h : CycleRollback view at_ next) :
    next.Respects db := by
  cases h <;> trivial

theorem resumeCycle_respects {command : CommandEnvelope} {decision : PolicyDecision}
    {next : CycleLoc} (h : next.Respects db) : (resumeCycle command decision next).Respects db := by
  cases next with
  | finished result => cases result <;> trivial
  | _ => exact h

theorem CommandStmt.keepsPinned {at_ next : CommandLoc}
    (h : CommandStmt m view at_ locks writes next) (hview : KeepsPinned db view)
    (hat : at_.Respects db) : KeepsPinned db (writes.foldl Db.apply view) ∧ next.Respects db := by
  cases h with
  | apply h =>
    obtain ⟨hnext, hrespects⟩ := h.keepsPinned hview hat
    exact ⟨hnext, resumeCycle_respects hrespects⟩
  | _ => exact ⟨hview.quiet (by simp [Write.leavesTargets]), trivial⟩

theorem CommandRead.respects {contracts : Contracts} {at_ next : CommandLoc}
    (h : CommandRead contracts db at_ next) (hat : at_.Respects db) : next.Respects db := by
  cases h with
  | apply h => exact resumeCycle_respects (h.respects hat)
  | _ => trivial

theorem CommandCommit.respects {at_ next : CommandLoc} (h : CommandCommit at_ next)
    (hat : at_.Respects db) (db' : Db) : next.Respects db' := by
  cases h with
  | apply h => exact resumeCycle_respects (h.respects hat db')
  | recorded => trivial

theorem CommandRollback.respects {at_ next : CommandLoc} (h : CommandRollback view at_ next) :
    next.Respects db := by
  cases h with
  | apply h => exact resumeCycle_respects h.respects
  | _ => trivial

theorem StatusAuto.keepsPinned {status : TargetStatus}
    (h : StatusAuto m db targetId status locks writes) (hstatus : status.isRetired = false) :
    KeepsPinned db (writes.foldl Db.apply db) := by
  cases h with
  | missing => exact KeepsPinned.refl db
  | written htarget hguard =>
    refine (KeepsPinned.refl db).setTargetStatus _ htarget fun hretired _ => ?_
    rw [hstatus] at hretired
    cases hretired

end

namespace Db

variable (db : Db)

/-- An excluded target whose tombstone may be executed. -/
def Expired (clock : Time) (targetId : Uuid) : Prop :=
  ∃ target, db.target? targetId = some target ∧ target.status = .excluded ∧
    target.pinned = false ∧ db.hasExecutableTombstone clock target.targetId = true

/-- A target in deletion all of whose plans have completed. -/
def Purged (targetId : Uuid) : Prop :=
  ∃ target, db.target? targetId = some target ∧ target.status = .deleting ∧
    db.hasTerminalTombstone target.targetId = true

end Db

section

variable {m : Moment} {db view : Db} {locks : List Lock} {writes : List Write}

/-- Only an excluded target is moved into deletion, under a tombstone that may be executed. -/
theorem expired_of_guard {targetId : Uuid} {target : Target}
    (htarget : db.target? targetId = some target)
    (hguard : db.targetGuardStatusTransition m.clock target .deleting = .ok ())
    (hmoved : target.status ≠ .deleting) : db.Expired m.clock targetId := by
  unfold Db.targetGuardStatusTransition at hguard
  split_ifs at hguard with hsame hrefused hterminal hlegal
  · exact absurd hsame.symm hmoved
  · have hexcluded : target.status = .excluded := by
      cases hstatus : target.status <;> rw [hstatus] at hlegal <;> first | rfl | cases hlegal
    have hfree : ¬ (target.pinned = true ∨ ¬ db.hasExecutableTombstone m.clock target.targetId) :=
      fun hor => hrefused ⟨hexcluded, rfl, hor⟩
    rw [not_or, not_not] at hfree
    exact ⟨target, htarget, hexcluded, by simpa using hfree.1, hfree.2⟩

theorem WorkerAuto.keepsPinned {at_ next : WorkerLoc} (h : WorkerAuto m db at_ locks writes next)
    (hfree : ∀ plan, at_ = .gate plan → db.PolicyPinned plan.targetId →
      ¬ db.Expired m.clock plan.targetId) : KeepsPinned db (writes.foldl Db.apply db) := by
  cases h with
  | gate htarget hguard =>
    refine (KeepsPinned.refl db).setTargetStatus _ htarget fun _ hmoved hpinned => ?_
    exact hfree _ rfl hpinned (expired_of_guard htarget hguard hmoved)
  | _ => exact (KeepsPinned.refl db).quiet (by simp [Write.leavesTargets])

theorem WorkerStmt.keepsPinned {at_ next : WorkerLoc} (h : WorkerStmt m view at_ locks writes next)
    (hview : KeepsPinned db view)
    (hfree : ∀ row tombstoneId, at_ = .complete (.updateTarget row tombstoneId) →
      db.PolicyPinned row.targetId → ¬ view.Purged row.targetId) :
    KeepsPinned db (writes.foldl Db.apply view) := by
  cases h with
  | abandonStage => exact hview.quiet (List.forall_mem_map.mpr fun _ _ => rfl)
  | abandonClaims => exact hview.quiet (List.forall_mem_map.mpr fun _ _ => rfl)
  | completeTarget htarget hstatus hguard =>
    have hnext := hview.setTargetStatus .deleted htarget fun _ _ hpinned =>
      hfree _ _ rfl hpinned ⟨_, htarget, hstatus, hguard⟩
    rwa [hstatus] at hnext
  | _ => exact hview.quiet (by simp [Write.leavesTargets])

theorem MirrorStmt.keepsPinned {settings : MirrorLifecycleSettings} {at_ next : MirrorLoc}
    (h : MirrorStmt settings view at_ locks writes next) (hview : KeepsPinned db view) :
    KeepsPinned db (writes.foldl Db.apply view) ∧ next.Respects := by
  cases h <;> exact ⟨hview.quiet (by simp [Write.leavesTargets]), trivial⟩

theorem MirrorAuto.keepsPinned {settings : MirrorLifecycleSettings} {storage : MirrorStorage}
    {at_ next : MirrorLoc} (h : MirrorAuto settings m db storage at_ locks writes next)
    (hat : at_.Respects) : KeepsPinned db (writes.foldl Db.apply db) ∧ next.Respects := by
  cases h with
  | @started _ operation _ _ h =>
    refine ⟨h.keepsPinned ?_, trivial⟩
    cases operation <;> rfl
  | setStatus h => exact ⟨h.keepsPinned hat, trivial⟩
  | setLfsDegraded h => exact ⟨h.keepsPinned rfl, trivial⟩
  | recordVerified => exact ⟨(KeepsPinned.refl db).quiet (by simp [Write.leavesTargets]), rfl⟩
  | markDegraded => exact ⟨(KeepsPinned.refl db).quiet (by simp [Write.leavesTargets]), rfl⟩
  | _ => exact ⟨(KeepsPinned.refl db).quiet (by simp [Write.leavesTargets]), trivial⟩

theorem MirrorCommit.respects {at_ next : MirrorLoc} (h : MirrorCommit at_ next) :
    next.Respects := by
  cases h with
  | reserved => trivial
  | recorded =>
    unfold Finishing.observe
    split <;> trivial

theorem MirrorCall.respects {settings : MirrorLifecycleSettings} {storage storage' : MirrorStorage}
    {git : GitCall} {at_ next : MirrorLoc}
    (h : MirrorCall settings storage git at_ storage' next) : next.Respects := by
  cases h with
  | published hnext => rcases hnext with rfl | rfl <;> trivial
  | _ => trivial

theorem CaptureStmt.keepsPinned {at_ next : CaptureLoc}
    (h : CaptureStmt m view at_ locks writes next) (hview : KeepsPinned db view) :
    KeepsPinned db (writes.foldl Db.apply view) := by
  cases h <;> exact hview.quiet (by simp [Write.leavesTargets])

end

namespace Vault

section

variable {settings : Settings} {s s' : State} {m : Moment} {db view : Db}
  {storage : MirrorStorage} {locks : List Lock} {writes : List Write} {loc next : Loc}

/-- No deletion of a pinned target is started and none is completed: its tombstone may not be
executed, or its plans have not completed. -/
structure SparesPinned (settings : Settings) (s : State) (l : Label) : Prop where
  started : ∀ i input plan, l = .exec i input →
    (s.session i).loc = .retention (.worker (.gate plan)) → s.db.PolicyPinned plan.targetId →
    ¬ s.db.Expired s.clock plan.targetId
  completed : ∀ i input row tombstoneId, l = .exec i input →
    (s.session i).loc = .retention (.worker (.complete (.updateTarget row tombstoneId))) →
    s.db.PolicyPinned row.targetId → ¬ ((machine settings).view s i).Purged row.targetId

theorem start_respects {i : ℕ} {proc : Proc} (h : ByCycles (.start i proc)) :
    (start proc).Respects db := by
  cases proc with
  | policy proc => cases proc <;> trivial
  | mirror request => trivial
  | retention proc =>
    cases proc with
    | transition request => exact h.elim
    | _ => trivial

theorem SessionStmt.keepsPinned (h : SessionStmt settings m view loc locks writes next)
    (hview : KeepsPinned db view) (hloc : loc.Respects db)
    (hfree : ∀ row tombstoneId,
      loc = .retention (.worker (.complete (.updateTarget row tombstoneId))) →
      db.PolicyPinned row.targetId → ¬ view.Purged row.targetId) :
    KeepsPinned db (writes.foldl Db.apply view) ∧ next.Respects db := by
  cases h with
  | command h => exact h.keepsPinned hview hloc
  | cycle h => exact h.keepsPinned hview hloc
  | mirror h => exact h.keepsPinned hview
  | retention h =>
    cases h with
    | worker h =>
      refine ⟨h.keepsPinned hview fun row tombstoneId hat => ?_, trivial⟩
      exact hfree row tombstoneId (by rw [hat])
    | capture h => exact ⟨h.keepsPinned hview, trivial⟩
    | transition h => exact hloc.elim

theorem SessionAuto.keepsPinned (h : SessionAuto settings m db storage loc locks writes next)
    (hfree : ∀ plan, loc = .retention (.worker (.gate plan)) → db.PolicyPinned plan.targetId →
      ¬ db.Expired m.clock plan.targetId) (hloc : loc.Respects db) :
    KeepsPinned db (writes.foldl Db.apply db) ∧ next.Respects (writes.foldl Db.apply db) := by
  cases h with
  | command h => exact ⟨KeepsPinned.refl db, h.respects hloc⟩
  | cycle h => exact ⟨KeepsPinned.refl db, h.respects hloc⟩
  | mirror h => exact h.keepsPinned hloc
  | retention h =>
    cases h with
    | worker h =>
      refine ⟨h.keepsPinned fun plan hat => ?_, trivial⟩
      exact hfree plan (by rw [hat])
    | capture h => exact ⟨KeepsPinned.refl db, trivial⟩

theorem SessionCommit.respects (h : SessionCommit loc next) (hloc : loc.Respects db) (db' : Db) :
    next.Respects db' := by
  cases h with
  | command h => exact h.respects hloc db'
  | cycle h => exact h.respects hloc db'
  | mirror h => exact h.respects
  | retention h =>
    cases h with
    | transition => exact hloc.elim
    | _ => trivial

theorem SessionRollback.respects (h : SessionRollback view loc next)
    (hbusy : next.isIdle = false) : next.Respects db := by
  cases h with
  | command h => exact h.respects
  | cycle h => exact h.respects
  | mirror h => cases h <;> trivial
  | retention hidle => exact absurd (hidle.symm.trans hbusy) (by simp)

theorem SessionCall.respects {input : MirrorInput} {storage' : MirrorStorage}
    (h : SessionCall settings storage input loc storage' next) : next.Respects db := by
  cases h with
  | mirror h => exact h.respects
  | retention h => cases h <;> trivial

theorem OpWrites.keepsPinned {o : Op} (h : OpWrites m db o locks writes) :
    KeepsPinned db (writes.foldl Db.apply db) := by
  have hrevisions : ∀ rows : List Revision, ∀ w ∈ rows.map Write.insertRevision,
      w.leavesTargets = true := fun rows => List.forall_mem_map.mpr fun _ _ => rfl
  cases h with
  | retention h => cases h <;> exact (KeepsPinned.refl db).quiet (by simp [Write.leavesTargets])
  | undiscovered => exact KeepsPinned.refl db
  | wikiKnown => exact (KeepsPinned.refl db).quiet (hrevisions _)
  | wikiEnrolled _ _ _ hstatus =>
    exact ((KeepsPinned.refl db).insertTarget hstatus).quiet (hrevisions _)
  | evaluated => exact (KeepsPinned.refl db).quiet (by simp [Write.leavesTargets])

/-- Procedures one after another that spare what the policy pins. -/
structure Sparing (settings : Settings) (s : State) (l : Label) : Prop where
  alone : (machine settings).Alone s l
  byCycles : ByCycles l
  spares : SparesPinned settings s l

/-- No open transaction retires a target that was pinned when it began. -/
theorem sparing : (machine settings).Outline (Sparing settings) (fun _ _ _ => True)
    (fun db view _ _ loc => KeepsPinned db view ∧ loc.Respects db) where
  fresh _ := trivial
  start s i proc hok _ := ⟨KeepsPinned.refl s.db, start_respects hok.byCycles⟩
  stmt s i input locks writes next hok _ hF hact := by
    refine (act_stmt hact).keepsPinned hF.1 hF.2 fun row tombstoneId => ?_
    exact hok.spares.completed i input row tombstoneId rfl
  auto s i input locks writes next hok _ hF hact := by
    have hnext := (act_auto hact).keepsPinned (fun plan => hok.spares.started i input plan rfl) hF.2
    exact ⟨trivial, KeepsPinned.refl _, hnext.2⟩
  commit s i input next _ _ hF hact :=
    ⟨trivial, KeepsPinned.refl _, (act_commit hact).respects hF.2 _⟩
  rollback s i input next _ _ _ hact hbusy :=
    ⟨KeepsPinned.refl s.db, (act_rollback hact).respects hbusy⟩
  call s i input world next _ _ _ hact :=
    ⟨trivial, KeepsPinned.refl s.db, (act_call hact).respects⟩
  op s o locks writes _ _ _ := trivial

/-- A run that spares what the policy pins retires no target while its governing revision is
pinned. -/
theorem pinned_never_retired {fresh clock : ℕ} {l : Label}
    (h : Reach (machine settings).step (Sparing settings) (initial db storage clock fresh) s)
    (hok : Sparing settings s l) (hstep : (machine settings).step s l = some s') :
    KeepsPinned s.db s'.db := by
  have hserial := sparing.reach rests (fun _ _ hok => hok.alone) trivial (fun _ => rfl) h
  rcases Machine.step_db hstep with hdb | ⟨i, input, locks, writes, next, rfl, hact, hdb⟩ |
    ⟨i, input, next, rfl, hact, hdb⟩ | ⟨o, locks, writes, rfl, hop, hdb⟩
  · rw [hdb]
    exact KeepsPinned.refl s.db
  · obtain ⟨hF, hview⟩ := (hserial.sessions i).of_act rests hact
    rw [hview (rests.auto hact).1] at hact
    rw [hdb]
    exact ((act_auto hact).keepsPinned (fun plan => hok.spares.started i input plan rfl) hF.2).1
  · rw [hdb]
    exact ((hserial.sessions i).of_act rests hact).1.1
  · rw [hdb]
    exact (operate_writes hop).keepsPinned

end

namespace Sample

/-- A message that pins its repository. -/
def pinnedDelivery (preservationLevel : String) (policyRevision : ℕ) : IncomingDelivery :=
  let unpinned := delivery preservationLevel policyRevision
  { unpinned with delivery := { unpinned.delivery with pinned := some true } }

/-- A withdrawal whose cycle excludes the target, a plan under its tombstone, a later revision
that pins the target, and a run of the plan up to its gate. -/
def pinnedAfterExclusion (wait : ℕ) : List Label :=
  cycle "none" 1 18 ++
    .op (.retention (.createDeletionPlan (Retention.Sample.planRequest 4 112 true))) ::
    .tick wait ::
    .start 0 (.policy (.cycle [pinnedDelivery "none" 2])) ::
    List.replicate 10 (.exec 0 answered) ++
    .start 0 (.retention (.runPlan 116)) :: List.replicate 4 (.exec 0 answered)

/-- The only target is excluded and pinned by its governing revision. -/
def isPinnedExcluded (s : State) : Bool :=
  s.db.statusOf 1 == some .excluded && (s.db.governing? 1).any (·.pinned)

def isSparing (s : State) : Label → Bool
  | .exec i _ =>
    match (s.session i).loc with
    | .retention (.worker (.gate plan)) =>
      !(s.db.target? plan.targetId).any fun target =>
        target.status == .excluded && s.db.hasExecutableTombstone s.clock target.targetId
    | .retention (.worker (.complete (.updateTarget _ _))) => false
    | _ => true
  | _ => true

theorem sparesPinned_of_check {s : State} {l : Label} (h : isSparing s l = true) :
    SparesPinned settings s l := by
  constructor
  · rintro i input plan rfl hloc - ⟨target, htarget, hstatus, -, hexecutable⟩
    simp [isSparing, hloc, htarget, hstatus, hexecutable] at h
  · rintro i input row tombstoneId rfl hloc
    simp [isSparing, hloc] at h

end Sample

/-- A pin that arrives once the target has been excluded does not keep its deletion from starting. -/
theorem deleting_after_pin :
    ¬ ∀ s l s', Reach (machine Sample.settings).step
        (fun s l => (machine Sample.settings).Alone s l ∧ ByCycles l)
        (initial Retention.Sample.twoSnapshots Sample.storage 10 100) s →
      (machine Sample.settings).Alone s l → ByCycles l →
      (machine Sample.settings).step s l = some s' → KeepsPinned s.db s'.db := by
  intro h
  obtain ⟨s, hrun, hs⟩ : ∃ s, run (machine Sample.settings).step
      (initial Retention.Sample.twoSnapshots Sample.storage 10 100)
      (Sample.pinnedAfterExclusion graceSeconds) = some s ∧
      (Sample.isPinnedExcluded s &&
        ((machine Sample.settings).step s (.exec 0 Sample.answered)).any fun s' =>
          s'.db.statusOf 1 == some .deleting) = true :=
    exists_of_run_any (by decide +kernel)
  have hmeets : meets (machine Sample.settings).step (fun _ l => Sample.isByCycles l)
      (initial Retention.Sample.twoSnapshots Sample.storage 10 100)
      (Sample.pinnedAfterExclusion graceSeconds ++ [.exec 0 Sample.answered]) = true := by
    decide +kernel
  have halong : Along (machine Sample.settings).step
      (fun s l => (machine Sample.settings).Alone s l ∧ ByCycles l)
      (initial Retention.Sample.twoSnapshots Sample.storage 10 100)
      (Sample.pinnedAfterExclusion graceSeconds ++ [.exec 0 Sample.answered]) :=
    (Machine.along_alone (n := 1) (fun _ _ => rfl) (by decide +kernel) (by decide +kernel)).and
      (along_of_meets (fun _ _ hcheck => Sample.byCycles_of_check hcheck) hmeets)
  have hlast := (halong.drop hrun).1
  simp only [Sample.isPinnedExcluded, Bool.and_eq_true, beq_iff_eq, Option.any_eq_true] at hs
  obtain ⟨⟨hexcluded, policy, hpolicy, hpin⟩, s', hstep, hdeleting⟩ := hs
  have hkept := h s _ s' (Reach.of_run hrun halong.take) hlast.1 hlast.2 hstep 1 .deleting
    ⟨policy, hpolicy, hpin⟩ rfl hdeleting
  rw [hexcluded] at hkept
  cases hkept

/-- The same run within the grace window: the gate refuses, and the target stays excluded. -/
theorem pinned_never_retired_in_grace :
    ∃ s s' : State, s.db.PolicyPinned 1 ∧ s.db.statusOf 1 = some .excluded ∧
      (machine Sample.settings).step s (.exec 0 Sample.answered) = some s' ∧
      KeepsPinned s.db s'.db := by
  obtain ⟨s, hrun, hs⟩ : ∃ s, run (machine Sample.settings).step
      (initial Retention.Sample.twoSnapshots Sample.storage 10 100)
      (Sample.pinnedAfterExclusion 1) = some s ∧
      (Sample.isPinnedExcluded s &&
        ((machine Sample.settings).step s (.exec 0 Sample.answered)).isSome) = true :=
    exists_of_run_any (by decide +kernel)
  have hmeets : meets (machine Sample.settings).step (fun s l =>
      (machine Sample.settings).isAlone 1 s l && Sample.isByCycles l && Sample.isSparing s l)
      (initial Retention.Sample.twoSnapshots Sample.storage 10 100)
      (Sample.pinnedAfterExclusion 1 ++ [.exec 0 Sample.answered]) = true := by decide +kernel
  have halong : Along (machine Sample.settings).step (Sparing Sample.settings)
      (initial Retention.Sample.twoSnapshots Sample.storage 10 100)
      (Sample.pinnedAfterExclusion 1 ++ [.exec 0 Sample.answered]) :=
    Machine.along_of_check (n := 1)
      (fun s' l hrest hcheck => by
        simp only [Bool.and_eq_true] at hcheck
        exact ⟨Machine.alone_of_isAlone (fun j hj => by rw [hrest j hj]; rfl) hcheck.1.1,
          Sample.byCycles_of_check hcheck.1.2, Sample.sparesPinned_of_check hcheck.2⟩)
      (by decide +kernel) hmeets
  simp only [Sample.isPinnedExcluded, Bool.and_eq_true, beq_iff_eq, Option.any_eq_true,
    Option.isSome_iff_exists] at hs
  obtain ⟨⟨hexcluded, hpinned⟩, s', hstep⟩ := hs
  exact ⟨s, s', hpinned, hexcluded, hstep,
    pinned_never_retired (Reach.of_run hrun halong.take) (halong.drop hrun).1 hstep⟩

end Vault

end RatatoskrVault
