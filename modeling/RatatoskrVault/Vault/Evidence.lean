import RatatoskrVault.Vault.Workable

/-! The events of a target against the statuses its row has had: which writes of a status come
with the event that reports it. -/
namespace RatatoskrVault

open Lib

namespace Db

variable (db : Db)

/-- The status in the row of a target. -/
def statusOf (targetId : Uuid) : Option TargetStatus := (db.target? targetId).map (·.status)

/-- The moves the events of a target report, in the order in which they were committed. -/
def stateChanges (targetId : Uuid) : List (Option TargetStatus × Option TargetStatus) :=
  db.outbox.filterMap fun row =>
    match row.event with
    | .stateChanged id fromStatus toStatus _ _ =>
      if id = targetId then some (fromStatus, some toStatus) else none
    | _ => none

end Db

/-- Between the two databases every target has moved with the event that says so, or not at all. -/
def Evident (db view : Db) : Prop :=
  ∀ t, view.stateChanges t = db.stateChanges t ++ changes [db.statusOf t, view.statusOf t]

/-- No target has moved and no event has been written. -/
def Untold (db view : Db) : Prop :=
  ∀ t, view.statusOf t = db.statusOf t ∧ view.stateChanges t = db.stateChanges t

/-- One target is at another status, and its event is still to be written. -/
structure Pending (db view : Db) (targetId : Uuid) (fromStatus : Option TargetStatus)
    (toStatus : TargetStatus) : Prop where
  before : db.statusOf targetId = fromStatus
  after : view.statusOf targetId = some toStatus
  others : ∀ t, t ≠ targetId → view.statusOf t = db.statusOf t
  events : ∀ t, view.stateChanges t = db.stateChanges t

/-- Writes to no target and to no outbox. -/
def Write.isSilent : Write → Bool
  | .insertTarget _ => false
  | .setTargetStatus _ _ _ => false
  | .insertOutbox _ => false
  | _ => true

section

variable {db view : Db} {targetId : Uuid} {fromStatus : Option TargetStatus}
  {toStatus : TargetStatus}

theorem Untold.refl (db : Db) : Untold db db := fun _ => ⟨rfl, rfl⟩

theorem Untold.evident (h : Untold db view) : Evident db view := by
  intro t
  obtain ⟨hstatus, hevents⟩ := h t
  rw [hstatus, hevents]
  simp [changes]

theorem Untold.quiet {writes : List Write} (h : Untold db view)
    (hsilent : ∀ w ∈ writes, w.isSilent = true) : Untold db (writes.foldl Db.apply view) := by
  refine foldl_invariant (I := fun d => Untold db d) (fun d w hw hd => ?_) h
  have hquiet := hsilent w hw
  cases w with
  | insertTarget row => cases hquiet
  | setTargetStatus targetId fromStatus toStatus => cases hquiet
  | insertOutbox row => cases hquiet
  | _ => exact hd

theorem Evident.quiet {writes : List Write} (h : Evident db view)
    (hsilent : ∀ w ∈ writes, w.isSilent = true) : Evident db (writes.foldl Db.apply view) := by
  intro t
  obtain ⟨hstatus, hevents⟩ := (Untold.refl view).quiet hsilent t
  rw [hstatus, hevents]
  exact h t

theorem Db.stateChanges_insertOutbox {row : OutboxRow} {t : Uuid} :
    (db.apply (.insertOutbox row)).stateChanges t
      = db.stateChanges t ++ (Db.stateChanges { outbox := [row] } t) := by
  simp [Db.stateChanges, Db.apply, List.filterMap_append]

/-- An acknowledgement reports no status. -/
theorem Untold.acknowledge (h : Untold db view) {eventId : Uuid} {payload : PolicyAcknowledged} :
    Untold db (view.apply (.insertOutbox { eventId, event := .policyAcknowledged payload })) := by
  intro t
  refine ⟨(h t).1, ?_⟩
  rw [Db.stateChanges_insertOutbox, (h t).2]
  simp [Db.stateChanges]

/-- The event of a move that is still to be reported. -/
theorem Pending.report (h : Pending db view targetId fromStatus toStatus)
    (hmoved : fromStatus ≠ some toStatus) {eventId : Uuid} {policyRevision : ℕ}
    {correlationId : String} :
    Evident db (view.apply (.insertOutbox
      { eventId
        event := .stateChanged targetId fromStatus toStatus policyRevision correlationId })) := by
  intro t
  have hstatus : (view.apply (.insertOutbox
      { eventId
        event := .stateChanged targetId fromStatus toStatus policyRevision correlationId })).statusOf t
      = view.statusOf t := rfl
  rw [Db.stateChanges_insertOutbox, h.events, hstatus]
  by_cases hsame : t = targetId
  · rw [hsame, h.before, h.after]
    simp [Db.stateChanges, changes, hmoved]
  · rw [h.others t hsame]
    simp [Db.stateChanges, changes, Ne.symm hsame]

/-- A write of the status the row had needs no event. -/
theorem Pending.unmoved (h : Pending db view targetId fromStatus toStatus)
    (hsame : fromStatus = some toStatus) : Evident db view := by
  refine Untold.evident fun t => ⟨?_, h.events t⟩
  by_cases ht : t = targetId
  · rw [ht, h.before, h.after, hsame]
  · exact h.others t ht

theorem Db.statusOf_setTargetStatus {target : Target} {t : Uuid}
    (htarget : db.target? targetId = some target) :
    (db.apply (.setTargetStatus targetId target.status toStatus)).statusOf t
      = if t = targetId then some toStatus else db.statusOf t := by
  have hfind : (db.apply (.setTargetStatus targetId target.status toStatus)).target? t
      = (db.target? t).map fun row =>
          if row.targetId == targetId && row.status == target.status then
            { row with status := toStatus } else row := by
    refine find?_updateWhere fun row => ?_
    rfl
  unfold Db.statusOf
  rw [hfind]
  by_cases hsame : t = targetId
  · have hid : target.targetId = targetId := by simpa using List.find?_some htarget
    simp [hsame, htarget, hid]
  · cases hrow : db.target? t with
    | none => simp [hsame]
    | some row =>
      have hid : row.targetId = t := by simpa using List.find?_some hrow
      have hne : row.targetId ≠ targetId := hid.symm ▸ hsame
      simp [hsame, hne]

theorem Untold.setTargetStatus (h : Untold db view) (toStatus : TargetStatus) {target : Target}
    (htarget : view.target? targetId = some target) :
    Pending db (view.apply (.setTargetStatus targetId target.status toStatus)) targetId
      (some target.status) toStatus := by
  constructor
  · rw [← (h targetId).1, Db.statusOf, htarget]
    rfl
  · rw [Db.statusOf_setTargetStatus htarget, if_pos rfl]
  · intro t ht
    rw [Db.statusOf_setTargetStatus htarget, if_neg ht]
    exact (h t).1
  · exact fun t => (h t).2

theorem Untold.insertTarget (h : Untold db view) {row : Target}
    (hnew : db.statusOf row.targetId = none) :
    Pending db (view.apply (.insertTarget row)) row.targetId none row.status := by
  have hview : view.target? row.targetId = none := by
    have hnone := (h row.targetId).1.trans hnew
    simpa [Db.statusOf] using hnone
  have hfind : ∀ t, (view.apply (.insertTarget row)).target? t
      = (view.target? t).or (if row.targetId == t then some row else none) := fun t => by
    simp [Db.target?, Db.apply, List.find?_append, List.find?_singleton]
  constructor
  · exact hnew
  · simp [Db.statusOf, hfind, hview]
  · intro t ht
    rw [← (h t).1]
    simp [Db.statusOf, hfind, Ne.symm ht]
  · exact fun t => (h t).2

end

section

variable (db view : Db)

def TransitionLoc.Tells (request : TransitionRequest) : TransitionLoc → Prop
  | .insertTombstone _ fromStatus =>
    Untold db view ∧ view.statusOf request.targetId = some fromStatus
  | .lockTombstone _ fromStatus =>
    Untold db view ∧ view.statusOf request.targetId = some fromStatus
  | .stageStarted _ fromStatus _ =>
    Untold db view ∧ view.statusOf request.targetId = some fromStatus
  | .cancelPlans _ fromStatus _ =>
    Untold db view ∧ view.statusOf request.targetId = some fromStatus
  | .cancelTombstone _ fromStatus _ =>
    Untold db view ∧ view.statusOf request.targetId = some fromStatus
  | .updateTarget _ fromStatus =>
    Untold db view ∧ view.statusOf request.targetId = some fromStatus
  | .insertEvent _ fromStatus =>
    Pending db view request.targetId (some fromStatus) request.toStatus
  | .commit => Evident db view
  | _ => Untold db view

def CycleLoc.Tells : CycleLoc → Prop
  | .enrollEvent _ targetId => Pending db view targetId none .requested
  | .insertRevision _ _ => Evident db view
  | .commit _ _ => Evident db view
  | .transition request at_ _ _ => at_.Tells db view request
  | _ => Untold db view

def CommandLoc.Tells : CommandLoc → Prop
  | .apply _ _ at_ => at_.Tells db view
  | _ => Untold db view

/-- A completion may have moved its target, and writes no event. -/
def WorkerLoc.Tells : WorkerLoc → Prop
  | .complete (.commit row) =>
    (∀ t, t ≠ row.targetId → view.statusOf t = db.statusOf t) ∧
      ∀ t, view.stateChanges t = db.stateChanges t
  | _ => Untold db view

/-- What the open transaction of a session has told of the statuses it has moved. -/
def Vault.Loc.Tells : Vault.Loc → Prop
  | .policy (.command at_) => at_.Tells db view
  | .policy (.cycle at_) => at_.Tells db view
  | .retention (.worker at_) => at_.Tells db view
  | .retention (.transition request at_) => at_.Tells db view request
  | _ => Untold db view

end

section

variable {m : Moment} {db view : Db} {locks : List Lock} {writes : List Write}

theorem TransitionStmt.tells {request : TransitionRequest} {at_ next : TransitionLoc}
    (h : TransitionStmt request m view at_ locks writes next) (hat : at_.Tells db view request) :
    next.Tells db (writes.foldl Db.apply view) request := by
  cases h with
  | insertRevision => exact Untold.quiet hat (by simp [Write.isSilent])
  | lockTarget htarget hnext =>
    have hstatus : view.statusOf request.targetId = some _ := congrArg _ htarget
    unfold retentionTransition at hnext
    split at hnext
    · split_ifs at hnext
      cases hnext
      exact ⟨hat, hstatus⟩
    · split_ifs at hnext <;> cases hnext <;> exact ⟨hat, hstatus⟩
    · cases hnext
      exact ⟨hat, hstatus⟩
  | insertTombstone => exact ⟨hat.1.quiet (by simp [Write.isSilent]), hat.2⟩
  | @cancelPlans _ _ tombstoneId =>
    have hsilent : ∀ w ∈ (view.cancellablePlans tombstoneId).map fun p =>
        Write.setPlanStatus p.planId .planned .cancelled, w.isSilent = true :=
      List.forall_mem_map.mpr fun _ _ => rfl
    exact ⟨hat.1.quiet hsilent, ((Untold.refl view).quiet hsilent request.targetId).1.trans hat.2⟩
  | cancelTombstone => exact ⟨hat.1.quiet (by simp [Write.isSilent]), hat.2⟩
  | targetMissing hnone =>
    have hstatus := hat.2
    rw [Db.statusOf, hnone] at hstatus
    cases hstatus
  | @updateTarget policyRevision fromStatus target htarget hguard =>
    have hstatus : some target.status = some fromStatus := by
      rw [← hat.2, Db.statusOf, htarget]
      rfl
    have hpending := hat.1.setTargetStatus request.toStatus htarget
    rw [hstatus] at hpending
    exact hpending
  | noEvent hsame => exact Pending.unmoved hat (congrArg some hsame)
  | insertEvent hmoved => exact Pending.report hat (by simpa using hmoved)
  | _ => exact hat

/-- A new target is told of by the event that enrolls it. -/
theorem CycleStmt.tells {at_ next : CycleLoc} (h : CycleStmt m view at_ locks writes next)
    (hat : at_.Tells db view) (hnew : db.statusOf m.fresh = none) :
    next.Tells db (writes.foldl Db.apply view) := by
  cases h with
  | claimInbox => exact Untold.quiet hat (by simp [Write.isSilent])
  | targetKnown => exact hat
  | insertTarget => exact Untold.insertTarget hat hnew
  | enrollEvent => exact Pending.report hat (by simp)
  | selectTarget => exact Untold.evident hat
  | revisionKnown => exact hat
  | insertRevision => exact Evident.quiet hat (by simp [Write.isSilent])
  | transition h =>
    rw [resumeTransition_of_not_atRest h.not_atRest]
    exact h.tells hat

theorem CommandStmt.tells {at_ next : CommandLoc} (h : CommandStmt m view at_ locks writes next)
    (hat : at_.Tells db view) (hnew : db.statusOf m.fresh = none) :
    next.Tells db (writes.foldl Db.apply view) := by
  cases h with
  | apply h =>
    rw [resumeCycle_of_not_atRest h.not_atRest]
    exact h.tells hat hnew
  | unknown => exact hat
  | insertAcknowledgement => exact Untold.acknowledge hat
  | insertCommand => exact Untold.quiet hat (by simp [Write.isSilent])

/-- What has moved nothing so far is a completion that has moved at most its target. -/
theorem Untold.completed (h : Untold db view) {row : CompletionRow} :
    (WorkerLoc.complete (.commit row)).Tells db view :=
  ⟨fun t _ => (h t).1, fun t => (h t).2⟩

theorem WorkerStmt.tells {at_ next : WorkerLoc} (h : WorkerStmt m view at_ locks writes next)
    (hat : at_.Tells db view) : next.Tells db (writes.foldl Db.apply view) := by
  cases h with
  | abandonStage => exact Untold.quiet hat (List.forall_mem_map.mpr fun _ _ => rfl)
  | abandonClaims => exact Untold.quiet hat (List.forall_mem_map.mpr fun _ _ => rfl)
  | completeSnapshot => exact (Untold.quiet hat (by simp [Write.isSilent])).completed
  | incomplete => exact Untold.completed hat
  | targetKept => exact Untold.completed hat
  | @completeTarget row tombstoneId target htarget hstatus =>
    have hpending := Untold.setTargetStatus hat .deleted htarget
    rw [hstatus] at hpending
    exact ⟨hpending.others, hpending.events⟩
  | _ => exact Untold.quiet hat (by simp [Write.isSilent])

theorem MirrorStmt.silent {settings : MirrorLifecycleSettings} {at_ next : MirrorLoc}
    (h : MirrorStmt settings view at_ locks writes next) : ∀ w ∈ writes, w.isSilent = true := by
  cases h <;> simp [Write.isSilent]

theorem CaptureStmt.silent {at_ next : CaptureLoc} (h : CaptureStmt m view at_ locks writes next) :
    ∀ w ∈ writes, w.isSilent = true := by
  cases h <;> simp [Write.isSilent]

/-- A status written where the row has it already. -/
theorem StatusAuto.untold {targetId : Uuid} {status : TargetStatus}
    (h : StatusAuto m db targetId status locks writes)
    (hkept : ∀ row, db.target? targetId = some row → row.status = status ∨
      db.targetGuardStatusTransition m.clock row status ≠ .ok ()) :
    Untold db (writes.foldl Db.apply db) := by
  cases h with
  | missing => exact Untold.refl db
  | @written target htarget hguard =>
    have hsame := (hkept target htarget).resolve_right fun hrefused => hrefused hguard
    have hpending := (Untold.refl db).setTargetStatus status htarget
    intro t
    refine ⟨?_, hpending.events t⟩
    by_cases ht : t = targetId
    · rw [ht]
      exact hpending.after.trans (hsame ▸ hpending.before.symm)
    · exact hpending.others t ht

end

namespace Vault

/-- The status a statement writes without an event. -/
def Loc.writesStatus? : Loc → Option (Uuid × TargetStatus)
  | .mirror (.transitionStarted request operation) =>
    some (request.targetId, operation.startStatus)
  | .mirror (.setStatus job status) => some (job.run.request.targetId, status)
  | .mirror (.setLfsDegraded job) => some (job.run.request.targetId, .degraded)
  | .retention (.worker (.gate plan)) => some (plan.targetId, .deleting)
  | _ => none

/-- The target a completion is about to commit. -/
def Loc.completes? : Loc → Option Uuid
  | .retention (.worker (.complete (.commit row))) => some row.targetId
  | _ => none

section

variable (settings : Settings)

/-- Mirror runs, the start and the completion of a deletion, and wiki discovery leave every status
as it is: the row has it already, or the guard refuses. -/
structure LeavesStatuses (s : State) (l : Label) : Prop where
  written : ∀ i input t status, l = .exec i input →
    (s.session i).loc.writesStatus? = some (t, status) →
    ∀ row, s.db.target? t = some row → row.status = status ∨
      s.db.targetGuardStatusTransition s.clock row status ≠ .ok ()
  completed : ∀ i input t, l = .exec i input → (s.session i).loc.completes? = some t →
    ((machine settings).view s i).statusOf t = s.db.statusOf t
  discovered : ∀ parent, l = .op (.recordWikiDiscovery parent .present) →
    s.db.wikiTarget? parent ≠ none

/-- The identifiers of the targets have been drawn. -/
def TargetsBelow (db : Db) (fresh : ℕ) : Prop := ∀ row ∈ db.targets, row.targetId < fresh

end

section

variable {settings : Settings} {s s' : State} {m : Moment} {db view : Db}
  {storage : MirrorStorage} {locks : List Lock} {writes : List Write} {loc next : Loc}

theorem TargetsBelow.foldl {fresh : ℕ} (h : TargetsBelow db fresh)
    (hdrawn : ∀ row, .insertTarget row ∈ writes → row.targetId = fresh) :
    TargetsBelow (writes.foldl Db.apply db) (fresh + 1) := by
  have hsucc : TargetsBelow db (fresh + 1) := fun row hrow => Nat.lt_succ_of_lt (h row hrow)
  refine foldl_invariant (I := fun d => TargetsBelow d (fresh + 1)) (fun d w hw hd => ?_) hsucc
  cases w with
  | insertTarget row =>
    refine List.forall_mem_append.mpr ⟨hd, List.forall_mem_singleton.mpr ?_⟩
    exact hdrawn row hw ▸ Nat.lt_succ_self fresh
  | setTargetStatus targetId fromStatus toStatus =>
    exact forall_updateWhere hd fun _ _ hrow _ => hrow
  | _ => exact hd

theorem statusOf_of_targetsBelow {fresh : ℕ} (h : TargetsBelow db fresh) :
    db.statusOf fresh = none := by
  rw [Db.statusOf, Option.map_eq_none_iff, Db.target?, List.find?_eq_none]
  intro row hrow
  simpa using (h row hrow).ne

theorem TransitionStmt.noTarget {request : TransitionRequest} {at_ n : TransitionLoc}
    (h : TransitionStmt request m view at_ locks writes n) (row : Target) :
    .insertTarget row ∉ writes := by
  cases h <;> simp

theorem CycleStmt.drawn {at_ n : CycleLoc} (h : CycleStmt m view at_ locks writes n) {row : Target}
    (hrow : .insertTarget row ∈ writes) : row.targetId = m.fresh := by
  cases h with
  | insertTarget => cases List.mem_singleton.mp hrow; rfl
  | transition h => exact absurd hrow (TransitionStmt.noTarget h row)
  | _ => simp at hrow

theorem SessionStmt.drawn (h : SessionStmt settings m view loc locks writes next) {row : Target}
    (hrow : .insertTarget row ∈ writes) : row.targetId = m.fresh := by
  cases h with
  | command h =>
    cases h with
    | apply h => exact CycleStmt.drawn h hrow
    | _ => simp at hrow
  | cycle h => exact CycleStmt.drawn h hrow
  | mirror h => cases h <;> simp at hrow
  | retention h =>
    cases h with
    | worker h => cases h <;> simp at hrow
    | capture h => cases h <;> simp at hrow
    | transition h => exact absurd hrow (TransitionStmt.noTarget h row)

theorem SessionAuto.drawn (h : SessionAuto settings m db storage loc locks writes next)
    {row : Target} (hrow : .insertTarget row ∈ writes) : row.targetId = m.fresh := by
  cases h with
  | command h => cases hrow
  | cycle h => cases hrow
  | mirror h =>
    cases h with
    | started h => cases h <;> simp at hrow
    | setStatus h => cases h <;> simp at hrow
    | setLfsDegraded h => cases h <;> simp at hrow
    | _ => simp at hrow
  | retention h =>
    cases h with
    | worker h => cases h <;> simp at hrow
    | capture h => cases hrow

theorem OpWrites.drawn {o : Op} (h : OpWrites m db o locks writes) {row : Target}
    (hrow : .insertTarget row ∈ writes) : row.targetId = m.fresh := by
  cases h with
  | retention h => cases h <;> simp at hrow
  | undiscovered => cases hrow
  | wikiKnown => simp at hrow
  | wikiEnrolled hid =>
    rcases List.mem_cons.mp hrow with hrow | hrow
    · cases hrow
      exact hid
    · simp at hrow
  | evaluated => simp at hrow

theorem SessionStmt.tells (h : SessionStmt settings m view loc locks writes next)
    (hloc : loc.Tells db view) (hnew : db.statusOf m.fresh = none) :
    next.Tells db (writes.foldl Db.apply view) := by
  cases h with
  | command h => exact h.tells hloc hnew
  | cycle h => exact h.tells hloc hnew
  | mirror h => exact Untold.quiet hloc h.silent
  | retention h =>
    cases h with
    | worker h => exact h.tells hloc
    | capture h => exact Untold.quiet hloc h.silent
    | transition h => exact h.tells hloc

/-- A session without a transaction has told everything. -/
theorem tells_of_atRest (h : loc.atRest = true) : loc.Tells db db := by
  have htransition : ∀ (request : TransitionRequest) (at_ : TransitionLoc), at_.atRest = true →
      at_.Tells db db request := by
    intro request at_ hrest
    cases at_ <;> first | exact Untold.refl db | cases hrest
  have hcycle : ∀ at_ : CycleLoc, at_.atRest = true → at_.Tells db db := by
    intro at_ hrest
    cases at_ with
    | transition request at_ items rest => exact htransition request at_ hrest
    | _ => first | exact Untold.refl db | cases hrest
  cases loc with
  | idle => exact Untold.refl db
  | policy at_ =>
    cases at_ with
    | command at_ =>
      cases at_ with
      | apply command decision at_ => exact hcycle at_ h
      | _ => exact Untold.refl db
    | cycle at_ => exact hcycle at_ h
    | _ => exact Untold.refl db
  | mirror at_ => exact Untold.refl db
  | retention at_ =>
    cases at_ with
    | worker at_ =>
      cases at_ with
      | complete at_ => cases at_ <;> first | exact Untold.refl db | cases h
      | _ => exact Untold.refl db
    | transition request at_ => exact htransition request at_ h
    | _ => exact Untold.refl db

theorem SessionAuto.evident (h : SessionAuto settings m db storage loc locks writes next)
    (hkept : ∀ t status, loc.writesStatus? = some (t, status) →
      ∀ row, db.target? t = some row → row.status = status ∨
        db.targetGuardStatusTransition m.clock row status ≠ .ok ()) :
    Evident db (writes.foldl Db.apply db) := by
  cases h with
  | command h => exact (Untold.refl db).evident
  | cycle h => exact (Untold.refl db).evident
  | mirror h =>
    cases h with
    | started h => exact (h.untold (hkept _ _ rfl)).evident
    | setStatus h => exact (h.untold (hkept _ _ rfl)).evident
    | setLfsDegraded h => exact (h.untold (hkept _ _ rfl)).evident
    | _ => exact ((Untold.refl db).quiet (by simp [Write.isSilent])).evident
  | retention h =>
    cases h with
    | worker h =>
      cases h with
      | gate htarget hguard =>
        exact (StatusAuto.untold (.written htarget hguard) (hkept _ _ rfl)).evident
      | _ => exact ((Untold.refl db).quiet (by simp [Write.isSilent])).evident
    | capture h => exact (Untold.refl db).evident

theorem SessionCommit.evident (h : SessionCommit loc next) (hloc : loc.Tells db view)
    (hcompleted : ∀ t, loc.completes? = some t → view.statusOf t = db.statusOf t) :
    Evident db view := by
  cases h with
  | command h =>
    cases h with
    | apply h => cases h <;> exact hloc
    | recorded => exact Untold.evident hloc
  | cycle h => cases h <;> exact hloc
  | mirror h => exact Untold.evident hloc
  | retention h =>
    cases h with
    | worker h =>
      cases h with
      | @completed row =>
        refine Untold.evident fun t => ⟨?_, hloc.2 t⟩
        by_cases ht : t = row.targetId
        · exact hcompleted t (congrArg some ht.symm)
        · exact hloc.1 t ht
      | _ => exact Untold.evident hloc
    | capture => exact Untold.evident hloc
    | transition => exact hloc

theorem OpWrites.evident {o : Op} (h : OpWrites m db o locks writes)
    (hknown : ∀ parent, o = .recordWikiDiscovery parent .present → db.wikiTarget? parent ≠ none) :
    Evident db (writes.foldl Db.apply db) := by
  refine Untold.evident ?_
  cases h with
  | retention h => cases h <;> exact (Untold.refl db).quiet (by simp [Write.isSilent])
  | undiscovered => exact Untold.refl db
  | wikiKnown => exact (Untold.refl db).quiet (List.forall_mem_map.mpr fun _ _ => rfl)
  | wikiEnrolled _ hnone => exact absurd hnone (hknown _ rfl)
  | evaluated => exact (Untold.refl db).quiet (by simp [Write.isSilent])

/-- Every transaction tells of its moves before it commits. -/
theorem telling : (machine settings).Outline
    (fun s l => (machine settings).Alone s l ∧ LeavesStatuses settings s l)
    (fun db _ fresh => TargetsBelow db fresh)
    (fun db view _ fresh loc => TargetsBelow view fresh ∧ loc.Tells db view) where
  fresh h row hrow := Nat.lt_succ_of_lt (h row hrow)
  start s i proc _ h := ⟨h, tells_of_atRest (rests.start proc)⟩
  stmt s i input locks writes next _ h hF hact := by
    have hstmt := act_stmt hact
    exact ⟨hF.1.foldl fun row hrow => hstmt.drawn hrow,
      hstmt.tells hF.2 (statusOf_of_targetsBelow h)⟩
  auto s i input locks writes next _ h _ hact := by
    have hauto := act_auto hact
    have hbelow := h.foldl fun row hrow => hauto.drawn hrow
    exact ⟨hbelow, hbelow, tells_of_atRest (rests.auto hact).2⟩
  commit s i input next _ _ hF hact := ⟨hF.1, hF.1, tells_of_atRest (rests.commit hact)⟩
  rollback s i input next _ h _ hact _ := ⟨h, tells_of_atRest (rests.rollback hact)⟩
  call s i input world next _ h _ hact := by
    have hbelow : TargetsBelow s.db (s.fresh + 1) := fun row hrow => Nat.lt_succ_of_lt (h row hrow)
    exact ⟨hbelow, hbelow, tells_of_atRest (rests.call hact).2⟩
  op s o locks writes _ h hop := h.foldl fun row hrow => (operate_writes hop).drawn hrow

/-- Whatever a step commits tells of every status it moves. -/
theorem step_evident {l : Label}
    (h : Machine.Serial (fun db _ fresh => TargetsBelow db fresh)
      ((machine settings).Asserted Loc.atRest
        fun db view _ fresh loc => TargetsBelow view fresh ∧ loc.Tells db view) s)
    (hleaves : LeavesStatuses settings s l) (hstep : (machine settings).step s l = some s') :
    Evident s.db s'.db := by
  rcases Machine.step_db hstep with hdb | ⟨i, input, locks, writes, next, rfl, hact, hdb⟩ |
    ⟨i, input, next, rfl, hact, hdb⟩ | ⟨o, locks, writes, rfl, hop, hdb⟩
  · rw [hdb]
    exact (Untold.refl s.db).evident
  · have hview := ((h.sessions i).of_act rests hact).2 (rests.auto hact).1
    rw [hview] at hact
    rw [hdb]
    exact (act_auto hact).evident fun t status => hleaves.written i input t status rfl
  · rw [hdb]
    exact (act_commit hact).evident ((h.sessions i).of_act rests hact).1.2
      fun t => hleaves.completed i input t rfl
  · rw [hdb]
    exact (operate_writes hop).evident fun parent ho => hleaves.discovered parent (congrArg _ ho)

/-- In every run from an empty vault whose unevented writes move no status, the events of a target
are the moves between the statuses its row has had, from none. -/
theorem every_change_evidenced {clock fresh : ℕ} {ls : List Label}
    (hrun : run (machine settings).step (initial {} storage clock fresh) ls = some s)
    (hok : Along (machine settings).step
      (fun s l => (machine settings).Alone s l ∧ LeavesStatuses settings s l)
      (initial {} storage clock fresh) ls) (targetId : Uuid) :
    s.db.stateChanges targetId = changes
      (history (machine settings).step (fun s => s.db.statusOf targetId)
        (initial {} storage clock fresh) ls) := by
  have hserial : Machine.Serial (fun db _ fresh => TargetsBelow db fresh)
      ((machine settings).Asserted Loc.atRest
        fun db view _ fresh loc => TargetsBelow view fresh ∧ loc.Tells db view)
      (initial {} storage clock fresh) :=
    ⟨fun row hrow => absurd hrow List.not_mem_nil, fun _ => Machine.Asserted.of_idle rfl⟩
  exact record_eq_changes (fun s : State => s.db.statusOf targetId)
    (fun s => s.db.stateChanges targetId) (telling.step rests fun _ _ hok => hok.1)
    (fun s l s' hs hok hstep => step_evident hs hok.2 hstep targetId) hserial hok hrun

end

/-- A clone moves its target to `cloning`, and the only event is that of its enrollment. -/
theorem cloning_unevidenced :
    ¬ ∀ ls s, run (machine Sample.settings).step (initial {} Sample.storage 0 0) ls = some s →
      Along (machine Sample.settings).step (machine Sample.settings).Alone
        (initial {} Sample.storage 0 0) ls →
      ∀ t, s.db.stateChanges t = changes
        (history (machine Sample.settings).step (fun s => s.db.statusOf t)
          (initial {} Sample.storage 0 0) ls) := by
  intro h
  obtain ⟨s, hrun, hs⟩ : ∃ s, run (machine Sample.settings).step (initial {} Sample.storage 0 0)
      (Sample.cycle "git_mirror" 1 10 ++ Sample.enrolledRun) = some s ∧
      (s.db.stateChanges 2 == [(none, some TargetStatus.requested)]) = true :=
    exists_of_run_any (by decide +kernel)
  have halong : Along (machine Sample.settings).step (machine Sample.settings).Alone
      (initial {} Sample.storage 0 0) (Sample.cycle "git_mirror" 1 10 ++ Sample.enrolledRun) :=
    Machine.along_alone (n := 1) (fun _ _ => rfl) (by decide +kernel) (by decide +kernel)
  have hhistory : changes (history (machine Sample.settings).step (fun s => s.db.statusOf 2)
      (initial {} Sample.storage 0 0) (Sample.cycle "git_mirror" 1 10 ++ Sample.enrolledRun))
      = [(none, some .requested), (some .requested, some .cloning),
          (some .cloning, some .ready)] := by decide +kernel
  have hevents := h _ s hrun halong 2
  rw [hhistory, beq_iff_eq.mp hs] at hevents
  cases hevents

namespace Sample

/-- The steps of cycles alone, none of which writes a status without its event. -/
def isTold (s : State) : Label → Bool
  | .exec i _ => (s.session i).loc.writesStatus?.isNone && (s.session i).loc.completes?.isNone
  | .op _ => false
  | _ => true

theorem leavesStatuses_of_isTold {s : State} {l : Label} (h : isTold s l = true) :
    LeavesStatuses settings s l := by
  constructor
  · rintro i input t status rfl hwrites
    simp [isTold, hwrites] at h
  · rintro i input t rfl hcompletes
    simp [isTold, hcompletes] at h
  · rintro parent rfl
    cases h

end Sample

/-- Enrollment, exclusion and reactivation. -/
theorem every_change_evidenced_reactivation :
    ∃ s : State, s.db.stateChanges 2 = [(none, some .requested), (some .requested, some .excluded),
        (some .excluded, some .requested)] ∧
      s.db.stateChanges 2 = changes
        (history (machine Sample.settings).step (fun s => s.db.statusOf 2)
          (initial {} Sample.storage 0 0) (Sample.cycle "git_mirror" 1 10 ++
            Sample.cycle "none" 2 18 ++ Sample.cycle "git_mirror" 3 21)) := by
  obtain ⟨s, hrun, hs⟩ : ∃ s, run (machine Sample.settings).step (initial {} Sample.storage 0 0)
      (Sample.cycle "git_mirror" 1 10 ++ Sample.cycle "none" 2 18 ++
        Sample.cycle "git_mirror" 3 21) = some s ∧
      (s.db.stateChanges 2 == [(none, some TargetStatus.requested),
        (some .requested, some .excluded), (some .excluded, some .requested)]) = true :=
    exists_of_run_any (by decide +kernel)
  have hmeets : meets (machine Sample.settings).step
      (fun s l => (machine Sample.settings).isAlone 1 s l && Sample.isTold s l)
      (initial {} Sample.storage 0 0) (Sample.cycle "git_mirror" 1 10 ++
        Sample.cycle "none" 2 18 ++ Sample.cycle "git_mirror" 3 21) = true := by decide +kernel
  have halong : Along (machine Sample.settings).step
      (fun s l => (machine Sample.settings).Alone s l ∧ LeavesStatuses Sample.settings s l) _ _ :=
    Machine.along_of_check (n := 1)
      (fun s' l hrest hcheck => by
        rw [Bool.and_eq_true] at hcheck
        exact ⟨Machine.alone_of_isAlone (fun j hj => by rw [hrest j hj]; rfl) hcheck.1,
          Sample.leavesStatuses_of_isTold hcheck.2⟩)
      (by decide +kernel) hmeets
  exact ⟨s, beq_iff_eq.mp hs, every_change_evidenced hrun halong 2⟩

end Vault

end RatatoskrVault
