import RatatoskrVault.Vault.Reactivation

/-! A cycle that has succeeded has left its targets settled and its messages known: the same
batch again, before anything else is written, reads and changes nothing. -/
namespace RatatoskrVault

open Lib

def IncomingDelivery.inboxRow (message : IncomingDelivery) : InboxRow :=
  { source := message.source, messageId := message.messageId }

/-- The message passes the boundary and the constraints of the inbox. -/
def IncomingDelivery.Admissible (message : IncomingDelivery) : Prop :=
  message.inboxRow.allowed = true ∧
    ∃ delivery policyRevision, validateDelivery message.delivery = .ok delivery ∧
      governedInputs delivery = .ok policyRevision

/-- The identifier of the target a message names. -/
def Db.named? (db : Db) (message : IncomingDelivery) : Option Uuid :=
  (db.repositoryTarget? message.provider message.externalRepositoryId).map (·.targetId)

/-- The message has been ingested, and it names the target. -/
structure Ingested (db : Db) (message : IncomingDelivery) (targetId : Uuid) : Prop where
  admissible : message.Admissible
  recorded : message.inboxRow ∈ db.inbox
  named : db.named? message = some targetId

/-- Every message has been ingested, and the targets they name join those named before. -/
inductive Ingests (db : Db) : List Uuid → List IncomingDelivery → List Uuid → Prop
  | nil {touched : List Uuid} : Ingests db touched [] touched
  | cons {touched touched' : List Uuid} {message : IncomingDelivery}
      {messages : List IncomingDelivery} {targetId : Uuid} (h : Ingested db message targetId)
      (hrest : Ingests db (remember touched targetId) messages touched') :
      Ingests db touched (message :: messages) touched'

/-- Nothing that can be executed is left to do for the target. -/
def Settled (db : Db) (targetId : Uuid) : Prop :=
  ∀ policy, db.governing? targetId = some policy →
    WorkItem.exclude ∉ planItems (governedRecord policy) (db.statusOf targetId) ∧
      WorkItem.reactivate ∉ planItems (governedRecord policy) (db.statusOf targetId)

section

variable {db db' : Db} {touched touched' : List Uuid} {messages : List IncomingDelivery}
  {message : IncomingDelivery} {targetId : Uuid}

theorem Ingests.snoc (h : Ingests db touched messages touched')
    (hmessage : Ingested db message targetId) :
    Ingests db touched (messages ++ [message]) (remember touched' targetId) := by
  induction h with
  | nil => exact .cons hmessage .nil
  | cons h _ ih => exact .cons h ih

theorem Ingests.mono (hkept : ∀ message targetId, Ingested db message targetId →
    Ingested db' message targetId) (h : Ingests db touched messages touched') :
    Ingests db' touched messages touched' := by
  induction h with
  | nil => exact .nil
  | cons h _ ih => exact .cons (hkept _ _ h) ih

theorem nodup_remember (h : touched.Nodup) : (remember touched targetId).Nodup := by
  unfold remember
  split_ifs with hknown
  · exact h
  · have hnew : targetId ∉ touched := by simpa using hknown
    rw [List.nodup_append]
    refine ⟨h, List.nodup_singleton _, fun a ha b hb => ?_⟩
    rw [List.mem_singleton.mp hb]
    exact fun heq => hnew (heq ▸ ha)

theorem Ingests.nodup (h : Ingests db touched messages touched') (hnodup : touched.Nodup) :
    touched'.Nodup := by
  induction h with
  | nil => exact hnodup
  | cons _ _ ih => exact ih (nodup_remember hnodup)

/-- No write makes a search that ignores the status find another target. -/
theorem foundTarget_apply {q : Target → Bool} (hq : ∀ t status, q { t with status } = q t)
    (h : (db.targets.find? q).map (·.targetId) = some targetId) (w : Write) :
    ((db.apply w).targets.find? q).map (·.targetId) = some targetId := by
  obtain ⟨target, hfound, hid⟩ := Option.map_eq_some_iff.mp h
  cases w with
  | insertTarget row =>
    show (List.find? _ (db.targets ++ [row])).map _ = _
    rw [List.find?_append, hfound]
    exact congrArg some hid
  | setTargetStatus id fromStatus toStatus =>
    have hupdated : (db.apply (.setTargetStatus id fromStatus toStatus)).targets.find? q
        = (db.targets.find? q).map fun t =>
            if t.targetId == id && t.status == fromStatus then { t with status := toStatus }
            else t :=
      find?_updateWhere fun t => hq t toStatus
    rw [hupdated, hfound, Option.map_some, Option.map_some]
    split_ifs <;> exact congrArg some hid
  | _ => exact h

/-- No write gives a repository another target. -/
theorem named?_apply (h : db.named? message = some targetId) (w : Write) :
    (db.apply w).named? message = some targetId := by
  unfold Db.named? Db.repositoryTarget? at h ⊢
  exact foundTarget_apply (fun t status => rfl) h w

/-- Nor does one take a message out of the inbox. -/
theorem Ingested.apply (h : Ingested db message targetId) (w : Write) :
    Ingested (db.apply w) message targetId := by
  refine ⟨h.admissible, ?_, named?_apply h.named w⟩
  cases w with
  | insertInbox row => exact List.mem_append_left _ h.recorded
  | _ => exact h.recorded

theorem Ingested.applyAll {writes : List Write} (h : Ingested db message targetId) :
    Ingested (writes.foldl Db.apply db) message targetId :=
  foldl_invariant (I := fun d => Ingested d message targetId) (fun _ w _ hd => hd.apply w) h

theorem Ingests.applyAll {writes : List Write} (h : Ingests db touched messages touched') :
    Ingests (writes.foldl Db.apply db) touched messages touched' :=
  h.mono fun _ _ hmessage => hmessage.applyAll

theorem Settled.congr (hrevisions : db'.revisions = db.revisions)
    (hstatus : db'.statusOf targetId = db.statusOf targetId) (h : Settled db targetId) :
    Settled db' targetId := by
  have hgoverning : db'.governing? targetId = db.governing? targetId := by
    unfold Db.governing? Db.revisionsOf
    rw [hrevisions]
  intro policy hpolicy
  rw [hgoverning] at hpolicy
  rw [hstatus]
  exact h policy hpolicy

end

/-- A target that has the status its policy asks for is settled. -/
theorem settled_of_statusOf {db : Db} {targetId : Uuid} {policy : Revision} {status : TargetStatus}
    (hpolicy : db.governing? targetId = some policy) (hstatus : db.statusOf targetId = some status)
    (hasked : status = .excluded ↔ (governedRecord policy).withdrawn = true) :
    Settled db targetId := by
  intro policy' hpolicy'
  obtain rfl : policy = policy' := Option.some.inj (hpolicy.symm.trans hpolicy')
  rw [hstatus]
  rw [exclude_mem_planItems_iff, reactivate_mem_planItems_iff]
  constructor
  · rintro ⟨hwithdrawn, hne, -⟩
    exact hne (hasked.mpr hwithdrawn)
  · rintro ⟨hactive, hexcluded⟩
    rw [hasked.mp hexcluded] at hactive
    cases hactive

/-- A cycle over the messages has some of them behind it, and these are still to come. -/
def Behind (messages : List IncomingDelivery) (db : Db) (todo : List IncomingDelivery)
    (touched : List Uuid) : Prop :=
  ∃ done, messages = done ++ todo ∧ Ingests db [] done touched

/-- The message is the next one, and its slot in the inbox is taken. -/
structure Claimed (messages : List IncomingDelivery) (db : Db) (message : IncomingDelivery)
    (todo : List IncomingDelivery) (touched : List Uuid) : Prop where
  behind : Behind messages db (message :: todo) touched
  admissible : message.Admissible
  recorded : message.inboxRow ∈ db.inbox

/-- Every message is ingested, the targets before this one are settled, and these come after it. -/
structure Reached (messages : List IncomingDelivery) (db : Db) (targetId : Uuid)
    (rest : Converging) : Prop where
  ingested : ∃ settled, Ingests db [] messages (settled ++ targetId :: rest.todo) ∧
    ∀ t ∈ settled, Settled db t

def TransitionLoc.locksTarget : TransitionLoc → Bool
  | .begin => false
  | .insertRevision _ => false
  | .lockTarget _ => false
  | _ => true

def TransitionLoc.hasMoved : TransitionLoc → Bool
  | .insertEvent _ _ => true
  | .commit => true
  | _ => false

/-- A transition that a cycle makes under the policy of the target. -/
structure Moving (db : Db) (request : TransitionRequest) (at_ : TransitionLoc)
    (policy : Revision) : Prop where
  governed : db.governing? request.targetId = some policy
  governing : request.governing = governedRecord policy
  asked : request.toStatus = .excluded ∧ (governedRecord policy).withdrawn = true ∨
    request.toStatus = .requested ∧ (governedRecord policy).withdrawn = false
  revision : ∀ policyRevision, at_ = .insertRevision policyRevision →
    policyRevision = policy.policyRevision
  found : at_.locksTarget = true → (db.statusOf request.targetId).isSome = true
  moved : at_.hasMoved = true → db.statusOf request.targetId = some request.toStatus

/-- What is known along a cycle that nothing disturbs. -/
def Passing (messages : List IncomingDelivery) : CycleLoc → Db → Prop
  | .ingest todo touched, db => Behind messages db todo touched
  | .claimInbox job, db =>
    Behind messages db (job.message :: job.todo) job.touched ∧
      ∃ delivery policyRevision, validateDelivery job.message.delivery = .ok delivery ∧
        governedInputs delivery = .ok policyRevision
  | .insertTarget job, db => Claimed messages db job.message job.todo job.touched
  | .selectTarget job, db => Claimed messages db job.message job.todo job.touched
  | .enrollEvent job targetId, db =>
    Claimed messages db job.message job.todo job.touched ∧ db.named? job.message = some targetId
  | .insertRevision job targetId, db =>
    Claimed messages db job.message job.todo job.touched ∧ db.named? job.message = some targetId
  | .commit job targetId, db =>
    Claimed messages db job.message job.todo job.touched ∧ db.named? job.message = some targetId
  | .findTarget message todo touched, db => Claimed messages db message todo touched
  | .readGoverning targetId rest, db => Reached messages db targetId rest
  | .readObserved targetId desired rest, db =>
    Reached messages db targetId rest ∧
      ∃ policy, db.governing? targetId = some policy ∧ desired = governedRecord policy
  | .items targetId desired items rest, db =>
    Reached messages db targetId rest ∧
      ∃ policy, db.governing? targetId = some policy ∧ desired = governedRecord policy ∧
        (WorkItem.exclude ∉ items ∧ WorkItem.reactivate ∉ items ∧ Settled db targetId ∨
          items = [.exclude] ∧ desired.withdrawn = true ∨
          items = [.reactivate] ∧ desired.withdrawn = false)
  | .transition request at_ items rest, db =>
    Reached messages db request.targetId rest ∧ items = [] ∧ ∃ policy, Moving db request at_ policy
  | .finished (.ok _), db =>
    ∃ touched, Ingests db [] messages touched ∧ ∀ t ∈ touched, Settled db t
  | .finished (.error _), _ => True

/-- Between its transactions a cycle has written nothing. -/
def CycleLoc.Rests : CycleLoc → Prop
  | .insertTarget _ => False
  | .selectTarget _ => False
  | .enrollEvent _ _ => False
  | .insertRevision _ _ => False
  | .commit _ _ => False
  | .transition _ at_ _ _ => at_ = .begin
  | _ => True

section

variable {messages todo : List IncomingDelivery} {message : IncomingDelivery} {db : Db}
  {touched : List Uuid} {targetId : Uuid} {rest : Converging} {w : Write} {writes : List Write}

theorem Behind.applyAll (h : Behind messages db todo touched) :
    Behind messages (writes.foldl Db.apply db) todo touched := by
  obtain ⟨done, hsplit, hingests⟩ := h
  exact ⟨done, hsplit, hingests.applyAll⟩

theorem Claimed.ingested (h : Claimed messages db message todo touched)
    (hnamed : db.named? message = some targetId) :
    Behind messages db todo (remember touched targetId) := by
  obtain ⟨done, hsplit, hingests⟩ := h.behind
  refine ⟨done ++ [message], ?_, hingests.snoc ⟨h.admissible, h.recorded, hnamed⟩⟩
  rw [hsplit, List.append_assoc]
  rfl

/-- The rest of a transaction keeps the slot, and the target it has found. -/
theorem Claimed.applyAll (h : Claimed messages db message todo touched) :
    Claimed messages (writes.foldl Db.apply db) message todo touched := by
  refine ⟨h.behind.applyAll, h.admissible, ?_⟩
  refine foldl_invariant (I := fun d : Db => message.inboxRow ∈ d.inbox) (fun d w _ hd => ?_)
    h.recorded
  cases w with
  | insertInbox row => exact List.mem_append_left _ hd
  | _ => exact hd

theorem Claimed.named_applyAll (h : Claimed messages db message todo touched)
    (hnamed : db.named? message = some targetId) :
    (writes.foldl Db.apply db).named? message = some targetId := by
  have hingested : Ingested db message targetId := ⟨h.admissible, h.recorded, hnamed⟩
  have hkept : Ingested (writes.foldl Db.apply db) message targetId := hingested.applyAll
  exact hkept.named

/-- A cycle goes on with the next target, or it is done. -/
theorem passing_next (hsettled : Settled db targetId) (h : Reached messages db targetId rest) :
    Passing messages rest.next db := by
  obtain ⟨settled, hingests, hall⟩ := h.ingested
  have hmore : ∀ t ∈ settled ++ [targetId], Settled db t := by
    intro t ht
    rcases List.mem_append.mp ht with hmem | hlast
    · exact hall t hmem
    · rw [List.mem_singleton.mp hlast]
      exact hsettled
  unfold Converging.next
  cases htodo : rest.todo with
  | nil =>
    rw [htodo] at hingests
    exact ⟨settled ++ [targetId], hingests, hmore⟩
  | cons next todo =>
    rw [htodo] at hingests
    refine ⟨settled ++ [targetId], ?_, hmore⟩
    rw [List.append_assoc]
    exact hingests

theorem Reached.count (h : Reached messages db targetId rest) (counters : PlanCounters) :
    Reached messages db targetId (rest.count counters) := ⟨h.ingested⟩

/-- What leaves the revisions and the statuses of the other targets keeps them settled. -/
theorem Reached.applyAll (h : Reached messages db targetId rest)
    (hrevisions : (writes.foldl Db.apply db).revisions = db.revisions)
    (hstatus : ∀ t, t ≠ targetId → (writes.foldl Db.apply db).statusOf t = db.statusOf t) :
    Reached messages (writes.foldl Db.apply db) targetId rest := by
  obtain ⟨settled, hingests, hall⟩ := h.ingested
  refine ⟨settled, hingests.applyAll, fun t ht => ?_⟩
  have hnodup : (settled ++ targetId :: rest.todo).Nodup := hingests.nodup List.nodup_nil
  have hne : t ≠ targetId := by
    rintro rfl
    rw [List.nodup_append] at hnodup
    exact hnodup.2.2 t ht t (List.mem_cons_self ..) rfl
  exact (hall t ht).congr hrevisions (hstatus t hne)

end

section

variable {messages : List IncomingDelivery} {db : Db} {m : Moment} {request : TransitionRequest}
  {at_ next : TransitionLoc} {policy : Revision} {locks : List Lock} {writes : List Write}

theorem revisions_of_foldl (h : ∀ w ∈ writes, ∀ row, w ≠ .insertRevision row) :
    (writes.foldl Db.apply db).revisions = db.revisions := by
  refine foldl_invariant (I := fun d : Db => d.revisions = db.revisions) (fun d w hw hd => ?_) rfl
  cases w with
  | insertRevision row => exact absurd rfl (h _ hw row)
  | _ => exact hd

theorem governing?_congr {db' : Db} (h : db'.revisions = db.revisions) (targetId : Uuid) :
    db'.governing? targetId = db.governing? targetId := by
  unfold Db.governing? Db.revisionsOf
  rw [h]

theorem statusOf_of_leavesTargets (h : ∀ w ∈ writes, w.leavesTargets = true) (targetId : Uuid) :
    (writes.foldl Db.apply db).statusOf targetId = db.statusOf targetId := by
  unfold Db.statusOf Db.target?
  rw [targets_of_leavesTargets h]

/-- Where a transition goes once it holds the row of its target. -/
theorem retentionTransition_next {policyRevision : ℕ} {target : Target}
    (h : retentionTransition request policyRevision target = .ok next) :
    next.locksTarget = true ∧ next.hasMoved = false ∧ ∀ result, next ≠ .finished result := by
  unfold retentionTransition at h
  split at h
  · split_ifs at h
    obtain rfl := Except.ok.inj h
    exact ⟨rfl, rfl, by simp⟩
  · split_ifs at h
    · obtain rfl := Except.ok.inj h
      exact ⟨rfl, rfl, by simp⟩
    · obtain rfl := Except.ok.inj h
      exact ⟨rfl, rfl, by simp⟩
  · obtain rfl := Except.ok.inj h
    exact ⟨rfl, rfl, by simp⟩

theorem next_of_transitionStmt (h : TransitionStmt request m db at_ locks writes next) :
    next ≠ .begin ∧ ∀ result, next ≠ .finished result := by
  cases h with
  | lockTarget htarget hnext =>
    obtain ⟨hlocks, -, hfinished⟩ := retentionTransition_next hnext
    refine ⟨?_, hfinished⟩
    rintro rfl
    cases hlocks
  | _ => simp

/-- The writes of a transition under the governing policy: no revision, and a status of its own
target only. -/
structure MovesOnly (db : Db) (targetId : Uuid) (writes : List Write) : Prop where
  revisions : (writes.foldl Db.apply db).revisions = db.revisions
  others : ∀ t, t ≠ targetId → (writes.foldl Db.apply db).statusOf t = db.statusOf t

/-- A statement that leaves revisions and targets goes on with what is known. -/
theorem Moving.aside (h : Moving db request at_ policy)
    (hleaves : ∀ w ∈ writes, w.leavesTargets = true ∧ ∀ row, w ≠ .insertRevision row)
    (hrevision : ∀ policyRevision, next = .insertRevision policyRevision →
      policyRevision = policy.policyRevision)
    (hlocks : next.locksTarget = true → at_.locksTarget = true)
    (hmoved : next.hasMoved = true → at_.hasMoved = true) :
    Moving (writes.foldl Db.apply db) request next policy ∧
      MovesOnly db request.targetId writes := by
  have hrevisions : (writes.foldl Db.apply db).revisions = db.revisions :=
    revisions_of_foldl fun w hw => (hleaves w hw).2
  have hstatus : ∀ t, (writes.foldl Db.apply db).statusOf t = db.statusOf t :=
    statusOf_of_leavesTargets fun w hw => (hleaves w hw).1
  refine ⟨⟨?_, h.governing, h.asked, hrevision, fun hnext => ?_, fun hnext => ?_⟩,
    hrevisions, fun t _ => hstatus t⟩
  · exact (governing?_congr hrevisions _).trans h.governed
  · rw [hstatus]
    exact h.found (hlocks hnext)
  · rw [hstatus]
    exact h.moved (hmoved hnext)

/-- One statement of the transition. -/
theorem Moving.stmt (h : Moving db request at_ policy)
    (hstmt : TransitionStmt request m db at_ locks writes next) :
    Moving (writes.foldl Db.apply db) request next policy ∧
      MovesOnly db request.targetId writes := by
  cases hstmt with
  | begin hinputs =>
    refine h.aside (by simp) ?_ (by simp [TransitionLoc.locksTarget])
      (by simp [TransitionLoc.hasMoved])
    rintro policyRevision ⟨⟩
    have hpolicy := (governedInputs_eq_ok.mp hinputs).1
    rw [h.governing] at hpolicy
    exact (Option.some.inj hpolicy).symm
  | insertRevision hrevision hallowed =>
    -- the revision that governs the target is a row of it
    have hknown := hasRevision_of_governing? h.governed
    rw [← h.revision _ rfl, hrevision] at hknown
    cases hknown
  | lockTarget htarget hnext =>
    obtain ⟨hlocks, hmoved, -⟩ := retentionTransition_next hnext
    have hfound : (db.statusOf request.targetId).isSome = true := by
      unfold Db.statusOf
      rw [htarget]
      rfl
    refine ⟨⟨h.governed, h.governing, h.asked, ?_, fun _ => hfound, fun hnext => ?_⟩, rfl,
      fun _ _ => rfl⟩
    · rintro policyRevision rfl
      cases hlocks
    · rw [hmoved] at hnext
      cases hnext
  | targetMissing hmissing =>
    have hfound := h.found rfl
    unfold Db.statusOf at hfound
    rw [hmissing] at hfound
    cases hfound
  | updateTarget htarget hguard =>
    rename_i policyRevision fromStatus target
    have hstatus := fun t => @Db.statusOf_setTargetStatus db request.targetId request.toStatus _ t
      htarget
    have hmoved : (db.apply (.setTargetStatus request.targetId target.status
        request.toStatus)).statusOf request.targetId = some request.toStatus := by
      rw [hstatus, if_pos rfl]
    refine ⟨⟨h.governed, h.governing, h.asked, by simp, fun _ => ?_, fun _ => hmoved⟩, rfl,
      fun t ht => ?_⟩
    · exact Option.isSome_of_eq_some hmoved
    · exact (hstatus t).trans (if_neg ht)
  | cancelPlans =>
    refine h.aside (List.forall_mem_map.mpr fun _ _ => ⟨rfl, by simp⟩) (by simp) (fun _ => rfl)
      (by simp [TransitionLoc.hasMoved])
  | insertEvent hmoved =>
    exact h.aside (by simp [Write.leavesTargets]) (by simp) (fun _ => rfl) fun _ => rfl
  | noEvent hsame => exact h.aside (by simp) (by simp) (fun _ => rfl) fun _ => rfl
  | revisionKnown hrevision =>
    exact h.aside (by simp) (by simp) (by simp [TransitionLoc.locksTarget])
      (by simp [TransitionLoc.hasMoved])
  | _ =>
    exact h.aside (by simp [Write.leavesTargets]) (by simp) (fun _ => rfl)
      (by simp [TransitionLoc.hasMoved])

end

section

variable {messages : List IncomingDelivery}

theorem inboxBound_of_claimInbox {m : Moment} {db : Db} {job : Ingesting}
    {a : Action Unit Lock Write CycleLoc} (h : runCycle m db (.claimInbox job) = some a)
    (hpassed : ∀ e, a ≠ .rollback (.finished (.error e))) :
    job.message.inboxRow.allowed = true := by
  by_contra hbound
  have hrefused : (!job.message.inboxRow.allowed) = true := by simpa using hbound
  unfold IncomingDelivery.inboxRow at hrefused
  simp only [runCycle, if_pos hrefused, failCycle] at h
  exact hpassed _ (Option.some.inj h).symm

/-- A plan moves the status or does not. -/
theorem planItems_cases (desired : ValidatedDelivery) (observed : Option TargetStatus) :
    (WorkItem.exclude ∉ planItems desired observed ∧
        WorkItem.reactivate ∉ planItems desired observed) ∨
      planItems desired observed = [.exclude] ∧ desired.withdrawn = true ∨
      planItems desired observed = [.reactivate] ∧ desired.withdrawn = false := by
  unfold planItems
  cases observed with
  | none =>
    left
    split_ifs <;> simp
  | some status =>
    by_cases hwithdrawn : desired.withdrawn = true
    · by_cases hpinned : desired.pinned = some true
      · cases status <;> simp [hwithdrawn, hpinned]
      · cases status <;> simp [hwithdrawn, hpinned]
    · have hactive : desired.withdrawn = false := by simpa using hwithdrawn
      cases status <;> simp [hactive]
      -- only the `ready` branch proposes runner work
      split_ifs <;> simp

theorem cycle_keeps : cycleProcedure.Keeps CycleLoc.Rests (Passing messages) where
  stmt {loc m view locks writes next} h hact := by
    have hrun : runCycle m view loc = some (.stmt locks writes next) := hact
    cases runCycle_stmt hrun with
    | claimInbox hnew =>
      rename_i job
      have hbound := inboxBound_of_claimInbox hrun (by simp)
      have hbehind : Behind messages
          ([Write.insertInbox job.message.inboxRow].foldl Db.apply view)
          (job.message :: job.todo) job.touched := h.1.applyAll
      refine ⟨fun hrests => hrests, hbehind, ⟨hbound, h.2⟩, ?_⟩
      exact List.mem_append_right _ (List.mem_singleton_self _)
    | targetKnown htarget => exact ⟨fun hrests => hrests, h⟩
    | insertTarget hnone =>
      rename_i job
      refine ⟨fun hrests => hrests, h.applyAll, ?_⟩
      show ((List.find? _ (view.targets ++ [_])).map _) = _
      unfold Db.repositoryTarget? at hnone
      rw [List.find?_append, hnone]
      simp
    | enrollEvent => exact ⟨fun hrests => hrests, h.1.applyAll, h.1.named_applyAll h.2⟩
    | selectTarget htarget =>
      refine ⟨fun hrests => hrests, h, ?_⟩
      show Option.map _ (view.repositoryTarget? _ _) = _
      rw [htarget]
      rfl
    | revisionKnown hrevision => exact ⟨fun hrests => hrests, h⟩
    | insertRevision hrevision => exact ⟨fun hrests => hrests, h.1.applyAll, h.1.named_applyAll h.2⟩
    | transition htransition =>
      rename_i request at_ next items rest
      obtain ⟨hreached, hitems, policy, hmoving⟩ := h
      obtain ⟨hnext, honly⟩ := hmoving.stmt htransition
      obtain ⟨hbegin, hfinished⟩ := next_of_transitionStmt htransition
      have hresume : resumeTransition request items rest next
          = .transition request next items rest := by
        cases next with
        | finished result => exact absurd rfl (hfinished result)
        | _ => rfl
      rw [hresume]
      exact ⟨hbegin, hreached.applyAll honly.revisions honly.others, hitems, policy, hnext⟩
  auto {loc m view locks writes next} h hact := by
    obtain ⟨rfl, rfl, hread⟩ := runCycle_auto hact
    show CycleLoc.Rests loc ∧ Passing messages next view
    cases hread with
    | ingested =>
      rename_i touched
      obtain ⟨done, hsplit, hingests⟩ := h
      rw [List.append_nil] at hsplit
      refine ⟨trivial, ?_⟩
      unfold Converging.next
      cases touched with
      | nil => exact ⟨[], hsplit ▸ hingests, by simp⟩
      | cons targetId todo => exact ⟨[], hsplit ▸ hingests, by simp⟩
    | validated hdelivery hinputs => exact ⟨trivial, h, _, _, hdelivery, hinputs⟩
    | findTarget htarget =>
      refine ⟨trivial, h.ingested ?_⟩
      show Option.map _ (view.repositoryTarget? _ _) = _
      rw [htarget]
      rfl
    | ungoverned hnone =>
      refine ⟨trivial, passing_next (fun policy hpolicy => ?_) h⟩
      rw [hnone] at hpolicy
      cases hpolicy
    | governed hpolicy => exact ⟨trivial, h, _, hpolicy, rfl⟩
    | observed =>
      obtain ⟨hreached, policy, hpolicy, rfl⟩ := h
      refine ⟨trivial, hreached.count _, policy, hpolicy, rfl, ?_⟩
      rcases planItems_cases (governedRecord policy) (view.statusOf _) with
        ⟨hexclude, hreactivate⟩ | hmoves
      · left
        refine ⟨hexclude, hreactivate, fun policy' hpolicy' => ?_⟩
        obtain rfl : policy = policy' := Option.some.inj (hpolicy.symm.trans hpolicy')
        exact ⟨hexclude, hreactivate⟩
      · exact .inr hmoves
    | converged =>
      obtain ⟨hreached, policy, hpolicy, rfl, ⟨-, -, hsettled⟩ | ⟨hitems, -⟩ | ⟨hitems, -⟩⟩ := h
      · exact ⟨trivial, passing_next hsettled hreached⟩
      · cases hitems
      · cases hitems
    | exclude =>
      obtain ⟨hreached, policy, hpolicy, rfl, ⟨hexclude, -⟩ | ⟨hitems, hwithdrawn⟩ | ⟨hitems, -⟩⟩ := h
      · exact absurd (List.mem_cons_self ..) hexclude
      · refine ⟨trivial, hreached, (List.cons.inj hitems).2, policy, hpolicy, rfl,
          .inl ⟨rfl, hwithdrawn⟩, by simp, by simp [TransitionLoc.locksTarget],
          by simp [TransitionLoc.hasMoved]⟩
      · cases hitems
    | reactivate =>
      obtain ⟨hreached, policy, hpolicy, rfl, ⟨-, hreactivate, -⟩ | ⟨hitems, -⟩ | ⟨hitems, hactive⟩⟩ := h
      · exact absurd (List.mem_cons_self ..) hreactivate
      · cases hitems
      · refine ⟨trivial, hreached, (List.cons.inj hitems).2, policy, hpolicy, rfl,
          .inr ⟨rfl, hactive⟩, by simp, by simp [TransitionLoc.locksTarget],
          by simp [TransitionLoc.hasMoved]⟩
    | counted hexclude hreactivate =>
      obtain ⟨hreached, policy, hpolicy, rfl, ⟨hno, hno', hsettled⟩ | ⟨hitems, -⟩ | ⟨hitems, -⟩⟩ := h
      · exact ⟨trivial, hreached, policy, hpolicy, rfl, .inl
          ⟨fun hmem => hno (List.mem_cons_of_mem _ hmem),
            fun hmem => hno' (List.mem_cons_of_mem _ hmem), hsettled⟩⟩
      · exact absurd (List.cons.inj hitems).1 hexclude
      · exact absurd (List.cons.inj hitems).1 hreactivate
  commit {loc m view next} h hact := by
    cases runCycle_commit hact with
    | ingested => exact h.1.ingested h.2
    | transition =>
      rename_i request items rest
      obtain ⟨hreached, rfl, policy, hmoving⟩ := h
      refine ⟨hreached, policy, hmoving.governed, hmoving.governing, .inl ⟨by simp, by simp, ?_⟩⟩
      refine settled_of_statusOf hmoving.governed (hmoving.moved rfl) ?_
      rcases hmoving.asked with ⟨hto, hwithdrawn⟩ | ⟨hto, hactive⟩
      · simp [hto, hwithdrawn]
      · simp [hto, hactive]
  rollback {loc m view next} h hact := by
    have hrun : runCycle m view loc = some (.rollback next) := hact
    cases runCycle_rollback hrun with
    | duplicate hknown =>
      exact .inl ⟨trivial, h.1, ⟨inboxBound_of_claimInbox hrun (by simp), h.2⟩, hknown⟩
    | failed => exact .inr fun _ => trivial

end

section

variable {messages : List IncomingDelivery} {db : Db} {touched touched' : List Uuid}

/-- Known messages are read past. -/
theorem ingests_reads (h : Ingests db touched messages touched') :
    cycleProcedure.Reads db (.ingest messages touched) (.ingest [] touched') := by
  induction h with
  | nil => exact .refl
  | @cons touched touched' message messages targetId hmessage _ ih =>
    obtain ⟨hbound, delivery, policyRevision, hdelivery, hinputs⟩ := hmessage.admissible
    obtain ⟨target, htarget, rfl⟩ := Option.map_eq_some_iff.mp hmessage.named
    have hknown : db.inbox.contains
        { source := message.source, messageId := message.messageId } = true :=
      List.contains_iff_mem.mpr hmessage.recorded
    have hfound : cycleProcedure.Reads db (.findTarget message messages touched)
        (.ingest [] touched') :=
      .auto (fun _ => by simp only [cycleProcedure, runCycle, htarget]) ih
    have hclaimed : cycleProcedure.Reads db
        (.claimInbox { message, delivery, policyRevision, todo := messages, touched })
        (.ingest [] touched') := by
      refine .rollback (fun _ => ?_) hfound
      unfold IncomingDelivery.inboxRow at hbound
      simp only [cycleProcedure, runCycle, hbound, Bool.not_true, Bool.false_eq_true, if_false,
        hknown, if_true]
    exact .auto (fun _ => by simp only [cycleProcedure, runCycle, hdelivery, hinputs]) hclaimed

/-- Items that cannot be executed are counted and passed over. -/
theorem items_reads {targetId : Uuid} {desired : ValidatedDelivery} {items : List WorkItem}
    {rest : Converging} (hexclude : WorkItem.exclude ∉ items)
    (hreactivate : WorkItem.reactivate ∉ items) :
    cycleProcedure.Reads db (.items targetId desired items rest) rest.next := by
  induction items with
  | nil => exact .auto (fun _ => rfl) .refl
  | cons item items ih =>
    rw [List.mem_cons, not_or] at hexclude hreactivate
    have hrest := ih hexclude.2 hreactivate.2
    cases item with
    | exclude => exact absurd rfl hexclude.1
    | reactivate => exact absurd rfl hreactivate.1
    | _ => exact .auto (fun _ => rfl) hrest

/-- A settled target is read past. -/
theorem settled_reads {targetId : Uuid} (h : Settled db targetId) (rest : Converging) :
    ∃ counters, cycleProcedure.Reads db (.readGoverning targetId rest)
      (rest.count counters).next := by
  cases hpolicy : db.governing? targetId with
  | none =>
    refine ⟨{ proposed := 0, executable := 0 }, .auto (fun m => ?_) .refl⟩
    simp only [cycleProcedure, runCycle, hpolicy]
    rfl
  | some policy =>
    obtain ⟨hexclude, hreactivate⟩ := h policy hpolicy
    refine ⟨(plan (governedRecord policy) (db.statusOf targetId)).counters, ?_⟩
    have hobserved : cycleProcedure.Reads db
        (.readObserved targetId (governedRecord policy) rest)
        (rest.count (plan (governedRecord policy) (db.statusOf targetId)).counters).next :=
      .auto (fun _ => rfl) (items_reads hexclude hreactivate)
    exact .auto (fun _ => by simp only [cycleProcedure, runCycle, hpolicy]) hobserved

theorem converging_reads {todo : List Uuid} (h : ∀ t ∈ todo, Settled db t) (report : CycleReport) :
    ∃ report', cycleProcedure.Reads db ({ todo, report } : Converging).next
      (.finished (.ok report')) := by
  induction todo generalizing report with
  | nil => exact ⟨report, .refl⟩
  | cons targetId todo ih =>
    obtain ⟨counters, hreads⟩ := settled_reads (h targetId (List.mem_cons_self ..))
      { todo, report }
    obtain ⟨report', hrest⟩ := ih (fun t ht => h t (List.mem_cons_of_mem _ ht))
      (({ todo, report } : Converging).count counters).report
    exact ⟨report', hreads.trans hrest⟩

/-- A batch whose messages are known and whose targets are settled is read to its end. -/
theorem cycle_reads (h : Ingests db [] messages touched) (hsettled : ∀ t ∈ touched, Settled db t) :
    ∃ report, cycleProcedure.Reads db (.ingest messages []) (.finished (.ok report)) := by
  obtain ⟨report, hconverging⟩ :=
    converging_reads hsettled { proposed := 0, executable := 0 }
  exact ⟨report, (ingests_reads h).trans (.auto (fun _ => rfl) hconverging)⟩

end

namespace Vault

variable {settings : Settings}

/-- Where a cycle stands. -/
abbrev cycling (at_ : CycleLoc) : Loc := .policy (.cycle at_)

/-- From here session `i` ends its cycle with success, whenever it takes its steps. -/
def Succeeds (settings : Settings) (i : ℕ) (s : State) : Prop :=
  ∀ input, ∃ n s' report,
    run (machine settings).step s (List.replicate n (.exec i input)) = some s' ∧
      (s'.session i).loc = cycling (.finished (.ok report))

/-- A cycle that has succeeded has nothing left to do: the same batch again succeeds and writes
nothing. -/
theorem convergence_idempotent {s s₁ s₂ s₃ : State} {i j : ℕ} {messages : List IncomingDelivery}
    {report : CycleReport}
    (hstart : (machine settings).step s (.start i (.policy (.cycle messages))) = some s₁)
    (hfirst : Reach (machine settings).step (Machine.Only i) s₁ s₂)
    (hok : (s₂.session i).loc = cycling (.finished (.ok report)))
    (hagain : (machine settings).step s₂ (.start j (.policy (.cycle messages))) = some s₃) :
    ∀ s₄, Reach (machine settings).step (Machine.Only j) s₃ s₄ →
      s₄.db = s₂.db ∧ Succeeds settings j s₄ := by
  have hstarted : ∀ {s s' : State} {i : ℕ},
      (machine settings).step s (.start i (.policy (.cycle messages))) = some s' →
        s'.session i = ⟨cycling (.ingest messages []), [], none⟩ ∧ s'.db = s.db := by
    intro s s' i hstep
    simp only [Machine.step] at hstep
    split_ifs at hstep
    obtain rfl := Option.some.inj hstep
    exact ⟨State.setSession_session_self, rfl⟩
  obtain ⟨hsession, -⟩ := hstarted hstart
  -- the first cycle leaves its batch behind it
  have hbegun : Machine.Stands cycling cycleProcedure CycleLoc.Rests (Passing messages) i s₁ := by
    refine ⟨.ingest messages [], by rw [hsession], fun _ => by rw [hsession], ?_⟩
    exact ⟨[], rfl, .nil⟩
  obtain ⟨loc, hloc, hrests, hpassing⟩ := executes_cycle.stands cycle_keeps hbegun hfirst
  obtain rfl : loc = .finished (.ok report) := by
    rw [hok] at hloc
    cases hloc
    rfl
  rw [hrests trivial] at hpassing
  obtain ⟨touched, hingests, hsettled⟩ := hpassing
  obtain ⟨report', hreads⟩ := cycle_reads hingests hsettled
  -- the second reads what the first has left
  obtain ⟨hsession', hdb⟩ := hstarted hagain
  have hkeeps : cycleProcedure.Keeps (fun _ => True) fun loc view => view = s₂.db ∧
      cycleProcedure.Reads s₂.db loc (.finished (.ok report')) :=
    Procedure.keeps_reads fun _ => rfl
  have hbegun' : Machine.Stands cycling cycleProcedure (fun _ => True)
      (fun loc view => view = s₂.db ∧
        cycleProcedure.Reads s₂.db loc (.finished (.ok report'))) j s₃ := by
    refine ⟨.ingest messages [], by rw [hsession'], fun _ => by rw [hsession'], ?_, hreads⟩
    rw [hsession', hdb]
    rfl
  intro s₄ hreach
  obtain ⟨loc, hloc, hlog, hview, hrest⟩ := executes_cycle.stands hkeeps hbegun' hreach
  have hsame : s₄.db = s₂.db := by
    rw [hlog trivial] at hview
    exact hview
  refine ⟨hsame, fun input => ?_⟩
  obtain ⟨n, s', hrun, hlast⟩ := executes_cycle.reads hrest hloc (hlog trivial) hsame input
  exact ⟨n, s', report', hrun, hlast⟩

open Vault.Sample in
/-- An enrollment, the withdrawal of the same repository and the first message again. -/
theorem convergence_idempotent_withdrawn :
    ∃ s₂ s₃ : State, s₂.db.statusOf 2 = some .excluded ∧
      (machine Sample.settings).step s₂ (.start 1 (.policy (.cycle
        [delivery "git_mirror" 1, delivery "none" 2, delivery "git_mirror" 1]))) = some s₃ ∧
      ∀ s₄, Reach (machine Sample.settings).step (Machine.Only 1) s₃ s₄ →
        s₄.db = s₂.db ∧ Succeeds Sample.settings 1 s₄ := by
  let messages := [delivery "git_mirror" 1, delivery "none" 2, delivery "git_mirror" 1]
  obtain ⟨s₂, hrun, hs₂⟩ : ∃ s₂, run (machine Sample.settings).step
      ((machine Sample.settings).afterStart (initial {} storage 0 0) 0 (.policy (.cycle messages)))
      (List.replicate 27 (.exec 0 answered)) = some s₂ ∧
      (s₂.db.statusOf 2 == some .excluded && (s₂.session 1).loc == .idle &&
        (s₂.session 0).loc == cycling (.finished (.ok { proposed := 1, executable := 1 })))
        = true :=
    exists_of_run_any (by decide +kernel)
  simp only [Bool.and_eq_true, beq_iff_eq] at hs₂
  obtain ⟨⟨hexcluded, hidle⟩, hdone⟩ := hs₂
  have hfirst : Reach (machine Sample.settings).step (Machine.Only 0)
      ((machine Sample.settings).afterStart (initial {} storage 0 0) 0 (.policy (.cycle messages))) s₂ :=
    Reach.of_run hrun (along_of_forall (fun l hl _ => by rw [List.eq_of_mem_replicate hl]; rfl) _)
  have hagain : (machine Sample.settings).step s₂ (.start 1 (.policy (.cycle messages)))
      = some ((machine Sample.settings).afterStart s₂ 1 (.policy (.cycle messages))) := by
    simp only [Machine.step, hidle]
    rfl
  have hstart : (machine Sample.settings).step (initial {} storage 0 0)
        (.start 0 (.policy (.cycle messages)))
      = some ((machine Sample.settings).afterStart (initial {} storage 0 0) 0
          (.policy (.cycle messages))) := rfl
  exact ⟨s₂, _, hexcluded, hagain, convergence_idempotent hstart hfirst hdone hagain⟩

end Vault

end RatatoskrVault
