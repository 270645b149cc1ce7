import RatatoskrVault.Lib.Solo
import RatatoskrVault.Vault.Pinned
import RatatoskrVault.Vault.Tombstones

/-! The convergence of a target under an active policy while its tombstone is open: executed by
itself it reactivates the target as long as the target is still excluded, and not once a run of
one of its plans has passed the gate. -/
namespace RatatoskrVault

open Lib

def transitionProcedure (request : TransitionRequest) :
    Procedure Db Lock Write TransitionLoc :=
  { apply := Db.apply, act := fun at_ m db => applyTransition request m db at_ }

def cycleProcedure : Procedure Db Lock Write CycleLoc :=
  { apply := Db.apply, act := fun at_ m db => runCycle m db at_ }

theorem hosts_transition (request : TransitionRequest) (items : List WorkItem)
    (rest : Converging) :
    cycleProcedure.Hosts (transitionProcedure request) (resumeTransition request items rest) where
  apply := rfl
  act {at_ m db a} h := by
    have hcycle : runCycle m db (.transition request at_ items rest)
        = some (a.map (resumeTransition request items rest)) := by
      show (applyTransition request m db at_).map _ = _
      rw [show applyTransition request m db at_ = some a from h]
      rfl
    cases at_ with
    | finished result => cases h
    | _ => exact hcycle

/-- What a reactivation writes. -/
def reactivationLog (db : Db) (clock fresh : ℕ) (request : TransitionRequest)
    (policyRevision : ℕ) (tombstoneId : Uuid) : List Write :=
  ((db.cancellablePlans tombstoneId).map fun p => .setPlanStatus p.planId .planned .cancelled) ++
    [.cancelTombstone tombstoneId clock,
      .setTargetStatus request.targetId .excluded .requested,
      .insertOutbox
        { eventId := fresh + 8
          event := .stateChanged request.targetId (some .excluded) .requested policyRevision
            request.governing.correlationId }]

section

variable {db : Db} {clock : ℕ} {target : Target} {tombstone : Tombstone} {policyRevision : ℕ}

/-- A transition to `requested` under an active policy, executed by itself. -/
theorem reactivate_leads (request : TransitionRequest) (fresh : ℕ) (hto : request.toStatus = .requested)
    (hlevel : request.governing.preservationLevel ≠ .none)
    (hinputs : governedInputs request.governing = .ok policyRevision)
    (hallowed : (revisionRow request.targetId policyRevision request.governing none).allowed = true)
    (hrevision : db.hasRevision request.targetId policyRevision = true)
    (htarget : db.target? request.targetId = some target) (hstatus : target.status = .excluded)
    (hactive : db.activeTombstone? request.targetId = some tombstone)
    (hkey : db.tombstone? tombstone.tombstoneId = some tombstone)
    (hunstarted : db.stageStarted tombstone.tombstoneId = false)
    (hrecorded : tombstone.recordedAt ≤ clock) :
    (transitionProcedure request).Leads clock ⟨.begin, [], db, fresh⟩
      ⟨.finished (.ok ()), [],
        (reactivationLog db clock fresh request policyRevision tombstone.tombstoneId).foldl
          Db.apply db, fresh + 9⟩ := by
  have hopen : tombstone.isActive = true := by
    have hfound := List.find?_some hactive
    simp only [Bool.and_eq_true] at hfound
    exact hfound.2
  let cancelled : List Write := (db.cancellablePlans tombstone.tombstoneId).map fun p =>
    .setPlanStatus p.planId .planned .cancelled
  have hplans : ∀ w ∈ cancelled, w.leavesTombstones = true :=
    List.forall_mem_map.mpr fun _ _ => rfl
  have htargets : ∀ w ∈ cancelled ++ [.cancelTombstone tombstone.tombstoneId clock],
      w.leavesTargets = true :=
    List.forall_mem_append.mpr ⟨List.forall_mem_map.mpr fun _ _ => rfl, by simp [Write.leavesTargets]⟩
  have hclose : Db.guardTombstoneClose tombstone (some clock) none = .ok () := by
    simp [Db.guardTombstoneClose, hopen, hrecorded]
  have hfound : (cancelled.foldl Db.apply db).tombstone? tombstone.tombstoneId
      = some tombstone := by
    unfold Db.tombstone?
    rw [tombstones_of_leaves hplans]
    exact hkey
  have hrow : (List.foldl Db.apply db
      (cancelled ++ [.cancelTombstone tombstone.tombstoneId clock])).target? request.targetId
      = some target := by
    unfold Db.target?
    rw [targets_of_leavesTargets htargets]
    exact htarget
  have hguard : ∀ view : Db,
      view.targetGuardStatusTransition clock target .requested = .ok () := by
    intro view
    have hlegal : Transition.isLegal .excluded .requested = true := by decide
    simp [Db.targetGuardStatusTransition, hstatus, hlegal]
  refine .head ⟨.insertRevision policyRevision, [], db, fresh + 1⟩ ?_ ?_
  · simp [Procedure.exec, transitionProcedure, applyTransition, hinputs]
  refine .head ⟨.lockTarget policyRevision, [], db, fresh + 2⟩ ?_ ?_
  · simp [Procedure.exec, transitionProcedure, applyTransition, hallowed, hrevision, Config.view]
  refine .head ⟨.lockTombstone policyRevision .excluded, [], db, fresh + 3⟩ ?_ ?_
  · simp [Procedure.exec, transitionProcedure, applyTransition, htarget, Config.view,
      retentionTransition, hto, hlevel, hstatus]
  refine .head ⟨.stageStarted policyRevision .excluded tombstone.tombstoneId, [], db,
    fresh + 4⟩ ?_ ?_
  · simp [Procedure.exec, transitionProcedure, applyTransition, hactive, Config.view]
  refine .head ⟨.cancelPlans policyRevision .excluded tombstone.tombstoneId, [], db,
    fresh + 5⟩ ?_ ?_
  · simp [Procedure.exec, transitionProcedure, applyTransition, hunstarted, Config.view]
  refine .head ⟨.cancelTombstone policyRevision .excluded tombstone.tombstoneId, cancelled,
    db, fresh + 6⟩ ?_ ?_
  · simp [Procedure.exec, transitionProcedure, applyTransition, Config.view, cancelled]
  refine .head ⟨.updateTarget policyRevision .excluded,
    cancelled ++ [.cancelTombstone tombstone.tombstoneId clock], db, fresh + 7⟩ ?_ ?_
  · simp [Procedure.exec, transitionProcedure, applyTransition, Config.view, hfound, hclose]
  refine .head ⟨.insertEvent policyRevision .excluded,
    cancelled ++ [.cancelTombstone tombstone.tombstoneId clock] ++
      [.setTargetStatus request.targetId .excluded .requested], db, fresh + 8⟩ ?_ ?_
  · have hupdate : ∀ m : Moment, m.clock = clock →
        @applyTransition Unit request m (List.foldl Db.apply db
            (cancelled ++ [.cancelTombstone tombstone.tombstoneId clock]))
          (.updateTarget policyRevision .excluded)
        = some (.stmt [.target request.targetId]
            [.setTargetStatus request.targetId .excluded .requested]
            (.insertEvent policyRevision .excluded)) := by
      rintro m rfl
      simp only [applyTransition, hrow, hto, hguard, hstatus]
    exact Procedure.exec_stmt (hupdate _ rfl)
  refine .head ⟨.commit, reactivationLog db clock fresh request policyRevision
    tombstone.tombstoneId, db, fresh + 9⟩ ?_ ?_
  · simp [Procedure.exec, transitionProcedure, applyTransition, hto, reactivationLog, cancelled]
  refine .head ⟨.finished (.ok ()), [], _, fresh + 9⟩ ?_ .refl
  rfl

end

section

variable {db : Db} {clock fresh : ℕ} {targetId : Uuid} {target : Target} {tombstone : Tombstone}
  {policy : Revision} {rest : Converging}

theorem mem_revisionsOf_of_governing? (h : db.governing? targetId = some policy) :
    policy ∈ db.revisions ∧ policy.targetId = targetId := by
  have hmem : policy ∈ db.revisionsOf targetId := List.argmax_mem h
  simpa [Db.revisionsOf] using hmem

theorem hasRevision_of_governing? (h : db.governing? targetId = some policy) :
    db.hasRevision targetId policy.policyRevision = true := by
  obtain ⟨hmem, htarget⟩ := mem_revisionsOf_of_governing? h
  exact List.any_eq_true.mpr ⟨policy, hmem, by simp [htarget]⟩

/-- A cycle that converges an excluded target under an active policy, executed by itself. -/
theorem converge_leads (rest : Converging) (fresh : ℕ) (hpolicy : db.governing? targetId = some policy)
    (hlevel : policy.preservationLevel ≠ .none) (hgoverned : policy.IsGoverned)
    (htarget : db.target? targetId = some target) (hstatus : target.status = .excluded)
    (hactive : db.activeTombstone? targetId = some tombstone)
    (hkey : db.tombstone? tombstone.tombstoneId = some tombstone)
    (hunstarted : db.stageStarted tombstone.tombstoneId = false)
    (hrecorded : tombstone.recordedAt ≤ clock) :
    cycleProcedure.Leads clock ⟨.readGoverning targetId rest, [], db, fresh⟩
      ⟨(rest.count (plan (governedRecord policy) (some .excluded)).counters).next, [],
        (reactivationLog db clock (fresh + 3)
          { targetId, toStatus := .requested, governing := governedRecord policy }
          policy.policyRevision tombstone.tombstoneId).foldl Db.apply db, fresh + 13⟩ := by
  have hitems : planItems (governedRecord policy) (some .excluded) = [.reactivate] := by
    have hwithdrawn : (governedRecord policy).withdrawn = false := by
      simpa [ValidatedDelivery.withdrawn, governedRecord] using hlevel
    simp [planItems, hwithdrawn]
  refine .head ⟨.readObserved targetId (governedRecord policy) rest, [], db, fresh + 1⟩ ?_ ?_
  · simp [Procedure.exec, cycleProcedure, runCycle, hpolicy, Config.view]
  refine .head ⟨.items targetId (governedRecord policy) [.reactivate]
    (rest.count (plan (governedRecord policy) (some .excluded)).counters), [], db, fresh + 2⟩ ?_ ?_
  · simp [Procedure.exec, cycleProcedure, runCycle, htarget, hstatus, plan, hitems, Config.view]
  refine .head ⟨.transition
    { targetId, toStatus := .requested, governing := governedRecord policy } .begin []
    (rest.count (plan (governedRecord policy) (some .excluded)).counters), [], db, fresh + 3⟩ ?_ ?_
  · simp [Procedure.exec, cycleProcedure, runCycle]
  have htransition := reactivate_leads
    { targetId, toStatus := .requested, governing := governedRecord policy } (fresh + 3)
    rfl hlevel (governedInputs_governedRecord hgoverned) (allowed_governedRecord targetId hgoverned.2)
    (hasRevision_of_governing? hpolicy) htarget hstatus hactive hkey hunstarted hrecorded
  refine .trans (htransition.host (hosts_transition _ [] _)) (.head _ ?_ .refl)
  rfl

/-- A cycle that converges any other target under an active policy. -/
theorem converge_unmoved (hrest : rest.todo = [])
    (hpolicy : db.governing? targetId = some policy) (hlevel : policy.preservationLevel ≠ .none)
    (hstatus : db.statusOf targetId ≠ some .excluded) {n : ℕ} {c : Config Db Write CycleLoc}
    (h : cycleProcedure.execs clock n ⟨.readGoverning targetId rest, [], db, fresh⟩ = some c) :
    c.db = db := by
  have hwithdrawn : (governedRecord policy).withdrawn = false := by
    simpa [ValidatedDelivery.withdrawn, governedRecord] using hlevel
  have hitems : ∀ item ∈ planItems (governedRecord policy) (db.statusOf targetId),
      item ≠ .exclude ∧ item ≠ .reactivate := by
    unfold planItems
    cases hobserved : db.statusOf targetId with
    | none => simp [hwithdrawn]
    | some status =>
      have hne : status ≠ .excluded := fun heq => hstatus (hobserved.trans (congrArg some heq))
      cases status <;> simp [hwithdrawn] at hne ⊢
      split_ifs <;> simp
  -- the reads, the items that ask for nothing, and the end
  refine (Procedure.execs_invariant (I := fun c : Config Db Write CycleLoc =>
    c.db = db ∧ c.log = [] ∧ (c.loc = .readGoverning targetId rest ∨
      c.loc = .readObserved targetId (governedRecord policy) rest ∨
      (∃ items counted, c.loc = .items targetId (governedRecord policy) items counted ∧
        counted.todo = [] ∧ ∀ item ∈ items, item ≠ .exclude ∧ item ≠ .reactivate) ∨
      ∃ result, c.loc = .finished result)) ?_ ⟨rfl, rfl, Or.inl rfl⟩ h).1
  rintro ⟨loc, log, db', fresh⟩ c' ⟨rfl, rfl, hloc⟩ hexec
  have hend : ∀ counted : Converging, counted.todo = [] →
      counted.next = .finished (.ok counted.report) := by
    intro counted htodo
    unfold Converging.next
    rw [htodo]
  rcases hloc with rfl | rfl | ⟨items, counted, rfl, htodo, hnone⟩ | ⟨result, rfl⟩
  · simp [Procedure.exec, cycleProcedure, runCycle, Config.view, hpolicy] at hexec
    cases hexec
    exact ⟨rfl, rfl, Or.inr (Or.inl rfl)⟩
  · simp [Procedure.exec, cycleProcedure, runCycle, Config.view] at hexec
    cases hexec
    exact ⟨rfl, rfl, Or.inr (Or.inr (Or.inl ⟨_, _, rfl, hrest, hitems⟩))⟩
  · cases items with
    | nil =>
      simp [Procedure.exec, cycleProcedure, runCycle, hend counted htodo] at hexec
      cases hexec
      exact ⟨rfl, rfl, Or.inr (Or.inr (Or.inr ⟨_, rfl⟩))⟩
    | cons item items =>
      have hitem := hnone item (List.mem_cons_self ..)
      have hnext : cycleProcedure.exec clock
            ⟨.items targetId (governedRecord policy) (item :: items) counted, [], db', fresh⟩
          = some ⟨.items targetId (governedRecord policy) items counted, [], db', fresh + 1⟩ := by
        cases item with
        | exclude => exact absurd rfl hitem.1
        | reactivate => exact absurd rfl hitem.2
        | _ => rfl
      rw [hnext] at hexec
      cases hexec
      exact ⟨rfl, rfl, Or.inr (Or.inr (Or.inl ⟨items, counted, rfl, htodo,
        fun item' hmem => hnone item' (List.mem_cons_of_mem _ hmem)⟩))⟩
  · cases hexec

end

section

variable {db : Db} {clock fresh : ℕ} {request : TransitionRequest} {policyRevision : ℕ}
  {target : Target} {tombstone : Tombstone}

/-- The plans whose cancellation is written. -/
theorem plans_cancelled (ids : List Uuid) (db : Db) :
    ((ids.map fun id => Write.setPlanStatus id .planned .cancelled).foldl Db.apply db).plans
      = db.plans.map fun p =>
          if p.planId ∈ ids ∧ p.status = .planned then { p with status := .cancelled } else p := by
  induction ids generalizing db with
  | nil => simp
  | cons id ids ih =>
    rw [List.map_cons, List.foldl_cons, ih]
    show (updateWhere _ _ db.plans).map _ = _
    rw [updateWhere, List.map_map]
    refine List.map_congr_left fun p _ => ?_
    by_cases hid : p.planId = id
    · by_cases hplanned : p.status = .planned
      · simp [hid, hplanned]
      · simp [hplanned]
    · simp [hid]

theorem plans_reactivationLog :
    ((reactivationLog db clock fresh request policyRevision tombstone.tombstoneId).foldl
        Db.apply db).plans
      = db.plans.map fun p =>
          if p.planId ∈ (db.cancellablePlans tombstone.tombstoneId).map (·.planId) ∧
              p.status = .planned then { p with status := .cancelled } else p := by
  rw [reactivationLog, List.foldl_append, ← plans_cancelled, List.map_map]
  rfl

/-- Without an attempt no plan has started, and what had not is cancelled. -/
theorem cancelled_of_reactivationLog (hsound : Sound db clock)
    (hunstarted : db.stageStarted tombstone.tombstoneId = false) {plan : DeletionPlan}
    (hmem : plan ∈ ((reactivationLog db clock fresh request policyRevision
      tombstone.tombstoneId).foldl Db.apply db).plans)
    (hunder : plan.tombstoneId = some tombstone.tombstoneId) (hautomatic : plan.automatic = true) :
    plan.status = .cancelled := by
  rw [plans_reactivationLog] at hmem
  obtain ⟨p, hp, rfl⟩ := List.mem_map.mp hmem
  split_ifs with hcancelled
  · rfl
  · rw [if_neg hcancelled] at hunder hautomatic
    have hidle : p.status.hasStarted = false := by
      by_contra hstarted
      obtain ⟨a, ha, hid⟩ := hsound.attempted p hp (by simpa using hstarted)
      have hsome : db.stageStarted tombstone.tombstoneId = true := by
        refine List.any_eq_true.mpr ⟨a, ha, List.any_eq_true.mpr ⟨p, hp, ?_⟩⟩
        simp [hid, hunder]
      rw [hsome] at hunstarted
      cases hunstarted
    have hplanned : p.status ≠ .planned := by
      intro hplanned
      refine hcancelled ⟨List.mem_map.mpr ⟨p, ?_, rfl⟩, hplanned⟩
      simp [Db.cancellablePlans, Db.plansUnder, hp, hunder, hautomatic, hplanned]
    cases hstatus : p.status <;> simp_all [PlanStatus.hasStarted]

theorem statusOf_reactivationLog (htarget : db.target? request.targetId = some target)
    (hstatus : target.status = .excluded) :
    ((reactivationLog db clock fresh request policyRevision tombstone.tombstoneId).foldl
      Db.apply db).statusOf request.targetId = some .requested := by
  let before : List Write := ((db.cancellablePlans tombstone.tombstoneId).map fun p =>
    .setPlanStatus p.planId .planned .cancelled) ++ [.cancelTombstone tombstone.tombstoneId clock]
  have htargets : ∀ w ∈ before, w.leavesTargets = true :=
    List.forall_mem_append.mpr
      ⟨List.forall_mem_map.mpr fun _ _ => rfl, List.forall_mem_singleton.mpr rfl⟩
  have hrow : (before.foldl Db.apply db).target? request.targetId = some target := by
    unfold Db.target?
    rw [targets_of_leavesTargets htargets]
    exact htarget
  have hwritten := @Db.statusOf_setTargetStatus _ _ .requested _ request.targetId hrow
  rw [if_pos rfl, hstatus] at hwritten
  have hsplit : reactivationLog db clock fresh request policyRevision tombstone.tombstoneId
      = before ++ [.setTargetStatus request.targetId .excluded .requested] ++
        [.insertOutbox
          { eventId := fresh + 8
            event := .stateChanged request.targetId (some .excluded) .requested policyRevision
              request.governing.correlationId }] := by
    simp [reactivationLog, before]
  rw [hsplit, List.foldl_append, List.foldl_append]
  exact hwritten

theorem cancelledAt_reactivationLog (hmem : tombstone ∈ db.tombstones)
    (hactive : tombstone.isActive = true) :
    ∃ t ∈ ((reactivationLog db clock fresh request policyRevision
        tombstone.tombstoneId).foldl Db.apply db).tombstones,
      t.tombstoneId = tombstone.tombstoneId ∧ t.cancelledAt = some clock := by
  have hplans : ∀ w ∈ (db.cancellablePlans tombstone.tombstoneId).map fun p =>
      Write.setPlanStatus p.planId .planned .cancelled, w.leavesTombstones = true :=
    List.forall_mem_map.mpr fun _ _ => rfl
  rw [reactivationLog, List.foldl_append]
  show ∃ t ∈ updateWhere _ _ (List.foldl Db.apply db _).tombstones, _
  rw [tombstones_of_leaves hplans]
  refine ⟨_, mem_updateWhere_of_mem hmem, ?_⟩
  rw [if_pos (by simp [hactive])]
  exact ⟨rfl, rfl⟩

end

namespace Vault

variable {settings : Settings}

theorem executes_cycle :
    (machine settings).Executes cycleProcedure fun at_ => .policy (.cycle at_) where
  apply := rfl
  act at_ m db world input := by
    show ((runCycle m db at_).map (Action.map Policy.Loc.cycle)).map _ = (runCycle m db at_).map _
    rw [Option.map_map]
    congr 1
    funext a
    cases a <;> rfl
  calls at_ m db next := runCycle_ne_call

variable {s s' : State} {storage : MirrorStorage} {tombstone : Tombstone} {policy : Revision}
  {clock fresh : ℕ}

/-- Session `i` is about to converge one target, the last of its cycle. -/
def converging (s : State) (i : ℕ) (targetId : Uuid) : State :=
  s.setSession i
    { loc := .policy (.cycle (.readGoverning targetId
        { todo := [], report := { proposed := 0, executable := 0 } }))
      log := []
      began := none }

/-- The cycle has succeeded, and the target is `requested` with its tombstone and the automatic
plans under it cancelled and nothing removed. -/
structure Reactivated (s s' : State) (i : ℕ) (tombstone : Tombstone) : Prop where
  succeeded : ∃ report, (s'.session i).loc = .policy (.cycle (.finished (.ok report)))
  requested : s'.db.statusOf tombstone.targetId = some .requested
  cancelled : ∃ t ∈ s'.db.tombstones, t.tombstoneId = tombstone.tombstoneId ∧
    t.cancelledAt.isSome = true
  plans : ∀ p ∈ s'.db.plans, p.tombstoneId = some tombstone.tombstoneId → p.automatic = true →
    p.status = .cancelled
  bytes : s'.world = s.world

/-- The convergence of the target, executed by itself, reactivates it. -/
def Reactivates (settings : Settings) (s : State) (i : ℕ) (tombstone : Tombstone) : Prop :=
  ∀ input, ∃ n s', run (machine settings).step (converging s i tombstone.targetId)
    (List.replicate n (.exec i input)) = some s' ∧ Reactivated s s' i tombstone

theorem solo_converging (hheld : s.held = []) (i : ℕ) (targetId : Uuid) :
    Machine.Solo (fun at_ => .policy (.cycle at_)) (converging s i targetId) i
      ⟨.readGoverning targetId { todo := [], report := { proposed := 0, executable := 0 } }, [],
        s.db, s.fresh⟩ := by
  have hself : (converging s i targetId).session i = _ := State.setSession_session_self
  refine ⟨by rw [hself], by rw [hself], rfl, rfl, ?_, fun l j hmem => ?_⟩
  · unfold State.moment
    rw [hself]
    rfl
  · have hnone : (l, j) ∈ s.held := hmem
    rw [hheld] at hnone
    exact absurd hnone List.not_mem_nil

/-- In every state a vault reaches from nothing: a target with an open tombstone under which no
stage has been attempted is reactivated by its convergence under an active policy exactly while
it is still excluded. -/
theorem reactivates_iff_excluded {ok : State → Label → Prop}
    (h : Reach (machine settings).step ok (initial {} storage clock fresh) s)
    (hheld : s.held = []) (hmem : tombstone ∈ s.db.tombstones)
    (hactive : tombstone.isActive = true)
    (hunstarted : s.db.stageStarted tombstone.tombstoneId = false)
    (hpolicy : s.db.governing? tombstone.targetId = some policy)
    (hlevel : policy.preservationLevel ≠ .none) (i : ℕ) :
    Reactivates settings s i tombstone ↔ s.db.statusOf tombstone.targetId = some .excluded := by
  have hsound : Sound s.db s.clock := sound_of_reach h
  have hids : IsKey (·.tombstoneId) s.db.tombstones := tombstoneIds_of_reach h
  have hsolo := solo_converging hheld i tombstone.targetId
  constructor
  · intro hreactivates
    obtain ⟨n, s', hrun, hdone⟩ :=
      hreactivates { git := .exited { exitCode := 0, lines := none }, size := none }
    by_contra hstatus
    obtain ⟨c, hc, hsolo', -⟩ := hsolo.of_run executes_cycle hrun
    have hsame : s'.db = s.db := by
      rw [hsolo'.db]
      exact converge_unmoved rfl hpolicy hlevel hstatus hc
    -- nothing has moved, and the tombstone is still open
    obtain ⟨t, ht, hid, hcancelled⟩ := hdone.cancelled
    rw [hsame] at ht
    obtain rfl := hids t ht tombstone hmem hid
    simp only [Tombstone.isActive, Bool.and_eq_true, Option.isNone_iff_eq_none] at hactive
    rw [hactive.1] at hcancelled
    cases hcancelled
  · intro hstatus input
    obtain ⟨target, htarget, hexcluded⟩ := Option.map_eq_some_iff.mp hstatus
    have hkey : s.db.tombstone? tombstone.tombstoneId = some tombstone :=
      find?_of_mem hmem (by simp) fun t ht hid => hids t ht tombstone hmem (by simpa using hid)
    have hopen : s.db.activeTombstone? tombstone.targetId = some tombstone := by
      refine find?_of_mem hmem (by simp [hactive]) fun t ht hsel => ?_
      simp only [Bool.and_eq_true, beq_iff_eq] at hsel
      exact hids t ht tombstone hmem (hsound.single t ht tombstone hmem hsel.1 hsel.2 hactive)
    obtain ⟨n, hn⟩ := converge_leads { todo := [], report := ⟨0, 0⟩ } s.fresh
      hpolicy hlevel (hsound.governed policy (mem_revisionsOf_of_governing? hpolicy).1) htarget
      hexcluded hopen hkey hunstarted (hsound.recorded tombstone hmem)
    obtain ⟨s', hrun, hsolo', hworld⟩ := hsolo.run executes_cycle hn input
    refine ⟨n, s', hrun, ⟨_, hsolo'.loc⟩, ?_, ?_, ?_, hworld⟩
    · rw [hsolo'.db]
      exact statusOf_reactivationLog htarget hexcluded
    · rw [hsolo'.db]
      obtain ⟨t, ht, hid, hcancelled⟩ := cancelledAt_reactivationLog hmem hactive
      exact ⟨t, ht, hid, by rw [hcancelled]; rfl⟩
    · rw [hsolo'.db]
      exact fun p hp hunder hautomatic =>
        cancelled_of_reactivationLog hsound hunstarted hp hunder hautomatic

namespace Sample

/-- A capture of the mirror the first run published. -/
def enrolledCapture : CaptureRequest :=
  { source := { targetId := 2, mirrorId := 25, mirrorLifecycleRunId := 10 }
    bundle := [10]
    refs := []
    createdAt := "t"
    lfs := none }

/-- An evaluation of that snapshot. -/
def enrolledEvaluation : RetentionEvaluationRequest :=
  { targetId := 2
    policyId := 0
    policy := { keepLastRestorable := 1, minimumAgeSeconds := 0, graceSeconds := 1 }
    mode := .scheduled
    requiredBytes := none
    outcome := .selected
    correlationId := 0
    evaluatedAt := 0
    candidates :=
      [{ snapshotId := 36, classification := .eligibleOrdinary, pinSources := []
         targetInactive := false, estimatedBytes := 0, deletionNotBefore := none }] }

/-- A plan for that snapshot under the tombstone of the withdrawal. -/
def enrolledPlan (notBefore : Time) : Retention.DeletionPlanRequest :=
  { evaluationId := 43
    targetId := 2
    snapshotId := 36
    tombstoneId := some 56
    automatic := true
    tombstonedAt := 0
    notBefore
    estimatedBytes := 0
    correlationId := 0 }

/-- Enrollment, a mirror run, a capture, a withdrawal and a plan, and the grace window. -/
def withdrawn (notBefore : Time) : List Label :=
  cycle "git_mirror" 1 10 ++ enrolledRun ++
    .start 0 (.retention (.capture enrolledCapture)) :: List.replicate 15 (.exec 0 answered) ++
    .op (.recordRetentionEvaluation enrolledEvaluation) :: cycle "none" 2 18 ++
    [.op (.retention (.createDeletionPlan (enrolledPlan notBefore))), .tick graceSeconds]

/-- A run of the plan, whose own deadline is later than that of the tombstone. -/
def deferredRun : List Label :=
  withdrawn (2 * graceSeconds) ++
    .start 0 (.retention (.runPlan 60)) :: List.replicate 9 (.exec 0 answered) ++
    cycle "git_mirror" 3 10

/-- A run of the plan that stops before its gate, and a message the cycle has ingested. -/
def stoppedRun : List Label :=
  withdrawn 1 ++ .start 0 (.retention (.runPlan 60)) :: List.replicate 3 (.exec 0 answered) ++
    .abort 0 :: cycle "git_mirror" 3 7

/-- The only tombstone is open, with no attempt under it, and the policy is active. -/
def isWithdrawn (status : TargetStatus) (s : State) : Bool :=
  s.held.isEmpty && s.db.statusOf 2 == some status && !s.db.stageStarted 56 &&
    (s.db.governing? 2).any (fun policy => policy.preservationLevel != .none) &&
    s.db.tombstones.any fun t => t.tombstoneId == 56 && t.targetId == 2 && t.isActive

theorem of_isWithdrawn {status : TargetStatus} {s : State} (h : isWithdrawn status s = true) :
    s.held = [] ∧ ∃ tombstone ∈ s.db.tombstones, tombstone.isActive = true ∧
      s.db.stageStarted tombstone.tombstoneId = false ∧
      (∃ policy, s.db.governing? tombstone.targetId = some policy ∧
        policy.preservationLevel ≠ .none) ∧
      s.db.statusOf tombstone.targetId = some status := by
  simp only [isWithdrawn, Bool.and_eq_true, List.isEmpty_iff, beq_iff_eq, Bool.not_eq_true',
    Option.any_eq_true, bne_iff_ne, List.any_eq_true] at h
  obtain ⟨⟨⟨⟨hheld, hstatus⟩, hunstarted⟩, policy, hpolicy, hlevel⟩, tombstone, hmem,
    ⟨hid, htarget⟩, hactive⟩ := h
  refine ⟨hheld, tombstone, hmem, hactive, by rw [hid]; exact hunstarted,
    ⟨policy, by rw [htarget]; exact hpolicy, hlevel⟩, by rw [htarget]; exact hstatus⟩

end Sample

/-- The run of the plan has moved the target into deletion and was then deferred. -/
theorem deferred_run_blocks_reactivation :
    ¬ ∀ (s : State) (tombstone : Tombstone) (policy : Revision) (i : ℕ),
      Reach (machine Sample.settings).step (fun _ _ => True) (initial {} Sample.storage 0 0) s →
      s.held = [] → tombstone ∈ s.db.tombstones → tombstone.isActive = true →
      s.db.stageStarted tombstone.tombstoneId = false →
      s.db.governing? tombstone.targetId = some policy → policy.preservationLevel ≠ .none →
      Reactivates Sample.settings s i tombstone := by
  intro h
  obtain ⟨s, hrun, hs⟩ : ∃ s, run (machine Sample.settings).step (initial {} Sample.storage 0 0)
      Sample.deferredRun = some s ∧ Sample.isWithdrawn .deleting s = true :=
    exists_of_run_any (by decide +kernel)
  obtain ⟨hheld, tombstone, hmem, hactive, hunstarted, ⟨policy, hpolicy, hlevel⟩, hdeleting⟩ :=
    Sample.of_isWithdrawn hs
  have hreach : Reach (machine Sample.settings).step (fun _ _ => True)
      (initial {} Sample.storage 0 0) s := Reach.of_run hrun (along_of_forall (by simp) _)
  obtain ⟨n, s', hexec, hdone⟩ := h s tombstone policy 0 hreach hheld hmem hactive hunstarted
    hpolicy hlevel Sample.answered
  obtain ⟨c, hc, hsolo, -⟩ := (solo_converging hheld 0 tombstone.targetId).of_run executes_cycle hexec
  -- the cycle ends where it began, in deletion
  have hsame : s'.db = s.db := by
    rw [hsolo.db]
    exact converge_unmoved rfl hpolicy hlevel (by rw [hdeleting]; decide) hc
  have hrequested := hdone.requested
  rw [hsame, hdeleting] at hrequested
  cases hrequested

/-- The run of the plan stopped before its gate. -/
theorem reactivates_iff_excluded_stopped :
    ∃ (s : State) (tombstone : Tombstone), tombstone ∈ s.db.tombstones ∧
      tombstone.isActive = true ∧ Reactivates Sample.settings s 0 tombstone := by
  obtain ⟨s, hrun, hs⟩ : ∃ s, run (machine Sample.settings).step (initial {} Sample.storage 0 0)
      Sample.stoppedRun = some s ∧ Sample.isWithdrawn .excluded s = true :=
    exists_of_run_any (by decide +kernel)
  obtain ⟨hheld, tombstone, hmem, hactive, hunstarted, ⟨policy, hpolicy, hlevel⟩, hexcluded⟩ :=
    Sample.of_isWithdrawn hs
  have hreach : Reach (machine Sample.settings).step (fun _ _ => True)
      (initial {} Sample.storage 0 0) s := Reach.of_run hrun (along_of_forall (by simp) _)
  exact ⟨s, tombstone, hmem, hactive, (reactivates_iff_excluded hreach hheld hmem hactive hunstarted
    hpolicy hlevel 0).mpr hexcluded⟩

end Vault

end RatatoskrVault
