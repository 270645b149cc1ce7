import RatatoskrVault.Vault.Enrollment

/-! The redelivery of a policy version: whatever part of its deliveries has been ingested and
converged by then, the repositories its source governed before it are read as before. -/
namespace RatatoskrVault

open Lib

/-- What the query reads of a target. -/
def Target.governedKey (t : Target) : TargetKind × Uuid × String :=
  (t.targetKind, t.targetId, t.externalRepositoryId)

/-- A revision of the source at the version or above, which the query ignores. -/
def Revision.IsOwn (source : String) (version : ℕ) (row : Revision) : Prop :=
  row.source = some source ∧ version ≤ row.policyRevision

/-- The second database has more than the first, and nothing more that the query reads. -/
structure Hides (source : String) (version fresh : ℕ) (db view : Db) : Prop where
  revisions : ∃ own, view.revisions = db.revisions ++ own ∧ ∀ r ∈ own, r.IsOwn source version
  targets : ∃ new, view.targets.map (·.governedKey) = db.targets.map (·.governedKey) ++ new ∧
    ∀ key ∈ new, fresh ≤ key.2.1

/-- A write that adds nothing the query reads. -/
def Write.IsHidden (source : String) (version fresh : ℕ) : Write → Prop
  | .insertRevision row => row.IsOwn source version
  | .insertTarget row => fresh ≤ row.targetId
  | _ => True

/-- What the cycles over messages of a list leave behind, each stopped after any number of
statements. -/
inductive Redelivered (messages : List IncomingDelivery) (fresh : ℕ) (db : Db) : Db → Prop
  | refl : Redelivered messages fresh db db
  | cycle {view : Db} {c : Config Db Write CycleLoc} {todo : List IncomingDelivery}
      {clock fresh' n : ℕ} (h : Redelivered messages fresh db view) (hfresh : fresh ≤ fresh')
      (htodo : ∀ message ∈ todo, message ∈ messages)
      (hrun : cycleProcedure.execs clock n ⟨.ingest todo [], [], view, fresh'⟩ = some c) :
      Redelivered messages fresh db c.db

section

variable {source : String} {version fresh : ℕ} {db view : Db} {w : Write} {log : List Write}

theorem Hides.refl : Hides source version fresh db db :=
  ⟨⟨[], (List.append_nil _).symm, by simp⟩, ⟨[], (List.append_nil _).symm, by simp⟩⟩

theorem Hides.apply (h : Hides source version fresh db view) (hw : w.IsHidden source version fresh) :
    Hides source version fresh db (view.apply w) := by
  obtain ⟨⟨own, hrevisions, hown⟩, ⟨new, htargets, hnew⟩⟩ := h
  cases w with
  | insertRevision row =>
    refine ⟨⟨own ++ [row], ?_, ?_⟩, ⟨new, htargets, hnew⟩⟩
    · show view.revisions ++ [row] = _
      rw [hrevisions, List.append_assoc]
    · exact List.forall_mem_append.mpr ⟨hown, List.forall_mem_singleton.mpr hw⟩
  | insertTarget row =>
    refine ⟨⟨own, hrevisions, hown⟩, ⟨new ++ [row.governedKey], ?_, ?_⟩⟩
    · show (view.targets ++ [row]).map _ = _
      rw [List.map_append, htargets, List.append_assoc]
      rfl
    · exact List.forall_mem_append.mpr ⟨hnew, List.forall_mem_singleton.mpr hw⟩
  | setTargetStatus targetId fromStatus toStatus =>
    refine ⟨⟨own, hrevisions, hown⟩, ⟨new, ?_, hnew⟩⟩
    rw [← htargets]
    show (updateWhere _ _ view.targets).map _ = _
    unfold updateWhere
    rw [List.map_map]
    refine List.map_congr_left fun t _ => ?_
    dsimp only [Function.comp]
    split <;> rfl
  | _ => exact ⟨⟨own, hrevisions, hown⟩, ⟨new, htargets, hnew⟩⟩

theorem Hides.foldl (h : Hides source version fresh db view)
    (hlog : ∀ w ∈ log, w.IsHidden source version fresh) :
    Hides source version fresh db (log.foldl Db.apply view) :=
  foldl_invariant (I := fun d : Db => Hides source version fresh db d)
    (fun _ w hw hd => hd.apply (hlog w hw)) h

/-- Of a target that existed the query reads the revisions it read before. -/
theorem Hides.governingBefore? (h : Hides source version fresh db view) (targetId : Uuid) :
    view.governingBefore? source version targetId = db.governingBefore? source version targetId := by
  obtain ⟨own, hrevisions, hown⟩ := h.revisions
  unfold Db.governingBefore? Db.revisionsOf
  have hignored : (own.filter fun r => r.targetId == targetId).filter (fun r =>
      r.source != some source || decide (r.policyRevision < version)) = [] := by
    refine List.filter_eq_nil_iff.mpr fun r hr => ?_
    obtain ⟨hsource, hversion⟩ := hown r (List.mem_filter.mp hr).1
    simp [hsource, Nat.not_lt.mpr hversion]
  rw [hrevisions, List.filter_append, List.filter_append, hignored, List.append_nil]

/-- Of a target without a revision it reads nothing. -/
theorem governingBefore?_of_below {targetId : Uuid} (hbelow : db.Below fresh)
    (hle : fresh ≤ targetId) : db.governingBefore? source version targetId = none := by
  unfold Db.governingBefore? Db.revisionsOf
  have hnone : (db.revisions.filter fun r => r.targetId == targetId) = [] := by
    refine List.filter_eq_nil_iff.mpr fun r hr hid => ?_
    have hlt : r.targetId < fresh := hbelow.revisions r hr
    rw [beq_iff_eq.mp hid] at hlt
    exact absurd hlt (Nat.not_lt.mpr hle)
  rw [hnone]
  rfl

/-- The query as a question about the keys. -/
theorem targetsGovernedBefore_eq :
    db.targetsGovernedBefore source version =
      (((db.targets.map (·.governedKey)).filter fun key =>
        key.1 == .repository && (db.governingBefore? source version key.2.1).any fun r =>
          r.source == some source && r.preservationLevel != .none).map (·.2.2)).insertionSort
        (· ≤ ·) := by
  unfold Db.targetsGovernedBefore
  rw [List.filter_map, List.map_map]
  rfl

theorem Hides.targetsGovernedBefore (h : Hides source version fresh db view)
    (hbelow : db.Below fresh) :
    view.targetsGovernedBefore source version = db.targetsGovernedBefore source version := by
  obtain ⟨new, htargets, hnew⟩ := h.targets
  rw [targetsGovernedBefore_eq, targetsGovernedBefore_eq, htargets]
  simp only [h.governingBefore?]
  have hignored : (new.filter fun key : TargetKind × Uuid × String =>
      key.1 == .repository && (db.governingBefore? source version key.2.1).any fun r =>
        r.source == some source && r.preservationLevel != .none) = [] := by
    refine List.filter_eq_nil_iff.mpr fun key hkey => ?_
    rw [governingBefore?_of_below hbelow (hnew key hkey)]
    simp
  rw [List.filter_append, hignored, List.append_nil]

end

/-- A delivery of the source at the version or above. -/
def IncomingDelivery.IsOwn (source : String) (version : ℕ) (message : IncomingDelivery) : Prop :=
  message.source = source ∧
    ∀ revision, message.delivery.policyRevision = some revision → version ≤ revision

structure Ingesting.IsOwn (source : String) (version : ℕ) (job : Ingesting) : Prop where
  carried : job.message.source = source
  revision : version ≤ job.policyRevision
  todo : ∀ message ∈ job.todo, message.IsOwn source version

/-- The target has a row of the revision that the record carries. -/
def Db.HasDesired (db : Db) (targetId : Uuid) (desired : ValidatedDelivery) : Prop :=
  ∀ revision, governedInputs desired = .ok revision → db.hasRevision targetId revision = true

/-- Where a cycle over such deliveries can be. -/
def CycleLoc.IsOwn (source : String) (version : ℕ) : CycleLoc → Db → Prop
  | .ingest todo _, _ => ∀ message ∈ todo, message.IsOwn source version
  | .findTarget _ todo _, _ => ∀ message ∈ todo, message.IsOwn source version
  | .claimInbox job, _ => job.IsOwn source version
  | .insertTarget job, _ => job.IsOwn source version
  | .selectTarget job, _ => job.IsOwn source version
  | .enrollEvent job _, _ => job.IsOwn source version
  | .insertRevision job _, _ => job.IsOwn source version
  | .commit job _, _ => job.IsOwn source version
  | .readObserved targetId desired _, db => db.HasDesired targetId desired
  | .items targetId desired _ _, db => db.HasDesired targetId desired
  | .transition request at_ _ _, db => db.HasDesired request.targetId request.governing ∧
      ∀ revision, at_ = .insertRevision revision →
        governedInputs request.governing = .ok revision
  | _, _ => True

/-- What every step of such a cycle keeps. -/
structure Redelivering (source : String) (version fresh : ℕ) (db : Db)
    (c : Config Db Write CycleLoc) : Prop where
  drawn : fresh ≤ c.fresh
  hides : Hides source version fresh db c.db
  log : ∀ w ∈ c.log, w.IsHidden source version fresh
  loc : c.loc.IsOwn source version (c.view Db.apply)
  rests : c.loc.Rests → c.log = []

section

variable {source : String} {version fresh clock : ℕ} {db view : Db} {m : Moment} {targetId : Uuid}
  {desired : ValidatedDelivery} {writes : List Write} {locks : List Lock}
  {at_ next : CycleLoc} {c c' : Config Db Write CycleLoc}

/-- No write takes a revision away. -/
theorem hasRevision_applyAll {revision : ℕ} (h : view.hasRevision targetId revision = true) :
    (writes.foldl Db.apply view).hasRevision targetId revision = true := by
  refine foldl_invariant (I := fun d : Db => d.hasRevision targetId revision = true)
    (fun d w _ hd => ?_) h
  cases w with
  | insertRevision row =>
    show List.any (d.revisions ++ [row]) _ = true
    rw [List.any_append]
    exact Bool.or_eq_true_iff.mpr (.inl hd)
  | _ => exact hd

theorem Db.HasDesired.applyAll (h : view.HasDesired targetId desired) :
    (writes.foldl Db.apply view).HasDesired targetId desired :=
  fun revision hinputs => hasRevision_applyAll (h revision hinputs)

/-- A statement of a transition under a revision that is stored adds no row the query reads. -/
theorem transitionStmt_isHidden {request : TransitionRequest} {at_ next : TransitionLoc}
    (h : TransitionStmt request m view at_ locks writes next)
    (hholds : view.HasDesired request.targetId request.governing)
    (hrevision : ∀ revision, at_ = .insertRevision revision →
      governedInputs request.governing = .ok revision) :
    (∀ w ∈ writes, w.IsHidden source version fresh) ∧
      ∀ revision, next = .insertRevision revision →
        governedInputs request.governing = .ok revision := by
  cases h with
  | begin hinputs =>
    refine ⟨by simp, ?_⟩
    rintro revision ⟨⟩
    exact hinputs
  | insertRevision hnew _ _ =>
    rw [hholds _ (hrevision _ rfl)] at hnew
    cases hnew
  | lockTarget htarget hnext =>
    refine ⟨by simp, ?_⟩
    rintro revision rfl
    cases (retentionTransition_next hnext).1
  | cancelPlans => exact ⟨List.forall_mem_map.mpr fun _ _ => trivial, by simp⟩
  | _ => exact ⟨by simp [Write.IsHidden], by simp⟩

theorem cycleStmt_isOwn (h : CycleStmt m view at_ locks writes next) (hfresh : fresh ≤ m.fresh)
    (hat : at_.IsOwn source version view) :
    (∀ w ∈ writes, w.IsHidden source version fresh) ∧
      next.IsOwn source version (writes.foldl Db.apply view) ∧ ¬ next.Rests := by
  cases h with
  | claimInbox hnew => exact ⟨by simp [Write.IsHidden], hat, id⟩
  | targetKnown htarget => exact ⟨by simp, hat, id⟩
  | insertTarget hnone => exact ⟨by simpa [Write.IsHidden] using hfresh, hat, id⟩
  | enrollEvent => exact ⟨by simp [Write.IsHidden], hat, id⟩
  | selectTarget htarget => exact ⟨by simp, hat, id⟩
  | revisionKnown hrevision => exact ⟨by simp, hat, id⟩
  | insertRevision hrevision hallowed =>
    refine ⟨List.forall_mem_singleton.mpr ⟨?_, hat.revision⟩, hat, id⟩
    exact congrArg some hat.carried
  | transition htransition =>
    obtain ⟨hwrites, hrevision⟩ := transitionStmt_isHidden htransition hat.1 hat.2
    obtain ⟨hbegin, hfinished⟩ := next_of_transitionStmt htransition
    have hresume : ∀ request items rest (next : TransitionLoc),
        (∀ result, next ≠ .finished result) →
          resumeTransition request items rest next = .transition request next items rest := by
      intro request items rest next hne
      cases next with
      | finished result => exact absurd rfl (hne result)
      | _ => rfl
    rw [hresume _ _ _ _ hfinished]
    exact ⟨hwrites, ⟨hat.1.applyAll, hrevision⟩, hbegin⟩

theorem isOwn_next {rest : Converging} : rest.next.IsOwn source version view := by
  unfold Converging.next
  cases rest.todo with
  | nil => trivial
  | cons targetId todo => trivial

theorem cycleRead_isOwn (h : CycleRead view at_ next) (hat : at_.IsOwn source version view) :
    at_.Rests ∧ next.IsOwn source version view := by
  cases h with
  | ingested => exact ⟨trivial, isOwn_next⟩
  | validated hdelivery hinputs =>
    obtain ⟨hsource, hrevision⟩ := hat _ (List.mem_cons_self ..)
    obtain ⟨-, -, -, -, -, -, -, hsame⟩ := validateDelivery_eq_ok hdelivery
    refine ⟨trivial, hsource, hrevision _ ?_, fun message hmem => hat message
      (List.mem_cons_of_mem _ hmem)⟩
    rw [← hsame]
    exact (governedInputs_eq_ok.mp hinputs).1
  | findTarget htarget => exact ⟨trivial, hat⟩
  | ungoverned hnone => exact ⟨trivial, isOwn_next⟩
  | governed hpolicy =>
    refine ⟨trivial, fun revision hinputs => ?_⟩
    obtain rfl := Option.some.inj (governedInputs_eq_ok.mp hinputs).1
    exact hasRevision_of_governing? hpolicy
  | observed => exact ⟨trivial, hat⟩
  | converged => exact ⟨trivial, isOwn_next⟩
  | exclude => exact ⟨trivial, hat, by simp⟩
  | reactivate => exact ⟨trivial, hat, by simp⟩
  | counted hexclude hreactivate => exact ⟨trivial, hat⟩

theorem cycleCommit_isOwn (h : CycleCommit at_ next) (hat : at_.IsOwn source version view) :
    next.IsOwn source version view := by
  cases h with
  | ingested => exact hat.todo
  | transition => exact hat.1

theorem cycleRollback_isOwn {db : Db} (h : CycleRollback view at_ next)
    (hat : at_.IsOwn source version view) : next.IsOwn source version db := by
  cases h with
  | duplicate hknown => exact hat.todo
  | failed => trivial

theorem Redelivering.exec (h : Redelivering source version fresh db c)
    (hexec : cycleProcedure.exec clock c = some c') : Redelivering source version fresh db c' := by
  obtain ⟨a, hact, ha⟩ := Option.bind_eq_some_iff.mp hexec
  have hview : Hides source version fresh db (c.view Db.apply) := h.hides.foldl h.log
  cases a with
  | stmt locks writes next =>
    obtain ⟨hwrites, hnext, hrests⟩ := cycleStmt_isOwn (runCycle_stmt hact) h.drawn h.loc
    cases ha
    refine ⟨Nat.le_succ_of_le h.drawn, h.hides, ?_, ?_, fun hrest => absurd hrest hrests⟩
    · exact List.forall_mem_append.mpr ⟨h.log, hwrites⟩
    · show next.IsOwn source version ((c.log ++ writes).foldl Db.apply c.db)
      rw [List.foldl_append]
      exact hnext
  | auto locks writes next =>
    obtain ⟨rfl, rfl, hread⟩ := runCycle_auto hact
    obtain ⟨hrests, hnext⟩ := cycleRead_isOwn hread h.loc
    cases ha
    refine ⟨Nat.le_succ_of_le h.drawn, h.hides, by simp, ?_, fun _ => rfl⟩
    unfold Config.view at hnext
    rw [h.rests hrests] at hnext
    exact hnext
  | commit next =>
    have hnext := cycleCommit_isOwn (runCycle_commit hact) h.loc
    cases ha
    exact ⟨h.drawn, hview, by simp, hnext, fun _ => rfl⟩
  | rollback next =>
    have hnext : next.IsOwn source version c.db :=
      cycleRollback_isOwn (runCycle_rollback hact) h.loc
    cases ha
    exact ⟨h.drawn, h.hides, by simp, hnext, fun _ => rfl⟩
  | call world next => cases ha

theorem Redelivered.hides {messages : List IncomingDelivery}
    (h : Redelivered messages fresh db view)
    (hown : ∀ message ∈ messages, message.IsOwn source version) :
    Hides source version fresh db view := by
  induction h with
  | refl => exact .refl
  | @cycle view c todo clock fresh' n _ hfresh htodo hrun ih =>
    have hstart : Redelivering source version fresh db ⟨.ingest todo [], [], view, fresh'⟩ :=
      ⟨hfresh, ih, by simp, fun message hmem => hown message (htodo message hmem), fun _ => rfl⟩
    have hend : Redelivering source version fresh db c :=
      Procedure.execs_invariant (I := Redelivering source version fresh db)
        (fun _ _ hI hexec => hI.exec hexec) hstart hrun
    exact hend.hides

end

/-- Any part of the deliveries of a policy, ingested in any order and converged, leaves the
repositories governed before it as they are read, and so the deliveries as they are computed. -/
def RecomputesTheSame (contracts : Contracts) (db : Db) (fresh : ℕ) (source : String)
    (commandId : Uuid) (policy : DesiredBackupPolicy) (lastApplied : ℕ) : Prop :=
  ∀ deliveries, deliveriesForPolicy contracts commandId policy lastApplied
      (db.targetsGovernedBefore source policy.policyVersion) = .ok deliveries →
    ∀ view, Redelivered deliveries fresh db view →
      view.targetsGovernedBefore source policy.policyVersion
          = db.targetsGovernedBefore source policy.policyVersion ∧
        deliveriesForPolicy contracts commandId policy lastApplied
          (view.targetsGovernedBefore source policy.policyVersion) = .ok deliveries

section

variable {contracts : Contracts} {commandId : Uuid} {policy : DesiredBackupPolicy}
  {lastApplied : ℕ} {governed : List String} {deliveries : List IncomingDelivery}

/-- The deliveries of a policy are its source's own. -/
theorem deliveriesForPolicy_isOwn
    (h : deliveriesForPolicy contracts commandId policy lastApplied governed = .ok deliveries) :
    ∀ message ∈ deliveries, message.IsOwn policySource policy.policyVersion := by
  have hown : ∀ reference level, (policyDelivery contracts commandId policy.policyVersion reference
      level).IsOwn policySource policy.policyVersion := by
    intro reference level
    refine ⟨rfl, fun revision hrevision => ?_⟩
    exact Nat.le_of_eq (Option.some.inj hrevision)
  unfold deliveriesForPolicy at h
  split_ifs at h
  obtain rfl := Except.ok.inj h
  exact List.forall_mem_append.mpr
    ⟨List.forall_mem_map.mpr fun _ _ => hown _ _, List.forall_mem_map.mpr fun _ _ => hown _ _⟩

/-- A redelivered policy is answered with the same deliveries. -/
theorem redelivery_recomputes {db : Db} {fresh : ℕ} (hbelow : db.Below fresh) :
    RecomputesTheSame contracts db fresh policySource commandId policy lastApplied := by
  intro deliveries hdeliveries view hredelivered
  have hsame : view.targetsGovernedBefore policySource policy.policyVersion
      = db.targetsGovernedBefore policySource policy.policyVersion :=
    (hredelivered.hides (deliveriesForPolicy_isOwn hdeliveries)).targetsGovernedBefore hbelow
  exact ⟨hsame, by rw [hsame, hdeliveries]⟩

end

namespace Vault.Sample

/-- A repository that the catalog governs. -/
def cataloged : Db :=
  { targets := [(delivery "git_mirror" 1).targetRow 1]
    revisions := [revisionRow 1 1 (validated .gitMirror 1) (some "github-catalog")] }

theorem below_cataloged : cataloged.Below 2 :=
  ⟨by simp [cataloged, IncomingDelivery.targetRow], by simp [cataloged, revisionRow]⟩

end Vault.Sample

open Vault.Sample in
/-- What the policy lane withdraws from another source is not read as that source's any more. -/
theorem other_source_recomputes_less :
    ¬ ∀ (contracts : Contracts) (db : Db) (fresh : ℕ) (source : String) (commandId : Uuid)
      (policy : DesiredBackupPolicy) (lastApplied : ℕ), db.Below fresh →
        RecomputesTheSame contracts db fresh source commandId policy lastApplied := by
  intro h
  let policy : DesiredBackupPolicy := { policyVersion := 2, repositories := [] }
  let withdrawal := policyDelivery contracts 7 2 "r" "none"
  have hgoverned : cataloged.targetsGovernedBefore "github-catalog" 2 = ["r"] := by decide +kernel
  have hdeliveries : deliveriesForPolicy contracts 7 policy 1
      (cataloged.targetsGovernedBefore "github-catalog" 2) = .ok [withdrawal] := by
    rw [hgoverned]
    rfl
  have hrun : ((cycleProcedure.execs 0 6 ⟨.ingest [withdrawal] [], [], cataloged, 2⟩).any fun c =>
      c.db.targetsGovernedBefore "github-catalog" 2 == []) = true := by decide +kernel
  cases hc : cycleProcedure.execs 0 6 ⟨.ingest [withdrawal] [], [], cataloged, 2⟩ with
  | none =>
    rw [hc] at hrun
    cases hrun
  | some c =>
    rw [hc] at hrun
    have hnothing : c.db.targetsGovernedBefore "github-catalog" 2 = [] := by simpa using hrun
    have hredelivered : Redelivered [withdrawal] 2 cataloged c.db :=
      .cycle .refl (Nat.le_refl 2) (fun _ hmem => hmem) hc
    have hsame := (h contracts cataloged 2 "github-catalog" 7 policy 1 below_cataloged
      [withdrawal] hdeliveries c.db hredelivered).1
    rw [show policy.policyVersion = 2 from rfl, hnothing, hgoverned] at hsame
    cases hsame

open Vault.Sample in
theorem redelivery_recomputes_cataloged :
    RecomputesTheSame contracts cataloged 2 policySource 7
      { policyVersion := 2, repositories := ["r"] } 1 :=
  redelivery_recomputes below_cataloged

end RatatoskrVault
