import RatatoskrVault.Lib.Sequential
import RatatoskrVault.Replication.Deletion
import RatatoskrVault.Replication.Queues

/-! Deleted snapshots in the work queues: which questions and which claims leave them out. -/
namespace RatatoskrVault

open Lib

namespace Replication

/-- The deletion of the snapshot has started or is done. -/
def Retired (c : Catalog) (snapshotId : Uuid) : Prop :=
  DeletionStarted c.vault snapshotId ∨ MarkedDeleted c.vault snapshotId

/-- A question to the work queues. -/
inductive Query
  | dueReplicationUnits (replicaTargetId : Uuid) (verifiedBefore : Time) (limit : ℕ)
  | verificationScheduleRecords
  | planDue (now : ℕ) (policy : VerificationPolicy)

namespace Query

/-- The snapshots the answer gives work for. -/
def names (c : Catalog) : Query → List Uuid
  | .dueReplicationUnits replicaTargetId verifiedBefore limit =>
    ((c.dueReplicationUnits replicaTargetId verifiedBefore limit).getD []).map (·.snapshotId)
  | .verificationScheduleRecords => c.verificationScheduleRecords.map (·.snapshotId)
  | .planDue now policy =>
    match c.planDue now policy with
    | none => []
    | some plan => plan.selected ++ plan.drillSelected

/-- The queue leaves out the plans under execution only. What else has been deleted must be fresh
at the target, and the schedule leaves out nothing. -/
def Spares (c : Catalog) : Query → Prop
  | .dueReplicationUnits replicaTargetId verifiedBefore _ =>
    (c.replicaTarget? replicaTargetId).any (·.enabled) = true →
      ∀ a ∈ c.vault.artifacts, DeletionCompleted c.vault a.snapshotId →
        c.isStale verifiedBefore (c.placement? a.artifactId replicaTargetId) = false
  | .verificationScheduleRecords =>
    ∀ a ∈ c.vault.artifacts, a.kind = .gitBundle → ¬ DeletionStarted c.vault a.snapshotId
  | .planDue now policy =>
    ∀ a ∈ c.vault.artifacts, a.kind = .gitBundle → DeletionStarted c.vault a.snapshotId →
      isDue (Catalog.latestPassed c.integrityChecks a.snapshotId)
        policy.verificationFrequencySeconds now = false ∧
      isDue (Catalog.latestPassed c.restoreDrills a.snapshotId)
        policy.drillFrequencySeconds now = false

end Query

/-- The unit of a claim between its read of the plans and its commit. -/
def UnitLoc.claiming? : UnitLoc → Option ReplicationUnit
  | .claimInsert unit _ _ _ => some unit
  | .claimCommit transfer => some transfer.unit
  | _ => none

def Loc.claiming? : Loc → Option ReplicationUnit
  | .unit at_ => UnitLoc.claiming? at_
  | _ => none

/-- A claim reads no plan of its snapshot that has completed, and none is started before the claim
commits. -/
def ClaimsUndisturbed (settings : Settings) (s : State) (l : Label) : Prop :=
  (∀ i io unit store, l = .exec i io → (s.session i).loc = .unit (.claimRead unit store) →
    ∀ a, s.db.vault.artifact? unit.artifactId = some a →
      ¬ DeletionCompleted s.db.vault a.snapshotId) ∧
  ∀ s', (machine settings).step s l = some s' → ∀ snapshotId,
    ¬ DeletionStarted s.db.vault snapshotId → DeletionStarted s'.db.vault snapshotId →
    ∀ j unit a, (s.session j).loc.claiming? = some unit →
      s.db.vault.artifact? unit.artifactId = some a → a.snapshotId ≠ snapshotId

/-- In every run whose steps meet `ok`, the questions `asks` allows name no retired snapshot, and
no attempt is created for an artifact of one. -/
structure LeavesQueues (asks : State → Query → Prop) (ok : State → Label → Prop)
    (settings : Settings) (s₀ : State) : Prop where
  queries : ∀ s, Reach (machine settings).step ok s₀ s → ∀ query, asks s query →
    ∀ snapshotId ∈ query.names s.db, ¬ Retired s.db snapshotId
  claims : ∀ s l s', Reach (machine settings).step ok s₀ s → ok s l →
    (machine settings).step s l = some s' →
    ∀ attempt ∈ s'.db.replicationAttempts,
      (∀ known ∈ s.db.replicationAttempts, known.attemptId ≠ attempt.attemptId) →
      ∀ a, s'.db.vault.artifact? attempt.artifactId = some a → ¬ Retired s'.db a.snapshotId

section Queries

variable {c : Catalog}

theorem mem_admitDue {now : ℕ} {policy : VerificationPolicy} {candidates : List ScheduleCandidate}
    {admittedBytes : ℕ} {plan : SchedulePlan} {snapshotId : Uuid}
    (h : snapshotId ∈ (admitDue now policy candidates admittedBytes plan).selected ++
      (admitDue now policy candidates admittedBytes plan).drillSelected) :
    snapshotId ∈ plan.selected ++ plan.drillSelected ∨
      ∃ candidate ∈ candidates, candidate.snapshotId = snapshotId := by
  induction candidates generalizing admittedBytes plan with
  | nil => exact Or.inl h
  | cons candidate rest ih =>
    have htail : (∃ other ∈ rest, other.snapshotId = snapshotId) →
        ∃ other ∈ candidate :: rest, other.snapshotId = snapshotId := by
      rintro ⟨other, hmem, hid⟩
      exact ⟨other, List.mem_cons_of_mem _ hmem, hid⟩
    simp only [admitDue] at h
    split_ifs at h
    · exact (ih h).imp_right htail
    · exact (ih h).imp_right htail
    all_goals
      rcases ih h with hold | hrest
      · simp only [List.mem_append, List.mem_singleton] at hold ⊢
        by_cases hself : candidate.snapshotId = snapshotId
        · exact Or.inr ⟨candidate, List.mem_cons_self .., hself⟩
        · have hne : snapshotId ≠ candidate.snapshotId := fun heq => hself heq.symm
          tauto
      · exact Or.inr (htail hrest)

/-- A record belongs to the Git bundle of a snapshot. -/
theorem bundle_of_record {candidate : ScheduleCandidate}
    (h : candidate ∈ c.verificationScheduleRecords) :
    (∃ a ∈ c.vault.artifacts, a.kind = .gitBundle ∧ a.snapshotId = candidate.snapshotId) ∧
      candidate.lastVerifiedAt = Catalog.latestPassed c.integrityChecks candidate.snapshotId ∧
      candidate.lastDrilledAt = Catalog.latestPassed c.restoreDrills candidate.snapshotId := by
  unfold Catalog.verificationScheduleRecords at h
  obtain ⟨⟨snapshotId, sizeBytes⟩, hmem, rfl⟩ := List.mem_map.mp h
  simp only [List.mem_mergeSort, List.mem_dedup, List.mem_flatMap, List.mem_map, List.mem_filter,
    Bool.and_eq_true, beq_iff_eq, Prod.mk.injEq] at hmem
  obtain ⟨s, hs, a, ⟨ha, hid, hkind⟩, rfl, -⟩ := hmem
  exact ⟨⟨a, ha, hkind, hid⟩, rfl, rfl⟩

/-- An artifact in the queue is stale at the enabled target, and no plan is deleting it. -/
theorem due_of_mem {replicaTargetId : Uuid} {verifiedBefore : Time} {limit : ℕ} {snapshotId : Uuid}
    (h : snapshotId ∈ (Query.dueReplicationUnits replicaTargetId verifiedBefore limit).names c) :
    ∃ a ∈ c.vault.artifacts, a.snapshotId = snapshotId ∧
      (c.replicaTarget? replicaTargetId).any (·.enabled) = true ∧
      c.isStale verifiedBefore (c.placement? a.artifactId replicaTargetId) = true ∧
      c.isDeleting snapshotId = false := by
  simp only [Query.names, Catalog.dueReplicationUnits] at h
  split_ifs at h
  · cases h
  · simp only [Option.getD_some, List.map_map, List.mem_map] at h
    obtain ⟨entry, hmem, rfl⟩ := h
    have hdue := List.mem_mergeSort.mp (List.mem_of_mem_take hmem)
    simp only [List.mem_flatMap, List.mem_map, List.mem_filter, Bool.and_eq_true,
      Bool.not_eq_true', beq_iff_eq] at hdue
    obtain ⟨a, ha, s, ⟨⟨-, hid⟩, ⟨henabled, hstale⟩, hdeleting⟩, rfl⟩ := hdue
    refine ⟨a, ha, hid.symm, henabled, hstale, ?_⟩
    change c.isDeleting s.snapshotId = false
    rw [hid]
    exact hdeleting

theorem isDeleting_of_under_way {snapshotId : Uuid}
    (h : ∃ p ∈ c.vault.plans, p.snapshotId = snapshotId ∧
      (p.status = .localDeleting ∨ p.status = .replicaDeleting)) :
    c.isDeleting snapshotId = true := by
  obtain ⟨p, hp, hid, hstatus⟩ := h
  refine List.any_eq_true.mpr ⟨p, hp, ?_⟩
  simpa [hid] using hstatus

/-- A question that meets its condition names no snapshot whose deletion has started. -/
theorem Query.not_started {query : Query} (h : query.Spares c) {snapshotId : Uuid}
    (hmem : snapshotId ∈ query.names c) : ¬ DeletionStarted c.vault snapshotId := by
  intro hstarted
  cases query with
  | dueReplicationUnits replicaTargetId verifiedBefore limit =>
    obtain ⟨a, ha, rfl, henabled, hstale, hdeleting⟩ := due_of_mem hmem
    by_cases hcompleted : DeletionCompleted c.vault a.snapshotId
    · rw [h henabled a ha hcompleted] at hstale
      cases hstale
    · rw [isDeleting_of_under_way (hstarted.under_way hcompleted)] at hdeleting
      cases hdeleting
  | verificationScheduleRecords =>
    obtain ⟨candidate, hcandidate, rfl⟩ := List.mem_map.mp hmem
    obtain ⟨⟨a, ha, hkind, hid⟩, -, -⟩ := bundle_of_record hcandidate
    exact h a ha hkind (hid ▸ hstarted)
  | planDue now policy =>
    simp only [Query.names, Catalog.planDue, planDueSnapshots] at hmem
    split_ifs at hmem
    · rcases mem_admitDue hmem with hnone | ⟨candidate, hcandidate, rfl⟩
      · cases hnone
      · obtain ⟨hrecord, hdue⟩ := List.mem_filter.mp (List.mem_mergeSort.mp hcandidate)
        obtain ⟨⟨a, ha, hkind, hid⟩, hverified, hdrilled⟩ := bundle_of_record hrecord
        obtain ⟨hfresh, hdrill⟩ := h a ha hkind (hid ▸ hstarted)
        rw [hid] at hfresh hdrill
        unfold ScheduleCandidate.isDue ScheduleCandidate.drillIsDue at hdue
        rw [hverified, hdrilled, hfresh, hdrill] at hdue
        cases hdue
    · cases hmem

end Queries

namespace Retired

/-- An attempt waits for its commit only in a claim, and no plan of the claimed artifact has been
started. -/
structure SessionOk (db : Db) (σ : Session Write Loc) : Prop where
  attempts : ∀ row, .insertAttempt row ∈ σ.log → ∃ transfer,
    σ.loc = .unit (.claimCommit transfer) ∧ row.artifactId = transfer.unit.artifactId
  claiming : ∀ unit, σ.loc.claiming? = some unit → ∃ a,
    db.artifact? unit.artifactId = some a ∧ ¬ DeletionStarted db a.snapshotId

/-- What the steps of others leave as it is. -/
structure Relies (db db' : Db) (σ : Session Write Loc) : Prop where
  artifact : ∀ artifactId a, db.artifact? artifactId = some a → db'.artifact? artifactId = some a
  claiming : ∀ unit a, σ.loc.claiming? = some unit → db.artifact? unit.artifactId = some a →
    ¬ DeletionStarted db a.snapshotId → ¬ DeletionStarted db' a.snapshotId

section

variable {settings : Settings} {m : Moment} {c : Catalog} {db db' : Db} {loc next : Loc}
  {locks : List Lock} {writes log : List Write} {σ : Session Write Loc} {s s' : State} {l : Label}

theorem SessionOk.mono (h : SessionOk db σ) (hrelies : Relies db db' σ) : SessionOk db' σ where
  attempts := h.attempts
  claiming unit hunit := by
    obtain ⟨a, ha, hstarted⟩ := h.claiming unit hunit
    exact ⟨a, hrelies.artifact _ _ ha, hrelies.claiming unit a hunit ha hstarted⟩

theorem SessionOk.of_empty {began : Option ℕ} (h : loc.claiming? = none) :
    SessionOk db ⟨loc, [], began⟩ where
  attempts _ hrow := absurd hrow List.not_mem_nil
  claiming unit hunit := by
    rw [h] at hunit
    cases hunit

theorem relies_refl : Relies db db σ := ⟨fun _ _ h => h, fun _ _ _ _ h => h⟩

/-- A unit that has found its key holds an artifact that no plan under execution deletes. -/
theorem claimable_of_claimKey {artifactId replicaTargetId : Uuid} {key : String}
    (h : c.claimKey? artifactId replicaTargetId = some key)
    (hcompleted : ∀ a, c.vault.artifact? artifactId = some a →
      ¬ DeletionCompleted c.vault a.snapshotId) :
    ∃ a, c.vault.artifact? artifactId = some a ∧ ¬ DeletionStarted c.vault a.snapshotId := by
  unfold Catalog.claimKey? at h
  obtain ⟨a, ha, htarget⟩ := Option.bind_eq_some_iff.mp h
  obtain ⟨target, -, hkey⟩ := Option.bind_eq_some_iff.mp htarget
  refine ⟨a, ha, fun hstarted => ?_⟩
  have hdeleting := isDeleting_of_under_way (hstarted.under_way (hcompleted a ha))
  rw [hdeleting] at hkey
  simp at hkey

/-- A unit sees plans, snapshots and artifacts as they are committed. -/
theorem view_unit {at_ : UnitLoc} (h : Deleting c.vault σ) (hat : σ.loc = .unit at_) :
    (c.applyAll σ.log).vault
      = { c.vault with placements := (c.applyAll σ.log).vault.placements } := by
  rw [vault_applyAll, h.unit at_ hat]
  rfl

theorem SessionOk.stmt (h : SessionOk c.vault σ) (hdeleting : Deleting c.vault σ)
    (hread : ∀ unit store, σ.loc = .unit (.claimRead unit store) →
      ∀ a, c.vault.artifact? unit.artifactId = some a → ¬ DeletionCompleted c.vault a.snapshotId)
    (hstmt : SessionStmt settings m (c.applyAll σ.log) σ.loc locks writes next) :
    SessionOk c.vault ⟨next, σ.log ++ writes, some m.now⟩ := by
  obtain ⟨loc, log, began⟩ := σ
  cases hstmt with
  | @retention at_ n ls ws hret =>
    refine ⟨fun row hrow => ?_, fun unit hunit => by cases hunit⟩
    rcases List.mem_append.mp hrow with hrow | hrow
    · obtain ⟨transfer, hloc, -⟩ := h.attempts row hrow
      cases hloc
    · obtain ⟨w, -, hw⟩ := List.mem_map.mp hrow
      cases hw
  | @unit at_ n _ _ hunit =>
    have hold : ∀ row, .insertAttempt row ∈ log → ∃ transfer, at_ = .claimCommit transfer := by
      intro row hrow
      obtain ⟨transfer, hloc, -⟩ := h.attempts row hrow
      exact ⟨transfer, by cases hloc; rfl⟩
    cases hunit with
    | abandonExpired =>
      refine ⟨fun row hrow => ?_, fun unit hnext => by cases hnext⟩
      rcases List.mem_append.mp hrow with hrow | hrow
      · obtain ⟨transfer, hloc⟩ := hold row hrow
        cases hloc
      · obtain ⟨a, -, ha⟩ := List.mem_map.mp hrow
        cases ha
    | @claimRead unit store key hkey =>
      refine ⟨fun row hrow => ?_, fun unit' hnext => ?_⟩
      · rcases List.mem_append.mp hrow with hrow | hrow
        · obtain ⟨transfer, hloc⟩ := hold row hrow
          cases hloc
        · cases hrow
      · obtain rfl : unit = unit' := Option.some.inj hnext
        have hview := view_unit hdeleting rfl
        have hclaimable := claimable_of_claimKey hkey (by
          rw [hview]
          exact hread unit store rfl)
        rwa [hview] at hclaimable
    | claimInsert =>
      refine ⟨fun row hrow => ?_, fun unit' hnext => ?_⟩
      · rcases List.mem_append.mp hrow with hrow | hrow
        · obtain ⟨transfer, hloc⟩ := hold row hrow
          cases hloc
        · cases List.mem_singleton.mp hrow
          exact ⟨_, rfl, rfl⟩
      · cases hnext
        exact h.claiming _ rfl
    | recordAttempt =>
      refine ⟨fun row hrow => ?_, fun unit hnext => by cases hnext⟩
      rcases List.mem_append.mp hrow with hrow | hrow
      · obtain ⟨transfer, hloc⟩ := hold row hrow
        cases hloc
      · cases List.mem_singleton.mp hrow
    | recordPlacement =>
      refine ⟨fun row hrow => ?_, fun unit hnext => by cases hnext⟩
      rcases List.mem_append.mp hrow with hrow | hrow
      · obtain ⟨transfer, hloc⟩ := hold row hrow
        cases hloc
      · cases List.mem_singleton.mp hrow

theorem claiming_auto (h : SessionAuto m c loc locks writes next) : next.claiming? = none := by
  cases h <;> rfl

theorem claiming_commit (h : SessionCommit loc next) : next.claiming? = none := by
  cases h with
  | retention h => rfl
  | unit h => cases h <;> rfl

theorem claiming_call {world world' : World} {io : IoResult}
    (h : SessionCall settings c world io loc world' next) : next.claiming? = none := by
  cases h with
  | retention h => rfl
  | unit h =>
    cases h with
    | put _ hnext => rcases hnext with rfl | rfl <;> rfl
    | _ => rfl

theorem claiming_rollback {world : World} {io : IoResult}
    (h : SessionRollback settings m c world io loc next) : next.claiming? = none := by
  cases h <;> rfl

theorem claiming_start (proc : Proc) : (start proc).claiming? = none := by
  cases proc <;> rfl

/-- A step the condition allows does not disturb a claim. -/
theorem relies_of_condition (hok : ClaimsUndisturbed settings s l)
    (hstep : (machine settings).step s l = some s')
    (hgrown : s.db.vault.Grown s'.db.vault) (j : ℕ) :
    Relies s.db.vault s'.db.vault (s.session j) where
  artifact := hgrown.artifact
  claiming unit a hunit ha hstarted hnew :=
    hok.2 s' hstep a.snapshotId hstarted hnew j unit a hunit ha rfl

/-- Every session's claim, beside the order of deletions. -/
abbrev Inv (s : State) : Prop :=
  Machine.Beside (fun _ => True) (fun e _ σ => SessionOk e.db.vault σ) s

theorem inv_step :
    ∀ s l s', Inv s → (ClaimsUndisturbed settings s l ∧ Ordered s) →
      (machine settings).step s l = some s' → Inv s' := by
  refine Machine.Beside.step (R := fun e e' _ σ => Relies e.db.vault e'.db.vault σ)
    (fun e H H' σ _ hS => hS) (fun e e' H σ hrelies hS => hS.mono hrelies)
    (fun e H σ => relies_refl) (fun e n H σ => relies_refl) (fun e h => h) (fun e n h => h)
    (fun e => .of_empty rfl) (fun s i proc h hok => .of_empty (claiming_start proc)) ?_ ?_ ?_ ?_ ?_ ?_
  · intro s i input locks writes next h hok hact hfree
    exact (h.sessions i).stmt (hok.2.sessions i)
      (fun unit store hloc => hok.1.1 i input unit store rfl hloc) (act_stmt hact)
  · intro s i input locks writes next h hok hact hfree
    have hauto := act_auto hact
    refine ⟨trivial, fun j _ => ?_, .of_empty (claiming_auto hauto)⟩
    exact relies_of_condition hok.1 (Machine.step_auto hact hfree)
      (grown_applyAll (movesPlans_auto hauto)) j
  · intro s i input next h hok hact
    refine ⟨trivial, fun j _ => ?_, .of_empty (claiming_commit (act_commit hact))⟩
    exact relies_of_condition hok.1 (Machine.step_commit hact)
      (grown_applyAll (hok.2.sessions i).moves) j
  · intro s i input next h hok hact
    exact .of_empty (claiming_rollback (act_rollback hact))
  · intro s i input world next h hok hact
    exact ⟨trivial, fun j _ => relies_refl, .of_empty (claiming_call (act_call hact))⟩
  · intro s o locks writes h hok hop hfree
    refine ⟨trivial, fun j => ?_⟩
    exact relies_of_condition hok.1 (Machine.step_op hop hfree)
      (grown_applyAll (movesPlans_operate (operate_writes hop))) j

/-- An attempt after a log was there before, or the log inserts it. -/
theorem of_mem_replicationAttempts {attempt : ReplicationAttempt}
    (h : attempt ∈ (c.applyAll log).replicationAttempts) :
    ∃ row, (row ∈ c.replicationAttempts ∨ .insertAttempt row ∈ log) ∧
      row.attemptId = attempt.attemptId ∧ row.artifactId = attempt.artifactId := by
  refine foldl_invariant (I := fun d : Catalog => ∀ attempt ∈ d.replicationAttempts,
    ∃ row, (row ∈ c.replicationAttempts ∨ .insertAttempt row ∈ log) ∧
      row.attemptId = attempt.attemptId ∧ row.artifactId = attempt.artifactId)
    (fun d w hw hd => ?_) (fun row hrow => ⟨row, Or.inl hrow, rfl, rfl⟩) attempt h
  cases w with
  | insertAttempt row =>
    exact List.forall_mem_append.mpr
      ⟨hd, List.forall_mem_singleton.mpr ⟨row, Or.inr hw, rfl, rfl⟩⟩
  | finishAttempt attemptId outcome => exact forall_updateWhere hd fun a _ ha _ => ha
  | placeReplica row attemptId at_ =>
    have hkept : (d.placeReplica row attemptId at_).replicationAttempts = d.replicationAttempts := by
      unfold Catalog.placeReplica
      split <;> rfl
    change ∀ attempt ∈ (d.placeReplica row attemptId at_).replicationAttempts, _
    rw [hkept]
    exact hd
  | observeTarget row =>
    have hkept : (d.observeTarget row).replicationAttempts = d.replicationAttempts := by
      unfold Catalog.observeTarget
      split_ifs <;> rfl
    change ∀ attempt ∈ (d.observeTarget row).replicationAttempts, _
    rw [hkept]
    exact hd
  | _ => exact hd

theorem inserts_none_auto (h : SessionAuto m c loc locks writes next) {row : ReplicationAttempt} :
    .insertAttempt row ∉ writes := by
  cases h with
  | retention h =>
    intro hrow
    obtain ⟨w, -, hw⟩ := List.mem_map.mp hrow
    cases hw
  | unit => simp

theorem inserts_none_operate {o : Op} (h : OpWrites m c o locks writes)
    {row : ReplicationAttempt} : .insertAttempt row ∉ writes := by
  cases h with
  | retention h =>
    intro hrow
    obtain ⟨w, -, hw⟩ := List.mem_map.mp hrow
    cases hw
  | _ => simp

/-- A new attempt is the one the committing session has claimed. -/
theorem claimed_of_new (h : Inv s) (hstep : (machine settings).step s l = some s')
    {attempt : ReplicationAttempt} (hmem : attempt ∈ s'.db.replicationAttempts)
    (hnew : ∀ known ∈ s.db.replicationAttempts, known.attemptId ≠ attempt.attemptId) :
    ∃ i transfer, (s.session i).loc = .unit (.claimCommit transfer) ∧
      s'.db = s.db.applyAll (s.session i).log ∧ attempt.artifactId = transfer.unit.artifactId := by
  have hnone : ∀ writes : List Write, s'.db = s.db.applyAll writes →
      (∀ row, .insertAttempt row ∉ writes) → False := by
    intro writes hdb hwrites
    rw [hdb] at hmem
    obtain ⟨row, hrow | hrow, hid, -⟩ := of_mem_replicationAttempts hmem
    · exact hnew row hrow hid
    · exact hwrites row hrow
  rcases Machine.step_db hstep with hdb | ⟨i, input, locks, writes, next, -, hact, hdb⟩ |
    ⟨i, input, next, -, hact, hdb⟩ | ⟨o, locks, writes, -, hop, hdb⟩
  · rw [hdb] at hmem
    exact absurd rfl (hnew attempt hmem)
  · exact (hnone writes hdb fun row => inserts_none_auto (act_auto hact)).elim
  · have hview : s'.db = s.db.applyAll (s.session i).log := hdb
    have hinserted : ∃ row, .insertAttempt row ∈ (s.session i).log ∧
        row.artifactId = attempt.artifactId := by
      rw [hview] at hmem
      obtain ⟨row, hrow | hrow, hid, hartifact⟩ := of_mem_replicationAttempts hmem
      · exact absurd hid (hnew row hrow)
      · exact ⟨row, hrow, hartifact⟩
    obtain ⟨row, hrow, hartifact⟩ := hinserted
    obtain ⟨transfer, hloc, hid⟩ := (h.sessions i).attempts row hrow
    exact ⟨i, transfer, hloc, hview, hartifact.symm.trans hid⟩
  · exact (hnone writes hdb fun row => inserts_none_operate (operate_writes hop)).elim

end

end Retired

theorem not_retired {c : Catalog} (h : MarkedAfterStart c.vault) {snapshotId : Uuid}
    (hstarted : ¬ DeletionStarted c.vault snapshotId) : ¬ Retired c snapshotId := by
  rintro (hold | hmarked)
  · exact hstarted hold
  · exact hstarted (h snapshotId hmarked)

/-- Every question that meets its condition, and every claim nothing disturbs, passes retired
snapshots by. -/
theorem leaves_queues (settings : Settings) {c : Catalog} (h : MarkedAfterStart c.vault)
    (world : World) (clock fresh : ℕ) :
    LeavesQueues (fun s query => query.Spares s.db) (ClaimsUndisturbed settings) settings
      (initial c world clock fresh) := by
  have h₀ := ordered_initial h world clock fresh
  have hempty : Retired.Inv (initial c world clock fresh) :=
    ⟨trivial, fun _ => .of_empty rfl, fun _ _ _ hl => absurd hl List.not_mem_nil⟩
  refine ⟨fun s hreach query hspares snapshotId hmem => ?_,
    fun s l s' hreach hok hstep attempt hattempt hnew a ha => ?_⟩
  · have hordered := hreach.invariant h₀ (ordered_step _)
    exact not_retired hordered.shared (query.not_started hspares hmem)
  · have hordered := hreach.invariant h₀ (ordered_step _)
    have hinv := (hreach.strengthen h₀ (ordered_step _)).invariant hempty Retired.inv_step
    have hordered' := ordered_step _ s l s' hordered hok hstep
    obtain ⟨i, transfer, hloc, hdb, hid⟩ := Retired.claimed_of_new hinv hstep hattempt hnew
    have hunit : (s.session i).loc.claiming? = some transfer.unit := by rw [hloc]; rfl
    obtain ⟨a', ha', hstarted⟩ := (hinv.sessions i).claiming transfer.unit hunit
    have hview := Retired.view_unit (c := s.db) (hordered.sessions i) hloc
    rw [hid, hdb, hview] at ha
    obtain rfl : a' = a := Option.some.inj (ha'.symm.trans ha)
    have hkept : ¬ DeletionStarted s'.db.vault a'.snapshotId := by
      rw [hdb, hview]
      exact hstarted
    exact not_retired hordered'.shared hkept

namespace Sample

/-- The plan runs to its end. -/
def deleted : List Label :=
  .start 0 (.retention (.runPlan 8)) :: List.replicate 26 (.exec 0 .ok)

end Sample

/-- A snapshot whose plan has completed is due at a target that holds no placement of it. -/
theorem completed_snapshot_is_due :
    ¬ LeavesQueues (fun _ _ => True) (fun _ _ => True) Sample.settings
      (initial Sample.planned Sample.world 10 100) := by
  intro h
  obtain ⟨s, hrun, hs⟩ : ∃ s, run (machine Sample.settings).step
      (initial Sample.planned Sample.world 10 100) Sample.deleted = some s ∧
      (s.db.vault.artifacts == [Sample.bundle 6 4] &&
        s.db.vault.snapshots == [{ Sample.snapshot 4 with status := .deleted }] &&
        s.db.vault.plans == [{ Sample.plan 8 4 with status := .completed }] &&
        s.db.vault.placements == [] && s.db.replicaTargets == [Sample.target]) = true :=
    exists_of_run_any (by decide +kernel)
  simp only [Bool.and_eq_true, beq_iff_eq] at hs
  obtain ⟨⟨⟨⟨hartifacts, hsnapshots⟩, hplans⟩, hplacements⟩, htargets⟩ := hs
  have hreach : Reach (machine Sample.settings).step (fun _ _ => True)
      (initial Sample.planned Sample.world 10 100) s :=
    Reach.of_run hrun (along_of_forall (by simp) _)
  have hdue : 4 ∈ (Query.dueReplicationUnits 20 0 1).names s.db := by
    simp [Query.names, Catalog.dueReplicationUnits, hartifacts, hsnapshots, Catalog.replicaTarget?,
      htargets, Catalog.isStale, Catalog.placement?, hplacements, Catalog.isDeleting, hplans,
      Catalog.replicationUnit, Sample.bundle, Sample.snapshot, Sample.plan, Sample.target]
  refine h.queries s hreach (.dueReplicationUnits 20 0 1) trivial 4 hdue (Or.inr ?_)
  unfold MarkedDeleted
  rw [hsnapshots]
  decide

theorem leaves_queues_planned :
    MarkedAfterStart Sample.planned.vault ∧
      LeavesQueues (fun s query => query.Spares s.db) (ClaimsUndisturbed Sample.settings)
        Sample.settings (initial Sample.planned Sample.world 10 100) := by
  have h : MarkedAfterStart Sample.planned.vault := by
    rintro snapshotId ⟨t, ht, -, hdeleted⟩
    cases List.mem_singleton.mp ht
    cases hdeleted
  exact ⟨h, leaves_queues Sample.settings h Sample.world 10 100⟩

end Replication

end RatatoskrVault
