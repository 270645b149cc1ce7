import RatatoskrVault.Vault.Boundary

/-! The cycle over one delivery for a repository without a target, executed by itself: the target
it leaves beside the enrollment that the planner proposes. -/
namespace RatatoskrVault

open Lib

/-- The identifiers in use are below the next one. -/
structure Db.Below (db : Db) (fresh : ℕ) : Prop where
  targets : ∀ t ∈ db.targets, t.targetId < fresh
  revisions : ∀ r ∈ db.revisions, r.targetId < fresh

/-- The cycle ends, the repository has a target then exactly if the planner enrolls it, and a
withdrawal leaves nothing. -/
def EnrollmentAgrees (db : Db) (clock fresh : ℕ) (message : IncomingDelivery)
    (delivery : ValidatedDelivery) : Prop :=
  ∃ c result, cycleProcedure.Leads clock ⟨.ingest [message] [], [], db, fresh⟩ c ∧
    c.loc = .finished result ∧
    ((c.db.named? message).isSome = true ↔ WorkItem.enroll ∈ (plan delivery none).items) ∧
    (delivery.preservationLevel = .none →
      c.db.named? message = none ∧ c.db.tombstones = db.tombstones ∧ c.db.outbox = db.outbox)

section

variable {db : Db} {message : IncomingDelivery} {delivery : ValidatedDelivery} {clock fresh : ℕ}
  {policyRevision : ℕ} {targetId : Uuid}

theorem enroll_mem_plan_iff :
    WorkItem.enroll ∈ (plan delivery none).items ↔ delivery.preservationLevel ≠ .none := by
  unfold plan planItems ValidatedDelivery.withdrawn
  by_cases hlevel : delivery.preservationLevel = .none
  · simp [hlevel]
  · simp [hlevel]

/-- No step of a cycle takes a target from a repository. -/
theorem named?_exec {c c' : Config Db Write CycleLoc} (h : c.db.named? message = some targetId)
    (hexec : cycleProcedure.exec clock c = some c') : c'.db.named? message = some targetId := by
  have hall : ∀ writes : List Write,
      (writes.foldl Db.apply c.db).named? message = some targetId := fun writes =>
    foldl_invariant (I := fun d : Db => d.named? message = some targetId)
      (fun _ w _ hd => named?_apply hd w) h
  obtain ⟨a, -, ha⟩ := Option.bind_eq_some_iff.mp hexec
  cases a with
  | stmt locks writes next => cases ha; exact h
  | auto locks writes next => cases ha; exact hall writes
  | commit next => cases ha; exact hall c.log
  | rollback next => cases ha; exact h
  | call world next => cases ha

/-- What an enrollment commits. -/
def Db.enrolled (db : Db) (message : IncomingDelivery) (delivery : ValidatedDelivery)
    (policyRevision : ℕ) (targetId : Uuid) : Db :=
  [.insertInbox message.inboxRow, .insertTarget (message.targetRow targetId),
    .insertOutbox
      { eventId := targetId + 1
        event := .stateChanged targetId none .requested policyRevision delivery.correlationId },
    .insertRevision (revisionRow targetId policyRevision delivery (some message.source))].foldl
      Db.apply db

theorem ingestDelivery_of_first (hdelivery : validateDelivery message.delivery = .ok delivery)
    (hinputs : governedInputs delivery = .ok policyRevision) (hfits : message.Fits)
    (hnew : message.inboxRow ∉ db.inbox) (hbelow : db.Below fresh)
    (hnone : db.repositoryTarget? message.provider message.externalRepositoryId = none) :
    db.ingestDelivery fresh message
      = .ok (db.enrolled message delivery policyRevision fresh) := by
  obtain ⟨hinbox, htarget, hrevision⟩ :=
    (@fits_iff message delivery fresh policyRevision fresh hdelivery hinputs).mp hfits
  have hunknown : db.inbox.contains message.inboxRow = false := by simpa using hnew
  have hunnumbered : db.hasRevision fresh policyRevision = false := by
    refine List.any_eq_false.mpr fun r hr hkey => ?_
    simp only [Bool.and_eq_true, beq_iff_eq] at hkey
    exact absurd hkey.1 (Nat.ne_of_lt (hbelow.revisions r hr))
  let view : Db := [.insertInbox message.inboxRow, .insertTarget (message.targetRow fresh),
    .insertOutbox
      { eventId := fresh + 1
        event := .stateChanged fresh none .requested policyRevision delivery.correlationId }].foldl
      Db.apply db
  have hview : view.hasRevision fresh policyRevision = false := hunnumbered
  have hfound : (view.target? fresh).isSome = true :=
    List.find?_isSome.mpr ⟨message.targetRow fresh,
      List.mem_append_right _ (List.mem_singleton_self _), by simp [IncomingDelivery.targetRow]⟩
  rw [ingestDelivery_eq hdelivery hinputs, hinbox, hunknown, htarget, hnone]
  show view.recordRevision fresh policyRevision delivery message.source = _
  unfold Db.recordRevision
  simp only [hrevision, hview, hfound, Bool.not_true, Bool.false_eq_true, if_false, if_true]
  rfl

theorem named?_enrolled
    (hnone : db.repositoryTarget? message.provider message.externalRepositoryId = none) :
    (db.enrolled message delivery policyRevision targetId).named? message = some targetId := by
  show (List.find? _ (db.targets ++ [message.targetRow targetId])).map _ = _
  unfold Db.repositoryTarget? at hnone
  rw [List.find?_append, hnone]
  simp [IncomingDelivery.targetRow]

/-- A first delivery of an active policy leaves nothing to execute. -/
theorem settled_enrolled (hbelow : db.Below targetId)
    (hlevel : delivery.preservationLevel ≠ .none) :
    Settled (db.enrolled message delivery policyRevision targetId) targetId := by
  have hstatus : (db.enrolled message delivery policyRevision targetId).statusOf targetId
      = some .requested := by
    have hfree : db.targets.find? (fun t => t.targetId == targetId) = none := by
      refine List.find?_eq_none.mpr fun t ht hid => ?_
      exact absurd (beq_iff_eq.mp hid) (Nat.ne_of_lt (hbelow.targets t ht))
    show Option.map _ (List.find? _ (db.targets ++ [message.targetRow targetId])) = _
    rw [List.find?_append, hfree]
    simp [IncomingDelivery.targetRow]
  intro policy hpolicy
  obtain ⟨hmem, hid⟩ := mem_revisionsOf_of_governing? hpolicy
  obtain rfl : policy = revisionRow targetId policyRevision delivery (some message.source) := by
    rcases List.mem_append.mp hmem with hold | hnew
    · exact absurd hid (Nat.ne_of_lt (hbelow.revisions policy hold))
    · exact List.mem_singleton.mp hnew
  have hactive : (governedRecord (revisionRow targetId policyRevision delivery
      (some message.source))).withdrawn = false := by
    simpa [ValidatedDelivery.withdrawn, governedRecord, revisionRow] using hlevel
  exact settled_of_statusOf hpolicy hstatus (by simp [hactive]) _ hpolicy

theorem Db.Below.mono {fresh' : ℕ} (h : db.Below fresh) (hle : fresh ≤ fresh') :
    db.Below fresh' :=
  ⟨fun t ht => Nat.lt_of_lt_of_le (h.targets t ht) hle,
    fun r hr => Nat.lt_of_lt_of_le (h.revisions r hr) hle⟩

/-- The cycle over a message that is enrolled comes past its ingestion. -/
theorem enrolled_leads (hdelivery : validateDelivery message.delivery = .ok delivery)
    (hinputs : governedInputs delivery = .ok policyRevision) (hfits : message.Fits)
    (hnew : message.inboxRow ∉ db.inbox) (hbelow : db.Below fresh)
    (hnone : db.repositoryTarget? message.provider message.externalRepositoryId = none) :
    ∃ fresh', cycleProcedure.Leads clock ⟨.ingest [message] [], [], db, fresh⟩
      ⟨.ingest [] [fresh + 2], [], db.enrolled message delivery policyRevision (fresh + 2),
        fresh'⟩ := by
  have hunnamed : (db.named? message).getD (fresh + 2) = fresh + 2 := by
    unfold Db.named?
    rw [hnone]
    rfl
  obtain ⟨fresh', hanswer⟩ := ingestDelivery_leads db message clock fresh
  rw [ingestDelivery_of_first hdelivery hinputs hfits hnew (hbelow.mono (Nat.le_add_right _ 2))
    hnone, hunnamed] at hanswer
  exact ⟨fresh', hanswer.host hosts_ingest⟩

/-- The cycle over a message that was seen before, for a repository without a target. -/
theorem duplicate_leads (hdelivery : validateDelivery message.delivery = .ok delivery)
    (hinputs : governedInputs delivery = .ok policyRevision) (hfits : message.Fits)
    (hknown : message.inboxRow ∈ db.inbox)
    (hnone : db.repositoryTarget? message.provider message.externalRepositoryId = none) :
    ∃ fresh', cycleProcedure.Leads clock ⟨.ingest [message] [], [], db, fresh⟩
      ⟨.finished (.error (.invalidDelivery "target_id")), [], db, fresh'⟩ := by
  have hresult : db.ingestDelivery (fresh + 2) message = .error .duplicateDelivery := by
    have hallowed : message.inboxRow.allowed = true :=
      inboxRow_allowed_iff.mpr ⟨hfits.source, hfits.storable.1⟩
    rw [ingestDelivery_eq hdelivery hinputs, hallowed, List.contains_iff_mem.mpr hknown]
    rfl
  obtain ⟨fresh', hanswer⟩ := ingestDelivery_leads db message clock fresh
  rw [hresult] at hanswer
  have hmissing : cycleProcedure.exec clock ⟨.findTarget message [] [], [], db, fresh'⟩
      = some ⟨.finished (.error (.invalidDelivery "target_id")), [], db, fresh'⟩ := by
    simp [Procedure.exec, cycleProcedure, runCycle, Config.view, failCycle, hnone]
  exact ⟨fresh', (hanswer.host hosts_ingest).trans (.head _ hmissing .refl)⟩

/-- A cycle that has ended comes after every place it has been. -/
theorem leads_of_finished {c c₁ c₂ : Config Db Write CycleLoc} {result : Except VaultError CycleReport}
    (h : cycleProcedure.Leads clock c c₁) (hfinished : c₁.loc = .finished result)
    (h' : cycleProcedure.Leads clock c c₂) : cycleProcedure.Leads clock c₂ c₁ := by
  refine h.of_ended ?_ h'
  simp [Procedure.exec, cycleProcedure, hfinished, runCycle]

/-- A withdrawal of an unknown repository enrolls it. -/
theorem withdrawal_enrolls (hdelivery : validateDelivery message.delivery = .ok delivery)
    (hinputs : governedInputs delivery = .ok policyRevision) (hfits : message.Fits)
    (hnew : message.inboxRow ∉ db.inbox) (hbelow : db.Below fresh)
    (hnone : db.repositoryTarget? message.provider message.externalRepositoryId = none)
    (hlevel : delivery.preservationLevel = .none) :
    ¬ EnrollmentAgrees db clock fresh message delivery := by
  rintro ⟨c, result, hc, hfinished, -, hnothing⟩
  obtain ⟨fresh', hleads⟩ := @enrolled_leads db message delivery clock fresh policyRevision
    hdelivery hinputs hfits hnew hbelow hnone
  -- the target of the ingestion is still there when the cycle has ended
  obtain ⟨n, hn⟩ := leads_of_finished hc hfinished hleads
  have hkept : c.db.named? message = some (fresh + 2) :=
    Procedure.execs_invariant
      (I := fun c : Config Db Write CycleLoc => c.db.named? message = some (fresh + 2))
      (fun _ _ hI hexec => named?_exec hI hexec) (named?_enrolled hnone) hn
  rw [(hnothing hlevel).1] at hkept
  cases hkept

/-- Enrollment agrees with the planner exactly if the policy is active and the message new, or
the policy is withdrawn and the message seen before. -/
theorem enrollment_agrees_iff (hvalid : message.Valid)
    (hdelivery : validateDelivery message.delivery = .ok delivery) (hbelow : db.Below fresh)
    (hnone : db.repositoryTarget? message.provider message.externalRepositoryId = none) :
    EnrollmentAgrees db clock fresh message delivery ↔
      (message.inboxRow ∈ db.inbox ↔ delivery.preservationLevel = .none) := by
  obtain ⟨delivery', policyRevision, hdelivery', hinputs⟩ := hvalid.validated
  obtain rfl : delivery = delivery' := Except.ok.inj (hdelivery.symm.trans hdelivery')
  have hunnamed : db.named? message = none := by
    unfold Db.named?
    rw [hnone]
    rfl
  by_cases hknown : message.inboxRow ∈ db.inbox
  · -- the inbox refuses the message, and nothing is written
    obtain ⟨fresh', hleads⟩ := @duplicate_leads db message delivery clock fresh policyRevision
      hdelivery hinputs hvalid.toFits hknown hnone
    simp only [hknown, true_iff]
    constructor
    · rintro ⟨c, result, hc, hfinished, hagrees, -⟩
      have hdb : c.db = db := by
        obtain ⟨n, hn⟩ := leads_of_finished hc hfinished hleads
        cases n with
        | zero =>
          rw [← Option.some.inj hn]
        | succ n => cases hn
      rw [hdb, hunnamed, enroll_mem_plan_iff] at hagrees
      by_contra hlevel
      exact Bool.false_ne_true (hagrees.mpr hlevel)
    · intro hlevel
      refine ⟨_, _, hleads, rfl, ?_, fun _ => ⟨hunnamed, rfl, rfl⟩⟩
      rw [hunnamed, enroll_mem_plan_iff]
      simp [hlevel]
  · obtain ⟨fresh', hleads⟩ := @enrolled_leads db message delivery clock fresh policyRevision
      hdelivery hinputs hvalid.toFits hknown hbelow hnone
    have hnamed : (db.enrolled message delivery policyRevision (fresh + 2)).named? message
        = some (fresh + 2) := named?_enrolled hnone
    simp only [hknown, false_iff]
    constructor
    · exact fun h hlevel => withdrawal_enrolls hdelivery hinputs hvalid.toFits hknown hbelow hnone
        hlevel h
    · intro hlevel
      obtain ⟨report, hreads⟩ := converging_reads
        (List.forall_mem_singleton.mpr
          (@settled_enrolled db message delivery policyRevision (fresh + 2)
            (hbelow.mono (Nat.le_add_right _ 2)) hlevel))
        { proposed := 0, executable := 0 }
      have hingested : cycleProcedure.Reads
          (db.enrolled message delivery policyRevision (fresh + 2)) (.ingest [] [fresh + 2])
          (.finished (.ok report)) := .auto (fun _ => rfl) hreads
      obtain ⟨fresh'', hrest⟩ := hingested.leads clock fresh'
      refine ⟨_, _, hleads.trans hrest, rfl, ?_, fun h => absurd h hlevel⟩
      rw [enroll_mem_plan_iff]
      simp [hnamed, hlevel]

end

namespace Vault.Sample

/-- What the boundary makes of a sample delivery. -/
def validated (level : PreservationLevel) (policyRevision : ℕ) : ValidatedDelivery :=
  { preservationLevel := level
    pinned := none
    includeWiki := none
    includeReleases := none
    includeIssues := none
    offsiteRequired := none
    correlationId := "c"
    policyRevision := some policyRevision }

theorem below_empty (fresh : ℕ) : ({} : Db).Below fresh :=
  ⟨fun _ ht => (List.not_mem_nil ht).elim, fun _ hr => (List.not_mem_nil hr).elim⟩

end Vault.Sample

open Vault.Sample in
/-- The first delivery for a repository withdraws it. -/
theorem first_withdrawal_enrolls :
    ¬ ∀ (db : Db) (clock fresh : ℕ) (message : IncomingDelivery) (delivery : ValidatedDelivery),
      message.Valid → validateDelivery message.delivery = .ok delivery → db.Below fresh →
        db.repositoryTarget? message.provider message.externalRepositoryId = none →
          EnrollmentAgrees db clock fresh message delivery := by
  intro h
  have hvalid : (delivery "none" 1).Valid :=
    valid_delivery rfl rfl (by decide +kernel) (by decide +kernel) (by decide +kernel)
  have hinputs : governedInputs (validated .none 1) = .ok 1 := rfl
  exact withdrawal_enrolls rfl hinputs hvalid.toFits (by decide) (below_empty 0) rfl rfl
    (h {} 0 0 (delivery "none" 1) (validated .none 1) hvalid rfl (below_empty 0) rfl)

open Vault.Sample in
theorem enrollment_agrees_iff_active :
    EnrollmentAgrees {} 0 0 (delivery "git_mirror" 1) (validated .gitMirror 1) := by
  have hvalid : (delivery "git_mirror" 1).Valid :=
    valid_delivery rfl rfl (by decide +kernel) (by decide +kernel) (by decide +kernel)
  exact (enrollment_agrees_iff hvalid rfl (below_empty 0) rfl).mpr (by decide)

end RatatoskrVault
