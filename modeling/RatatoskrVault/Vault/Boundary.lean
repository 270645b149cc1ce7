import RatatoskrVault.Vault.Ingestion

/-! `ingest_delivery` executed by itself, from its call to its return: what it answers a delivery
that has passed `validate_delivery`, and what remains of one it does not accept. -/
namespace RatatoskrVault

open Lib

/-- The call of `ingest_delivery` is over. -/
def CycleLoc.hasReturned : CycleLoc → Bool
  | .ingest [] _ => true
  | .findTarget _ _ _ => true
  | .finished _ => true
  | _ => false

/-- The statements of a cycle up to the return of its first `ingest_delivery`. -/
def ingestProcedure : Procedure Db Lock Write CycleLoc :=
  { apply := Db.apply
    act := fun at_ m db => if at_.hasReturned then none else runCycle m db at_ }

/-- Where a cycle of one message goes on after the answer. -/
def afterAnswer (message : IncomingDelivery) (targetId : Uuid) : Except VaultError Db → CycleLoc
  | .ok _ => .ingest [] [targetId]
  | .error .duplicateDelivery => .findTarget message [] []
  | .error e => .finished (.error e)

/-- What is committed after the answer. -/
def Db.after (db : Db) : Except VaultError Db → Db
  | .ok db' => db'
  | .error _ => db

/-- A message, the only one of its cycle. -/
def IncomingDelivery.job (message : IncomingDelivery) (delivery : ValidatedDelivery)
    (policyRevision : ℕ) : Ingesting :=
  { message, delivery, policyRevision, todo := [], touched := [] }

section

variable {db : Db} {message : IncomingDelivery} {delivery : ValidatedDelivery} {clock fresh : ℕ}
  {policyRevision : ℕ} {targetId : Uuid} {log : List Write}

theorem hosts_ingest : cycleProcedure.Hosts ingestProcedure id where
  apply := rfl
  act {at_ m db a} h := by
    have hcycle : runCycle m db at_ = some a := by
      simp only [ingestProcedure] at h
      split_ifs at h
      exact h
    cases a <;> exact hcycle

/-- The last two statements of the transaction. -/
theorem recordRevision_leads :
    ∃ fresh', ingestProcedure.Leads clock
      ⟨.insertRevision (message.job delivery policyRevision) targetId, log, db, fresh⟩
      ⟨afterAnswer message targetId ((log.foldl Db.apply db).recordRevision targetId policyRevision
          delivery message.source), [],
        db.after ((log.foldl Db.apply db).recordRevision targetId policyRevision delivery
          message.source), fresh'⟩ := by
  let job := message.job delivery policyRevision
  let row := revisionRow targetId policyRevision delivery (some message.source)
  have hcommit : ∀ writes : List Write, ingestProcedure.Leads clock
      ⟨.commit job targetId, log ++ writes, db, fresh + 1⟩
      ⟨.ingest [] [targetId], [], writes.foldl Db.apply (log.foldl Db.apply db), fresh + 1⟩ := by
    intro writes
    refine .head _ (Procedure.exec_commit rfl) ?_
    rw [Config.view, List.foldl_append]
    exact .refl
  unfold Db.recordRevision
  by_cases hallowed :
      (revisionRow targetId policyRevision delivery (some message.source)).allowed = true
  · by_cases hknown : (log.foldl Db.apply db).hasRevision targetId policyRevision = true
    · refine ⟨fresh + 1, .head ⟨.commit job targetId, log ++ [], db, fresh + 1⟩ ?_ ?_⟩
      · simp [Procedure.exec, ingestProcedure, CycleLoc.hasReturned, runCycle, Config.view,
          IncomingDelivery.job, job, hallowed, hknown]
      · simpa [hallowed, hknown, afterAnswer, Db.after] using hcommit []
    · by_cases hfound : ((log.foldl Db.apply db).target? targetId).isSome = true
      · refine ⟨fresh + 1, .head ⟨.commit job targetId, log ++ [.insertRevision row], db,
          fresh + 1⟩ ?_ ?_⟩
        · simp [Procedure.exec, ingestProcedure, CycleLoc.hasReturned, runCycle, Config.view,
            IncomingDelivery.job, row, job, hallowed, hknown, hfound]
        · simpa [hallowed, hknown, hfound, row, afterAnswer, Db.after] using
            hcommit [.insertRevision row]
      · refine ⟨fresh, .head ⟨.finished (.error .storageFailed), [], db, fresh⟩ ?_ ?_⟩
        · simp [Procedure.exec, ingestProcedure, CycleLoc.hasReturned, runCycle, Config.view,
            IncomingDelivery.job, failCycle, hallowed, hknown, hfound]
        · simp [hallowed, hknown, hfound, afterAnswer, Db.after, Procedure.Leads.refl]
  · refine ⟨fresh, .head ⟨.finished (.error .storageFailed), [], db, fresh⟩ ?_ ?_⟩
    · simp [Procedure.exec, ingestProcedure, CycleLoc.hasReturned, runCycle, Config.view,
        IncomingDelivery.job, failCycle, hallowed]
    · simp [hallowed, afterAnswer, Db.after, Procedure.Leads.refl]

theorem invalid_of_validateDelivery {delivery : DesiredStateDelivery} {e : VaultError}
    (h : validateDelivery delivery = .error e) : ∃ field, e = .invalidDelivery field := by
  unfold validateDelivery at h
  split at h
  · exact ⟨_, (Except.error.inj h).symm⟩
  · split_ifs at h
    · exact ⟨_, (Except.error.inj h).symm⟩
    · exact ⟨_, (Except.error.inj h).symm⟩

theorem invalid_of_governedInputs {e : VaultError} (h : governedInputs delivery = .error e) :
    ∃ field, e = .invalidDelivery field := by
  unfold governedInputs at h
  split at h
  · exact ⟨_, (Except.error.inj h).symm⟩
  · split_ifs at h
    · exact ⟨_, (Except.error.inj h).symm⟩
    · exact ⟨_, (Except.error.inj h).symm⟩

/-- What the transaction does once the delivery has passed the boundary. -/
theorem ingestDelivery_eq (hdelivery : validateDelivery message.delivery = .ok delivery)
    (hinputs : governedInputs delivery = .ok policyRevision) :
    db.ingestDelivery fresh message =
      if !message.inboxRow.allowed then .error .storageFailed
      else if db.inbox.contains message.inboxRow then .error .duplicateDelivery
      else if !(message.targetRow fresh).allowed then .error .storageFailed
      else
        match db.repositoryTarget? message.provider message.externalRepositoryId with
        | some target =>
          ((db.apply (.insertInbox message.inboxRow))).recordRevision target.targetId
            policyRevision delivery message.source
        | none =>
          (((db.apply (.insertInbox message.inboxRow)).apply
            (.insertTarget (message.targetRow fresh))).apply
              (.insertOutbox
                { eventId := fresh + 1
                  event := .stateChanged fresh none .requested policyRevision
                    delivery.correlationId })).recordRevision
            fresh policyRevision delivery message.source := by
  unfold Db.ingestDelivery
  rw [hdelivery]
  dsimp only
  generalize governedInputs delivery = inputs at hinputs ⊢
  subst hinputs
  rfl

/-- A message that passes the boundary and has not been seen claims its slot. -/
theorem claim_leads (hdelivery : validateDelivery message.delivery = .ok delivery)
    (hinputs : governedInputs delivery = .ok policyRevision)
    (hallowed : message.inboxRow.allowed = true)
    (hnew : db.inbox.contains message.inboxRow = false) :
    ingestProcedure.Leads clock ⟨.ingest [message] [], [], db, fresh⟩
      ⟨.insertTarget (message.job delivery policyRevision), [.insertInbox message.inboxRow], db,
        fresh + 2⟩ := by
  refine .head ⟨.claimInbox (message.job delivery policyRevision), [], db, fresh + 1⟩ ?_
    (.head _ ?_ .refl)
  · simp [Procedure.exec, ingestProcedure, CycleLoc.hasReturned, runCycle, hdelivery, hinputs,
      IncomingDelivery.job]
  · unfold IncomingDelivery.inboxRow at hallowed hnew ⊢
    simp only [Procedure.exec, ingestProcedure, CycleLoc.hasReturned, runCycle, Config.view,
      List.foldl_nil, IncomingDelivery.job, hallowed, hnew]
    rfl

/-- A claimed message of a repository with a target. -/
theorem known_leads {target : Target} (hallowed : (message.targetRow fresh).allowed = true)
    (hfound : db.repositoryTarget? message.provider message.externalRepositoryId = some target) :
    ingestProcedure.Leads clock
      ⟨.insertTarget (message.job delivery policyRevision), [.insertInbox message.inboxRow], db,
        fresh⟩
      ⟨.insertRevision (message.job delivery policyRevision) target.targetId,
        [.insertInbox message.inboxRow], db, fresh + 2⟩ := by
  have hview : (db.apply (.insertInbox message.inboxRow)).repositoryTarget? message.provider
      message.externalRepositoryId = some target := hfound
  unfold IncomingDelivery.targetRow at hallowed
  refine .head ⟨.selectTarget (message.job delivery policyRevision),
    [.insertInbox message.inboxRow], db, fresh + 1⟩ ?_ (.head _ ?_ .refl)
  · simp [Procedure.exec, ingestProcedure, CycleLoc.hasReturned, runCycle, Config.view,
      IncomingDelivery.job, hallowed, hview]
  · simp [Procedure.exec, ingestProcedure, CycleLoc.hasReturned, runCycle, Config.view,
      IncomingDelivery.job, hview]

/-- A claimed message of a repository without one. -/
theorem enroll_leads (hallowed : (message.targetRow fresh).allowed = true)
    (hnone : db.repositoryTarget? message.provider message.externalRepositoryId = none) :
    ingestProcedure.Leads clock
      ⟨.insertTarget (message.job delivery policyRevision), [.insertInbox message.inboxRow], db,
        fresh⟩
      ⟨.insertRevision (message.job delivery policyRevision) fresh,
        [.insertInbox message.inboxRow, .insertTarget (message.targetRow fresh),
          .insertOutbox
            { eventId := fresh + 1
              event := .stateChanged fresh none .requested policyRevision
                delivery.correlationId }], db, fresh + 2⟩ := by
  have hview : (db.apply (.insertInbox message.inboxRow)).repositoryTarget? message.provider
      message.externalRepositoryId = none := hnone
  unfold IncomingDelivery.targetRow at hallowed ⊢
  refine .head ⟨.enrollEvent (message.job delivery policyRevision) fresh,
    [.insertInbox message.inboxRow, .insertTarget (message.targetRow fresh)], db, fresh + 1⟩ ?_
    (.head _ ?_ .refl)
  · simp [Procedure.exec, ingestProcedure, CycleLoc.hasReturned, runCycle, Config.view,
      IncomingDelivery.job, IncomingDelivery.targetRow, hallowed, hview]
  · simp [Procedure.exec, ingestProcedure, CycleLoc.hasReturned, runCycle, Config.view,
      IncomingDelivery.job, IncomingDelivery.targetRow]

/-- The answer to a message is the one of `Db.ingestDelivery`. -/
theorem ingestDelivery_leads (db : Db) (message : IncomingDelivery) (clock fresh : ℕ) :
    ∃ fresh', ingestProcedure.Leads clock ⟨.ingest [message] [], [], db, fresh⟩
      ⟨afterAnswer message ((db.named? message).getD (fresh + 2))
          (db.ingestDelivery (fresh + 2) message), [],
        db.after (db.ingestDelivery (fresh + 2) message), fresh'⟩ := by
  cases hdelivery : validateDelivery message.delivery with
  | error e =>
    have hresult : db.ingestDelivery (fresh + 2) message = .error e := by
      unfold Db.ingestDelivery
      rw [hdelivery]
    obtain ⟨field, rfl⟩ := invalid_of_validateDelivery hdelivery
    rw [hresult]
    refine ⟨fresh, .head _ ?_ .refl⟩
    simp [Procedure.exec, ingestProcedure, CycleLoc.hasReturned, runCycle, failCycle, hdelivery,
      afterAnswer, Db.after]
  | ok delivery =>
    cases hinputs : governedInputs delivery with
    | error e =>
      have hresult : db.ingestDelivery (fresh + 2) message = .error e := by
        unfold Db.ingestDelivery
        simp only [hdelivery, hinputs]
      obtain ⟨field, rfl⟩ := invalid_of_governedInputs hinputs
      rw [hresult]
      refine ⟨fresh, .head _ ?_ .refl⟩
      simp [Procedure.exec, ingestProcedure, CycleLoc.hasReturned, runCycle, failCycle, hdelivery,
        hinputs, afterAnswer, Db.after]
    | ok policyRevision =>
      rw [ingestDelivery_eq hdelivery hinputs]
      have hvalidated : ingestProcedure.exec clock ⟨.ingest [message] [], [], db, fresh⟩
          = some ⟨.claimInbox (message.job delivery policyRevision), [], db, fresh + 1⟩ := by
        simp [Procedure.exec, ingestProcedure, CycleLoc.hasReturned, runCycle, hdelivery, hinputs,
          IncomingDelivery.job]
      by_cases hallowed : message.inboxRow.allowed = true
      · cases hknown : db.inbox.contains message.inboxRow with
        | true =>
          refine ⟨fresh + 1, .head _ hvalidated (.head _ ?_ .refl)⟩
          simp only [hallowed]
          unfold IncomingDelivery.inboxRow at hallowed hknown
          simp only [Procedure.exec, ingestProcedure, CycleLoc.hasReturned, runCycle, Config.view,
            List.foldl_nil, IncomingDelivery.job, hallowed, hknown]
          rfl
        | false =>
          have hclaimed : ingestProcedure.Leads clock ⟨.ingest [message] [], [], db, fresh⟩
              ⟨.insertTarget (message.job delivery policyRevision),
                [.insertInbox message.inboxRow], db, fresh + 2⟩ :=
            claim_leads hdelivery hinputs hallowed hknown
          by_cases hrow : (message.targetRow (fresh + 2)).allowed = true
          · cases hfound : db.repositoryTarget? message.provider message.externalRepositoryId with
            | some target =>
              have hnamed : (db.named? message).getD (fresh + 2) = target.targetId := by
                unfold Db.named?
                rw [hfound]
                rfl
              obtain ⟨fresh', hrest⟩ := @recordRevision_leads db message delivery clock
                (fresh + 2 + 2) policyRevision target.targetId [.insertInbox message.inboxRow]
              refine ⟨fresh', (hclaimed.trans (known_leads hrow hfound)).trans ?_⟩
              simp only [hallowed, hrow, hnamed, Bool.not_true, Bool.false_eq_true, if_false]
              exact hrest
            | none =>
              have hnamed : (db.named? message).getD (fresh + 2) = fresh + 2 := by
                unfold Db.named?
                rw [hfound]
                rfl
              obtain ⟨fresh', hrest⟩ := @recordRevision_leads db message delivery clock
                (fresh + 2 + 2) policyRevision (fresh + 2)
                [.insertInbox message.inboxRow, .insertTarget (message.targetRow (fresh + 2)),
                  .insertOutbox
                    { eventId := fresh + 2 + 1
                      event := .stateChanged (fresh + 2) none .requested policyRevision
                        delivery.correlationId }]
              refine ⟨fresh', (hclaimed.trans (enroll_leads hrow hfound)).trans ?_⟩
              simp only [hallowed, hrow, hnamed, Bool.not_true, Bool.false_eq_true, if_false]
              exact hrest
          · refine ⟨fresh + 2, hclaimed.trans (.head _ ?_ .refl)⟩
            have hrefused : (message.targetRow (fresh + 2)).allowed = false := by simpa using hrow
            simp only [hallowed, hrefused]
            unfold IncomingDelivery.targetRow at hrefused
            simp only [Procedure.exec, ingestProcedure, CycleLoc.hasReturned, runCycle,
              IncomingDelivery.job, failCycle, hrefused]
            rfl
      · refine ⟨fresh + 1, .head _ hvalidated (.head _ ?_ .refl)⟩
        have hrefused : message.inboxRow.allowed = false := by simpa using hallowed
        simp only [hrefused]
        unfold IncomingDelivery.inboxRow at hrefused
        simp only [Procedure.exec, ingestProcedure, CycleLoc.hasReturned, runCycle,
          IncomingDelivery.job, failCycle, hrefused]
        rfl

/-- The call returns with the delivery stored, stored before, or refused by the name of a field;
and where it is not stored nothing of it remains. -/
structure BoundaryDecides (db : Db) (message : IncomingDelivery) : Prop where
  decided : ∀ clock fresh, ∃ c,
    ingestProcedure.Leads clock ⟨.ingest [message] [], [], db, fresh⟩ c ∧
      ((∃ targetId, c.loc = .ingest [] [targetId]) ∨ c.loc = .findTarget message [] [] ∨
        ∃ field, c.loc = .finished (.error (.invalidDelivery field)))
  clean : ∀ clock fresh c,
    ingestProcedure.Leads clock ⟨.ingest [message] [], [], db, fresh⟩ c →
      c.loc.hasReturned = true → (∀ targetId, c.loc ≠ .ingest [] [targetId]) → c.db = db

theorem exec_of_hasReturned {c : Config Db Write CycleLoc} (h : c.loc.hasReturned = true) :
    ingestProcedure.exec clock c = none := by
  simp [Procedure.exec, ingestProcedure, h]

theorem hasReturned_afterAnswer (result : Except VaultError Db) :
    (afterAnswer message targetId result).hasReturned = true := by
  unfold afterAnswer
  split <;> rfl

/-- Where the call returns is what was answered. -/
theorem eq_of_hasReturned {c : Config Db Write CycleLoc}
    (h : ingestProcedure.Leads clock ⟨.ingest [message] [], [], db, fresh⟩ c)
    (hreturned : c.loc.hasReturned = true) :
    c.loc = afterAnswer message ((db.named? message).getD (fresh + 2))
        (db.ingestDelivery (fresh + 2) message) ∧
      c.db = db.after (db.ingestDelivery (fresh + 2) message) := by
  obtain ⟨fresh', hanswer⟩ := ingestDelivery_leads db message clock fresh
  have hended := hanswer.of_ended (exec_of_hasReturned (hasReturned_afterAnswer _)) h
  obtain ⟨n, hn⟩ := hended
  cases n with
  | zero =>
    rw [Option.some.inj hn]
    exact ⟨rfl, rfl⟩
  | succ n =>
    rw [Procedure.execs, exec_of_hasReturned hreturned] at hn
    cases hn

/-- Under a target that exists only the row itself can be refused. -/
theorem recordRevision_eq_error_iff {source : String} {e : VaultError}
    (hfound : (db.target? targetId).isSome = true) :
    db.recordRevision targetId policyRevision delivery source = .error e ↔
      e = .storageFailed ∧
        (revisionRow targetId policyRevision delivery (some source)).allowed = false := by
  unfold Db.recordRevision
  by_cases hallowed : (revisionRow targetId policyRevision delivery (some source)).allowed = true
  · by_cases hknown : db.hasRevision targetId policyRevision = true
    · simp [hallowed, hknown]
    · simp [hallowed, hknown, hfound]
  · simp [hallowed, eq_comm]

/-- The three rows of a delivery. -/
theorem fits_iff (hdelivery : validateDelivery message.delivery = .ok delivery)
    (hinputs : governedInputs delivery = .ok policyRevision) :
    message.Fits ↔ message.inboxRow.allowed = true ∧
      (message.targetRow fresh).allowed = true ∧
      (revisionRow targetId policyRevision delivery (some message.source)).allowed = true := by
  rw [inboxRow_allowed_iff, targetRow_allowed_iff, revisionRow_allowed_iff hdelivery hinputs]
  constructor
  · rintro ⟨hsource, hrepository, hpositive, hcorrelation, hstorable, hstorable', hstorable''⟩
    exact ⟨⟨hsource, hstorable⟩, ⟨hrepository, hstorable'⟩, hpositive, hcorrelation, hstorable'',
      hsource, hstorable⟩
  · rintro ⟨⟨hsource, hstorable⟩, ⟨hrepository, hstorable'⟩, hpositive, hcorrelation, hstorable'',
      -, -⟩
    exact ⟨hsource, hrepository, hpositive, hcorrelation, hstorable, hstorable', hstorable''⟩

/-- `governed_inputs` refuses a validated delivery for its revision only. -/
theorem governedInputs_of_validated (hdelivery : validateDelivery message.delivery = .ok delivery) :
    (∃ revision, message.delivery.policyRevision = some revision ∧ i64Max < revision ∧
        governedInputs delivery = .error (.invalidDelivery "policy_revision")) ∨
      ∃ revision, message.delivery.policyRevision = some revision ∧ revision ≤ i64Max ∧
        governedInputs delivery = .ok revision := by
  obtain ⟨-, -, -, -, -, -, hcorrelation, hrevision⟩ := validateDelivery_eq_ok hdelivery
  have hpresent : message.delivery.policyRevision ≠ none ∧
      message.delivery.correlationId.isEmpty = false := by
    unfold validateDelivery at hdelivery
    split at hdelivery
    · cases hdelivery
    · split_ifs at hdelivery with hnone hempty
      exact ⟨by simpa using hnone, by simpa using hempty⟩
  obtain ⟨revision, hsome⟩ := Option.ne_none_iff_exists'.mp hpresent.1
  rw [hsome] at hrevision
  by_cases hrange : i64Max < revision
  · refine .inl ⟨revision, hsome, hrange, ?_⟩
    unfold governedInputs
    simp [hrevision, hrange]
  · refine .inr ⟨revision, hsome, Nat.le_of_not_lt hrange, ?_⟩
    rw [← hcorrelation] at hpresent
    exact governedInputs_eq_ok.mpr ⟨hrevision, Nat.le_of_not_lt hrange, hpresent.2⟩

/-- What a delivery is answered once its slot is its own. -/
theorem answer_of_new (hdelivery : validateDelivery message.delivery = .ok delivery)
    (hinputs : governedInputs delivery = .ok policyRevision)
    (hnew : db.inbox.contains message.inboxRow = false) :
    (message.Fits → ∃ db', db.ingestDelivery fresh message = .ok db') ∧
      (¬ message.Fits → db.ingestDelivery fresh message = .error .storageFailed) := by
  rw [ingestDelivery_eq hdelivery hinputs, hnew]
  by_cases hallowed : message.inboxRow.allowed = true
  · by_cases hrow : (message.targetRow fresh).allowed = true
    · simp only [hallowed, hrow, Bool.not_true, Bool.false_eq_true, if_false]
      -- in both cases the revision goes under a target that exists
      have hrecorded : ∀ (view : Db) (id : Uuid), (view.target? id).isSome = true →
          (message.Fits → ∃ db', view.recordRevision id policyRevision delivery message.source
              = .ok db') ∧
            (¬ message.Fits → view.recordRevision id policyRevision delivery message.source
              = .error .storageFailed) := by
        intro view id hfound
        have hfits : message.Fits ↔
            (revisionRow id policyRevision delivery (some message.source)).allowed = true := by
          rw [fits_iff hdelivery hinputs]
          exact ⟨fun h => h.2.2, fun h => ⟨hallowed, hrow, h⟩⟩
        constructor
        · intro hfit
          cases hresult : view.recordRevision id policyRevision delivery message.source with
          | ok db' => exact ⟨db', rfl⟩
          | error e =>
            have hrefused := ((recordRevision_eq_error_iff hfound).mp hresult).2
            rw [hfits.mp hfit] at hrefused
            cases hrefused
        · intro hunfit
          refine (recordRevision_eq_error_iff hfound).mpr ⟨rfl, ?_⟩
          simpa [hfits] using hunfit
      cases htarget : db.repositoryTarget? message.provider message.externalRepositoryId with
      | some target =>
        refine hrecorded _ _ ?_
        exact List.find?_isSome.mpr ⟨target, List.mem_of_find?_eq_some htarget, by simp⟩
      | none =>
        refine hrecorded _ _ ?_
        exact List.find?_isSome.mpr ⟨message.targetRow fresh,
          List.mem_append_right _ (List.mem_singleton_self _), by simp [IncomingDelivery.targetRow]⟩
    · have hunfit : ¬ message.Fits := fun h =>
        hrow (targetRow_allowed_iff.mpr ⟨h.repository, h.storable.2.1⟩)
      simp [hallowed, hrow, hunfit]
  · have hunfit : ¬ message.Fits := fun h =>
      hallowed (inboxRow_allowed_iff.mpr ⟨h.source, h.storable.1⟩)
    simp [hallowed, hunfit]

/-- The slot of the delivery is taken, its revision is out of range, or every table takes it. -/
def Db.Answers (db : Db) (message : IncomingDelivery) : Prop :=
  (message.inboxRow.allowed = true ∧ message.inboxRow ∈ db.inbox) ∨
    (∃ revision, message.delivery.policyRevision = some revision ∧ i64Max < revision) ∨
    message.Fits

/-- A validated delivery is answered as the boundary promises, or like a failing store. -/
theorem answer_of_validated (hdelivery : validateDelivery message.delivery = .ok delivery) :
    (db.Answers message → (∃ db', db.ingestDelivery fresh message = .ok db') ∨
      db.ingestDelivery fresh message = .error .duplicateDelivery ∨
      ∃ field, db.ingestDelivery fresh message = .error (.invalidDelivery field)) ∧
    (¬ db.Answers message → db.ingestDelivery fresh message = .error .storageFailed) := by
  rcases governedInputs_of_validated hdelivery with
    ⟨revision, hrevision, hrange, hinputs⟩ | ⟨revision, hrevision, hrange, hinputs⟩
  · have hresult : db.ingestDelivery fresh message
        = .error (.invalidDelivery "policy_revision") := by
      unfold Db.ingestDelivery
      simp only [hdelivery, hinputs]
    exact ⟨fun _ => .inr (.inr ⟨_, hresult⟩),
      fun hno => absurd (.inr (.inl ⟨revision, hrevision, hrange⟩)) hno⟩
  · cases hknown : db.inbox.contains message.inboxRow with
    | false =>
      obtain ⟨hfits, hunfit⟩ := @answer_of_new db message delivery fresh revision hdelivery hinputs
        hknown
      constructor
      · rintro (⟨-, hmem⟩ | ⟨revision', hrevision', hrange'⟩ | hfit)
        · rw [List.contains_iff_mem.mpr hmem] at hknown
          cases hknown
        · obtain rfl := Option.some.inj (hrevision.symm.trans hrevision')
          exact absurd hrange' (Nat.not_lt.mpr hrange)
        · exact .inl (hfits hfit)
      · exact fun hno => hunfit fun hfit => hno (.inr (.inr hfit))
    | true =>
      have hmem : message.inboxRow ∈ db.inbox := List.contains_iff_mem.mp hknown
      by_cases hallowed : message.inboxRow.allowed = true
      · have hresult : db.ingestDelivery fresh message = .error .duplicateDelivery := by
          rw [ingestDelivery_eq hdelivery hinputs, hknown, hallowed]
          rfl
        exact ⟨fun _ => .inr (.inl hresult), fun hno => absurd (.inl ⟨hallowed, hmem⟩) hno⟩
      · have hresult : db.ingestDelivery fresh message = .error .storageFailed := by
          rw [ingestDelivery_eq hdelivery hinputs]
          simp [hallowed]
        refine ⟨?_, fun _ => hresult⟩
        rintro (⟨hallowed', -⟩ | ⟨revision', hrevision', hrange'⟩ | hfit)
        · exact absurd hallowed' hallowed
        · obtain rfl := Option.some.inj (hrevision.symm.trans hrevision')
          exact absurd hrange' (Nat.not_lt.mpr hrange)
        · exact absurd (inboxRow_allowed_iff.mpr ⟨hfit.source, hfit.storable.1⟩) hallowed

/-- A delivery that `validate_delivery` accepts is decided exactly where its slot is taken, where
its revision is out of range, or where every table takes what it carries. -/
theorem boundary_decides_iff (hdelivery : validateDelivery message.delivery = .ok delivery) :
    BoundaryDecides db message ↔
      (message.inboxRow.allowed = true ∧ message.inboxRow ∈ db.inbox) ∨
        (∃ revision, message.delivery.policyRevision = some revision ∧ i64Max < revision) ∨
        message.Fits := by
  show _ ↔ db.Answers message
  constructor
  · intro h
    by_contra hno
    obtain ⟨c, hleads, hloc⟩ := h.decided 0 0
    have hreturned : c.loc.hasReturned = true := by
      rcases hloc with ⟨targetId, hloc⟩ | hloc | ⟨field, hloc⟩ <;> rw [hloc] <;> rfl
    have hanswer := (eq_of_hasReturned hleads hreturned).1
    rw [(answer_of_validated hdelivery).2 hno] at hanswer
    rcases hloc with ⟨targetId, hloc⟩ | hloc | ⟨field, hloc⟩
    · rw [hloc] at hanswer
      cases hanswer
    · rw [hloc] at hanswer
      cases hanswer
    · rw [hloc] at hanswer
      cases hanswer
  · intro hanswers
    constructor
    · intro clock fresh
      obtain ⟨fresh', hanswer⟩ := ingestDelivery_leads db message clock fresh
      refine ⟨_, hanswer, ?_⟩
      rcases (answer_of_validated hdelivery).1 hanswers with
        ⟨db', hok⟩ | hduplicate | ⟨field, hinvalid⟩
      · rw [hok]
        exact .inl ⟨_, rfl⟩
      · rw [hduplicate]
        exact .inr (.inl rfl)
      · rw [hinvalid]
        exact .inr (.inr ⟨field, rfl⟩)
    · intro clock fresh c hleads hreturned hloc
      obtain ⟨hanswer, hdb⟩ := eq_of_hasReturned hleads hreturned
      cases hresult : db.ingestDelivery (fresh + 2) message with
      | ok db' =>
        rw [hresult] at hanswer
        exact absurd hanswer (hloc _)
      | error e =>
        rw [hdb, hresult]
        rfl

end

namespace Vault.Sample

/-- A first delivery whose revision number no row takes. -/
def unnumbered : IncomingDelivery := delivery "git_mirror" 0

end Vault.Sample

open Vault.Sample in
/-- Revision zero is accepted by `validate_delivery` and refused by a row constraint. -/
theorem revision_zero_fails_the_store :
    ¬ ∀ (db : Db) (message : IncomingDelivery) (delivery : ValidatedDelivery),
      validateDelivery message.delivery = .ok delivery → BoundaryDecides db message := by
  intro h
  have hdelivery : validateDelivery unnumbered.delivery = .ok
      { preservationLevel := .gitMirror
        pinned := unnumbered.delivery.pinned
        includeWiki := unnumbered.delivery.includeWiki
        includeReleases := unnumbered.delivery.includeReleases
        includeIssues := unnumbered.delivery.includeIssues
        offsiteRequired := unnumbered.delivery.offsiteRequired
        correlationId := unnumbered.delivery.correlationId
        policyRevision := some 0 } := by
    decide +kernel
  obtain ⟨c, hleads, hloc⟩ := (h {} unnumbered _ hdelivery).decided 0 0
  have hreturned : c.loc.hasReturned = true := by
    rcases hloc with ⟨targetId, hloc⟩ | hloc | ⟨field, hloc⟩ <;> rw [hloc] <;> rfl
  have hanswer := (eq_of_hasReturned hleads hreturned).1
  have hfailed : Db.ingestDelivery {} 2 unnumbered = .error .storageFailed := by
    refine (answer_of_validated hdelivery).2 ?_
    rintro (⟨-, hmem⟩ | ⟨revision, hrevision, hrange⟩ | hfits)
    · cases hmem
    · obtain rfl : 0 = revision := Option.some.inj hrevision
      exact absurd hrange (by decide)
    · exact hfits.policyRevision rfl
  rw [hfailed] at hanswer
  rcases hloc with ⟨targetId, hloc⟩ | hloc | ⟨field, hloc⟩
  · rw [hloc] at hanswer
    cases hanswer
  · rw [hloc] at hanswer
    cases hanswer
  · rw [hloc] at hanswer
    cases hanswer

open Vault.Sample in
theorem boundary_decides_iff_first :
    BoundaryDecides {} (delivery "git_mirror" 1) := by
  refine (boundary_decides_iff rfl).mpr (.inr (.inr ?_))
  exact ⟨by decide, by decide, by decide, by decide, by decide +kernel⟩

end RatatoskrVault
