import RatatoskrVault.Persistence.TransitionSteps
import RatatoskrVault.Policy.System

/-! Everything one step of a reconciliation cycle or of a command handler can do, by kind of
step. -/
namespace RatatoskrVault

open Lib

section

variable (m : Moment) (db : Db)

/-- The statements inside a cycle's transactions. -/
inductive CycleStmt : CycleLoc → List Lock → List Write → CycleLoc → Prop
  | claimInbox {job : Ingesting}
      (hnew : (⟨job.message.source, job.message.messageId⟩ : InboxRow) ∉ db.inbox) :
      CycleStmt (.claimInbox job) [.inboxKey job.message.source job.message.messageId]
        [.insertInbox { source := job.message.source, messageId := job.message.messageId }]
        (.insertTarget job)
  | targetKnown {job : Ingesting} {target : Target}
      (htarget : db.repositoryTarget? job.message.provider job.message.externalRepositoryId
        = some target) :
      CycleStmt (.insertTarget job) [] [] (.selectTarget job)
  | insertTarget {job : Ingesting}
      (hnone : db.repositoryTarget? job.message.provider job.message.externalRepositoryId = none) :
      CycleStmt (.insertTarget job)
        [.repositoryKey job.message.provider job.message.externalRepositoryId]
        [.insertTarget
          { targetId := m.fresh
            provider := job.message.provider
            externalRepositoryId := job.message.externalRepositoryId
            status := .requested }]
        (.enrollEvent job m.fresh)
  | enrollEvent {job : Ingesting} {targetId : Uuid} :
      CycleStmt (.enrollEvent job targetId) []
        [.insertOutbox
          { eventId := m.fresh
            event := .stateChanged targetId none .requested job.policyRevision
              job.delivery.correlationId }]
        (.insertRevision job targetId)
  | selectTarget {job : Ingesting} {target : Target}
      (htarget : db.repositoryTarget? job.message.provider job.message.externalRepositoryId
        = some target) :
      CycleStmt (.selectTarget job) [.target target.targetId] []
        (.insertRevision job target.targetId)
  | revisionKnown {job : Ingesting} {targetId : Uuid}
      (hrevision : db.hasRevision targetId job.policyRevision = true) :
      CycleStmt (.insertRevision job targetId) [] [] (.commit job targetId)
  | insertRevision {job : Ingesting} {targetId : Uuid}
      (hrevision : db.hasRevision targetId job.policyRevision = false)
      (hallowed : (revisionRow targetId job.policyRevision job.delivery
        (some job.message.source)).allowed = true) :
      CycleStmt (.insertRevision job targetId) [.revisionKey targetId job.policyRevision]
        [.insertRevision
          (revisionRow targetId job.policyRevision job.delivery (some job.message.source))]
        (.commit job targetId)
  | transition {request : TransitionRequest} {at_ next : TransitionLoc} {items : List WorkItem}
      {rest : Converging} {locks : List Lock} {writes : List Write}
      (h : TransitionStmt request m db at_ locks writes next) :
      CycleStmt (.transition request at_ items rest) locks writes
        (resumeTransition request items rest next)

/-- The reads of a cycle between its transactions. -/
inductive CycleRead : CycleLoc → CycleLoc → Prop
  | ingested {touched : List Uuid} :
      CycleRead (.ingest [] touched)
        ({ todo := touched, report := { proposed := 0, executable := 0 } } : Converging).next
  | validated {message : IncomingDelivery} {todo : List IncomingDelivery} {touched : List Uuid}
      {delivery : ValidatedDelivery} {policyRevision : ℕ}
      (hdelivery : validateDelivery message.delivery = .ok delivery)
      (hinputs : governedInputs delivery = .ok policyRevision) :
      CycleRead (.ingest (message :: todo) touched)
        (.claimInbox { message, delivery, policyRevision, todo, touched })
  | findTarget {message : IncomingDelivery} {todo : List IncomingDelivery} {touched : List Uuid}
      {target : Target}
      (htarget : db.repositoryTarget? message.provider message.externalRepositoryId
        = some target) :
      CycleRead (.findTarget message todo touched)
        (.ingest todo (remember touched target.targetId))
  | ungoverned {targetId : Uuid} {rest : Converging} (hnone : db.governing? targetId = none) :
      CycleRead (.readGoverning targetId rest) rest.next
  | governed {targetId : Uuid} {rest : Converging} {policy : Revision}
      (hpolicy : db.governing? targetId = some policy) :
      CycleRead (.readGoverning targetId rest) (.readObserved targetId (governedRecord policy) rest)
  | observed {targetId : Uuid} {desired : ValidatedDelivery} {rest : Converging} :
      CycleRead (.readObserved targetId desired rest)
        (.items targetId desired (planItems desired ((db.target? targetId).map (·.status)))
          (rest.count (plan desired ((db.target? targetId).map (·.status))).counters))
  | converged {targetId : Uuid} {desired : ValidatedDelivery} {rest : Converging} :
      CycleRead (.items targetId desired [] rest) rest.next
  | exclude {targetId : Uuid} {desired : ValidatedDelivery} {items : List WorkItem}
      {rest : Converging} :
      CycleRead (.items targetId desired (.exclude :: items) rest)
        (.transition { targetId, toStatus := .excluded, governing := desired } .begin items rest)
  | reactivate {targetId : Uuid} {desired : ValidatedDelivery} {items : List WorkItem}
      {rest : Converging} :
      CycleRead (.items targetId desired (.reactivate :: items) rest)
        (.transition { targetId, toStatus := .requested, governing := desired } .begin items rest)
  | counted {targetId : Uuid} {desired : ValidatedDelivery} {item : WorkItem}
      {items : List WorkItem} {rest : Converging} (hexclude : item ≠ .exclude)
      (hreactivate : item ≠ .reactivate) :
      CycleRead (.items targetId desired (item :: items) rest) (.items targetId desired items rest)

/-- The commits of a cycle. -/
inductive CycleCommit : CycleLoc → CycleLoc → Prop
  | ingested {job : Ingesting} {targetId : Uuid} :
      CycleCommit (.commit job targetId) (.ingest job.todo (remember job.touched targetId))
  | transition {request : TransitionRequest} {items : List WorkItem} {rest : Converging} :
      CycleCommit (.transition request .commit items rest)
        (.items request.targetId request.governing items rest)

/-- The transactions a cycle drops: a message seen before, or a failure. -/
inductive CycleRollback : CycleLoc → CycleLoc → Prop
  | duplicate {job : Ingesting}
      (hknown : (⟨job.message.source, job.message.messageId⟩ : InboxRow) ∈ db.inbox) :
      CycleRollback (.claimInbox job) (.findTarget job.message job.todo job.touched)
  | failed {at_ : CycleLoc} {e : VaultError} : CycleRollback at_ (.finished (.error e))

end

section

variable {m : Moment} {db : Db} {at_ next : CycleLoc} {locks : List Lock} {writes : List Write}

theorem runCycle_stmt (h : runCycle m db at_ = some (.stmt locks writes next)) :
    CycleStmt m db at_ locks writes next := by
  cases at_ with
  | ingest todo touched =>
    cases todo with
    | nil => cases h
    | cons message todo =>
      simp only [runCycle, failCycle] at h
      (repeat' split at h) <;> cases h
  | claimInbox job =>
    simp only [runCycle, failCycle] at h
    split_ifs at h with hallowed hknown
    · cases h
    · cases h
    · cases h
      exact .claimInbox (by simpa using hknown)
  | insertTarget job =>
    simp only [runCycle, failCycle] at h
    split_ifs at h with hallowed hknown
    · cases h
    · cases h
      obtain ⟨target, htarget⟩ := Option.isSome_iff_exists.mp hknown
      exact .targetKnown htarget
    · cases h
      exact .insertTarget (by simpa using hknown)
  | enrollEvent job targetId => cases h; exact .enrollEvent
  | selectTarget job =>
    simp only [runCycle, failCycle] at h
    split at h
    · cases h
    · rename_i target htarget
      cases h
      exact .selectTarget htarget
  | insertRevision job targetId =>
    simp only [runCycle, failCycle] at h
    split_ifs at h with hallowed hrevision hfound
    · cases h
    · cases h; exact .revisionKnown hrevision
    · cases h; exact .insertRevision (by simpa using hrevision) (by simpa using hallowed)
    · cases h
  | commit job targetId => cases h
  | findTarget message todo touched =>
    simp only [runCycle, failCycle] at h
    split at h <;> cases h
  | readGoverning targetId rest =>
    simp only [runCycle] at h
    split at h <;> cases h
  | readObserved targetId desired rest => cases h
  | items targetId desired items rest =>
    match items with
    | [] => cases h
    | .exclude :: _ => cases h
    | .reactivate :: _ => cases h
    | .enroll :: _ => cases h
    | .recordRevisionOnly :: _ => cases h
    | .cloneAndFetch :: _ => cases h
    | .snapshot :: _ => cases h
  | transition request loc items rest =>
    obtain ⟨n, hn, rfl⟩ := map_eq_stmt h
    exact .transition (applyTransition_stmt hn)
  | finished result => cases h

theorem runCycle_auto (h : runCycle m db at_ = some (.auto locks writes next)) :
    locks = [] ∧ writes = [] ∧ CycleRead db at_ next := by
  cases at_ with
  | ingest todo touched =>
    cases todo with
    | nil => cases h; exact ⟨rfl, rfl, .ingested⟩
    | cons message todo =>
      simp only [runCycle, failCycle] at h
      split at h
      · cases h
      · rename_i delivery hdelivery
        split at h
        · cases h
        · rename_i policyRevision hinputs
          cases h
          exact ⟨rfl, rfl, .validated hdelivery hinputs⟩
  | claimInbox job =>
    simp only [runCycle, failCycle] at h
    split_ifs at h <;> cases h
  | insertTarget job =>
    simp only [runCycle, failCycle] at h
    split_ifs at h <;> cases h
  | enrollEvent job targetId => cases h
  | selectTarget job =>
    simp only [runCycle, failCycle] at h
    split at h <;> cases h
  | insertRevision job targetId =>
    simp only [runCycle, failCycle] at h
    split_ifs at h <;> cases h
  | commit job targetId => cases h
  | findTarget message todo touched =>
    simp only [runCycle, failCycle] at h
    split at h
    · cases h
    · rename_i target htarget
      cases h
      exact ⟨rfl, rfl, .findTarget htarget⟩
  | readGoverning targetId rest =>
    simp only [runCycle] at h
    split at h
    · rename_i hnone
      cases h
      exact ⟨rfl, rfl, .ungoverned hnone⟩
    · rename_i policy hpolicy
      cases h
      exact ⟨rfl, rfl, .governed hpolicy⟩
  | readObserved targetId desired rest => cases h; exact ⟨rfl, rfl, .observed⟩
  | items targetId desired items rest =>
    match items with
    | [] => cases h; exact ⟨rfl, rfl, .converged⟩
    | .exclude :: _ => cases h; exact ⟨rfl, rfl, .exclude⟩
    | .reactivate :: _ => cases h; exact ⟨rfl, rfl, .reactivate⟩
    | .enroll :: _ => cases h; exact ⟨rfl, rfl, .counted (by simp) (by simp)⟩
    | .recordRevisionOnly :: _ => cases h; exact ⟨rfl, rfl, .counted (by simp) (by simp)⟩
    | .cloneAndFetch :: _ => cases h; exact ⟨rfl, rfl, .counted (by simp) (by simp)⟩
    | .snapshot :: _ => cases h; exact ⟨rfl, rfl, .counted (by simp) (by simp)⟩
  | transition request loc items rest =>
    obtain ⟨n, hn, rfl⟩ := map_eq_auto h
    exact absurd hn applyTransition_ne_auto
  | finished result => cases h

theorem runCycle_commit (h : runCycle m db at_ = some (.commit next)) :
    CycleCommit at_ next := by
  cases at_ with
  | ingest todo touched =>
    cases todo with
    | nil => cases h
    | cons message todo =>
      simp only [runCycle, failCycle] at h
      (repeat' split at h) <;> cases h
  | claimInbox job =>
    simp only [runCycle, failCycle] at h
    split_ifs at h <;> cases h
  | insertTarget job =>
    simp only [runCycle, failCycle] at h
    split_ifs at h <;> cases h
  | enrollEvent job targetId => cases h
  | selectTarget job =>
    simp only [runCycle, failCycle] at h
    split at h <;> cases h
  | insertRevision job targetId =>
    simp only [runCycle, failCycle] at h
    split_ifs at h <;> cases h
  | commit job targetId => cases h; exact .ingested
  | findTarget message todo touched =>
    simp only [runCycle, failCycle] at h
    split at h <;> cases h
  | readGoverning targetId rest =>
    simp only [runCycle] at h
    split at h <;> cases h
  | readObserved targetId desired rest => cases h
  | items targetId desired items rest =>
    match items with
    | [] => cases h
    | .exclude :: _ => cases h
    | .reactivate :: _ => cases h
    | .enroll :: _ => cases h
    | .recordRevisionOnly :: _ => cases h
    | .cloneAndFetch :: _ => cases h
    | .snapshot :: _ => cases h
  | transition request loc items rest =>
    obtain ⟨n, hn, rfl⟩ := map_eq_commit h
    obtain ⟨rfl, rfl⟩ := applyTransition_commit hn
    exact .transition
  | finished result => cases h

theorem runCycle_rollback (h : runCycle m db at_ = some (.rollback next)) :
    CycleRollback db at_ next := by
  cases at_ with
  | ingest todo touched =>
    cases todo with
    | nil => cases h
    | cons message todo =>
      simp only [runCycle, failCycle] at h
      (repeat' split at h) <;> cases h <;> exact .failed
  | claimInbox job =>
    simp only [runCycle, failCycle] at h
    split_ifs at h with hallowed hknown
    · cases h
      exact .failed
    · cases h
      exact .duplicate (by simpa using hknown)
    · cases h
  | insertTarget job =>
    simp only [runCycle, failCycle] at h
    split_ifs at h <;> cases h
    exact .failed
  | enrollEvent job targetId => cases h
  | selectTarget job =>
    simp only [runCycle, failCycle] at h
    split at h <;> cases h
    exact .failed
  | insertRevision job targetId =>
    simp only [runCycle, failCycle] at h
    split_ifs at h <;> cases h <;> exact .failed
  | commit job targetId => cases h
  | findTarget message todo touched =>
    simp only [runCycle, failCycle] at h
    split at h <;> cases h
    exact .failed
  | readGoverning targetId rest =>
    simp only [runCycle] at h
    split at h <;> cases h
  | readObserved targetId desired rest => cases h
  | items targetId desired items rest =>
    match items with
    | [] => cases h
    | .exclude :: _ => cases h
    | .reactivate :: _ => cases h
    | .enroll :: _ => cases h
    | .recordRevisionOnly :: _ => cases h
    | .cloneAndFetch :: _ => cases h
    | .snapshot :: _ => cases h
  | transition request loc items rest =>
    obtain ⟨n, hn, rfl⟩ := map_eq_rollback h
    obtain ⟨e, rfl⟩ := applyTransition_rollback hn
    exact .failed
  | finished result => cases h

theorem runCycle_ne_call : runCycle m db at_ ≠ some (.call () next) := by
  intro h
  cases at_ with
  | ingest todo touched =>
    cases todo with
    | nil => cases h
    | cons message todo =>
      simp only [runCycle, failCycle] at h
      (repeat' split at h) <;> cases h
  | items targetId desired items rest =>
    match items with
    | [] => cases h
    | .exclude :: _ => cases h
    | .reactivate :: _ => cases h
    | .enroll :: _ => cases h
    | .recordRevisionOnly :: _ => cases h
    | .cloneAndFetch :: _ => cases h
    | .snapshot :: _ => cases h
  | transition request loc items rest =>
    obtain ⟨n, hn, rfl⟩ := map_eq_call h
    exact applyTransition_ne_call hn
  | _ =>
    simp only [runCycle, failCycle] at h
    (repeat' split at h) <;> cases h

end

section

variable (contracts : Contracts) (m : Moment) (db : Db)

/-- The statements inside a handler's transactions. -/
inductive CommandStmt : CommandLoc → List Lock → List Write → CommandLoc → Prop
  | apply {command : CommandEnvelope} {decision : PolicyDecision} {at_ next : CycleLoc}
      {locks : List Lock} {writes : List Write} (h : CycleStmt m db at_ locks writes next) :
      CommandStmt (.apply command decision at_) locks writes (resumeCycle command decision next)
  | unknown {command : CommandEnvelope} {decision : PolicyDecision} {payload : PolicyAcknowledged}
      (hnew : db.policyCommandRecorded command.commandId = false) :
      CommandStmt (.checkKnown command decision payload) [] []
        (.insertAcknowledgement command decision payload)
  | insertAcknowledgement {command : CommandEnvelope} {decision : PolicyDecision}
      {payload : PolicyAcknowledged} :
      CommandStmt (.insertAcknowledgement command decision payload) []
        [.insertOutbox { eventId := m.fresh, event := .policyAcknowledged payload }]
        (.insertCommand command decision m.fresh)
  | insertCommand {command : CommandEnvelope} {decision : PolicyDecision}
      {acknowledgementId : Uuid}
      (hallowed : db.commandAllowed (commandRow command decision acknowledgementId) = true) :
      CommandStmt (.insertCommand command decision acknowledgementId)
        (commandKeys (commandRow command decision acknowledgementId))
        [.insertCommand (commandRow command decision acknowledgementId)]
        (.commit command decision)

/-- The reads of a handler between its transactions. -/
inductive CommandRead : CommandLoc → CommandLoc → Prop
  | unrecorded {command : CommandEnvelope}
      (hnew : db.policyCommandRecorded command.commandId = false) :
      CommandRead (.checkRecorded command) (.readLastApplied command)
  | accepted {command : CommandEnvelope}
      (hnewer : db.lastAppliedPolicyVersion < command.policy.policyVersion) :
      CommandRead (.readLastApplied command) (.readGoverned command db.lastAppliedPolicyVersion)
  | rejected {command : CommandEnvelope}
      (hold : command.policy.policyVersion ≤ db.lastAppliedPolicyVersion) :
      CommandRead (.readLastApplied command)
        (.acknowledge command
          (.forVersion command.policy.policyVersion db.lastAppliedPolicyVersion))
  | governed {command : CommandEnvelope} {lastApplied : ℕ} {deliveries : List IncomingDelivery}
      (hrange : command.policy.policyVersion ≤ i64Max)
      (hdeliveries : deliveriesForPolicy contracts command.commandId command.policy lastApplied
        (db.targetsGovernedBefore policySource command.policy.policyVersion) = .ok deliveries) :
      CommandRead (.readGoverned command lastApplied)
        (.apply command (.accepted command.policy.policyVersion lastApplied)
          (.ingest deliveries []))
  | apply {command : CommandEnvelope} {decision : PolicyDecision} {at_ next : CycleLoc}
      (h : CycleRead db at_ next) :
      CommandRead (.apply command decision at_) (resumeCycle command decision next)
  | acknowledge {command : CommandEnvelope} {decision : PolicyDecision}
      {payload : PolicyAcknowledged}
      (hpayload : acknowledgementEnvelope contracts command decision = some payload)
      (hrange : decision.policyVersion ≤ i64Max) :
      CommandRead (.acknowledge command decision) (.checkKnown command decision payload)

/-- The commits of a handler. -/
inductive CommandCommit : CommandLoc → CommandLoc → Prop
  | apply {command : CommandEnvelope} {decision : PolicyDecision} {at_ next : CycleLoc}
      (h : CycleCommit at_ next) :
      CommandCommit (.apply command decision at_) (resumeCycle command decision next)
  | recorded {command : CommandEnvelope} {decision : PolicyDecision} :
      CommandCommit (.commit command decision) (.finished .ack)

/-- The transactions a handler drops: it goes on with its cycle, settles a command that is
recorded, or gives the message back. -/
inductive CommandRollback : CommandLoc → CommandLoc → Prop
  | apply {command : CommandEnvelope} {decision : PolicyDecision} {at_ next : CycleLoc}
      (h : CycleRollback db at_ next) :
      CommandRollback (.apply command decision at_) (resumeCycle command decision next)
  | alreadyRecorded {at_ : CommandLoc} {command : CommandEnvelope}
      (hat : at_ = .checkRecorded command ∨
        ∃ decision payload, at_ = .checkKnown command decision payload)
      (hknown : db.policyCommandRecorded command.commandId = true) :
      CommandRollback at_ (.finished .ack)
  | failed {at_ : CommandLoc} {e : VaultError} : CommandRollback at_ (.finished (.ofError e))

end

section

variable {contracts : Contracts} {m : Moment} {db : Db} {at_ next : CommandLoc}
  {locks : List Lock} {writes : List Write}

theorem handleCommand_stmt
    (h : handleCommand contracts m db at_ = some (.stmt locks writes next)) :
    CommandStmt m db at_ locks writes next := by
  cases at_ with
  | apply command decision loc =>
    obtain ⟨n, hn, rfl⟩ := map_eq_stmt h
    exact .apply (runCycle_stmt hn)
  | checkKnown command decision payload =>
    simp only [handleCommand, settle] at h
    split_ifs at h with hknown
    · cases h
    · cases h; exact .unknown (by simpa using hknown)
  | insertAcknowledgement command decision payload => cases h; exact .insertAcknowledgement
  | insertCommand command decision acknowledgementId =>
    simp only [handleCommand, settle] at h
    split_ifs at h with hallowed
    · cases h; exact .insertCommand hallowed
    · cases h
  | _ =>
    simp only [handleCommand, settle] at h
    (repeat' split at h) <;> cases h

theorem handleCommand_auto
    (h : handleCommand contracts m db at_ = some (.auto locks writes next)) :
    locks = [] ∧ writes = [] ∧ CommandRead contracts db at_ next := by
  cases at_ with
  | checkRecorded command =>
    simp only [handleCommand, settle] at h
    split_ifs at h with hknown
    · cases h
    · cases h; exact ⟨rfl, rfl, .unrecorded (by simpa using hknown)⟩
  | readLastApplied command =>
    simp only [handleCommand, PolicyDecision.forVersion] at h
    split_ifs at h with hnewer
    · cases h; exact ⟨rfl, rfl, .accepted hnewer⟩
    · cases h
      have hread : CommandRead contracts db (.readLastApplied command) _ :=
        .rejected (Nat.le_of_not_lt hnewer)
      simp only [PolicyDecision.forVersion, if_neg hnewer] at hread
      exact ⟨rfl, rfl, hread⟩
  | readGoverned command lastApplied =>
    simp only [handleCommand, settle] at h
    split_ifs at h with hrange
    · cases h
    · split at h
      · cases h
      · rename_i deliveries hdeliveries
        cases h
        exact ⟨rfl, rfl, .governed (Nat.le_of_not_lt hrange) hdeliveries⟩
  | apply command decision loc =>
    obtain ⟨n, hn, rfl⟩ := map_eq_auto h
    obtain ⟨rfl, rfl, hread⟩ := runCycle_auto hn
    exact ⟨rfl, rfl, .apply hread⟩
  | acknowledge command decision =>
    simp only [handleCommand, settle] at h
    split at h
    · cases h
    · rename_i payload hpayload
      split_ifs at h with hrange
      · cases h
      · cases h
        exact ⟨rfl, rfl, .acknowledge hpayload (Nat.le_of_not_lt hrange)⟩
  | _ =>
    simp only [handleCommand, settle] at h
    (repeat' split at h) <;> cases h

theorem handleCommand_commit (h : handleCommand contracts m db at_ = some (.commit next)) :
    CommandCommit at_ next := by
  cases at_ with
  | apply command decision loc =>
    obtain ⟨n, hn, rfl⟩ := map_eq_commit h
    exact .apply (runCycle_commit hn)
  | commit command decision => cases h; exact .recorded
  | _ =>
    simp only [handleCommand, settle] at h
    (repeat' split at h) <;> cases h

theorem handleCommand_rollback (h : handleCommand contracts m db at_ = some (.rollback next)) :
    CommandRollback db at_ next := by
  cases at_ with
  | checkRecorded command =>
    simp only [handleCommand, settle] at h
    split_ifs at h with hknown
    · cases h; exact .alreadyRecorded (Or.inl rfl) hknown
    · cases h
  | apply command decision loc =>
    obtain ⟨n, hn, rfl⟩ := map_eq_rollback h
    exact .apply (runCycle_rollback hn)
  | checkKnown command decision payload =>
    simp only [handleCommand, settle] at h
    split_ifs at h with hknown
    · cases h; exact .alreadyRecorded (Or.inr ⟨decision, payload, rfl⟩) hknown
    · cases h
  | _ =>
    simp only [handleCommand, settle] at h
    (repeat' split at h) <;> cases h <;> exact .failed

theorem handleCommand_ne_call : handleCommand contracts m db at_ ≠ some (.call () next) := by
  intro h
  cases at_ with
  | apply command decision loc =>
    obtain ⟨n, hn, rfl⟩ := map_eq_call h
    exact runCycle_ne_call hn
  | _ =>
    simp only [handleCommand, settle] at h
    (repeat' split at h) <;> cases h

end

end RatatoskrVault
