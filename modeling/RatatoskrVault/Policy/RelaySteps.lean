import RatatoskrVault.Lib.Keys
import RatatoskrVault.Policy.Relay
import RatatoskrVault.Policy.Steps

/-! Everything one step of a relay can do, and what the sessions beside it do to the outbox: rows
are only added, under identifiers of their own. -/
namespace RatatoskrVault.Relay

open Lib

section

variable (settings : Settings) (m : Moment) (o : OutboxDb) (bus : Bus) (input : Input)

/-- The statements of a relay, each its own transaction. -/
inductive RelayAuto : RelayLoc → List OutboxWrite → RelayLoc → Prop
  | nothing : RelayAuto .poll [] .wait
  | due : RelayAuto .poll [] (.rows (o.dueAcknowledgements settings.format m.clock batch) false)
  | published {refused : Bool} {healthy : Option Bool} :
      RelayAuto (.rows [] refused) [] (.reportHealth healthy)
  | mark {row : DueOutboxRow} {todo : List DueOutboxRow} {refused : Bool} :
      RelayAuto (.mark row todo refused) [.markOutboxPublished row.eventId m.clock]
        (.rows todo refused)
  | fail {row : DueOutboxRow} {todo : List DueOutboxRow} :
      RelayAuto (.fail row todo)
        [.recordPublishFailure row.eventId unacknowledged (m.clock + backoff row.attemptCount)]
        (.rows todo true)
  | unchanged : RelayAuto (.reportHealth none) [] .wait
  | woken : RelayAuto .wait [] .poll

/-- The messages a relay sends, and the health it reports. -/
inductive RelayCall : RelayLoc → Bus → RelayLoc → Prop
  | confirmed {row : DueOutboxRow} {todo : List DueOutboxRow} {refused : Bool} {sent : SentMessage}
      (hsent : message settings row .confirmed = .ok sent) :
      RelayCall (.rows (row :: todo) refused) { bus with sent := bus.sent ++ [sent] }
        (.mark row todo refused)
  | unconfirmed {row : DueOutboxRow} {todo : List DueOutboxRow} {refused : Bool}
      {sent : SentMessage} {reply : BrokerReply} (hreply : reply ≠ .confirmed)
      (hsent : message settings row reply = .ok sent) :
      RelayCall (.rows (row :: todo) refused) { bus with sent := bus.sent ++ [sent] }
        (.fail row todo)
  | health {healthy : Bool} :
      RelayCall (.reportHealth (some healthy)) { bus with publishHealthy := some healthy } .wait

end

section

variable {settings : Settings} {m : Moment} {o : OutboxDb} {bus bus' : Bus} {input : Input}
  {at_ next : RelayLoc} {locks : List Lock} {writes : List OutboxWrite}

theorem runRelay_ne_stmt :
    runRelay settings m o bus input at_ ≠ some (.stmt locks writes next) := by
  intro h
  cases at_ with
  | rows todo refused =>
    cases todo with
    | nil => cases h
    | cons row todo =>
      simp only [runRelay, stopRelay] at h
      split at h <;> cases h
  | reportHealth healthy => cases healthy <;> cases h
  | _ =>
    simp only [runRelay, stopRelay] at h
    (repeat' split at h) <;> cases h

theorem runRelay_ne_commit : runRelay settings m o bus input at_ ≠ some (.commit next) := by
  intro h
  cases at_ with
  | rows todo refused =>
    cases todo with
    | nil => cases h
    | cons row todo =>
      simp only [runRelay, stopRelay] at h
      split at h <;> cases h
  | reportHealth healthy => cases healthy <;> cases h
  | _ =>
    simp only [runRelay, stopRelay] at h
    (repeat' split at h) <;> cases h

theorem runRelay_auto (h : runRelay settings m o bus input at_ = some (.auto locks writes next)) :
    locks = [] ∧ RelayAuto settings m o at_ writes next := by
  cases at_ with
  | poll =>
    simp only [runRelay, stopRelay] at h
    split at h
    · cases h
    · split at h
      · cases h
        exact ⟨rfl, .nothing⟩
      · rename_i hdue
        cases h
        exact ⟨rfl, .due⟩
  | rows todo refused =>
    cases todo with
    | nil =>
      cases h
      exact ⟨rfl, .published⟩
    | cons row todo =>
      simp only [runRelay, stopRelay] at h
      split at h <;> cases h
  | mark row todo refused =>
    cases h
    exact ⟨rfl, .mark⟩
  | fail row todo =>
    simp only [runRelay, stopRelay] at h
    split at h
    · cases h
    · cases h
      exact ⟨rfl, .fail⟩
  | reportHealth healthy =>
    cases healthy with
    | none =>
      cases h
      exact ⟨rfl, .unchanged⟩
    | some healthy => cases h
  | wait =>
    simp only [runRelay, stopRelay] at h
    split at h
    · cases h
    · cases h
      exact ⟨rfl, .woken⟩
  | finished error => cases h

theorem runRelay_call (h : runRelay settings m o bus input at_ = some (.call bus' next)) :
    RelayCall settings bus at_ bus' next := by
  cases at_ with
  | rows todo refused =>
    cases todo with
    | nil => cases h
    | cons row todo =>
      simp only [runRelay, stopRelay] at h
      split at h
      · cases h
      · rename_i sent hsent
        cases h
        by_cases hreply : input.reply = .confirmed
        · rw [if_pos hreply]
          rw [hreply] at hsent
          exact .confirmed hsent
        · rw [if_neg hreply]
          exact .unconfirmed hreply hsent
  | reportHealth healthy =>
    cases healthy with
    | none => cases h
    | some healthy =>
      cases h
      exact .health
  | _ =>
    simp only [runRelay, stopRelay] at h
    (repeat' split at h) <;> cases h

theorem runRelay_rollback (h : runRelay settings m o bus input at_ = some (.rollback next)) :
    ∃ e, next = .finished e := by
  cases at_ with
  | rows todo refused =>
    cases todo with
    | nil => cases h
    | cons row todo =>
      simp only [runRelay, stopRelay] at h
      split at h
      · cases h
        exact ⟨_, rfl⟩
      · cases h
  | reportHealth healthy => cases healthy <;> cases h
  | _ =>
    simp only [runRelay, stopRelay] at h
    (repeat' split at h) <;> cases h <;> exact ⟨_, rfl⟩

end

/-- The identifiers of the outbox. -/
def outboxKeys : Keys OutboxDb OutboxWrite where
  table o := o.db.outbox.map (·.eventId)
  added
    | .lane (.insertOutbox row) _ => some row.eventId
    | _ => none

section

variable {settings : Settings} {m : Moment} {db : Db} {locks : List Lock} {writes : List Write}

/-- A statement of the policy lane writes at most one event, under its own identifier. -/
def WritesEvent (m : Moment) (writes : List Write) : Prop :=
  (∀ w ∈ writes, ∀ row, w ≠ .insertOutbox row) ∨
    ∃ event, writes = [.insertOutbox { eventId := m.fresh, event }]

theorem writesEvent_nil : WritesEvent m [] := Or.inl fun _ hw => absurd hw List.not_mem_nil

theorem writesEvent_singleton {w : Write} (h : ∀ row, w ≠ .insertOutbox row) :
    WritesEvent m [w] :=
  Or.inl fun _ hw => List.mem_singleton.mp hw ▸ h

theorem writesEvent_of_transitionStmt {request : TransitionRequest} {at_ next : TransitionLoc}
    (h : TransitionStmt request m db at_ locks writes next) : WritesEvent m writes := by
  cases h with
  | insertEvent => exact Or.inr ⟨_, rfl⟩
  | cancelPlans =>
    refine Or.inl fun w hw row hrow => ?_
    obtain ⟨p, -, hp⟩ := List.mem_map.mp hw
    rw [← hp] at hrow
    cases hrow
  | _ =>
    first
      | exact writesEvent_nil
      | exact writesEvent_singleton fun row hrow => by cases hrow

theorem writesEvent_of_cycleStmt {at_ next : CycleLoc}
    (h : CycleStmt m db at_ locks writes next) : WritesEvent m writes := by
  cases h with
  | enrollEvent => exact Or.inr ⟨_, rfl⟩
  | transition h => exact writesEvent_of_transitionStmt h
  | _ =>
    first
      | exact writesEvent_nil
      | exact writesEvent_singleton fun row hrow => by cases hrow

theorem writesEvent_of_commandStmt {at_ next : CommandLoc}
    (h : CommandStmt m db at_ locks writes next) : WritesEvent m writes := by
  cases h with
  | apply h => exact writesEvent_of_cycleStmt h
  | insertAcknowledgement => exact Or.inr ⟨_, rfl⟩
  | unknown => exact writesEvent_nil
  | insertCommand => exact writesEvent_singleton fun row hrow => by cases hrow

theorem writesEvent_of_policyStmt {at_ next : Policy.Loc}
    (h : Policy.act settings.contracts at_ m db = some (.stmt locks writes next)) :
    WritesEvent m writes := by
  cases at_ with
  | idle => cases h
  | aborted => cases h
  | command at_ =>
    obtain ⟨n, hn, -⟩ := map_eq_stmt h
    exact writesEvent_of_commandStmt (handleCommand_stmt hn)
  | cycle at_ =>
    obtain ⟨n, hn, -⟩ := map_eq_stmt h
    exact writesEvent_of_cycleStmt (runCycle_stmt hn)

/-- What the policy lane commits by itself writes nothing. -/
theorem writes_of_policyAuto {at_ next : Policy.Loc}
    (h : Policy.act settings.contracts at_ m db = some (.auto locks writes next)) : writes = [] := by
  cases at_ with
  | idle => cases h
  | aborted => cases h
  | command at_ =>
    obtain ⟨n, hn, -⟩ := map_eq_auto h
    exact (handleCommand_auto hn).2.1
  | cycle at_ =>
    obtain ⟨n, hn, -⟩ := map_eq_auto h
    exact (runCycle_auto hn).2.1

theorem policy_ne_call {at_ next : Policy.Loc} :
    Policy.act settings.contracts at_ m db ≠ some (.call () next) := by
  intro h
  cases at_ with
  | idle => cases h
  | aborted => cases h
  | command at_ =>
    obtain ⟨n, hn, -⟩ := map_eq_call h
    exact handleCommand_ne_call hn
  | cycle at_ =>
    obtain ⟨n, hn, -⟩ := map_eq_call h
    exact runCycle_ne_call hn

theorem drawn_of_writesEvent {at_ : Time} (h : WritesEvent m writes) :
    outboxKeys.Drawn m.fresh (writes.map fun w => .lane w at_) := by
  rcases h with hnone | ⟨event, rfl⟩
  · refine Or.inl (List.filterMap_eq_nil_iff.mpr fun w hw => ?_)
    obtain ⟨w', hw', rfl⟩ := List.mem_map.mp hw
    cases w' with
    | insertOutbox row => exact absurd rfl (hnone _ hw' row)
    | _ => rfl
  · exact Or.inr rfl

theorem draws_outbox : (machine settings).Draws outboxKeys where
  apply o w := by
    cases w with
    | lane w at_ =>
      cases w with
      | insertOutbox row => simp [outboxKeys, OutboxDb.apply, Db.apply]
      | _ => simp [outboxKeys, OutboxDb.apply, Db.apply]
    | markOutboxPublished eventId at_ =>
      simp only [outboxKeys, OutboxDb.apply]
      split_ifs <;> simp [OutboxDb.setColumns]
    | recordPublishFailure eventId failureClass nextAttemptAt =>
      simp [outboxKeys, OutboxDb.apply, OutboxDb.setColumns]
  stmt := by
    intro loc m o bus input locks writes next h
    cases loc with
    | policy at_ =>
      obtain ⟨ls, ws, n, hn, -, rfl, -⟩ := lift_eq_stmt h
      exact drawn_of_writesEvent (writesEvent_of_policyStmt hn)
    | relay at_ =>
      obtain ⟨n, hn, -⟩ := map_eq_stmt h
      exact absurd hn runRelay_ne_stmt
  auto := by
    intro loc m o bus input locks writes next h
    cases loc with
    | policy at_ =>
      obtain ⟨ls, ws, n, hn, -, rfl, -⟩ := lift_eq_auto h
      rw [writes_of_policyAuto hn]
      exact Or.inl rfl
    | relay at_ =>
      obtain ⟨n, hn, -⟩ := map_eq_auto h
      obtain ⟨-, hauto⟩ := runRelay_auto hn
      cases hauto <;> exact Or.inl rfl
  op := by
    intro o m db bus locks writes h
    obtain ⟨rfl, rfl⟩ := Prod.mk.inj (Option.some.inj h)
    exact Or.inr rfl

end

end RatatoskrVault.Relay
