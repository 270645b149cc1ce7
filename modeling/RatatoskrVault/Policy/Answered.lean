import RatatoskrVault.Lib.Rely
import RatatoskrVault.Policy.ConsumerSteps
import RatatoskrVault.Policy.Relayed

/-! A command is answered once: a message is acknowledged to the broker only when its decision and
the acknowledgement are committed, and all that is published for a command is one message. -/
namespace RatatoskrVault.PolicyBus

open Lib Relay

/-- The outbox row of an acknowledgement. -/
def acknowledgementRow (eventId : Uuid) (payload : PolicyAcknowledged) : OutboxRow :=
  { eventId, event := .policyAcknowledged payload }

/-- The acknowledgement reports the decision of the ledger row. -/
structure Reports (row : PolicyCommand) (payload : PolicyAcknowledged) : Prop where
  causation : payload.causation = row.commandId
  version : payload.acknowledgedPolicyVersion = row.policyVersion
  outcome : payload.outcome = row.outcome
  reasons : payload.reasons = row.rejectionCode.toList

/-- The ledger and the acknowledgements of the outbox report each other, row by row. -/
structure Answered (db : Db) : Prop where
  keys : (db.commands.map (·.commandId)).Nodup
  told : ∀ row ∈ db.commands, ∃ payload,
    acknowledgementRow row.acknowledgementId payload ∈ db.outbox ∧ Reports row payload
  recorded : ∀ eventId payload, acknowledgementRow eventId payload ∈ db.outbox →
    ∃ row ∈ db.commands, row.acknowledgementId = eventId ∧ Reports row payload

/-- The message carries the acknowledgement of the ledger row. -/
def Answers (settings : Settings) (db : Db) (row : PolicyCommand) (sent : SentMessage) : Prop :=
  row ∈ db.commands ∧ ∃ payload, acknowledgementRow row.acknowledgementId payload ∈ db.outbox ∧
    Reports row payload ∧
      Carries settings.relay (acknowledgementRow row.acknowledgementId payload) sent

/-- The message decodes to a command that the ledger holds with its acknowledgement. -/
def IsDurable (settings : Settings) (db : Db) (message : Message) : Prop :=
  ∃ command row payload, decode settings.commands message.payload = .ok command ∧
    row ∈ db.commands ∧ row.commandId = command.commandId ∧
      acknowledgementRow row.acknowledgementId payload ∈ db.outbox ∧ Reports row payload

/-- The write neither decides a command nor acknowledges one. -/
def IsSilent : Write → Bool
  | .insertCommand _ => false
  | .insertOutbox row => row.event.eventType != acknowledgementEventType
  | _ => true

/-- What a transaction has written before it acknowledges. -/
def Silent (log : List OutboxWrite) : Prop :=
  ∀ w ∈ log, ∃ w' at_, w = .lane w' at_ ∧ IsSilent w' = true

section

variable {contracts : Contracts} {m : Moment} {db db' : Db} {o : OutboxDb} {row : PolicyCommand}
  {command : CommandEnvelope} {decision : PolicyDecision} {id : Uuid} {t t' : Time} {w : Write}
  {log : List OutboxWrite} {ws : List Write} {locks : List Lock} {H : Lock → Prop}

theorem reports_commandRow :
    Reports (commandRow command decision id) (decision.payload command.commandId) where
  causation := rfl
  version := rfl
  outcome := rfl
  reasons := by
    unfold PolicyDecision.payload commandRow
    cases decision.rejectionCode <;> rfl

theorem db_lane (o : OutboxDb) (w : Write) (t : Time) :
    (o.apply (.lane w t)).db = o.db.apply w := by
  cases w <;> rfl

theorem policyCommandRecorded_iff {commandId : Uuid} :
    db.policyCommandRecorded commandId = true ↔ ∃ row ∈ db.commands, row.commandId = commandId := by
  simp [Db.policyCommandRecorded]

theorem recorded_mono {commandId : Uuid} (h : ∀ row ∈ db.commands, row ∈ db'.commands)
    (hrecorded : db.policyCommandRecorded commandId = true) :
    db'.policyCommandRecorded commandId = true := by
  obtain ⟨row, hrow, hid⟩ := policyCommandRecorded_iff.mp hrecorded
  exact policyCommandRecorded_iff.mpr ⟨row, h row hrow, hid⟩

theorem unrecorded_mono {commandId : Uuid} (h : ∀ row ∈ db.commands, row ∈ db'.commands)
    (hnew : db'.policyCommandRecorded commandId = false) :
    db.policyCommandRecorded commandId = false := by
  by_contra hrecorded
  rw [Bool.not_eq_false] at hrecorded
  rw [recorded_mono h hrecorded] at hnew
  cases hnew

theorem silent_nil : Silent [] := fun _ hw => absurd hw List.not_mem_nil

theorem Silent.append {log' : List OutboxWrite} (h : Silent log) (h' : Silent log') :
    Silent (log ++ log') := fun w hw => (List.mem_append.mp hw).elim (h w) (h' w)

theorem silent_map (h : ∀ w ∈ ws, IsSilent w = true) :
    Silent (ws.map fun w => .lane w t) := by
  intro w hw
  obtain ⟨w', hw', rfl⟩ := List.mem_map.mp hw
  exact ⟨w', t, rfl, h w' hw'⟩

theorem commands_apply (h : IsSilent w = true) : (db.apply w).commands = db.commands := by
  cases w with
  | insertCommand row => cases h
  | _ => rfl

/-- No write takes a row out of the ledger. -/
theorem commands_foldl (log : List OutboxWrite) (o : OutboxDb) :
    ∀ row ∈ o.db.commands, row ∈ (log.foldl OutboxDb.apply o).db.commands := by
  intro row hrow
  refine foldl_invariant (I := fun d : OutboxDb => row ∈ d.db.commands) (fun d w _ hd => ?_) hrow
  cases w with
  | lane w t =>
    rw [db_lane]
    cases w with
    | insertCommand row' => exact List.mem_append_left _ hd
    | _ => exact hd
  | markOutboxPublished eventId t =>
    rw [db_mark]
    exact hd
  | recordPublishFailure eventId failureClass nextAttemptAt => exact hd

/-- A silent write adds no acknowledgement. -/
theorem acknowledgementRow_of_apply {payload : PolicyAcknowledged} (h : IsSilent w = true)
    (hrow : acknowledgementRow id payload ∈ (db.apply w).outbox) :
    acknowledgementRow id payload ∈ db.outbox := by
  cases w with
  | insertOutbox row =>
    rcases List.mem_append.mp hrow with hold | hnew
    · exact hold
    · obtain rfl := List.mem_singleton.mp hnew
      simp [IsSilent, acknowledgementRow, OutboxEvent.eventType] at h
  | insertCommand row => cases h
  | _ => exact hrow

theorem outbox_apply (row : OutboxRow) (h : row ∈ db.outbox) : row ∈ (db.apply w).outbox := by
  cases w with
  | insertOutbox row' => exact List.mem_append_left _ h
  | _ => exact h

theorem Answered.apply (h : Answered db) (hw : IsSilent w = true) : Answered (db.apply w) where
  keys := by
    rw [commands_apply hw]
    exact h.keys
  told row hrow := by
    rw [commands_apply hw] at hrow
    obtain ⟨payload, hpayload, hreports⟩ := h.told row hrow
    exact ⟨payload, outbox_apply _ hpayload, hreports⟩
  recorded eventId payload hrow := by
    rw [commands_apply hw]
    exact h.recorded eventId payload (acknowledgementRow_of_apply hw hrow)

/-- A transaction that has acknowledged nothing decides nothing. -/
theorem Answered.silent (h : Answered o.db) (hlog : Silent log) :
    Answered (log.foldl OutboxDb.apply o).db ∧
      (log.foldl OutboxDb.apply o).db.commands = o.db.commands := by
  refine foldl_invariant (I := fun d : OutboxDb => Answered d.db ∧ d.db.commands = o.db.commands)
    (fun d w hw hd => ?_) ⟨h, rfl⟩
  obtain ⟨w', t, rfl, hsilent⟩ := hlog w hw
  rw [db_lane, commands_apply hsilent]
  exact ⟨hd.1.apply hsilent, hd.2⟩

/-- The decision and its acknowledgement are committed together. -/
theorem Answered.record (h : Answered db)
    (hnew : db.policyCommandRecorded command.commandId = false) :
    Answered ((db.apply (.insertOutbox
      (acknowledgementRow id (decision.payload command.commandId)))).apply
        (.insertCommand (commandRow command decision id))) where
  keys := by
    show ((db.commands ++ [commandRow command decision id]).map (·.commandId)).Nodup
    rw [List.map_append]
    refine List.Nodup.append h.keys (List.nodup_singleton _) fun commandId hold hadded => ?_
    obtain ⟨row, hrow, rfl⟩ := List.mem_map.mp hold
    have hrecorded : db.policyCommandRecorded command.commandId = true :=
      policyCommandRecorded_iff.mpr ⟨row, hrow, List.mem_singleton.mp hadded⟩
    rw [hnew] at hrecorded
    cases hrecorded
  told row hrow := by
    rcases List.mem_append.mp hrow with hold | hadded
    · obtain ⟨payload, hpayload, hreports⟩ := h.told row hold
      exact ⟨payload, List.mem_append_left _ hpayload, hreports⟩
    · obtain rfl := List.mem_singleton.mp hadded
      exact ⟨_, List.mem_append_right _ (List.mem_singleton.mpr rfl), reports_commandRow⟩
  recorded eventId payload hrow := by
    rcases List.mem_append.mp hrow with hold | hadded
    · obtain ⟨row, hmem, hid, hreports⟩ := h.recorded eventId payload hold
      exact ⟨row, List.mem_append_left _ hmem, hid, hreports⟩
    · have hsame := List.mem_singleton.mp hadded
      simp only [acknowledgementRow, OutboxRow.mk.injEq, OutboxEvent.policyAcknowledged.injEq]
        at hsame
      obtain ⟨rfl, rfl⟩ := hsame
      exact ⟨commandRow command decision eventId,
        List.mem_append_right _ (List.mem_singleton.mpr rfl), rfl, reports_commandRow⟩

/-- The transactions of a cycle are silent. -/
theorem silent_of_transitionStmt {request : TransitionRequest} {at_ next : TransitionLoc}
    (h : TransitionStmt request m db at_ locks ws next) : ∀ w ∈ ws, IsSilent w = true := by
  intro w hw
  cases h with
  | cancelPlans =>
    obtain ⟨p, -, rfl⟩ := List.mem_map.mp hw
    rfl
  | _ => first
    | exact absurd hw List.not_mem_nil
    | (obtain rfl := List.mem_singleton.mp hw; rfl)

theorem silent_of_cycleStmt {at_ next : CycleLoc} (h : CycleStmt m db at_ locks ws next) :
    ∀ w ∈ ws, IsSilent w = true := by
  intro w hw
  cases h with
  | transition h => exact silent_of_transitionStmt h w hw
  | _ => first
    | exact absurd hw List.not_mem_nil
    | (obtain rfl := List.mem_singleton.mp hw; rfl)

end

/-- Where the handler stands before it acknowledges its command. -/
inductive Working (command : CommandEnvelope) : CommandLoc → Prop
  | checkRecorded : Working command (.checkRecorded command)
  | readLastApplied : Working command (.readLastApplied command)
  | readGoverned {lastApplied : ℕ} : Working command (.readGoverned command lastApplied)
  | apply {decision : PolicyDecision} {at_ : CycleLoc} :
      Working command (.apply command decision at_)
  | acknowledge {decision : PolicyDecision} : Working command (.acknowledge command decision)
  | checkKnown {decision : PolicyDecision} :
      Working command (.checkKnown command decision (decision.payload command.commandId))
  | insertAcknowledgement {decision : PolicyDecision} :
      Working command
        (.insertAcknowledgement command decision (decision.payload command.commandId))

abbrev acknowledgementWrite (command : CommandEnvelope) (decision : PolicyDecision) (id : Uuid)
    (t : Time) : OutboxWrite :=
  .lane (.insertOutbox (acknowledgementRow id (decision.payload command.commandId))) t

abbrev decisionWrite (command : CommandEnvelope) (decision : PolicyDecision) (id : Uuid)
    (t : Time) : OutboxWrite :=
  .lane (.insertCommand (commandRow command decision id)) t

/-- What the open transaction of the handler holds: nothing that answers, the acknowledgement, or
both rows of the decision under the key of the command. -/
inductive Handles (db : Db) (H : Lock → Prop) (command : CommandEnvelope) :
    CommandLoc → List OutboxWrite → Prop
  | working {at_ : CommandLoc} {log : List OutboxWrite} (hat : Working command at_)
      (hlog : Silent log) : Handles db H command at_ log
  | acknowledged {decision : PolicyDecision} {id : Uuid} {t : Time} {log : List OutboxWrite}
      (hlog : Silent log) :
      Handles db H command (.insertCommand command decision id)
        (log ++ [acknowledgementWrite command decision id t])
  | recorded {decision : PolicyDecision} {id : Uuid} {t t' : Time} {log : List OutboxWrite}
      (hlog : Silent log) (hkey : H (.commandKey command.commandId))
      (hnew : db.policyCommandRecorded command.commandId = false) :
      Handles db H command (.commit command decision)
        (log ++ [acknowledgementWrite command decision id t] ++
          [decisionWrite command decision id t'])

/-- Where the handler stands after a step: at work, or done without an acknowledgement. -/
def Continues (db : Db) (H : Lock → Prop) (command : CommandEnvelope) (at_ : CommandLoc)
    (log : List OutboxWrite) : Prop :=
  Handles db H command at_ log ∨ ∃ disposition, at_ = .finished disposition ∧ disposition ≠ .ack

section

variable {contracts : Contracts} {m : Moment} {db view : Db} {H : Lock → Prop}
  {command : CommandEnvelope} {decision : PolicyDecision} {at_ next : CommandLoc}
  {log : List OutboxWrite} {ws : List Write} {locks : List Lock}

theorem Handles.mono {db' : Db} {H' : Lock → Prop} (h : Handles db H command at_ log)
    (hH : ∀ l, H l → H' l)
    (hkept : ∀ commandId, H (.commandKey commandId) →
      db.policyCommandRecorded commandId = false → db'.policyCommandRecorded commandId = false) :
    Handles db' H' command at_ log := by
  cases h with
  | working hat hlog => exact .working hat hlog
  | acknowledged hlog => exact .acknowledged hlog
  | recorded hlog hkey hnew => exact .recorded hlog (hH _ hkey) (hkept _ hkey hnew)

theorem ofError_ne_ack (e : VaultError) : Disposition.ofError e ≠ .ack := by
  cases e <;> simp [Disposition.ofError]

theorem continues_resumeCycle {loc : CycleLoc} (hlog : Silent log) :
    Continues db H command (resumeCycle command decision loc) log := by
  cases loc with
  | finished result =>
    cases result with
    | ok report => exact Or.inl (.working .acknowledge hlog)
    | error e => exact Or.inr ⟨_, rfl, ofError_ne_ack e⟩
  | _ => exact Or.inl (.working .apply hlog)

theorem Handles.stmt (h : Handles db H command at_ log)
    (hview : ∀ row ∈ db.commands, row ∈ view.commands)
    (hstmt : CommandStmt m view at_ locks ws next) (t : Time) :
    Continues db (fun l => l ∈ locks ∨ H l) command next
      (log ++ ws.map fun w => .lane w t) := by
  cases h with
  | working hat hlog =>
    cases hstmt with
    | apply hcycle =>
      cases hat
      exact continues_resumeCycle (hlog.append (silent_map (silent_of_cycleStmt hcycle)))
    | unknown hnew =>
      cases hat
      exact Or.inl (.working .insertAcknowledgement (hlog.append silent_nil))
    | insertAcknowledgement =>
      cases hat
      exact Or.inl (.acknowledged hlog)
    | insertCommand hallowed => cases hat
  | acknowledged hlog =>
    cases hstmt with
    | insertCommand hallowed =>
      have hnew : view.policyCommandRecorded command.commandId = false := by
        simp only [Db.commandAllowed, Bool.and_eq_true, Bool.not_eq_true'] at hallowed
        exact hallowed.1.2
      exact Or.inl (.recorded hlog (Or.inl List.mem_cons_self) (unrecorded_mono hview hnew))
  | recorded hlog hkey hnew => cases hstmt

theorem Handles.read (h : Handles db H command at_ log)
    (hread : CommandRead contracts view at_ next) {H' : Lock → Prop} :
    Continues db H' command next [] := by
  cases h with
  | working hat hlog =>
    cases hread with
    | unrecorded => cases hat; exact Or.inl (.working .readLastApplied silent_nil)
    | accepted => cases hat; exact Or.inl (.working .readGoverned silent_nil)
    | rejected => cases hat; exact Or.inl (.working .acknowledge silent_nil)
    | governed => cases hat; exact Or.inl (.working .apply silent_nil)
    | apply => cases hat; exact continues_resumeCycle silent_nil
    | acknowledge hpayload =>
      cases hat
      simp only [acknowledgementEnvelope] at hpayload
      split_ifs at hpayload
      obtain rfl := Option.some.inj hpayload
      exact Or.inl (.working .checkKnown silent_nil)
  | acknowledged hlog => cases hread
  | recorded hlog hkey hnew => cases hread

/-- A handler that drops its transaction goes on, or its command is in the ledger it has read. -/
theorem Handles.rollback (h : Handles db H command at_ log)
    (hrollback : CommandRollback view at_ next) {H' : Lock → Prop} :
    Continues db H' command next [] ∨
      (next = .finished .ack ∧ Silent log ∧
        view.policyCommandRecorded command.commandId = true) := by
  cases hrollback with
  | apply hcycle =>
    cases h with
    | working hat hlog =>
      cases hat
      exact Or.inl (continues_resumeCycle silent_nil)
  | failed => exact Or.inl (Or.inr ⟨_, rfl, ofError_ne_ack _⟩)
  | alreadyRecorded hat hknown =>
    rcases hat with rfl | ⟨decision, payload, rfl⟩
    · cases h with
      | working hworking hlog =>
        cases hworking
        exact Or.inr ⟨rfl, hlog, hknown⟩
    · cases h with
      | working hworking hlog =>
        cases hworking
        exact Or.inr ⟨rfl, hlog, hknown⟩

end

end RatatoskrVault.PolicyBus
