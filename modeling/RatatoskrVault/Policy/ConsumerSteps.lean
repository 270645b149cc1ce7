import RatatoskrVault.Policy.Consumer

/-! Everything one step of a consumer can do, by kind of step, and the identifiers the lane draws
for its outbox. -/
namespace RatatoskrVault.PolicyBus

open Lib Relay

section

variable (settings : Settings) (broker : Broker)

/-- What a consumer asks of the broker: a message, or its settlement. -/
inductive ConsumerCall : ConsumerLoc → Broker → ConsumerLoc → Prop
  | stopped : ConsumerCall .waiting broker (.finished .busLost)
  | undecodable {message : Message} : ConsumerCall .waiting broker (.settling message .term)
  | taken {message : Message} {command : CommandEnvelope}
      (hdecode : decode settings.commands message.payload = .ok command) :
      ConsumerCall .waiting broker (.handling message (.checkRecorded command))
  | unheard {message : Message} {disposition : Disposition} {next : ConsumerLoc}
      (hnext : next = .waiting ∨ next = .finished .busLost) :
      ConsumerCall (.settling message disposition) broker next
  | settled {message : Message} {disposition : Disposition} {next : ConsumerLoc}
      (hnext : next = .waiting ∨ next = .finished .busLost) :
      ConsumerCall (.settling message disposition)
        { broker with settled := broker.settled ++ [{ message, disposition }] } next

end

section

variable {settings : Settings} {m : Moment} {o : OutboxDb} {broker broker' : Broker}
  {input : Input} {at_ next : ConsumerLoc} {locks : List Lock} {writes : List OutboxWrite}
  {message : Message} {action : Action Broker Lock OutboxWrite ConsumerLoc}

/-- What a consumer does without the broker is its handler's. -/
theorem handling_of_runConsumer (h : runConsumer settings m o broker input at_ = some action)
    (hasks : ∀ broker' next, action ≠ .call broker' next) :
    ∃ message loc, at_ = .handling message loc := by
  cases at_ with
  | waiting =>
    simp only [runConsumer] at h
    (repeat' split at h) <;> exact absurd (Option.some.inj h).symm (hasks _ _)
  | handling message loc => exact ⟨message, loc, rfl⟩
  | settling message disposition => exact absurd (Option.some.inj h).symm (hasks _ _)
  | finished error => cases h

/-- The handler's own action, or what an error of the database makes of it. -/
theorem runConsumer_handling {loc : CommandLoc}
    (h : runConsumer settings m o broker input (.handling message loc) = some action) :
    (handleCommand settings.relay.contracts m o.db loc).map
        (Action.lift id (fun w => .lane w m.now) (fun _ => broker) (resume message)) =
        some action ∨
      action = .rollback (.settling message .nak) ∨
        action = .commit (.settling message .nak) ∧
          ∃ n, handleCommand settings.relay.contracts m o.db loc = some (.commit n) := by
  obtain ⟨handled, hhandled, hstorage⟩ := Option.map_eq_some_iff.mp h
  rw [hhandled]
  generalize input.storage = storage at hstorage
  cases storage with
  | answers => exact Or.inl (congrArg some hstorage)
  | fails => exact Or.inr (Or.inl hstorage.symm)
  | answerLost =>
    cases handled with
    | commit n => exact Or.inr (Or.inr ⟨hstorage.symm, n, rfl⟩)
    | _ => exact Or.inr (Or.inl hstorage.symm)

/-- A statement of a consumer is one of its handler. -/
theorem runConsumer_stmt
    (h : runConsumer settings m o broker input at_ = some (.stmt locks writes next)) :
    ∃ message loc ws n, at_ = .handling message loc ∧ CommandStmt m o.db loc locks ws n ∧
      writes = ws.map (fun w => .lane w m.now) ∧ next = resume message n := by
  obtain ⟨message, loc, rfl⟩ := handling_of_runConsumer h fun _ _ => nofun
  rcases runConsumer_handling h with hlift | hnak | ⟨hnak, -⟩
  · obtain ⟨ls, ws, n, hstmt, rfl, rfl, rfl⟩ := lift_eq_stmt hlift
    rw [List.map_id]
    exact ⟨message, loc, ws, n, rfl, handleCommand_stmt hstmt, rfl, rfl⟩
  · cases hnak
  · cases hnak

theorem runConsumer_auto
    (h : runConsumer settings m o broker input at_ = some (.auto locks writes next)) :
    ∃ message loc n, at_ = .handling message loc ∧ writes = [] ∧
      CommandRead settings.relay.contracts o.db loc n ∧ next = resume message n := by
  obtain ⟨message, loc, rfl⟩ := handling_of_runConsumer h fun _ _ => nofun
  rcases runConsumer_handling h with hlift | hnak | ⟨hnak, -⟩
  · obtain ⟨ls, ws, n, hauto, rfl, rfl, rfl⟩ := lift_eq_auto hlift
    obtain ⟨-, rfl, hread⟩ := handleCommand_auto hauto
    exact ⟨message, loc, n, rfl, rfl, hread, rfl⟩
  · cases hnak
  · cases hnak

theorem runConsumer_commit
    (h : runConsumer settings m o broker input at_ = some (.commit next)) :
    ∃ message loc n, at_ = .handling message loc ∧ CommandCommit loc n ∧
      (next = resume message n ∨ next = .settling message .nak) := by
  obtain ⟨message, loc, rfl⟩ := handling_of_runConsumer h fun _ _ => nofun
  rcases runConsumer_handling h with hlift | hnak | ⟨hnak, n, hcommit⟩
  · obtain ⟨n, hcommit, rfl⟩ := lift_eq_commit hlift
    exact ⟨message, loc, n, rfl, handleCommand_commit hcommit, Or.inl rfl⟩
  · cases hnak
  · cases hnak
    exact ⟨message, loc, n, rfl, handleCommand_commit hcommit, Or.inr rfl⟩

theorem runConsumer_rollback
    (h : runConsumer settings m o broker input at_ = some (.rollback next)) :
    ∃ message loc, at_ = .handling message loc ∧
      ((∃ n, CommandRollback o.db loc n ∧ next = resume message n) ∨
        next = .settling message .nak) := by
  obtain ⟨message, loc, rfl⟩ := handling_of_runConsumer h fun _ _ => nofun
  rcases runConsumer_handling h with hlift | hnak | ⟨hnak, -⟩
  · obtain ⟨n, hrollback, rfl⟩ := lift_eq_rollback hlift
    exact ⟨message, loc, rfl, Or.inl ⟨n, handleCommand_rollback hrollback, rfl⟩⟩
  · cases hnak
    exact ⟨message, loc, rfl, Or.inr rfl⟩
  · cases hnak

theorem runConsumer_call
    (h : runConsumer settings m o broker input at_ = some (.call broker' next)) :
    ConsumerCall settings broker at_ broker' next := by
  cases at_ with
  | waiting =>
    simp only [runConsumer] at h
    split at h
    · cases h
      exact .stopped
    · split at h
      · cases h
        exact .stopped
      · split at h
        · cases h
          exact .undecodable
        · rename_i message _ command hdecode
          cases h
          exact .taken hdecode
  | handling message loc =>
    rcases runConsumer_handling h with hlift | hnak | ⟨hnak, -⟩
    · obtain ⟨world, n, hcall, -, -⟩ := lift_eq_call hlift
      exact absurd hcall handleCommand_ne_call
    · cases hnak
    · cases hnak
  | settling message disposition =>
    obtain ⟨rfl, rfl⟩ : _ = broker' ∧ _ = next := by simpa [runConsumer] using h
    split_ifs
    · exact .settled (Or.inr rfl)
    · exact .settled (Or.inl rfl)
    · exact .unheard (Or.inr rfl)
    · exact .unheard (Or.inl rfl)
  | finished error => cases h

/-- Every row of the outbox has an identifier of its own. -/
theorem draws_outbox : (machine settings).Draws outboxKeys where
  apply := (Relay.draws_outbox : (Relay.machine settings.relay).Draws outboxKeys).apply
  stmt := by
    intro loc m o broker input locks writes next h
    cases loc with
    | idle => cases h
    | consumer at_ =>
      obtain ⟨n, hn, -⟩ := map_eq_stmt h
      obtain ⟨message, loc, ws, n, -, hstmt, rfl, -⟩ := runConsumer_stmt hn
      exact drawn_of_writesEvent (writesEvent_of_commandStmt hstmt)
    | relay at_ =>
      obtain ⟨n, hn, -⟩ := embed_eq_stmt h
      exact absurd hn runRelay_ne_stmt
  auto := by
    intro loc m o broker input locks writes next h
    cases loc with
    | idle => cases h
    | consumer at_ =>
      obtain ⟨n, hn, -⟩ := map_eq_auto h
      obtain ⟨message, loc, n, -, rfl, -⟩ := runConsumer_auto hn
      exact Or.inl rfl
    | relay at_ =>
      obtain ⟨n, hn, -⟩ := embed_eq_auto h
      obtain ⟨-, hauto⟩ := runRelay_auto hn
      cases hauto <;> exact Or.inl rfl
  op := by
    intro o m db broker locks writes h
    obtain ⟨rfl, rfl⟩ := Prod.mk.inj (Option.some.inj h)
    exact Or.inr rfl

end

end RatatoskrVault.PolicyBus
