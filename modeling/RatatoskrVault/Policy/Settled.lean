import RatatoskrVault.Policy.Answered

/-! The lane beside its broker: what the consumers settle is durable, and what the relays publish
is the one answer of the ledger. -/
namespace RatatoskrVault.PolicyBus

open Lib Relay

abbrev LaneShared := Shared OutboxDb Broker

/-- What holds of the tables and of the broker. -/
structure Sound (settings : Settings) (e : LaneShared) : Prop where
  answered : Answered e.db.db
  settled : ∀ settled ∈ e.world.settled, settled.disposition = .ack →
    ∃ command, decode settings.commands settled.message.payload = .ok command ∧
      e.db.db.policyCommandRecorded command.commandId = true
  invented : ∀ sent ∈ e.world.bus.sent, ∃ row,
    IsAcknowledgement e.db row ∧ Carries settings.relay row sent

/-- Rows are only added, and no command whose key a session holds is decided by another. -/
structure Extends (e e' : LaneShared) (H : Lock → Prop) : Prop where
  commands : ∀ row ∈ e.db.db.commands, row ∈ e'.db.db.commands
  outbox : ∀ row ∈ e.db.db.outbox, row ∈ e'.db.db.outbox
  unrecorded : ∀ commandId, H (.commandKey commandId) →
    e.db.db.policyCommandRecorded commandId = false →
      e'.db.db.policyCommandRecorded commandId = false

/-- What a session knows where it stands. -/
inductive Knows (settings : Settings) (e : LaneShared) (H : Lock → Prop) :
    Session OutboxWrite Loc → Prop
  | idle {log : List OutboxWrite} {began : Option ℕ} : Knows settings e H ⟨.idle, log, began⟩
  | waiting {log : List OutboxWrite} {began : Option ℕ} :
      Knows settings e H ⟨.consumer .waiting, log, began⟩
  | finished {error : LaneError} {log : List OutboxWrite} {began : Option ℕ} :
      Knows settings e H ⟨.consumer (.finished error), log, began⟩
  | handling {message : Message} {command : CommandEnvelope} {at_ : CommandLoc}
      {log : List OutboxWrite} {began : Option ℕ}
      (hdecode : decode settings.commands message.payload = .ok command)
      (hat : Handles e.db.db H command at_ log) :
      Knows settings e H ⟨.consumer (.handling message at_), log, began⟩
  | settling {message : Message} {disposition : Disposition} {log : List OutboxWrite}
      {began : Option ℕ}
      (hack : disposition = .ack →
        ∃ command, decode settings.commands message.payload = .ok command ∧
          e.db.db.policyCommandRecorded command.commandId = true) :
      Knows settings e H ⟨.consumer (.settling message disposition), log, began⟩
  | relay {at_ : RelayLoc} {began : Option ℕ}
      (hread : ∀ due ∈ at_.due, ∃ row,
        IsAcknowledgement e.db row ∧ ReadFrom settings.relay row due) :
      Knows settings e H ⟨.relay at_, [], began⟩

section

variable {settings : Settings} {e e' : LaneShared} {H H' : Lock → Prop}
  {σ : Session OutboxWrite Loc} {message : Message} {command : CommandEnvelope}
  {at_ : CommandLoc} {log : List OutboxWrite} {began : Option ℕ} {s s' : State}

theorem Knows.mono (hH : ∀ l, H l → H' l) (h : Knows settings e H σ) : Knows settings e H' σ := by
  cases h with
  | idle => exact .idle
  | waiting => exact .waiting
  | finished => exact .finished
  | handling hdecode hat => exact .handling hdecode (hat.mono hH fun _ _ hnew => hnew)
  | settling hack => exact .settling hack
  | relay hread => exact .relay hread

theorem Knows.stable (hR : Extends e e' H) (h : Knows settings e H σ) : Knows settings e' H σ := by
  cases h with
  | idle => exact .idle
  | waiting => exact .waiting
  | finished => exact .finished
  | handling hdecode hat => exact .handling hdecode (hat.mono (fun _ hl => hl) hR.unrecorded)
  | settling hack =>
    refine .settling fun hdisposition => ?_
    obtain ⟨command, hdecode, hrecorded⟩ := hack hdisposition
    exact ⟨command, hdecode, recorded_mono hR.commands hrecorded⟩
  | relay hread =>
    refine .relay fun due hdue => ?_
    obtain ⟨row, hrow, hfrom⟩ := hread due hdue
    exact ⟨row, isAcknowledgement_mono hR.outbox hrow, hfrom⟩

theorem Sound.extends (hG : Sound settings e) (hR : Extends e e' H)
    (hanswered : Answered e'.db.db) (hworld : e'.world = e.world) : Sound settings e' where
  answered := hanswered
  settled settled hmem hack := by
    rw [hworld] at hmem
    obtain ⟨command, hdecode, hrecorded⟩ := hG.settled settled hmem hack
    exact ⟨command, hdecode, recorded_mono hR.commands hrecorded⟩
  invented sent hsent := by
    rw [hworld] at hsent
    obtain ⟨row, hrow, hcarries⟩ := hG.invented sent hsent
    exact ⟨row, isAcknowledgement_mono hR.outbox hrow, hcarries⟩

/-- A handler that has moved leaves its consumer at work on the message, or settling it without an
acknowledgement. -/
theorem knows_resume (hdecode : decode settings.commands message.payload = .ok command)
    (h : Continues e.db.db H command at_ log) :
    Knows settings e H ⟨.consumer (resume message at_), log, began⟩ := by
  rcases h with hat | ⟨disposition, rfl, hne⟩
  · cases hat with
    | working hat hlog =>
      cases hat <;> exact .handling hdecode (.working (by constructor) hlog)
    | acknowledged hlog => exact .handling hdecode (.acknowledged hlog)
    | recorded hlog hkey hnew => exact .handling hdecode (.recorded hlog hkey hnew)
  · exact .settling fun hack => absurd hack hne

theorem knows_nak : Knows settings e H ⟨.consumer (.settling message .nak), log, began⟩ :=
  .settling fun hack => by cases hack

theorem Knows.handling_inv (h : Knows settings e H σ)
    (hloc : σ.loc = .consumer (.handling message at_)) :
    ∃ command, decode settings.commands message.payload = .ok command ∧
      Handles e.db.db H command at_ σ.log := by
  cases h with
  | handling hdecode hat =>
    cases hloc
    exact ⟨_, hdecode, hat⟩
  | _ => cases hloc

theorem Knows.relay_inv {at_ : RelayLoc} (h : Knows settings e H σ) (hloc : σ.loc = .relay at_) :
    σ.log = [] ∧ ∀ due ∈ at_.due, ∃ row,
      IsAcknowledgement e.db row ∧ ReadFrom settings.relay row due := by
  cases h with
  | relay hread =>
    cases hloc
    exact ⟨rfl, hread⟩
  | _ => cases hloc

/-- The rows the handler's statements read include what is committed. -/
theorem commands_view (s : State) (i : ℕ) :
    ∀ row ∈ s.db.db.commands, row ∈ ((machine settings).view s i).db.commands :=
  commands_foldl (s.session i).log s.db

/-- A commit of a handler: it decides nothing, or it decides the command whose key it holds. -/
theorem Handles.commit {o : OutboxDb} {next : CommandLoc} (h : Handles o.db H command at_ log)
    (H' : Lock → Prop) (hanswered : Answered o.db) (hcommit : CommandCommit at_ next) :
    Answered (log.foldl OutboxDb.apply o).db ∧
      ((log.foldl OutboxDb.apply o).db.commands = o.db.commands ∧
          Continues (log.foldl OutboxDb.apply o).db H' command next [] ∨
        H (.commandKey command.commandId) ∧ next = .finished .ack ∧
          ∃ row, row.commandId = command.commandId ∧
            (log.foldl OutboxDb.apply o).db.commands = o.db.commands ++ [row]) := by
  cases h with
  | working hat hlog =>
    obtain ⟨hdb, hcommands⟩ := hanswered.silent hlog
    cases hcommit with
    | apply hcycle =>
      cases hat
      exact ⟨hdb, Or.inl ⟨hcommands, continues_resumeCycle silent_nil⟩⟩
    | recorded => cases hat
  | acknowledged hlog => cases hcommit
  | recorded hlog hkey hnew =>
    obtain ⟨hdb, hcommands⟩ := hanswered.silent hlog
    cases hcommit with
    | recorded =>
      rename_i decision id t t' pre
      have hreplay : (pre ++ [acknowledgementWrite command decision id t] ++
          [decisionWrite command decision id t']).foldl OutboxDb.apply o
          = ((pre.foldl OutboxDb.apply o).apply (acknowledgementWrite command decision id t)).apply
              (decisionWrite command decision id t') := by
        rw [List.foldl_append, List.foldl_append]
        rfl
      have hstill : (pre.foldl OutboxDb.apply o).db.policyCommandRecorded command.commandId
          = false := by
        unfold Db.policyCommandRecorded at hnew ⊢
        rw [hcommands]
        exact hnew
      rw [hreplay, db_lane, db_lane]
      refine ⟨hdb.record hstill, Or.inr ⟨hkey, rfl, commandRow command decision id, rfl, ?_⟩⟩
      show (pre.foldl OutboxDb.apply o).db.commands ++ [commandRow command decision id] = _
      rw [hcommands]

theorem extends_of_db (hdb : e'.db.db = e.db.db) : Extends e e' H :=
  ⟨fun _ hrow => hdb ▸ hrow, fun _ hrow => hdb ▸ hrow, fun _ _ hnew => hdb ▸ hnew⟩

/-- The relays' statements change their own columns only. -/
theorem db_of_relayAuto {m : Moment} {o : OutboxDb} {at_ next : RelayLoc}
    {writes : List OutboxWrite} (h : RelayAuto settings.relay m o at_ writes next) :
    (writes.foldl OutboxDb.apply o).db = o.db := by
  cases h with
  | mark => exact db_mark ..
  | _ => rfl

theorem read_of_relayAuto {m : Moment} {o : OutboxDb} {at_ next : RelayLoc}
    {writes : List OutboxWrite} (h : RelayAuto settings.relay m o at_ writes next)
    (hread : ∀ due ∈ at_.due, ∃ row, IsAcknowledgement o row ∧ ReadFrom settings.relay row due) :
    ∀ due ∈ next.due, ∃ row, IsAcknowledgement o row ∧ ReadFrom settings.relay row due := by
  intro due hdue
  cases h with
  | due => exact mem_dueAcknowledgements hdue
  | mark => exact hread due (List.mem_cons_of_mem _ hdue)
  | fail => exact hread due (List.mem_cons_of_mem _ hdue)
  | _ => exact absurd hdue List.not_mem_nil

/-- A message that is sent carries a row that was read; the rows left are those read before. -/
theorem relay_called {o : OutboxDb} {bus bus' : Bus} {at_ next : RelayLoc}
    (h : RelayCall settings.relay bus at_ bus' next)
    (hread : ∀ due ∈ at_.due, ∃ row, IsAcknowledgement o row ∧ ReadFrom settings.relay row due) :
    (∀ due ∈ next.due, due ∈ at_.due) ∧ ∀ sent ∈ bus'.sent, sent ∈ bus.sent ∨
      ∃ row, IsAcknowledgement o row ∧ Carries settings.relay row sent := by
  have hcarried : ∀ {due : DueOutboxRow} {sent : SentMessage} {reply : BrokerReply},
      due ∈ at_.due → message settings.relay due reply = .ok sent →
      ∀ sent' ∈ bus.sent ++ [sent], sent' ∈ bus.sent ∨
        ∃ row, IsAcknowledgement o row ∧ Carries settings.relay row sent' := by
    intro due sent reply hdue hsent sent' hmem
    rcases List.mem_append.mp hmem with hold | hnew
    · exact Or.inl hold
    · obtain rfl := List.mem_singleton.mp hnew
      obtain ⟨row, hrow, hfrom⟩ := hread due hdue
      exact Or.inr ⟨row, hrow, (carries_of_message hfrom hsent).1⟩
  cases h with
  | confirmed hsent => exact ⟨fun _ hdue => hdue, hcarried List.mem_cons_self hsent⟩
  | unconfirmed _ hsent => exact ⟨fun _ hdue => hdue, hcarried List.mem_cons_self hsent⟩
  | health => exact ⟨fun _ hdue => absurd hdue List.not_mem_nil, fun _ hsent => Or.inl hsent⟩

/-- What the consumers ask of the broker, and what they know afterwards. -/
theorem sound_consumerCall {broker' : Broker} {loc next : ConsumerLoc} (e₁ : LaneShared)
    (hG : Sound settings e) (hσ : Knows settings e H ⟨.consumer loc, log, began⟩)
    (hcall : ConsumerCall settings e.world loc broker' next) (hdb : e₁.db = e.db)
    (hworld : e₁.world = broker') :
    Sound settings e₁ ∧ Knows settings e₁ (fun _ => False) ⟨.consumer next, [], none⟩ := by
  have hsame : broker' = e.world → Sound settings e₁ := fun hbroker =>
    hG.extends (H := fun _ => False) (extends_of_db (congrArg OutboxDb.db hdb))
      (hdb ▸ hG.answered) (hworld.trans hbroker)
  have hended : ∀ {next : ConsumerLoc}, next = .waiting ∨ next = .finished .busLost →
      Knows settings e₁ (fun _ => False) ⟨.consumer next, [], none⟩ := by
    rintro next (rfl | rfl)
    · exact .waiting
    · exact .finished
  cases hcall with
  | stopped => exact ⟨hsame rfl, .finished⟩
  | undecodable => exact ⟨hsame rfl, .settling fun hack => by cases hack⟩
  | taken hdecode => exact ⟨hsame rfl, .handling hdecode (.working .checkRecorded silent_nil)⟩
  | unheard hnext => exact ⟨hsame rfl, hended hnext⟩
  | settled hnext =>
    refine ⟨⟨hdb ▸ hG.answered, fun settled hmem hack => ?_, fun sent hsent => ?_⟩, hended hnext⟩
    · rw [hdb]
      rw [hworld] at hmem
      rcases List.mem_append.mp hmem with hold | hnew
      · exact hG.settled settled hold hack
      · obtain rfl := List.mem_singleton.mp hnew
        cases hσ with
        | settling hknown => exact hknown hack
    · rw [hdb]
      rw [hworld] at hsent
      exact hG.invented sent hsent

/-- After a commit the other sessions rely on what they knew: the only command that is decided is
the one whose key the committing session holds. -/
theorem extends_of_commit {i j : ℕ} {e' : LaneShared}
    (hexclusive : ∀ l i j, s.holds i l → s.holds j l → i = j) (hji : j ≠ i)
    (hdb : e'.db = (s.session i).log.foldl OutboxDb.apply s.db)
    (hcommands : e'.db.db.commands = s.db.db.commands ∨
      s.holds i (.commandKey command.commandId) ∧
        ∃ row, row.commandId = command.commandId ∧
          e'.db.db.commands = s.db.db.commands ++ [row]) :
    Extends s.shared e' (s.holds j) where
  commands row hrow := by
    rw [hdb]
    exact commands_foldl _ _ row hrow
  outbox row hrow := by
    rw [hdb]
    exact outbox_foldl _ _ row hrow
  unrecorded commandId hkey hnew := by
    have hnone : (s.db.db.commands.any fun row => row.commandId == commandId) = false := hnew
    unfold Db.policyCommandRecorded
    rcases hcommands with hsame | ⟨hheld, row, hid, hadded⟩
    · rw [hsame]
      exact hnone
    · have hne : row.commandId ≠ commandId := by
        intro heq
        rw [← heq, hid] at hkey
        exact hji (hexclusive _ j i hkey hheld)
      rw [hadded, List.any_append, hnone]
      simpa using hne

/-- A statement of a relay. -/
theorem lane_relayAuto {m : Moment} {at_ next : RelayLoc} {writes : List OutboxWrite}
    (hG : Sound settings s.shared)
    (hread : ∀ due ∈ at_.due, ∃ row, IsAcknowledgement s.db row ∧ ReadFrom settings.relay row due)
    (hauto : RelayAuto settings.relay m s.db at_ writes next) :
    let e' : LaneShared := { s.shared.used with db := writes.foldl OutboxDb.apply s.db }
    Sound settings e' ∧ (∀ H, Extends s.shared e' H) ∧
      Knows settings e' (fun _ => False) ⟨.relay next, [], none⟩ := by
  have hdb : (writes.foldl OutboxDb.apply s.db).db = s.db.db := db_of_relayAuto hauto
  have hanswered : Answered (writes.foldl OutboxDb.apply s.db).db := by
    rw [hdb]
    exact hG.answered
  have hextends : ∀ H, Extends s.shared
      { s.shared.used with db := writes.foldl OutboxDb.apply s.db } H := fun _ => extends_of_db hdb
  refine ⟨hG.extends (hextends fun _ => False) hanswered rfl, hextends, .relay fun due hdue => ?_⟩
  obtain ⟨row, hrow, hfrom⟩ := read_of_relayAuto hauto hread due hdue
  exact ⟨row, isAcknowledgement_mono (fun row hrow => hdb ▸ hrow) hrow, hfrom⟩

/-- A commit of a consumer's handler. -/
theorem lane_consumerCommit {i : ℕ} {n : CommandLoc} {next : ConsumerLoc}
    (h : Machine.Beside (Sound settings) (Knows settings) s)
    (hloc : (s.session i).loc = .consumer (.handling message at_)) (hcommit : CommandCommit at_ n)
    (hnext : next = resume message n ∨ next = .settling message .nak) :
    let e' : LaneShared := { s.shared with db := (machine settings).view s i }
    Sound settings e' ∧ (∀ j, j ≠ i → Extends s.shared e' (s.holds j)) ∧
      Knows settings e' (fun _ => False) ⟨.consumer next, [], none⟩ := by
  obtain ⟨command, hdecode, hat⟩ := (h.sessions i).handling_inv hloc
  obtain ⟨hanswered, hcommands⟩ := hat.commit (fun _ => False) h.shared.answered hcommit
  have hothers : ∀ j, j ≠ i → Extends s.shared
      { s.shared with db := (machine settings).view s i } (s.holds j) := fun j hji =>
    extends_of_commit h.exclusive hji rfl
      (hcommands.imp (fun hc => hc.1) fun hc => ⟨hc.1, hc.2.2⟩)
  have hgrown : Extends s.shared
      { s.shared with db := (machine settings).view s i } (fun _ => False) :=
    ⟨commands_view s i, outbox_foldl (s.session i).log s.db, fun _ hfalse => hfalse.elim⟩
  refine ⟨h.shared.extends hgrown hanswered rfl, hothers, ?_⟩
  rcases hnext with rfl | rfl
  · rcases hcommands with ⟨-, hcontinues⟩ | ⟨-, rfl, row, hid, hadded⟩
    · exact knows_resume hdecode hcontinues
    · have hrow : row ∈ ((s.session i).log.foldl OutboxDb.apply s.shared.db).db.commands := by
        rw [hadded]
        exact List.mem_append_right _ (List.mem_singleton.mpr rfl)
      exact .settling fun _ => ⟨command, hdecode, policyCommandRecorded_iff.mpr ⟨row, hrow, hid⟩⟩
  · exact knows_nak

/-- A transaction that a consumer's handler drops. -/
theorem lane_consumerRollback {i : ℕ} {n : CommandLoc}
    (h : Machine.Beside (Sound settings) (Knows settings) s)
    (hloc : (s.session i).loc = .consumer (.handling message at_))
    (hrollback : CommandRollback ((machine settings).view s i).db at_ n) :
    Knows settings s.shared (fun _ => False) ⟨.consumer (resume message n), [], none⟩ := by
  obtain ⟨command, hdecode, hat⟩ := (h.sessions i).handling_inv hloc
  rcases hat.rollback hrollback with hcontinues | ⟨rfl, hsilent, hknown⟩
  · exact knows_resume hdecode hcontinues
  · have hcommands := (h.shared.answered.silent hsilent).2
    have hrecorded : s.shared.db.db.policyCommandRecorded command.commandId = true := by
      unfold Db.policyCommandRecorded at hknown ⊢
      rw [← hcommands]
      exact hknown
    exact .settling fun _ => ⟨command, hdecode, hrecorded⟩

/-- Any number of consumers and relays, one step of any of them. -/
theorem lane_step : ∀ s l s', Machine.Beside (Sound settings) (Knows settings) s → True →
    (machine settings).step s l = some s' →
      Machine.Beside (Sound settings) (Knows settings) s' := by
  have hkept : ∀ {e e' : LaneShared} {H : Lock → Prop}, e'.db = e.db → Extends e e' H :=
    fun hdb => extends_of_db (congrArg OutboxDb.db hdb)
  have hview : ∀ {s : State} {i : ℕ}, (s.session i).log = [] →
      (machine settings).view s i = s.db := by
    intro s i hlog
    unfold Machine.view
    rw [hlog]
    rfl
  refine Machine.Beside.step (R := fun e e' H _ => Extends e e' H)
    (fun _ _ _ _ hH h => h.mono hH) (fun _ _ _ _ hR h => h.stable hR) (fun _ _ _ => hkept rfl)
    (fun _ _ _ _ => hkept rfl) (fun _ h => ⟨h.answered, h.settled, h.invented⟩)
    (fun _ _ h => ⟨h.answered, h.settled, h.invented⟩) (fun _ => .idle) ?_ ?_ ?_ ?_ ?_ ?_ ?_
  · intro s i proc _ _
    cases proc with
    | consumer => exact .waiting
    | relay => exact .relay fun _ hdue => absurd hdue List.not_mem_nil
  · intro s i input locks writes next h _ hact _
    cases hloc : (s.session i).loc with
    | idle =>
      rw [hloc] at hact
      cases hact
    | consumer at_ =>
      rw [hloc] at hact
      obtain ⟨n, hn, rfl⟩ := map_eq_stmt hact
      obtain ⟨message, loc, ws, n', rfl, hstmt, rfl, rfl⟩ := runConsumer_stmt hn
      obtain ⟨command, hdecode, hat⟩ := (h.sessions i).handling_inv hloc
      exact knows_resume hdecode (hat.stmt (commands_view s i) hstmt _)
    | relay at_ =>
      rw [hloc] at hact
      obtain ⟨n, hn, -⟩ := embed_eq_stmt hact
      exact absurd hn runRelay_ne_stmt
  · intro s i input locks writes next h _ hact _
    cases hloc : (s.session i).loc with
    | idle =>
      rw [hloc] at hact
      cases hact
    | consumer at_ =>
      rw [hloc] at hact
      obtain ⟨n, hn, rfl⟩ := map_eq_auto hact
      obtain ⟨message, loc, n', rfl, rfl, hread, rfl⟩ := runConsumer_auto hn
      obtain ⟨command, hdecode, hat⟩ := (h.sessions i).handling_inv hloc
      exact ⟨h.shared.extends (H := fun _ => False) (hkept rfl) h.shared.answered rfl,
        fun j _ => hkept rfl, knows_resume hdecode (hat.read hread)⟩
    | relay at_ =>
      obtain ⟨hlog, hread⟩ := (h.sessions i).relay_inv hloc
      rw [hloc, hview hlog] at hact
      obtain ⟨n, hn, rfl⟩ := embed_eq_auto hact
      obtain ⟨hG, hothers, hknows⟩ := lane_relayAuto h.shared hread (runRelay_auto hn).2
      exact ⟨hG, fun j _ => hothers _, hknows⟩
  · intro s i input next h _ hact
    cases hloc : (s.session i).loc with
    | idle =>
      rw [hloc] at hact
      cases hact
    | consumer at_ =>
      rw [hloc] at hact
      obtain ⟨n, hn, rfl⟩ := map_eq_commit hact
      obtain ⟨message, loc, n', rfl, hcommit, hnext⟩ := runConsumer_commit hn
      exact lane_consumerCommit h hloc hcommit hnext
    | relay at_ =>
      rw [hloc] at hact
      obtain ⟨n, hn, -⟩ := embed_eq_commit hact
      exact absurd hn runRelay_ne_commit
  · intro s i input next h _ hact
    cases hloc : (s.session i).loc with
    | idle =>
      rw [hloc] at hact
      cases hact
    | consumer at_ =>
      rw [hloc] at hact
      obtain ⟨n, hn, rfl⟩ := map_eq_rollback hact
      obtain ⟨message, loc, rfl, ⟨n', hrollback, rfl⟩ | rfl⟩ := runConsumer_rollback hn
      · exact lane_consumerRollback h hloc hrollback
      · exact knows_nak
    | relay at_ =>
      rw [hloc] at hact
      obtain ⟨n, hn, rfl⟩ := embed_eq_rollback hact
      obtain ⟨error, rfl⟩ := runRelay_rollback hn
      exact .relay fun _ hdue => absurd hdue List.not_mem_nil
  · intro s i input world next h _ hact
    cases hloc : (s.session i).loc with
    | idle =>
      rw [hloc] at hact
      cases hact
    | consumer at_ =>
      rw [hloc] at hact
      obtain ⟨n, hn, rfl⟩ := map_eq_call hact
      have hσ := h.sessions i
      rw [show s.session i = ⟨.consumer at_, (s.session i).log, (s.session i).began⟩ by
        rw [← hloc]] at hσ
      obtain ⟨hG, hS⟩ := sound_consumerCall { s.shared.used with world := world } h.shared hσ
        (runConsumer_call hn) rfl rfl
      exact ⟨hG, fun j _ => hkept rfl, hS⟩
    | relay at_ =>
      obtain ⟨hlog, hread⟩ := (h.sessions i).relay_inv hloc
      rw [hloc] at hact
      obtain ⟨bus, n, hn, rfl, rfl⟩ := embed_eq_call hact
      obtain ⟨hleft, hsent⟩ := relay_called (runRelay_call hn) hread
      refine ⟨⟨h.shared.answered, h.shared.settled, fun sent hmem => ?_⟩, fun j _ => hkept rfl,
        .relay fun due hdue => hread due (hleft due hdue)⟩
      exact (hsent sent hmem).elim (h.shared.invented sent) id
  · intro s o locks writes h _ hop _
    obtain ⟨-, rfl⟩ := Prod.mk.inj (Option.some.inj hop)
    have hsilent : IsSilent (.insertOutbox { eventId := s.fresh, event := o.event }) = true := by
      cases o <;> rfl
    have hextends : ∀ {H : Lock → Prop}, Extends s.shared
        { s.shared.used with
          db := s.db.apply
            (.lane (.insertOutbox { eventId := s.fresh, event := o.event }) s.clock) }
        H := fun {H} => ⟨fun _ hrow => hrow, fun _ hrow => List.mem_append_left _ hrow,
          fun _ _ hnew => hnew⟩
    exact ⟨h.shared.extends (H := fun _ => False) hextends (h.shared.answered.apply hsilent) rfl,
      fun j => hextends⟩

/-- Every run keeps what holds of the lane. -/
theorem lane_of_reach {db : Db} {createdAt : Uuid → Time} {clock fresh : ℕ} (hdb : Answered db)
    (hreach : Reach (machine settings).step (fun _ _ => True)
      (initial db createdAt clock fresh) s) :
    Machine.Beside (Sound settings) (Knows settings) s := by
  have hstart : Machine.Beside (Sound settings) (Knows settings)
      (initial db createdAt clock fresh) := by
    constructor
    case shared =>
      exact ⟨hdb, fun _ hmem => absurd hmem List.not_mem_nil,
        fun _ hmem => absurd hmem List.not_mem_nil⟩
    case sessions => exact fun _ => .idle
    case exclusive => exact fun _ _ _ hheld => absurd hheld List.not_mem_nil
  exact hreach.invariant hstart lane_step

theorem keyed_of_reach {db : Db} {createdAt : Uuid → Time} {clock fresh : ℕ}
    (hids : (db.outbox.map (·.eventId)).Nodup) (hbelow : ∀ row ∈ db.outbox, row.eventId < fresh)
    (hreach : Reach (machine settings).step (fun _ _ => True)
      (initial db createdAt clock fresh) s) : Keyed outboxKeys s := by
  have hstart : Keyed outboxKeys (initial db createdAt clock fresh) := by
    refine ⟨fun k hk => ?_, hids, ?_, ?_, ?_, ?_⟩
    · obtain ⟨row, hrow, rfl⟩ := List.mem_map.mp hk
      exact hbelow row hrow
    all_goals simp [Keys.pending, Keys.addedBy, initial]
  exact hreach.invariant hstart fun s l s' hs _ hstep => Keyed.step draws_outbox s l s' hs hstep

/-- A recorded command has its row and its acknowledgement. -/
theorem Answered.durable {db : Db} (h : Answered db)
    (hdecode : decode settings.commands message.payload = .ok command)
    (hrecorded : db.policyCommandRecorded command.commandId = true) :
    IsDurable settings db message := by
  obtain ⟨row, hrow, hid⟩ := policyCommandRecorded_iff.mp hrecorded
  obtain ⟨payload, hpayload, hreports⟩ := h.told row hrow
  exact ⟨command, row, payload, hdecode, hrow, hid, hpayload, hreports⟩

/-- In every run of any number of consumers and relays, with redeliveries, failing and lost
statements, lost connections and crashes, a message the broker has heard `Ack` for is decided, and
its decision is committed with the acknowledgement that reports it. -/
theorem settled_is_durable {db : Db} {createdAt : Uuid → Time} {clock fresh : ℕ}
    (hdb : Answered db)
    (hreach : Reach (machine settings).step (fun _ _ => True)
      (initial db createdAt clock fresh) s) :
    ∀ settled ∈ s.world.settled, settled.disposition = .ack →
      IsDurable settings s.db.db settled.message := by
  intro settled hmem hack
  have hlane := lane_of_reach hdb hreach
  obtain ⟨command, hdecode, hrecorded⟩ := hlane.shared.settled settled hmem hack
  exact hlane.shared.answered.durable hdecode hrecorded

/-- Two acknowledgements of one ledger row under one identifier are one row of the outbox. -/
theorem payload_of_row {eventId : Uuid} {payload payload' : PolicyAcknowledged}
    (hkeyed : Keyed outboxKeys s) (h : acknowledgementRow eventId payload ∈ s.db.db.outbox)
    (h' : acknowledgementRow eventId payload' ∈ s.db.db.outbox) : payload' = payload := by
  have hrows : acknowledgementRow eventId payload' = acknowledgementRow eventId payload :=
    List.inj_on_of_nodup_map hkeyed.nodup h' h rfl
  simpa [acknowledgementRow] using hrows

theorem sent_of_carries {row : OutboxRow} {sent sent' : SentMessage}
    (h : Carries settings.relay row sent) (h' : Carries settings.relay row sent') :
    sent'.natsMsgId = sent.natsMsgId ∧ sent'.body = sent.body := by
  obtain ⟨envelope, hvalue, -, hbody⟩ := h.body
  obtain ⟨envelope', hvalue', -, hbody'⟩ := h'.body
  have henvelope : envelope' = envelope := Option.some.inj (hvalue'.symm.trans hvalue)
  rw [henvelope] at hbody'
  exact ⟨h'.natsMsgId.trans h.natsMsgId.symm, Option.some.inj (hbody'.symm.trans hbody)⟩

/-- In every such run, what is published answers a decided command as the ledger has it, and all
that is published for one command is one message. -/
theorem answered_once {db : Db} {createdAt : Uuid → Time} {clock fresh : ℕ} (hdb : Answered db)
    (hids : (db.outbox.map (·.eventId)).Nodup) (hbelow : ∀ row ∈ db.outbox, row.eventId < fresh)
    (hreach : Reach (machine settings).step (fun _ _ => True)
      (initial db createdAt clock fresh) s) :
    (∀ sent ∈ s.world.bus.sent, ∃ row, Answers settings s.db.db row sent) ∧
      ∀ sent ∈ s.world.bus.sent, ∀ sent' ∈ s.world.bus.sent, ∀ row row',
        Answers settings s.db.db row sent → Answers settings s.db.db row' sent' →
          row'.commandId = row.commandId →
            sent'.natsMsgId = sent.natsMsgId ∧ sent'.body = sent.body := by
  have hlane := lane_of_reach hdb hreach
  have hkeyed := keyed_of_reach hids hbelow hreach
  have hanswered := hlane.shared.answered
  constructor
  · intro sent hsent
    obtain ⟨⟨eventId, event⟩, ⟨hrow, htype⟩, hcarries⟩ := hlane.shared.invented sent hsent
    cases event with
    | policyAcknowledged payload =>
      obtain ⟨command, hcommand, rfl, hreports⟩ := hanswered.recorded eventId payload hrow
      exact ⟨command, hcommand, payload, hrow, hreports, hcarries⟩
    | _ =>
      simp only [OutboxEvent.eventType, acknowledgementEventType] at htype
      exact absurd htype (by decide)
  · rintro sent - sent' - row row' ⟨hrow, payload, hpayload, -, hcarries⟩
      ⟨hrow', payload', hpayload', -, hcarries'⟩ hid
    have hsame : row' = row := List.inj_on_of_nodup_map hanswered.keys hrow' hrow hid
    rw [hsame] at hpayload' hcarries'
    rw [payload_of_row hkeyed hpayload hpayload'] at hcarries'
    exact sent_of_carries hcarries hcarries'

end

namespace Sample

/-- One byte is a command, and everything else is not. -/
def settings : Settings :=
  { relay := Relay.Sample.settings
    commands :=
      { commandType := "apply_requested"
        fromJson := fun payload =>
          if payload = [1] then
            some
              { commandType := "apply_requested"
                producer
                tenantId := none
                commandId := 1
                payload := some { policyVersion := 1, repositories := [] } }
          else none } }

def message : Message := { sequence := 1, payload := [1] }

/-- Two consumers get the same message: the first loses the answer to its commit and gives the
message back, the second finds the command decided. Two relays send the acknowledgement. -/
def redeliveredRun : List Label :=
  .start 0 .consumer :: .start 1 .consumer :: .start 2 .relay :: .start 3 .relay ::
    List.replicate 9 (.exec 0 { received := some message }) ++
    [.exec 0 { storage := .answerLost }, .exec 0 {}] ++
    List.replicate 3 (.exec 1 { received := some message }) ++
    List.replicate 2 (.exec 2 {}) ++ List.replicate 2 (.exec 3 {})

theorem answered_empty : Answered {} where
  keys := List.nodup_nil
  told _ hrow := absurd hrow List.not_mem_nil
  recorded _ _ hrow := absurd hrow List.not_mem_nil

theorem redelivered :
    ∃ s : State, Reach (machine settings).step (fun _ _ => True) (initial {} (fun _ => 0) 0 0) s ∧
      ({ message, disposition := .ack } : Settled) ∈ s.world.settled ∧
        s.world.bus.sent.length = 2 := by
  obtain ⟨s, hrun, hs⟩ : ∃ s, run (machine settings).step (initial {} (fun _ => 0) 0 0)
      redeliveredRun = some s ∧
        (decide (({ message, disposition := .ack } : Settled) ∈ s.world.settled) &&
          s.world.bus.sent.length == 2) = true :=
    exists_of_run_any (by decide +kernel)
  simp only [Bool.and_eq_true, decide_eq_true_eq, beq_iff_eq] at hs
  exact ⟨s, Reach.of_run hrun (along_of_forall (by simp) _), hs⟩

end Sample

open Sample in
/-- The message that came twice, settled by the second consumer. -/
theorem settled_is_durable_redelivered :
    ∃ s : State, s.world.bus.sent.length = 2 ∧ IsDurable settings s.db.db message := by
  obtain ⟨s, hreach, hsettled, hsent⟩ := redelivered
  exact ⟨s, hsent, settled_is_durable answered_empty hreach _ hsettled rfl⟩

open Sample in
/-- Both relays have sent the one answer. -/
theorem answered_once_redelivered :
    ∃ s : State, s.world.bus.sent.length = 2 ∧
      (∀ sent ∈ s.world.bus.sent, ∃ row, Answers settings s.db.db row sent) ∧
        ∀ sent ∈ s.world.bus.sent, ∀ sent' ∈ s.world.bus.sent, ∀ row row',
          Answers settings s.db.db row sent → Answers settings s.db.db row' sent' →
            row'.commandId = row.commandId →
              sent'.natsMsgId = sent.natsMsgId ∧ sent'.body = sent.body := by
  obtain ⟨s, hreach, -, hsent⟩ := redelivered
  have hids : (({} : Db).outbox.map (·.eventId)).Nodup := List.nodup_nil
  exact ⟨s, hsent, answered_once answered_empty hids (fun _ hmem => absurd hmem List.not_mem_nil)
    hreach⟩

end RatatoskrVault.PolicyBus
