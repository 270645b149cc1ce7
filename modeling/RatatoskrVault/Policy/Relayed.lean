import RatatoskrVault.Lib.Rely
import RatatoskrVault.Lib.Sequential
import RatatoskrVault.Policy.RelaySteps
import RatatoskrVault.Vault.System

/-! The relay loses and invents nothing: a row is marked only after the broker has confirmed its
envelope, and an unconfirmed row comes back within the ceiling of its backoff. -/
namespace RatatoskrVault.Relay

open Lib

/-- An acknowledgement of the outbox. -/
def IsAcknowledgement (o : OutboxDb) (row : OutboxRow) : Prop :=
  row ∈ o.db.outbox ∧ row.event.eventType = acknowledgementEventType

/-- The message is the row's envelope, under the row's identifier. -/
structure Carries (settings : Settings) (row : OutboxRow) (sent : SentMessage) : Prop where
  subject : sent.subject = acknowledgementSubject
  natsMsgId : sent.natsMsgId = settings.uuid.asHyphenated row.eventId
  body : ∃ envelope, settings.format.fromValue (settings.format.payload row) = some envelope ∧
    envelope.eventId = row.eventId ∧ settings.format.toCanonicalJson envelope = some sent.body

/-- The rows a relay has read and not settled. -/
def RelayLoc.due : RelayLoc → List DueOutboxRow
  | .rows todo _ => todo
  | .mark row todo _ => row :: todo
  | .fail row todo => row :: todo
  | _ => []

/-- What was read of the row. -/
structure ReadFrom (settings : Settings) (row : OutboxRow) (due : DueOutboxRow) : Prop where
  eventId : due.eventId = row.eventId
  eventType : due.eventType = row.event.eventType
  payload : due.payload = settings.format.payload row

/-- What holds of the outbox and of the messages in a state that is reached. -/
structure RelaysFaithfully (settings : Settings) (s : State) : Prop where
  confirmed : ∀ row ∈ s.db.db.outbox, (s.db.relay row.eventId).publishedAt ≠ none →
    ∃ sent ∈ s.world.sent, sent.reply = .confirmed ∧ Carries settings row sent
  invented : ∀ sent ∈ s.world.sent, ∃ row, IsAcknowledgement s.db row ∧ Carries settings row sent
  /-- Every retry carries the same identifier and the same body. -/
  retried : ∀ sent ∈ s.world.sent, ∀ sent' ∈ s.world.sent, sent'.natsMsgId = sent.natsMsgId →
    sent'.body = sent.body ∧ sent'.subject = sent.subject
  read : ∀ i at_, (s.session i).loc = .relay at_ → ∀ due ∈ at_.due,
    ∃ row, IsAcknowledgement s.db row ∧ ReadFrom settings row due
  unchanged : ∀ l s', (machine settings).step s l = some s' → ∀ row ∈ s.db.db.outbox,
    row ∈ s'.db.db.outbox ∧ (row.event.eventType ≠ acknowledgementEventType →
      s'.db.relay row.eventId = s.db.relay row.eventId)
  /-- Where no later failure has been recorded, the row is due once the ceiling has passed. -/
  returns : ∀ s' row, Reach (machine settings).step (fun _ _ => True) s s' →
    IsAcknowledgement s.db row →
      (s'.db.relay row.eventId).attemptCount = (s.db.relay row.eventId).attemptCount →
        s.clock + backoffCeilingSeconds ≤ s'.clock →
          (s'.db.relay row.eventId).publishedAt = none → s'.db.isDue s'.clock row = true

abbrev OutboxShared := Shared OutboxDb Bus

section

variable {settings : Settings} {m : Moment} {o : OutboxDb} {e e' : OutboxShared} {row : OutboxRow}
  {due : DueOutboxRow} {sent : SentMessage} {reply : BrokerReply} {log : List OutboxWrite}
  {eventId : Uuid}

theorem backoff_le (attempts : ℕ) : backoff attempts ≤ backoffCeilingSeconds := by
  unfold backoff
  split_ifs
  · exact min_le_right _ _
  · exact le_refl _

/-- What is sent for a row that was read is the row's envelope. -/
theorem carries_of_message (hread : ReadFrom settings row due)
    (h : message settings due reply = .ok sent) :
    Carries settings row sent ∧ sent.reply = reply ∧
      row.event.eventType = acknowledgementEventType := by
  unfold message subjectFor at h
  split at h
  · cases h
  rename_i subject hsubject
  split_ifs at hsubject with htype
  obtain rfl := Except.ok.inj hsubject
  split at h
  · cases h
  rename_i envelope henvelope
  split_ifs at h with hid
  split at h
  · cases h
  rename_i body hbody
  obtain rfl := Except.ok.inj h
  rw [hread.payload] at henvelope
  have hid' : envelope.eventId = row.eventId := (not_not.mp hid).trans hread.eventId
  refine ⟨⟨rfl, ?_, envelope, henvelope, hid', hbody⟩, rfl, hread.eventType.symm.trans htype⟩
  rw [hread.eventId]

theorem mem_dueAcknowledgements {now limit : ℕ}
    (h : due ∈ o.dueAcknowledgements settings.format now limit) :
    ∃ row, IsAcknowledgement o row ∧ ReadFrom settings row due := by
  obtain ⟨row, hrow, rfl⟩ := List.mem_map.mp h
  have hsorted := List.mem_of_mem_take hrow
  rw [List.mem_insertionSort] at hsorted
  obtain ⟨hmem, hdue⟩ := List.mem_filter.mp hsorted
  have htype : row.event.eventType = acknowledgementEventType := by
    unfold OutboxDb.isDue OutboxDb.isPending at hdue
    simp only [Bool.and_eq_true, beq_iff_eq] at hdue
    exact hdue.1.1
  exact ⟨row, ⟨hmem, htype⟩, ⟨rfl, rfl, rfl⟩⟩

theorem isAcknowledgement_mono {o' : OutboxDb} (h : ∀ row ∈ o.db.outbox, row ∈ o'.db.outbox)
    (hrow : IsAcknowledgement o row) : IsAcknowledgement o' row := ⟨h row hrow.1, hrow.2⟩

/-- No write takes a row out of the outbox. -/
theorem outbox_foldl (log : List OutboxWrite) (o : OutboxDb) :
    ∀ row ∈ o.db.outbox, row ∈ (log.foldl OutboxDb.apply o).db.outbox := by
  intro row hrow
  refine foldl_invariant (I := fun d : OutboxDb => row ∈ d.db.outbox) (fun d w _ hd => ?_) hrow
  cases w with
  | lane w at_ =>
    cases w with
    | insertOutbox new => exact List.mem_append_left _ hd
    | _ => exact hd
  | markOutboxPublished eventId at_ =>
    simp only [OutboxDb.apply]
    split_ifs
    · exact hd
    · exact hd
  | recordPublishFailure eventId failureClass nextAttemptAt => exact hd

/-- The policy lane only touches the columns of the rows it inserts, which are new. -/
theorem relay_foldl (hlog : ∀ w ∈ log, ∃ w' at_, w = .lane w' at_) (o : OutboxDb) (eventId : Uuid) :
    (eventId ∉ outboxKeys.addedBy log →
      (log.foldl OutboxDb.apply o).relay eventId = o.relay eventId) ∧
    (eventId ∈ outboxKeys.addedBy log →
      ∃ at_, (log.foldl OutboxDb.apply o).relay eventId = { createdAt := at_ }) := by
  induction log generalizing o with
  | nil => exact ⟨fun _ => rfl, fun h => absurd h List.not_mem_nil⟩
  | cons w log ih =>
    obtain ⟨w, at_, rfl⟩ := hlog w (List.mem_cons_self ..)
    obtain ⟨hold, hnew⟩ := ih (fun w' hw' => hlog w' (List.mem_cons_of_mem _ hw'))
      (o.apply (.lane w at_))
    by_cases hlater : eventId ∈ outboxKeys.addedBy log
    · refine ⟨fun hnot => ?_, fun _ => hnew hlater⟩
      refine absurd ?_ hnot
      unfold Keys.addedBy at hlater ⊢
      rw [List.filterMap_cons]
      split
      · exact hlater
      · exact List.mem_cons_of_mem _ hlater
    · have hrest := hold hlater
      rw [List.foldl_cons, hrest]
      cases w with
      | insertOutbox new =>
        by_cases heq : eventId = new.eventId
        · refine ⟨fun hnot => absurd ?_ hnot, fun _ => ⟨at_, ?_⟩⟩
          · rw [heq]
            exact List.mem_cons_self ..
          · rw [heq]
            exact Function.update_self ..
        · refine ⟨fun _ => Function.update_of_ne heq .., fun hadded => ?_⟩
          exact absurd ((List.mem_cons.mp hadded).resolve_left heq) hlater
      | _ => exact ⟨fun _ => rfl, fun hadded => absurd hadded hlater⟩

end

/-- What was published was confirmed, what was sent is of the outbox, and no row waits longer than
the ceiling. -/
structure Faithful (settings : Settings) (e : OutboxShared) : Prop where
  confirmed : ∀ row ∈ e.db.db.outbox, (e.db.relay row.eventId).publishedAt ≠ none →
    ∃ sent ∈ e.world.sent, sent.reply = .confirmed ∧ Carries settings row sent
  invented : ∀ sent ∈ e.world.sent, ∃ row, IsAcknowledgement e.db row ∧ Carries settings row sent
  scheduled : ∀ row ∈ e.db.db.outbox, ∀ at_, (e.db.relay row.eventId).nextAttemptAt = some at_ →
    at_ ≤ e.clock + backoffCeilingSeconds

/-- Rows and messages stay. -/
structure Grows (e e' : OutboxShared) : Prop where
  rows : ∀ row ∈ e.db.db.outbox, row ∈ e'.db.db.outbox
  sent : ∀ sent ∈ e.world.sent, sent ∈ e'.world.sent

/-- A session of the policy lane, or a relay with rows it has read; one that is about to mark a
row has its confirmation. -/
inductive Relays (settings : Settings) (e : OutboxShared) : Session OutboxWrite Loc → Prop
  | lane {at_ : Policy.Loc} {log : List OutboxWrite} {began : Option ℕ}
      (hlog : ∀ w ∈ log, ∃ w' at_, w = .lane w' at_) : Relays settings e ⟨.policy at_, log, began⟩
  | relay {at_ : RelayLoc} {began : Option ℕ}
      (hread : ∀ due ∈ at_.due, ∃ row, IsAcknowledgement e.db row ∧ ReadFrom settings row due)
      (hmark : ∀ due todo refused, at_ = .mark due todo refused →
        ∃ row, IsAcknowledgement e.db row ∧ ReadFrom settings row due ∧
          ∃ sent ∈ e.world.sent, sent.reply = .confirmed ∧ Carries settings row sent) :
      Relays settings e ⟨.relay at_, [], began⟩

section

variable {settings : Settings} {m : Moment} {e e' : OutboxShared} {row : OutboxRow}
  {at_ next : RelayLoc} {writes log : List OutboxWrite} {bus : Bus}

theorem Relays.stable {σ : Session OutboxWrite Loc} (h : Grows e e') (hσ : Relays settings e σ) :
    Relays settings e' σ := by
  cases hσ with
  | lane hlog => exact .lane hlog
  | relay hread hmark =>
    refine .relay (fun due hdue => ?_) fun due todo refused hat => ?_
    · obtain ⟨row, hrow, hdata⟩ := hread due hdue
      exact ⟨row, isAcknowledgement_mono h.rows hrow, hdata⟩
    · obtain ⟨row, hrow, hdata, sent, hsent, hcarries⟩ := hmark due todo refused hat
      exact ⟨row, isAcknowledgement_mono h.rows hrow, hdata, sent, h.sent sent hsent, hcarries⟩

/-- A relay that has nothing to mark. -/
theorem relays_of_due {began : Option ℕ}
    (hread : ∀ due ∈ at_.due, ∃ row, IsAcknowledgement e.db row ∧ ReadFrom settings row due)
    (hat : ∀ due todo refused, at_ ≠ .mark due todo refused) :
    Relays settings e ⟨.relay at_, [], began⟩ :=
  .relay hread fun due todo refused heq => absurd heq (hat due todo refused)

/-- The only row of its identifier. -/
theorem row_of_eventId {s : State} (hkeyed : Keyed outboxKeys s) {row row' : OutboxRow}
    (hrow : row ∈ s.db.db.outbox) (hrow' : row' ∈ s.db.db.outbox)
    (h : row.eventId = row'.eventId) : row = row' :=
  List.inj_on_of_nodup_map hkeyed.nodup hrow hrow' h

/-- The transaction of the policy lane that session `i` is about to commit. -/
theorem faithful_commit {s : State} {i : ℕ} (h : Faithful settings s.shared)
    (hkeyed : Keyed outboxKeys s) (hlog : ∀ w ∈ (s.session i).log, ∃ w' at_, w = .lane w' at_) :
    Faithful settings { s.shared with db := (machine settings).view s i } := by
  have hrows := outbox_foldl (s.session i).log s.db
  have hdraws : (machine settings).Draws outboxKeys := draws_outbox
  have htable := hdraws.table_foldl (s.session i).log s.db
  -- a row was there before, with the columns it has, or it is new
  have hcases : ∀ row ∈ ((machine settings).view s i).db.outbox,
      (row ∈ s.db.db.outbox ∧
        ((machine settings).view s i).relay row.eventId = s.db.relay row.eventId) ∨
      ∃ at_, ((machine settings).view s i).relay row.eventId = { createdAt := at_ } := by
    intro row hrow
    obtain ⟨hold, hnew⟩ := relay_foldl hlog s.db row.eventId
    by_cases hadded : row.eventId ∈ outboxKeys.addedBy (s.session i).log
    · exact Or.inr (hnew hadded)
    · have hid : row.eventId ∈ outboxKeys.table ((machine settings).view s i) :=
        List.mem_map_of_mem hrow
      rw [show outboxKeys.table ((machine settings).view s i) = _ from htable] at hid
      have hid' := (List.mem_append.mp hid).resolve_right hadded
      obtain ⟨row', hrow', heq⟩ := List.mem_map.mp hid'
      refine Or.inl ⟨?_, hold hadded⟩
      have hview : Keyed outboxKeys ((machine settings).afterCommit s i (.policy .idle)) :=
        hkeyed.committed (i := i) rfl rfl htable rfl
      rw [← row_of_eventId hview (hrows row' hrow') hrow heq]
      exact hrow'
  refine ⟨fun row hrow hpublished => ?_, fun sent hsent => ?_, fun row hrow at_ hat => ?_⟩
  · rcases hcases row hrow with ⟨hold, hsame⟩ | ⟨at_, hnew⟩
    · exact h.confirmed row hold fun hnone => hpublished ((congrArg _ hsame).trans hnone)
    · exact absurd (congrArg RelayColumns.publishedAt hnew) hpublished
  · obtain ⟨row, hrow, hcarries⟩ := h.invented sent hsent
    exact ⟨row, isAcknowledgement_mono hrows hrow, hcarries⟩
  · rcases hcases row hrow with ⟨hold, hsame⟩ | ⟨at', hnew⟩
    · exact h.scheduled row hold at_ ((congrArg _ hsame).symm.trans hat)
    · rw [hnew] at hat
      cases hat

theorem db_mark (o : OutboxDb) (eventId : Uuid) (at_ : Time) :
    (o.apply (.markOutboxPublished eventId at_)).db = o.db := by
  simp only [OutboxDb.apply]
  split_ifs
  · rfl
  · rfl

theorem relay_mark_of_ne (o : OutboxDb) {eventId x : Uuid} (at_ : Time) (h : x ≠ eventId) :
    (o.apply (.markOutboxPublished eventId at_)).relay x = o.relay x := by
  simp only [OutboxDb.apply]
  split_ifs
  · exact Function.update_of_ne h ..
  · rfl

theorem relay_mark (o : OutboxDb) (eventId : Uuid) (at_ : Time) :
    (o.apply (.markOutboxPublished eventId at_)).relay eventId
      = { o.relay eventId with publishedAt := some ((o.relay eventId).publishedAt.getD at_) } := by
  simp only [OutboxDb.apply]
  split_ifs with hnone
  · rw [Option.isNone_iff_eq_none.mp hnone]
    exact Function.update_self ..
  · obtain ⟨t, ht⟩ := Option.ne_none_iff_exists'.mp fun h => hnone (Option.isNone_iff_eq_none.mpr h)
    cases hcolumns : o.relay eventId
    simp_all

/-- A confirmed row is marked. -/
theorem faithful_mark {s : State} (h : Faithful settings s.shared) (hkeyed : Keyed outboxKeys s)
    (hrow : IsAcknowledgement s.db row) {sent : SentMessage} (hsent : sent ∈ s.world.sent)
    (hreply : sent.reply = .confirmed) (hcarries : Carries settings row sent) (at_ : Time) :
    Faithful settings { s.shared.used with db := s.db.apply (.markOutboxPublished row.eventId at_) } := by
  have hdb := db_mark s.db row.eventId at_
  refine ⟨fun row' hrow' hpublished => ?_, fun sent' hsent' => ?_, fun row' hrow' at' hat => ?_⟩
  · have hmem : row' ∈ s.db.db.outbox := hdb ▸ hrow'
    by_cases heq : row'.eventId = row.eventId
    · rw [row_of_eventId hkeyed hmem hrow.1 heq]
      exact ⟨sent, hsent, hreply, hcarries⟩
    · refine h.confirmed row' hmem fun hnone => hpublished ?_
      exact (congrArg RelayColumns.publishedAt (relay_mark_of_ne s.db at_ heq)).trans hnone
  · obtain ⟨row', hrow', hcarries'⟩ := h.invented sent' hsent'
    refine ⟨row', isAcknowledgement_mono (fun r hr => ?_) hrow', hcarries'⟩
    show r ∈ (s.db.apply (.markOutboxPublished row.eventId at_)).db.outbox
    rw [hdb]
    exact hr
  · have hmem : row' ∈ s.db.db.outbox := hdb ▸ hrow'
    refine h.scheduled row' hmem at' ?_
    by_cases heq : row'.eventId = row.eventId
    · have hmarked := relay_mark s.db row.eventId at_
      rw [← heq] at hmarked
      have hat' : ((s.db.apply (.markOutboxPublished row'.eventId at_)).relay
          row'.eventId).nextAttemptAt = some at' := heq.symm ▸ hat
      rw [hmarked] at hat'
      exact hat'
    · exact (congrArg RelayColumns.nextAttemptAt (relay_mark_of_ne s.db at_ heq)).symm.trans hat

/-- A failure is recorded, and the row waits at most the ceiling. -/
theorem faithful_fail (h : Faithful settings e) (eventId : Uuid) (attempts : ℕ) :
    Faithful settings
      { e.used with
        db := e.db.apply (.recordPublishFailure eventId unacknowledged
          (e.clock + backoff attempts)) } := by
  refine ⟨fun row hrow hpublished => h.confirmed row hrow fun hnone => hpublished ?_, h.invented,
    fun row hrow at_ hat => ?_⟩
  · by_cases heq : row.eventId = eventId
    · show (Function.update e.db.relay eventId _ row.eventId).publishedAt = none
      rw [heq, Function.update_self]
      exact heq ▸ hnone
    · show (Function.update e.db.relay eventId _ row.eventId).publishedAt = none
      rw [Function.update_of_ne heq]
      exact hnone
  · by_cases heq : row.eventId = eventId
    · have hat' : (Function.update e.db.relay eventId _ row.eventId).nextAttemptAt = some at_ := hat
      rw [heq, Function.update_self] at hat'
      obtain rfl := Option.some.inj hat'
      exact Nat.add_le_add_left (backoff_le attempts) _
    · have hat' : (Function.update e.db.relay eventId _ row.eventId).nextAttemptAt = some at_ := hat
      rw [Function.update_of_ne heq] at hat'
      exact h.scheduled row hrow at_ hat'

/-- Another component adds an event. -/
theorem faithful_insert {s : State} (h : Faithful settings s.shared) (hkeyed : Keyed outboxKeys s)
    (event : OutboxEvent) (at_ : Time) :
    Faithful settings
      { s.shared.used with
        db := s.db.apply (.lane (.insertOutbox { eventId := s.fresh, event }) at_) } := by
  have hnew : ∀ row ∈ s.db.db.outbox, row.eventId ≠ s.fresh := fun row hrow =>
    Nat.ne_of_lt (hkeyed.below _ (List.mem_map_of_mem hrow))
  have hcases : ∀ row ∈ s.db.db.outbox ++ [{ eventId := s.fresh, event }],
      (row ∈ s.db.db.outbox ∧ Function.update s.db.relay s.fresh { createdAt := at_ } row.eventId
        = s.db.relay row.eventId) ∨
      Function.update s.db.relay s.fresh { createdAt := at_ } row.eventId = { createdAt := at_ } := by
    intro row hrow
    rcases List.mem_append.mp hrow with hold | hadded
    · exact Or.inl ⟨hold, Function.update_of_ne (hnew row hold) ..⟩
    · rw [List.mem_singleton.mp hadded]
      exact Or.inr (Function.update_self ..)
  refine ⟨fun row hrow hpublished => ?_, fun sent hsent => ?_, fun row hrow at' hat => ?_⟩
  · rcases hcases row hrow with ⟨hold, hsame⟩ | hfresh
    · exact h.confirmed row hold fun hnone => hpublished ((congrArg _ hsame).trans hnone)
    · exact absurd (congrArg RelayColumns.publishedAt hfresh) hpublished
  · obtain ⟨row, hrow, hcarries⟩ := h.invented sent hsent
    exact ⟨row, isAcknowledgement_mono (fun _ hr => List.mem_append_left _ hr) hrow, hcarries⟩
  · rcases hcases row hrow with ⟨hold, hsame⟩ | hfresh
    · exact h.scheduled row hold at' ((congrArg _ hsame).symm.trans hat)
    · have hat' : (Function.update s.db.relay s.fresh { createdAt := at_ } row.eventId).nextAttemptAt
          = some at' := hat
      rw [hfresh] at hat'
      cases hat'

end

section

variable {settings : Settings} {s s' : State} {row : OutboxRow}

abbrev RelaysBeside (settings : Settings) (s : State) : Prop :=
  Machine.Beside (Faithful settings) (fun e _ σ => Relays settings e σ) s

theorem relaysBeside_initial (db : Db) (createdAt : Uuid → Time) (clock fresh : ℕ) :
    RelaysBeside settings (initial db createdAt clock fresh) where
  shared :=
    { confirmed := fun _ _ hpublished => absurd rfl hpublished
      invented := fun _ hsent => absurd hsent List.not_mem_nil
      scheduled := fun _ _ _ hat => by cases hat }
  sessions _ := .lane fun _ hw => absurd hw List.not_mem_nil
  exclusive _ _ _ h := absurd h List.not_mem_nil

theorem Relays.log_of_policy {e : OutboxShared} {σ : Session OutboxWrite Loc} {at_ : Policy.Loc}
    (h : Relays settings e σ) (hloc : σ.loc = .policy at_) :
    ∀ w ∈ σ.log, ∃ w' at_, w = .lane w' at_ := by
  cases h with
  | lane hlog => exact hlog
  | relay => cases hloc

theorem Relays.of_relay {e : OutboxShared} {σ : Session OutboxWrite Loc} {at_ : RelayLoc}
    (h : Relays settings e σ) (hloc : σ.loc = .relay at_) :
    σ.log = [] ∧ (∀ due ∈ at_.due, ∃ row, IsAcknowledgement e.db row ∧ ReadFrom settings row due) ∧
      ∀ due todo refused, at_ = .mark due todo refused →
        ∃ row, IsAcknowledgement e.db row ∧ ReadFrom settings row due ∧
          ∃ sent ∈ e.world.sent, sent.reply = .confirmed ∧ Carries settings row sent := by
  cases h with
  | lane => cases hloc
  | relay hread hmark =>
    cases hloc
    exact ⟨rfl, hread, hmark⟩

theorem view_of_relay {i : ℕ} (hlog : (s.session i).log = []) :
    (machine settings).view s i = s.db := by
  unfold Machine.view
  rw [hlog]
  rfl

theorem grows_of_foldl {e : OutboxShared} (writes : List OutboxWrite) :
    Grows e { e.used with db := writes.foldl OutboxDb.apply e.db } :=
  ⟨outbox_foldl writes e.db, fun _ h => h⟩

/-- A statement of a relay. -/
theorem relaysBeside_auto {m : Moment} {at_ next : RelayLoc} {writes : List OutboxWrite}
    (h : Faithful settings s.shared) (hkeyed : Keyed outboxKeys s) (hclock : m.clock = s.clock)
    (hread : ∀ due ∈ at_.due, ∃ row, IsAcknowledgement s.db row ∧ ReadFrom settings row due)
    (hmark : ∀ due todo refused, at_ = .mark due todo refused →
      ∃ row, IsAcknowledgement s.db row ∧ ReadFrom settings row due ∧
        ∃ sent ∈ s.world.sent, sent.reply = .confirmed ∧ Carries settings row sent)
    (hauto : RelayAuto settings m s.db at_ writes next) :
    Faithful settings { s.shared.used with db := writes.foldl OutboxDb.apply s.db } ∧
      Relays settings { s.shared.used with db := writes.foldl OutboxDb.apply s.db }
        ⟨.relay next, [], none⟩ := by
  have hused : Faithful settings s.shared.used := ⟨h.confirmed, h.invented, h.scheduled⟩
  have hnone : ∀ {at_ : RelayLoc}, at_.due = [] → (∀ due todo refused, at_ ≠ .mark due todo refused) →
      Relays settings { s.shared.used with db := s.db } ⟨.relay at_, [], none⟩ := fun hdue hat =>
    relays_of_due (by rw [hdue]; simp) hat
  cases hauto with
  | nothing => exact ⟨hused, hnone rfl fun _ _ _ heq => by cases heq⟩
  | due =>
    refine ⟨hused, relays_of_due (fun due hdue => ?_) fun _ _ _ heq => by cases heq⟩
    exact mem_dueAcknowledgements hdue
  | published => exact ⟨hused, hnone rfl fun _ _ _ heq => by cases heq⟩
  | @mark due todo refused =>
    obtain ⟨row, hrow, hdata, sent, hsent, hreply, hcarries⟩ := hmark due todo refused rfl
    rw [hdata.eventId]
    have hgrows : Grows s.shared { s.shared.used with
        db := s.db.apply (.markOutboxPublished row.eventId m.clock) } :=
      grows_of_foldl (e := s.shared) [.markOutboxPublished row.eventId m.clock]
    have hrest : Relays settings s.shared ⟨.relay (.rows todo refused), [], none⟩ :=
      relays_of_due (fun d hd => hread d (List.mem_cons_of_mem _ hd)) fun _ _ _ heq => by cases heq
    exact ⟨faithful_mark h hkeyed hrow hsent hreply hcarries m.clock, hrest.stable hgrows⟩
  | @fail due todo =>
    have hgrows : Grows s.shared { s.shared.used with
        db := s.db.apply (.recordPublishFailure due.eventId unacknowledged
          (m.clock + backoff due.attemptCount)) } :=
      grows_of_foldl (e := s.shared) [.recordPublishFailure due.eventId unacknowledged _]
    have hrest : Relays settings s.shared ⟨.relay (.rows todo true), [], none⟩ :=
      relays_of_due (fun d hd => hread d (List.mem_cons_of_mem _ hd)) fun _ _ _ heq => by cases heq
    have hfail := faithful_fail h due.eventId due.attemptCount
    refine ⟨?_, hrest.stable hgrows⟩
    rw [hclock]
    exact hfail
  | unchanged => exact ⟨hused, hnone rfl fun _ _ _ heq => by cases heq⟩
  | woken => exact ⟨hused, hnone rfl fun _ _ _ heq => by cases heq⟩

/-- A message of a relay. -/
theorem relaysBeside_call {e : OutboxShared} {at_ next : RelayLoc} {bus : Bus}
    (h : Faithful settings e)
    (hread : ∀ due ∈ at_.due, ∃ row, IsAcknowledgement e.db row ∧ ReadFrom settings row due)
    (hcall : RelayCall settings e.world at_ bus next) :
    Faithful settings { e.used with world := bus } ∧ Grows e { e.used with world := bus } ∧
      Relays settings { e.used with world := bus } ⟨.relay next, [], none⟩ := by
  have hsend : ∀ {due : DueOutboxRow} {reply : BrokerReply} {sent : SentMessage} {row : OutboxRow},
      IsAcknowledgement e.db row → ReadFrom settings row due →
      message settings due reply = .ok sent →
      Faithful settings { e.used with world := { e.world with sent := e.world.sent ++ [sent] } } := by
    intro due reply sent row hrow hdata hsent
    obtain ⟨hcarries, -, -⟩ := carries_of_message hdata hsent
    refine ⟨fun row' hrow' hpublished => ?_, fun sent' hsent' => ?_, h.scheduled⟩
    · obtain ⟨sent', hsent', hrest⟩ := h.confirmed row' hrow' hpublished
      exact ⟨sent', List.mem_append_left _ hsent', hrest⟩
    · rcases List.mem_append.mp hsent' with hold | hnew
      · exact h.invented sent' hold
      · rw [List.mem_singleton.mp hnew]
        exact ⟨row, hrow, hcarries⟩
  have hgrows : ∀ {sent : SentMessage},
      Grows e { e.used with world := { e.world with sent := e.world.sent ++ [sent] } } :=
    ⟨fun _ hr => hr, fun _ hs => List.mem_append_left _ hs⟩
  cases hcall with
  | @confirmed due todo refused sent hsent =>
    obtain ⟨row, hrow, hdata⟩ := hread due (List.mem_cons_self ..)
    obtain ⟨hcarries, hreply, -⟩ := carries_of_message hdata hsent
    refine ⟨hsend hrow hdata hsent, hgrows, .relay hread fun due' todo' refused' heq => ?_⟩
    cases heq
    exact ⟨row, hrow, hdata, sent, List.mem_append_right _ (List.mem_singleton_self _), hreply,
      hcarries⟩
  | @unconfirmed due todo refused sent reply _ hsent =>
    obtain ⟨row, hrow, hdata⟩ := hread due (List.mem_cons_self ..)
    exact ⟨hsend hrow hdata hsent, hgrows, relays_of_due hread fun _ _ _ heq => by cases heq⟩
  | health =>
    refine ⟨⟨h.confirmed, h.invented, h.scheduled⟩, ⟨fun _ hr => hr, fun _ hs => hs⟩, ?_⟩
    exact relays_of_due (fun _ hdue => absurd hdue List.not_mem_nil) fun _ _ _ heq => by cases heq

theorem relaysBeside_step : ∀ s l s', RelaysBeside settings s → Keyed outboxKeys s →
    (machine settings).step s l = some s' → RelaysBeside settings s' := by
  have hused : ∀ e : OutboxShared, Grows e e.used := fun _ => ⟨fun _ h => h, fun _ h => h⟩
  have hcleared : ∀ {e : OutboxShared} {at_ : Policy.Loc},
      Relays settings e ⟨.policy at_, [], none⟩ :=
    .lane fun _ hw => absurd hw List.not_mem_nil
  refine Machine.Beside.step (R := fun e e' _ _ => Grows e e')
    (fun _ _ _ _ _ h => h) (fun _ _ _ _ hR h => h.stable hR) (fun e _ _ => hused e)
    (fun _ _ _ _ => ⟨fun _ h => h, fun _ h => h⟩) (fun _ h => ⟨h.confirmed, h.invented, h.scheduled⟩)
    (fun e n h => ⟨h.confirmed, h.invented, fun row hrow at_ hat => ?_⟩)
    (fun _ => hcleared) ?_ ?_ ?_ ?_ ?_ ?_ ?_
  · exact Nat.le_trans (h.scheduled row hrow at_ hat) (by simp)
  · intro s i proc _ _
    cases proc with
    | policy proc => exact hcleared
    | relay =>
      exact relays_of_due (fun _ hdue => absurd hdue List.not_mem_nil) fun _ _ _ heq => by cases heq
  · intro s i input locks writes next h _ hact _
    cases hloc : (s.session i).loc with
    | policy at_ =>
      have hlog := (h.sessions i).log_of_policy hloc
      rw [hloc] at hact
      obtain ⟨ls, ws, n, -, -, rfl, rfl⟩ := lift_eq_stmt hact
      refine .lane fun w hw => ?_
      rcases List.mem_append.mp hw with hw | hw
      · exact hlog w hw
      · obtain ⟨w', -, rfl⟩ := List.mem_map.mp hw
        exact ⟨w', _, rfl⟩
    | relay at_ =>
      rw [hloc] at hact
      obtain ⟨n, hn, -⟩ := map_eq_stmt hact
      exact absurd hn runRelay_ne_stmt
  · intro s i input locks writes next h hkeyed hact _
    cases hloc : (s.session i).loc with
    | policy at_ =>
      rw [hloc] at hact
      obtain ⟨ls, ws, n, hn, -, rfl, rfl⟩ := lift_eq_auto hact
      rw [writes_of_policyAuto hn]
      exact ⟨⟨h.shared.confirmed, h.shared.invented, h.shared.scheduled⟩, fun j _ => hused _, hcleared⟩
    | relay at_ =>
      obtain ⟨hlog, hread, hmark⟩ := (h.sessions i).of_relay hloc
      rw [hloc, view_of_relay hlog] at hact
      obtain ⟨n, hn, rfl⟩ := map_eq_auto hact
      obtain ⟨-, hauto⟩ := runRelay_auto hn
      obtain ⟨hG, hS⟩ := relaysBeside_auto h.shared hkeyed rfl hread hmark hauto
      exact ⟨hG, fun j _ => grows_of_foldl writes, hS⟩
  · intro s i input next h hkeyed hact
    cases hloc : (s.session i).loc with
    | policy at_ =>
      have hlog := (h.sessions i).log_of_policy hloc
      rw [hloc] at hact
      obtain ⟨n, -, rfl⟩ := lift_eq_commit hact
      refine ⟨faithful_commit h.shared hkeyed hlog, fun j _ => ?_, hcleared⟩
      exact ⟨outbox_foldl (s.session i).log s.db, fun _ hs => hs⟩
    | relay at_ =>
      rw [hloc] at hact
      obtain ⟨n, hn, -⟩ := map_eq_commit hact
      exact absurd hn runRelay_ne_commit
  · intro s i input next h _ hact
    cases hloc : (s.session i).loc with
    | policy at_ =>
      rw [hloc] at hact
      obtain ⟨a, ha, hrollback⟩ := Option.map_eq_some_iff.mp hact
      cases a <;> cases hrollback
      exact hcleared
    | relay at_ =>
      rw [hloc] at hact
      obtain ⟨n, hn, rfl⟩ := map_eq_rollback hact
      obtain ⟨error, rfl⟩ := runRelay_rollback hn
      exact relays_of_due (fun _ hdue => absurd hdue List.not_mem_nil) fun _ _ _ heq => by cases heq
  · intro s i input world next h _ hact
    cases hloc : (s.session i).loc with
    | policy at_ =>
      rw [hloc] at hact
      obtain ⟨w, n, hn, -, -⟩ := lift_eq_call hact
      exact absurd hn policy_ne_call
    | relay at_ =>
      obtain ⟨hlog, hread, -⟩ := (h.sessions i).of_relay hloc
      rw [hloc, view_of_relay hlog] at hact
      obtain ⟨n, hn, rfl⟩ := map_eq_call hact
      obtain ⟨hG, hgrows, hS⟩ := relaysBeside_call h.shared hread (runRelay_call hn)
      exact ⟨hG, fun j _ => hgrows, hS⟩
  · intro s o locks writes h hkeyed hop _
    obtain ⟨-, rfl⟩ := Prod.mk.inj (Option.some.inj hop)
    exact ⟨faithful_insert h.shared hkeyed o.event s.clock, fun j => grows_of_foldl _⟩

/-- What one step does to the columns of a row. -/
inductive ColumnsMoved (row : OutboxRow) (c c' : RelayColumns) : Prop
  | kept (h : c' = c)
  | published (htype : row.event.eventType = acknowledgementEventType)
      (hcount : c'.attemptCount = c.attemptCount) (hnext : c'.nextAttemptAt = c.nextAttemptAt)
  | failed (htype : row.event.eventType = acknowledgementEventType)
      (hcount : c'.attemptCount = c.attemptCount + 1)

/-- The columns of the only row of an identifier, where only that row's relay writes. -/
theorem columnsMoved_auto {m : Moment} {at_ next : RelayLoc} {writes : List OutboxWrite}
    (hkeyed : Keyed outboxKeys s)
    (hread : ∀ due ∈ at_.due, ∃ row, IsAcknowledgement s.db row ∧ ReadFrom settings row due)
    (hauto : RelayAuto settings m s.db at_ writes next) (hrow : row ∈ s.db.db.outbox) :
    ColumnsMoved row (s.db.relay row.eventId)
      ((writes.foldl OutboxDb.apply s.db).relay row.eventId) := by
  -- a write of the relay touches this row only where the relay has read it
  have htype : ∀ {due : DueOutboxRow}, due ∈ at_.due → row.eventId = due.eventId →
      row.event.eventType = acknowledgementEventType := by
    intro due hdue heq
    obtain ⟨row', hrow', hdata⟩ := hread due hdue
    rw [row_of_eventId hkeyed hrow hrow'.1 (heq.trans hdata.eventId)]
    exact hrow'.2
  cases hauto with
  | @mark due todo refused =>
    by_cases heq : row.eventId = due.eventId
    · have hmarked := relay_mark s.db due.eventId m.clock
      show ColumnsMoved row _ ((s.db.apply (.markOutboxPublished due.eventId m.clock)).relay _)
      rw [heq, hmarked]
      exact .published (htype (List.mem_cons_self ..) heq) rfl rfl
    · exact .kept (relay_mark_of_ne s.db m.clock heq)
  | @fail due todo =>
    show ColumnsMoved row _ (Function.update s.db.relay due.eventId _ row.eventId)
    by_cases heq : row.eventId = due.eventId
    · rw [heq, Function.update_self]
      exact .failed (htype (List.mem_cons_self ..) heq) rfl
    · rw [Function.update_of_ne heq]
      exact .kept rfl
  | _ => exact .kept rfl

/-- A step keeps every row, and its columns too unless a relay has read the row. -/
theorem columns_step {l : Label} (h : RelaysBeside settings s) (hkeyed : Keyed outboxKeys s)
    (hstep : (machine settings).step s l = some s') (hrow : row ∈ s.db.db.outbox) :
    row ∈ s'.db.db.outbox ∧
      ColumnsMoved row (s.db.relay row.eventId) (s'.db.relay row.eventId) := by
  rcases Machine.step_db hstep with hdb | ⟨i, input, locks, writes, next, -, hact, hdb⟩ |
    ⟨i, input, next, -, hact, hdb⟩ | ⟨o, locks, writes, -, hop, hdb⟩
  · rw [hdb]
    exact ⟨hrow, .kept rfl⟩
  · rw [hdb]
    refine ⟨outbox_foldl writes s.db row hrow, ?_⟩
    cases hloc : (s.session i).loc with
    | policy at_ =>
      rw [hloc] at hact
      obtain ⟨ls, ws, n, hn, -, rfl, -⟩ := lift_eq_auto hact
      rw [writes_of_policyAuto hn]
      exact .kept rfl
    | relay at_ =>
      obtain ⟨hlog, hread, -⟩ := (h.sessions i).of_relay hloc
      rw [hloc, view_of_relay hlog] at hact
      obtain ⟨n, hn, -⟩ := map_eq_auto hact
      exact columnsMoved_auto hkeyed hread (runRelay_auto hn).2 hrow
  · rw [hdb]
    refine ⟨outbox_foldl (s.session i).log s.db row hrow, ?_⟩
    cases hloc : (s.session i).loc with
    | policy at_ =>
      have hlog := (h.sessions i).log_of_policy hloc
      refine .kept ((relay_foldl hlog s.db row.eventId).1 fun hadded => ?_)
      exact hkeyed.uncommitted i _ hadded (List.mem_map_of_mem hrow)
    | relay at_ =>
      rw [hloc] at hact
      obtain ⟨n, hn, -⟩ := map_eq_commit hact
      exact absurd hn runRelay_ne_commit
  · obtain ⟨-, rfl⟩ := Prod.mk.inj (Option.some.inj hop)
    rw [hdb]
    refine ⟨outbox_foldl _ s.db row hrow, .kept (Function.update_of_ne ?_ ..)⟩
    exact Nat.ne_of_lt (hkeyed.below _ (List.mem_map_of_mem hrow))

/-- A row whose failures are still those it had keeps its schedule. -/
theorem columns_reach (h : RelaysBeside settings s) (hkeyed : Keyed outboxKeys s)
    (hrow : row ∈ s.db.db.outbox)
    (hreach : Reach (machine settings).step (fun _ _ => True) s s') :
    (row ∈ s'.db.db.outbox ∧
      (s.db.relay row.eventId).attemptCount ≤ (s'.db.relay row.eventId).attemptCount ∧
      ((s'.db.relay row.eventId).attemptCount = (s.db.relay row.eventId).attemptCount →
        (s'.db.relay row.eventId).nextAttemptAt = (s.db.relay row.eventId).nextAttemptAt)) := by
  suffices hall : (RelaysBeside settings s' ∧ Keyed outboxKeys s') ∧ row ∈ s'.db.db.outbox ∧
      (s.db.relay row.eventId).attemptCount ≤ (s'.db.relay row.eventId).attemptCount ∧
      ((s'.db.relay row.eventId).attemptCount = (s.db.relay row.eventId).attemptCount →
        (s'.db.relay row.eventId).nextAttemptAt = (s.db.relay row.eventId).nextAttemptAt) from hall.2
  induction hreach with
  | refl => exact ⟨⟨h, hkeyed⟩, hrow, Nat.le_refl _, fun _ => rfl⟩
  | @tail s₁ s₂ l hreach _ hstep ih =>
    obtain ⟨⟨hbeside, hkeyed'⟩, hmem, hle, hnext⟩ := ih
    refine ⟨⟨relaysBeside_step s₁ l s₂ hbeside hkeyed' hstep,
      Keyed.step draws_outbox s₁ l s₂ hkeyed' hstep⟩, ?_⟩
    obtain ⟨hmem', hmoved⟩ := columns_step hbeside hkeyed' hstep hmem
    refine ⟨hmem', ?_⟩
    cases hmoved with
    | kept hsame =>
      rw [hsame]
      exact ⟨hle, hnext⟩
    | published _ hcount hscheduled =>
      rw [hcount, hscheduled]
      exact ⟨hle, hnext⟩
    | failed _ hcount =>
      rw [hcount]
      exact ⟨by omega, fun heq => by omega⟩

/-- Two messages under one row's identifier are the same envelope. -/
theorem body_of_carries {row' : OutboxRow} {sent sent' : SentMessage}
    (hkeyed : Keyed outboxKeys s) (hrow : row ∈ s.db.db.outbox) (hrow' : row' ∈ s.db.db.outbox)
    (hcarries : Carries settings row sent) (hcarries' : Carries settings row' sent')
    (hid : sent'.natsMsgId = sent.natsMsgId) : sent'.body = sent.body := by
  have heq : row'.eventId = row.eventId := by
    refine settings.uuid.asHyphenated_injective ?_
    rw [← hcarries'.natsMsgId, ← hcarries.natsMsgId]
    exact hid
  obtain rfl := row_of_eventId hkeyed hrow' hrow heq
  obtain ⟨envelope, henvelope, -, hbody⟩ := hcarries.body
  obtain ⟨envelope', henvelope', -, hbody'⟩ := hcarries'.body
  obtain rfl := Option.some.inj (henvelope.symm.trans henvelope')
  exact Option.some.inj (hbody'.symm.trans hbody)

/-- In every run of any number of relays beside the policy lane, with any replies of the broker
and any stops, the relay loses and invents nothing. -/
theorem relays_faithfully {db : Db} {createdAt : Uuid → Time} {clock fresh : ℕ}
    (hids : (db.outbox.map (·.eventId)).Nodup) (hbelow : ∀ row ∈ db.outbox, row.eventId < fresh)
    (hreach : Reach (machine settings).step (fun _ _ => True)
      (initial db createdAt clock fresh) s) : RelaysFaithfully settings s := by
  have hkeyed₀ : Keyed outboxKeys (initial db createdAt clock fresh) := by
    refine ⟨fun k hk => ?_, hids, ?_, ?_, ?_, ?_⟩
    · obtain ⟨row, hrow, rfl⟩ := List.mem_map.mp hk
      exact hbelow row hrow
    all_goals simp [Keys.pending, Keys.addedBy, initial]
  obtain ⟨hbeside, hkeyed⟩ : RelaysBeside settings s ∧ Keyed outboxKeys s :=
    hreach.invariant (I := fun s => RelaysBeside settings s ∧ Keyed outboxKeys s)
      ⟨relaysBeside_initial db createdAt clock fresh, hkeyed₀⟩ fun s l s' hs _ hstep =>
        ⟨relaysBeside_step s l s' hs.1 hs.2 hstep, Keyed.step draws_outbox s l s' hs.2 hstep⟩
  refine ⟨hbeside.shared.confirmed, hbeside.shared.invented, ?_, ?_, ?_, ?_⟩
  · intro sent hsent sent' hsent' hid
    obtain ⟨row₁, hrow₁, hcarries⟩ := hbeside.shared.invented sent hsent
    obtain ⟨row₂, hrow₂, hcarries'⟩ := hbeside.shared.invented sent' hsent'
    exact ⟨body_of_carries hkeyed hrow₁.1 hrow₂.1 hcarries hcarries' hid,
      hcarries'.subject.trans hcarries.subject.symm⟩
  · intro i at_ hloc
    exact ((hbeside.sessions i).of_relay hloc).2.1
  · intro l s' hstep row hrow
    obtain ⟨hmem, hmoved⟩ := columns_step hbeside hkeyed hstep hrow
    refine ⟨hmem, fun htype => ?_⟩
    cases hmoved with
    | kept hsame => exact hsame
    | published hack => exact absurd hack htype
    | failed hack => exact absurd hack htype
  · intro s' row hreach' hrow hcount hlater hunpublished
    obtain ⟨-, -, hnext⟩ := columns_reach hbeside hkeyed hrow.1 hreach'
    have hscheduled : ∀ at_, (s'.db.relay row.eventId).nextAttemptAt = some at_ → at_ ≤ s'.clock := by
      intro at_ hat
      have hle : at_ ≤ s.clock + backoffCeilingSeconds :=
        hbeside.shared.scheduled row hrow.1 at_ ((hnext hcount).symm.trans hat)
      exact Nat.le_trans hle hlater
    unfold OutboxDb.isDue OutboxDb.isPending
    rw [hunpublished, hrow.2]
    cases hat : (s'.db.relay row.eventId).nextAttemptAt with
    | none => simp
    | some at_ => simpa using hscheduled at_ hat

end

namespace Sample

/-- Envelopes whose body has the length of their identifier. -/
def settings : Settings :=
  { contracts := Vault.Sample.contracts
    uuid := Vault.Sample.uuid
    format :=
      { payload := fun row => String.ofList (List.replicate row.eventId 'a')
        fromValue := fun json => some { eventId := json.length, rest := json }
        toCanonicalJson := fun envelope => some envelope.rest } }

def command : CommandEnvelope := { commandId := 1, policy := { policyVersion := 1, repositories := [] } }

/-- The broker is silent for the first message, and confirms the second. -/
def retriedRun : List Label :=
  .start 0 (.policy (.command command)) ::
      List.replicate 9 (.exec 0 { lost := false, reply := .silent }) ++
    .start 1 .relay :: List.replicate 4 (.exec 1 { lost := false, reply := .silent }) ++
    .tick 300 :: List.replicate 5 (.exec 1 { lost := false, reply := .confirmed })

end Sample

open Sample in
/-- The acknowledgement of one command, published by the second message. -/
theorem relays_faithfully_retried :
    ∃ s : State, s.world.sent.length = 2 ∧ (∃ row, IsAcknowledgement s.db row ∧
      (s.db.relay row.eventId).publishedAt = some 300) ∧ RelaysFaithfully settings s := by
  obtain ⟨s, hrun, hs⟩ : ∃ s, run (machine settings).step (initial {} (fun _ => 0) 0 0)
      retriedRun = some s ∧ (s.world.sent.length == 2 && s.db.db.outbox.any fun row =>
        row.event.eventType == acknowledgementEventType &&
          (s.db.relay row.eventId).publishedAt == some 300) = true :=
    exists_of_run_any (by decide +kernel)
  simp only [Bool.and_eq_true, beq_iff_eq, List.any_eq_true] at hs
  obtain ⟨hsent, row, hrow, htype, hpublished⟩ := hs
  have hreach : Reach (machine settings).step (fun _ _ => True) (initial {} (fun _ => 0) 0 0) s :=
    Reach.of_run hrun (along_of_forall (by simp) _)
  have hids : (({} : Db).outbox.map (·.eventId)).Nodup := List.nodup_nil
  exact ⟨s, hsent, ⟨row, ⟨hrow, htype⟩, hpublished⟩,
    relays_faithfully hids (fun _ hmem => absurd hmem List.not_mem_nil) hreach⟩

end RatatoskrVault.Relay
