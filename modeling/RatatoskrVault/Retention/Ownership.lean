import RatatoskrVault.Lib.Rely
import RatatoskrVault.Retention.Rows

/-! The record of a stage against its claim: an attempt ends together with the claim it was made
under, as long as no other plan takes the claim over while the attempt is running. -/
namespace RatatoskrVault.Retention

open Lib

/-- The attempt runs under the claim. -/
def Runs (db : Db) (attemptId claimId : Uuid) : Prop :=
  ∃ a ∈ db.attempts, a.attemptId = attemptId ∧ a.claimId = some claimId ∧ a.outcome = .running

/-- The attempt runs under the claim, and the claim has not been given up. -/
def Owned (db : Db) (attemptId claimId : Uuid) : Prop :=
  Runs db attemptId claimId ∧ ∃ c ∈ db.claims, c.claimId = claimId ∧ c.outcome = .running

/-- The attempt and the claim have ended as the call records. -/
def Recorded (db : Db) (attemptId claimId : Uuid) (succeeded : Bool) : Prop :=
  (∃ a ∈ db.attempts, a.attemptId = attemptId ∧ a.claimId = some claimId ∧
    a.outcome = if succeeded then .succeeded else .failed) ∧
  ∃ c ∈ db.claims, c.claimId = claimId ∧ c.outcome = if succeeded then .completed else .abandoned

/-- A call that records a stage fails without a change unless it owns the attempt and the claim,
and commits the end of both; so what has succeeded was completed. -/
structure RecordsOwned (ok : State → Label → Prop) (settings : Settings) (s₀ : State) : Prop where
  refused : ∀ s i io s' job identity claimId attemptId succeeded,
    Reach (machine settings).step ok s₀ s →
    (s.session i).loc = .worker (.record job identity claimId attemptId succeeded .lock) →
    ¬ Owned s.db attemptId claimId → (machine settings).step s (.exec i io) = some s' →
    (s'.session i).loc = .worker (.finished .failed) ∧ s'.db = s.db
  recorded : ∀ s i io s' job identity claimId attemptId succeeded,
    Reach (machine settings).step ok s₀ s →
    (s.session i).loc = .worker (.record job identity claimId attemptId succeeded .commit) →
    (machine settings).step s (.exec i io) = some s' →
    Owned s.db attemptId claimId ∧ Recorded s'.db attemptId claimId succeeded
  completed : ∀ s, Reach (machine settings).step ok s₀ s → ∀ a ∈ s.db.attempts,
    a.outcome = .succeeded →
    ∃ c ∈ s.db.claims, a.claimId = some c.claimId ∧ c.outcome = .completed

/-- No claim is taken over, its lease over, while the attempt made under it is running. -/
def TakesOverEnded (s : State) : Label → Prop
  | .exec i _ => ∀ job row identity,
      (s.session i).loc = .worker (.claim job (.abandonClaims row identity)) →
      ∀ c ∈ (s.db.applyAll (s.session i).log).expiredClaims s.clock identity,
        ∀ a ∈ (s.db.applyAll (s.session i).log).attempts,
          a.claimId = some c.claimId → a.outcome ≠ .running
  | _ => True

/-- Attempts and claims that belong together. -/
structure Paired (db : Db) : Prop where
  running : ∀ a ∈ db.attempts, a.outcome = .running →
    ∃ c ∈ db.claims, a.claimId = some c.claimId ∧ c.outcome = .running
  succeeded : ∀ a ∈ db.attempts, a.outcome = .succeeded →
    ∃ c ∈ db.claims, a.claimId = some c.claimId ∧ c.outcome = .completed
  single : ∀ a ∈ db.attempts, ∀ b ∈ db.attempts, ∀ k, a.claimId = some k → b.claimId = some k →
    a.attemptId = b.attemptId
  referenced : ∀ a ∈ db.attempts, ∀ k, a.claimId = some k → k ∈ KeyedTable.claims.keys.table db

namespace Ownership

/-- What a claim transaction has written: what it takes over has ended in it, and what it begins
has a claim of its own. -/
structure TakesOver (db : Db) (log : List Write) : Prop where
  abandons : ∀ id outcome, .finishAttempt id outcome ∈ log → outcome = .abandoned
  closes : ∀ k outcome, .finishClaim k outcome ∈ log →
    k ∈ KeyedTable.claims.keys.table db ∧ ∀ a ∈ db.attempts, a.outcome = .running →
      a.claimId = some k → ∃ outcome, .finishAttempt a.attemptId outcome ∈ log
  begins : ∀ a, .insertAttempt a ∈ log →
    (a.outcome = .sharedReferenceRetained ∧ a.claimId = none) ∨
    (a.outcome = .running ∧
      ∃ c, .insertClaim c ∈ log ∧ a.claimId = some c.claimId ∧ c.outcome = .running)
  one : ∀ a b, .insertAttempt a ∈ log → .insertAttempt b ∈ log → a = b

/-- No row has been inserted. -/
def InsertsNothing (log : List Write) : Prop :=
  (∀ a, .insertAttempt a ∉ log) ∧ ∀ c, .insertClaim c ∉ log

def recordAttempt (attemptId : Uuid) (succeeded : Bool) : Write :=
  .finishAttempt attemptId (if succeeded then .succeeded else .failed)

def recordClaim (claimId : Uuid) (succeeded : Bool) : Write :=
  .finishClaim claimId (if succeeded then .completed else .abandoned)

/-- What a session has written of attempts and claims, from where it stands. -/
def Writing (db : Db) (log : List Write) : Loc → Prop
  | .worker (.record _ _ claimId attemptId _ .attempt) => log = [] ∧ Runs db attemptId claimId
  | .worker (.record _ _ claimId attemptId succeeded .claim) =>
    log = [recordAttempt attemptId succeeded] ∧ Runs db attemptId claimId
  | .worker (.record _ _ claimId attemptId succeeded .commit) =>
    log = [recordAttempt attemptId succeeded, recordClaim claimId succeeded] ∧
      Runs db attemptId claimId
  | .worker (.claim _ (.insertAttempt _ _ claimId)) =>
    TakesOver db log ∧ (∀ a, .insertAttempt a ∉ log) ∧
      ∃ c, .insertClaim c ∈ log ∧ c.claimId = claimId ∧ c.outcome = .running
  | .worker (.claim _ (.commitShared _)) => TakesOver db log
  | .worker (.claim _ (.commitClaimed _ _ _)) => TakesOver db log
  | _ => TakesOver db log ∧ InsertsNothing log

structure SessionOk (e : Shared Db Storage) (_ : Lock → Prop) (σ : Session Write Loc) : Prop where
  writing : Writing e.db σ.log σ.loc

/-- What the others leave: the attempts a session has locked, every claim, and for the claims
there are no attempt that was not running before. -/
structure Keeps (e e' : Shared Db Storage) (_ : Lock → Prop) (σ : Session Write Loc) : Prop where
  locked : ∀ a ∈ e.db.attempts, .attempt a.attemptId ∈ needs σ.loc σ.log → a ∈ e'.db.attempts
  claims : ∀ k ∈ KeyedTable.claims.keys.table e.db, k ∈ KeyedTable.claims.keys.table e'.db
  running : ∀ a ∈ e'.db.attempts, a.outcome = .running → ∀ k, a.claimId = some k →
    k ∈ KeyedTable.claims.keys.table e.db → a ∈ e.db.attempts

/-- Writes of no attempt and no claim. -/
def leavesStages : Write → Bool
  | .insertAttempt _ => false
  | .finishAttempt _ _ => false
  | .insertClaim _ => false
  | .finishClaim _ _ => false
  | _ => true

variable {e e' : Shared Db Storage} {db : Db} {log writes : List Write} {H : Lock → Prop}
  {loc next : Loc} {m : Moment} {locks : List Lock}

theorem TakesOver.nil : TakesOver db [] :=
  ⟨by simp, by simp, by simp, by simp⟩

theorem insertsNothing_nil : InsertsNothing [] := ⟨by simp, by simp⟩

/-- Writes after which the attempts that have ended are still in the log. -/
theorem TakesOver.append (h : TakesOver db log)
    (abandons : ∀ id outcome, .finishAttempt id outcome ∈ writes → outcome = .abandoned)
    (closes : ∀ k outcome, .finishClaim k outcome ∈ writes →
      k ∈ KeyedTable.claims.keys.table db ∧ ∀ a ∈ db.attempts, a.outcome = .running →
        a.claimId = some k → ∃ outcome, .finishAttempt a.attemptId outcome ∈ log)
    (begins : ∀ a, .insertAttempt a ∈ writes → (∀ b, .insertAttempt b ∉ log) ∧
      (∀ b, .insertAttempt b ∈ writes → b = a) ∧
      ((a.outcome = .sharedReferenceRetained ∧ a.claimId = none) ∨
      (a.outcome = .running ∧
        ∃ c, .insertClaim c ∈ log ∧ a.claimId = some c.claimId ∧ c.outcome = .running))) :
    TakesOver db (log ++ writes) := by
  have hgrown : ∀ {a : StageAttempt}, (∃ outcome, .finishAttempt a.attemptId outcome ∈ log) →
      ∃ outcome, .finishAttempt a.attemptId outcome ∈ log ++ writes :=
    fun ⟨outcome, hmem⟩ => ⟨outcome, List.mem_append_left _ hmem⟩
  refine ⟨fun id outcome hw => ?_, fun k outcome hw => ?_, fun a hw => ?_, fun a b ha hb => ?_⟩
  · exact (List.mem_append.mp hw).elim (h.abandons id outcome) (abandons id outcome)
  · have hclosed := (List.mem_append.mp hw).elim (h.closes k outcome) (closes k outcome)
    exact ⟨hclosed.1, fun a ha hrunning hclaim => hgrown (hclosed.2 a ha hrunning hclaim)⟩
  · have hbegun := (List.mem_append.mp hw).elim (h.begins a) fun hnew => (begins a hnew).2.2
    exact hbegun.imp_right fun ⟨hrunning, c, hc, hclaim⟩ =>
      ⟨hrunning, c, List.mem_append_left _ hc, hclaim⟩
  · rcases List.mem_append.mp ha with ha | ha
    · rcases List.mem_append.mp hb with hb | hb
      · exact h.one a b ha hb
      · exact absurd ha ((begins b hb).1 a)
    · rcases List.mem_append.mp hb with hb | hb
      · exact absurd hb ((begins a ha).1 b)
      · exact ((begins a ha).2.1 b hb).symm

theorem TakesOver.quiet (h : TakesOver db log) (hleaves : ∀ w ∈ writes, leavesStages w = true) :
    TakesOver db (log ++ writes) := by
  refine h.append (fun id outcome hw => ?_) (fun k outcome hw => ?_) fun a hw => ?_
  · cases hleaves _ hw
  · cases hleaves _ hw
  · cases hleaves _ hw

theorem InsertsNothing.append (h : InsertsNothing log) (h' : InsertsNothing writes) :
    InsertsNothing (log ++ writes) :=
  ⟨fun a hw => (List.mem_append.mp hw).elim (h.1 a) (h'.1 a),
    fun c hw => (List.mem_append.mp hw).elim (h.2 c) (h'.2 c)⟩

theorem TakesOver.stable (h : TakesOver e.db log) {σ : Session Write Loc}
    (hkeeps : Keeps e e' H σ) : TakesOver e'.db log := by
  refine ⟨h.abandons, fun k outcome hw => ?_, h.begins, h.one⟩
  obtain ⟨hmem, hends⟩ := h.closes k outcome hw
  exact ⟨hkeeps.claims k hmem, fun a ha hrunning hclaim =>
    hends a (hkeeps.running a ha hrunning k hclaim hmem) hrunning hclaim⟩

theorem runs_stable {attemptId claimId : Uuid} {σ : Session Write Loc}
    (h : Runs e.db attemptId claimId) (hlock : .attempt attemptId ∈ needs σ.loc σ.log)
    (hkeeps : Keeps e e' H σ) : Runs e'.db attemptId claimId := by
  obtain ⟨a, ha, rfl, hrest⟩ := h
  exact ⟨a, hkeeps.locked a ha hlock, rfl, hrest⟩

theorem stable (e e' : Shared Db Storage) (H : Lock → Prop) (σ : Session Write Loc)
    (hkeeps : Keeps e e' H σ) (h : SessionOk e H σ) : SessionOk e' H σ := by
  obtain ⟨loc, log, began⟩ := σ
  obtain ⟨hwriting⟩ := h
  refine ⟨?_⟩
  cases loc with
  | worker at_ =>
    cases at_ with
    | claim job at_ =>
      cases at_ with
      | insertAttempt row identity claimId => exact ⟨hwriting.1.stable hkeeps, hwriting.2⟩
      | commitShared identity => exact TakesOver.stable hwriting hkeeps
      | commitClaimed identity claimId attemptId => exact TakesOver.stable hwriting hkeeps
      | _ => exact ⟨hwriting.1.stable hkeeps, hwriting.2⟩
    | record job identity claimId attemptId succeeded at_ =>
      cases at_ with
      | lock => exact ⟨hwriting.1.stable hkeeps, hwriting.2⟩
      | attempt =>
        obtain ⟨rfl, hruns⟩ := hwriting
        exact ⟨rfl, runs_stable hruns (by simp [needs, Loc.locks, WorkerLoc.locks]) hkeeps⟩
      | claim =>
        obtain ⟨rfl, hruns⟩ := hwriting
        exact ⟨rfl, runs_stable hruns (by simp [needs, recordAttempt, Write.locks]) hkeeps⟩
      | commit =>
        obtain ⟨rfl, hruns⟩ := hwriting
        exact ⟨rfl, runs_stable hruns (by simp [needs, recordAttempt, Write.locks]) hkeeps⟩
    | _ => exact ⟨hwriting.1.stable hkeeps, hwriting.2⟩
  | _ => exact ⟨hwriting.1.stable hkeeps, hwriting.2⟩

theorem atRest_next {plan : DeletionExecutionPlan} {tasks : List Task} :
    (Loc.worker (WorkerLoc.next plan tasks)).atRest = true := by
  cases tasks with
  | nil => rfl
  | cons task rest => cases task <;> rfl

/-- Nothing has been written outside a transaction. -/
theorem writing_nil (h : loc.atRest = true) : Writing db [] loc := by
  have hnil : TakesOver db [] ∧ InsertsNothing [] := ⟨.nil, insertsNothing_nil⟩
  cases loc with
  | worker at_ =>
    cases at_ with
    | claim job at_ =>
      cases at_ with
      | load => exact hnil
      | _ => cases h
    | record job identity claimId attemptId succeeded at_ =>
      cases at_ with
      | lock => exact hnil
      | _ => cases h
    | _ => exact hnil
  | _ => exact hnil

/-- The claims there are with the writes of a log are those of the table and those it inserts. -/
theorem mem_table_of_applyAll (hnone : ∀ c, .insertClaim c ∉ log) {c : PhysicalObjectClaim}
    (hc : c ∈ (db.applyAll log).claims) : c.claimId ∈ KeyedTable.claims.keys.table db := by
  have htable := KeyedTable.table_applyAll (T := .claims) log db
  have hadded : KeyedTable.claims.keys.addedBy log = [] := by
    refine List.filterMap_eq_nil_iff.mpr fun w hw => ?_
    cases w with
    | insertClaim row => exact absurd hw (hnone row)
    | _ => rfl
  rw [hadded, List.append_nil] at htable
  rw [← htable]
  exact List.mem_map.mpr ⟨c, hc, rfl⟩

/-- An attempt that does not run after the log has been ended in it. -/
theorem TakesOver.exists_finish {a : StageAttempt} (ha : a ∈ db.attempts)
    (hrunning : a.outcome = .running)
    (hended : a ∈ (db.applyAll log).attempts → a.outcome ≠ .running) :
    ∃ outcome, .finishAttempt a.attemptId outcome ∈ log := by
  by_contra hnone
  refine hended (Db.mem_attempts_of_unfinished ha fun outcome hw => ?_) hrunning
  exact hnone ⟨outcome, hw⟩

/-- The claims a transaction takes over have been ended in it where they were running. -/
theorem TakesOver.takeOver (h : TakesOver db log) (hnone : InsertsNothing log)
    {clock : Time} {identity : PhysicalIdentity}
    (hended : ∀ c ∈ (db.applyAll log).expiredClaims clock identity,
      ∀ a ∈ (db.applyAll log).attempts, a.claimId = some c.claimId → a.outcome ≠ .running) :
    TakesOver db (log ++ ((db.applyAll log).expiredClaims clock identity).map fun c =>
      .finishClaim c.claimId .abandoned) := by
  refine h.append (by simp) (fun k outcome hw => ?_) (by simp)
  obtain ⟨c, hc, heq⟩ := List.mem_map.mp hw
  cases heq
  refine ⟨mem_table_of_applyAll hnone.2 (List.mem_filter.mp hc).1, fun a ha hrunning hclaim => ?_⟩
  exact exists_finish ha hrunning fun hmem => hended c hc a hmem hclaim

theorem writing_stmt (hrest : loc.atRest = true → log = [])
    (hended : ∀ job row identity, loc = .worker (.claim job (.abandonClaims row identity)) →
      ∀ c ∈ (db.applyAll log).expiredClaims m.clock identity,
        ∀ a ∈ (db.applyAll log).attempts, a.claimId = some c.claimId → a.outcome ≠ .running)
    (h : Writing db log loc) (hstmt : SessionStmt m (db.applyAll log) loc locks writes next) :
    Writing db (log ++ writes) next := by
  cases hstmt with
  | worker hstmt =>
    cases hstmt with
    | abandonStage =>
      refine ⟨h.1.append (fun id outcome hw => ?_) (by simp) (by simp),
        h.2.append (by simp [InsertsNothing])⟩
      obtain ⟨a, -, heq⟩ := List.mem_map.mp hw
      cases heq
      rfl
    | @insertShared job row identity attempt hid hplan hstage houtcome hguard hclaim =>
      refine h.1.append (by simp) (by simp) fun a hw => ⟨h.2.1, fun b hb => ?_, ?_⟩
      · cases List.mem_singleton.mp hw
        cases List.mem_singleton.mp hb
        rfl
      · cases List.mem_singleton.mp hw
        exact Or.inl ⟨houtcome, hclaim⟩
    | @abandonClaims job row identity =>
      exact ⟨h.1.takeOver h.2 (hended job row identity rfl),
        h.2.append (by simp [InsertsNothing])⟩
    | @insertClaim job row identity claim hid hidentity houtcome hfree =>
      refine ⟨h.1.append (by simp) (by simp) (by simp), fun a hw => ?_,
        ⟨claim, List.mem_append_right _ (List.mem_singleton_self _), hid, houtcome⟩⟩
      rcases List.mem_append.mp hw with hold | hnew
      · exact h.2.1 a hold
      · cases List.mem_singleton.mp hnew
    | insertAttempt hid hplan hstage houtcome hguard hclaim hfree =>
      obtain ⟨htakes, hnone, c, hc, rfl, hrunning⟩ := h
      refine htakes.append (by simp) (by simp) fun a hw => ⟨hnone, fun b hb => ?_, ?_⟩
      · cases List.mem_singleton.mp hw
        cases List.mem_singleton.mp hb
        rfl
      · cases List.mem_singleton.mp hw
        exact Or.inr ⟨houtcome, c, hc, hclaim, hrunning⟩
    | recordLock hmem hid houtcome hclaim =>
      obtain rfl := hrest rfl
      exact ⟨rfl, _, hmem, hid, hclaim, houtcome⟩
    | recordAttempt =>
      obtain ⟨rfl, hruns⟩ := h
      exact ⟨rfl, hruns⟩
    | recordClaim =>
      obtain ⟨rfl, hruns⟩ := h
      exact ⟨rfl, hruns⟩
    | _ => exact ⟨h.1.quiet (by simp [leavesStages]), h.2.append (by simp [InsertsNothing])⟩
  | capture hstmt =>
    cases hstmt <;>
      exact ⟨h.1.quiet (by simp [leavesStages]), h.2.append (by simp [InsertsNothing])⟩
  | transition hstmt =>
    cases hstmt <;>
      exact ⟨h.1.quiet (by simp [leavesStages]), h.2.append (by simp [InsertsNothing])⟩

/-- A transaction that commits has taken claims over, or recorded the end of an attempt. -/
theorem writing_commit (h : Writing db log loc) (hcommit : SessionCommit loc next) :
    next.atRest = true ∧ (TakesOver db log ∨ ∃ attemptId claimId succeeded,
      log = [recordAttempt attemptId succeeded, recordClaim claimId succeeded] ∧
        Runs db attemptId claimId) := by
  cases hcommit with
  | worker hcommit =>
    cases hcommit with
    | deferred => exact ⟨rfl, Or.inl h.1⟩
    | shared => exact ⟨atRest_next, Or.inl h⟩
    | claimed => exact ⟨rfl, Or.inl h⟩
    | recorded => exact ⟨atRest_next, Or.inr ⟨_, _, _, h⟩⟩
    | failed => exact ⟨rfl, Or.inr ⟨_, _, _, h⟩⟩
    | completed => exact ⟨rfl, Or.inl h.1⟩
  | capture => exact ⟨rfl, Or.inl h.1⟩
  | transition => exact ⟨rfl, Or.inl h.1⟩

theorem mem_addedBy_of_insert {c : PhysicalObjectClaim} (h : .insertClaim c ∈ log) :
    c.claimId ∈ KeyedTable.claims.keys.addedBy log :=
  List.mem_filterMap.mpr ⟨_, h, rfl⟩

/-- An attempt that is inserted under a claim is inserted with the claim. -/
theorem TakesOver.added (h : TakesOver db log) {a : StageAttempt} (ha : .insertAttempt a ∈ log)
    {k : Uuid} (hk : a.claimId = some k) : k ∈ KeyedTable.claims.keys.addedBy log := by
  rcases h.begins a ha with ⟨-, hnone⟩ | ⟨-, c, hc, hclaim, -⟩
  · rw [hnone] at hk
    cases hk
  · obtain rfl := Option.some.inj (hclaim.symm.trans hk)
    exact mem_addedBy_of_insert hc

/-- What a claim transaction leaves of the pairs, none of its claims being in the table. -/
theorem paired_takesOver (h : Paired db) (hlog : TakesOver db log)
    (hnew : ∀ k ∈ KeyedTable.claims.keys.addedBy log, k ∉ KeyedTable.claims.keys.table db) :
    Paired (db.applyAll log) := by
  have htable := KeyedTable.table_applyAll (T := .claims) log db
  refine ⟨fun a ha hrunning => ?_, fun a' ha' hdone => ?_, fun a' ha' b' hb' k hak hbk => ?_,
    fun a' ha' k hk => ?_⟩
  · rcases Db.of_running_applyAll ha hrunning with ⟨hold, hkept⟩ | hinserted
    · obtain ⟨c, hc, hclaim, hclaimed⟩ := h.running a hold hrunning
      refine ⟨c, Db.mem_claims_of_unfinished hc fun _ outcome hw => ?_, hclaim, hclaimed⟩
      obtain ⟨outcome', hended⟩ := (hlog.closes _ _ hw).2 a hold hrunning hclaim
      have habandoned := hlog.abandons _ _ hended
      rw [hkept _ hended] at habandoned
      cases habandoned
    · rcases hlog.begins a hinserted with ⟨hshared, -⟩ | ⟨-, c, hc, hclaim, hclaimed⟩
      · rw [hrunning] at hshared
        cases hshared
      · refine ⟨c, Db.mem_claims_of_insert db hc fun outcome hw => ?_, hclaim, hclaimed⟩
        exact hnew _ (mem_addedBy_of_insert hc) (hlog.closes _ _ hw).1
  · obtain ⟨a, ha, hsame, houtcome⟩ := Db.of_mem_attempts_applyAll_eq ha'
    rw [hdone] at houtcome
    rcases houtcome with hkept | hfinished
    · rcases ha with hold | hinserted
      · obtain ⟨c, hc, hclaim, hcompleted⟩ := h.succeeded a hold hkept.symm
        refine ⟨c, Db.mem_claims_of_unfinished hc fun hclaimed => ?_, ?_, hcompleted⟩
        · rw [hcompleted] at hclaimed
          cases hclaimed
        · rw [hsame]
          exact hclaim
      · rcases hlog.begins a hinserted with ⟨hshared, -⟩ | ⟨hrunning, -⟩
        · rw [hshared] at hkept
          cases hkept
        · rw [hrunning] at hkept
          cases hkept
    · cases hlog.abandons _ _ hfinished
  · obtain ⟨a, ha, hsame, -⟩ := Db.of_mem_attempts_applyAll_eq ha'
    obtain ⟨b, hb, hsame', -⟩ := Db.of_mem_attempts_applyAll_eq hb'
    rw [hsame] at hak ⊢
    rw [hsame'] at hbk ⊢
    rcases ha with hold | hinserted
    · rcases hb with hold' | hinserted'
      · exact h.single a hold b hold' k hak hbk
      · exact absurd (h.referenced a hold k hak) (hnew k (hlog.added hinserted' hbk))
    · rcases hb with hold' | hinserted'
      · exact absurd (h.referenced b hold' k hbk) (hnew k (hlog.added hinserted hak))
      · rw [hlog.one a b hinserted hinserted']
  · obtain ⟨a, ha, hsame, -⟩ := Db.of_mem_attempts_applyAll_eq ha'
    rw [hsame] at hk
    rw [htable]
    rcases ha with hold | hinserted
    · exact List.mem_append_left _ (h.referenced a hold k hk)
    · exact List.mem_append_right _ (hlog.added hinserted hk)

theorem owned_of_runs (h : Paired db) {attemptId claimId : Uuid}
    (hruns : Runs db attemptId claimId) : Owned db attemptId claimId := by
  obtain ⟨a, ha, -, hclaim, hrunning⟩ := id hruns
  obtain ⟨c, hc, hk, hclaimed⟩ := h.running a ha hrunning
  exact ⟨hruns, c, hc, (Option.some.inj (hclaim.symm.trans hk)).symm, hclaimed⟩

/-- The claim of the attempt that is recorded ends with it. -/
theorem recorded_of_runs (h : Paired db) {attemptId claimId : Uuid} (succeeded : Bool)
    (hruns : Runs db attemptId claimId) :
    Recorded (db.applyAll [recordAttempt attemptId succeeded, recordClaim claimId succeeded])
      attemptId claimId succeeded := by
  obtain ⟨a, ha, rfl, hclaim, hrunning⟩ := hruns
  obtain ⟨c, hc, hk, hclaimed⟩ := h.running a ha hrunning
  obtain rfl := Option.some.inj (hclaim.symm.trans hk)
  constructor
  · refine ⟨_, mem_updateWhere_of_mem ha, ?_⟩
    simp [hrunning, hclaim]
  · refine ⟨_, mem_updateWhere_of_mem hc, ?_⟩
    simp [hclaimed]

/-- The record of an attempt ends its claim, which no other attempt runs under. -/
theorem paired_record (h : Paired db) (hids : (db.attempts.map (·.attemptId)).Nodup)
    {attemptId claimId : Uuid} (succeeded : Bool) (hruns : Runs db attemptId claimId) :
    Paired (db.applyAll [recordAttempt attemptId succeeded, recordClaim claimId succeeded]) := by
  have hrecorded := recorded_of_runs h succeeded hruns
  obtain ⟨r, hr, hrid, hrclaim, hrrunning⟩ := hruns
  have hinsert : ∀ a, .insertAttempt a ∉
      [recordAttempt attemptId succeeded, recordClaim claimId succeeded] := by
    simp [recordAttempt, recordClaim]
  have hfinish : ∀ {id outcome}, .finishAttempt id outcome ∈
      [recordAttempt attemptId succeeded, recordClaim claimId succeeded] →
      id = attemptId ∧ outcome = if succeeded then .succeeded else .failed := by
    simp [recordAttempt, recordClaim]
  have hclose : ∀ {k outcome}, .finishClaim k outcome ∈
      [recordAttempt attemptId succeeded, recordClaim claimId succeeded] → k = claimId := by
    intro k outcome
    simp only [recordAttempt, recordClaim, List.mem_cons, List.not_mem_nil, or_false]
    rintro (heq | heq)
    · cases heq
    · cases heq
      rfl
  have htable := KeyedTable.table_applyAll (T := .claims)
    [recordAttempt attemptId succeeded, recordClaim claimId succeeded] db
  refine ⟨fun a ha hrunning => ?_, fun a' ha' hdone => ?_, fun a' ha' b' hb' k hak hbk => ?_,
    fun a' ha' k hk => ?_⟩
  · rcases Db.of_running_applyAll ha hrunning with ⟨hold, hkept⟩ | hinserted
    · obtain ⟨c, hc, hclaim, hclaimed⟩ := h.running a hold hrunning
      refine ⟨c, Db.mem_claims_of_unfinished hc fun _ outcome hw => ?_, hclaim, hclaimed⟩
      -- an attempt under the claim that ends would be the one that is recorded
      have hsame : a.attemptId = attemptId := by
        rw [hclose hw] at hclaim
        rw [← hrid]
        exact h.single a hold r hr claimId hclaim hrclaim
      have hended := hkept (if succeeded then .succeeded else .failed)
        (by rw [hsame]; exact List.mem_cons_self ..)
      cases succeeded <;> cases hended
    · exact absurd hinserted (hinsert a)
  · obtain ⟨a, ha, hsame, houtcome⟩ := Db.of_mem_attempts_applyAll_eq ha'
    have hold : a ∈ db.attempts := ha.resolve_right (hinsert a)
    rw [hdone] at houtcome
    rcases houtcome with hkept | hfinished
    · obtain ⟨c, hc, hclaim, hcompleted⟩ := h.succeeded a hold hkept.symm
      refine ⟨c, Db.mem_claims_of_unfinished hc fun hclaimed => ?_, ?_, hcompleted⟩
      · rw [hcompleted] at hclaimed
        cases hclaimed
      · rw [hsame]
        exact hclaim
    · obtain ⟨hid, houtcome⟩ := hfinish hfinished
      obtain rfl : succeeded = true := by
        cases succeeded with
        | true => rfl
        | false => cases houtcome
      obtain ⟨c, hc, hclaim, hcompleted⟩ := hrecorded.2
      refine ⟨c, hc, ?_, hcompleted⟩
      rw [hsame, hclaim, List.inj_on_of_nodup_map hids hold hr (hid.trans hrid.symm)]
      exact hrclaim
  · obtain ⟨a, ha, hsame, -⟩ := Db.of_mem_attempts_applyAll_eq ha'
    obtain ⟨b, hb, hsame', -⟩ := Db.of_mem_attempts_applyAll_eq hb'
    rw [hsame] at hak ⊢
    rw [hsame'] at hbk ⊢
    exact h.single a (ha.resolve_right (hinsert a)) b (hb.resolve_right (hinsert b)) k hak hbk
  · obtain ⟨a, ha, hsame, -⟩ := Db.of_mem_attempts_applyAll_eq ha'
    rw [hsame] at hk
    rw [htable]
    exact List.mem_append_left _ (h.referenced a (ha.resolve_right (hinsert a)) k hk)

/-- What is known of the state beside the invariant: distinct keys and locks. -/
structure Context (s : State) : Prop where
  keys : ∀ T : KeyedTable, Keyed T.keys s
  locked : Locked discipline s

/-- What the commit of one session leaves to the others. -/
theorem keeps_commit {s : State} {i j : ℕ} (hcontext : Context s) (hji : j ≠ i)
    (hadded : ∀ a, .insertAttempt a ∈ (s.session i).log → ∀ k, a.claimId = some k →
      k ∈ KeyedTable.claims.keys.addedBy (s.session i).log) :
    Keeps s.shared { s.shared with db := s.db.applyAll (s.session i).log } H (s.session j) := by
  refine ⟨fun a ha hlock => Db.mem_attempts_of_unfinished ha fun outcome hw => hji ?_,
    fun k hk => ?_, fun a ha hrunning k hk hmem => ?_⟩
  · exact hcontext.locked.unique hlock (mem_needs_of_write hw (List.mem_singleton_self _))
  · have htable := KeyedTable.table_applyAll (T := .claims) (s.session i).log s.db
    show k ∈ KeyedTable.claims.keys.table (s.db.applyAll (s.session i).log)
    rw [htable]
    exact List.mem_append_left _ hk
  · rcases Db.of_running_applyAll ha hrunning with ⟨hold, -⟩ | hinserted
    · exact hold
    · exact absurd hmem ((hcontext.keys .claims).uncommitted i k (hadded a hinserted k hk))

/-- Writes that leave the stages alone leave both tables as they are. -/
theorem stages_of_leaves (hleaves : ∀ w ∈ writes, leavesStages w = true) (db : Db) :
    (db.applyAll writes).attempts = db.attempts ∧ (db.applyAll writes).claims = db.claims := by
  refine foldl_invariant (I := fun d : Db => d.attempts = db.attempts ∧ d.claims = db.claims)
    (fun d w hw hd => ?_) ⟨rfl, rfl⟩
  have hw' := hleaves w hw
  cases w with
  | insertAttempt row => cases hw'
  | finishAttempt id outcome => cases hw'
  | insertClaim row => cases hw'
  | finishClaim id outcome => cases hw'
  | _ => exact hd

theorem paired_congr {db' : Db} (h : Paired db) (hattempts : db'.attempts = db.attempts)
    (hclaims : db'.claims = db.claims) : Paired db' := by
  obtain ⟨hrunning, hsucceeded, hsingle, hreferenced⟩ := h
  refine ⟨?_, ?_, ?_, ?_⟩
  · rw [hattempts, hclaims]
    exact hrunning
  · rw [hattempts, hclaims]
    exact hsucceeded
  · rw [hattempts]
    exact hsingle
  · unfold KeyedTable.keys at hreferenced ⊢
    simp only at hreferenced ⊢
    rw [hattempts, hclaims]
    exact hreferenced

theorem keeps_of_eq {σ : Session Write Loc} (hattempts : e'.db.attempts = e.db.attempts)
    (hclaims : e'.db.claims = e.db.claims) : Keeps e e' H σ := by
  refine ⟨fun a ha _ => hattempts.symm ▸ ha, fun k hk => ?_,
    fun a ha _ _ _ _ => hattempts ▸ ha⟩
  unfold KeyedTable.keys at hk ⊢
  simp only at hk ⊢
  rw [hclaims]
  exact hk

theorem leavesStages_auto (h : SessionAuto m db loc locks writes next) :
    ∀ w ∈ writes, leavesStages w = true := by
  cases h with
  | worker h => cases h <;> simp [leavesStages]
  | capture h => simp

theorem writing_auto (h : SessionAuto m db loc locks writes next) (db' : Db) :
    Writing db' [] next := by
  cases h with
  | worker h =>
    refine writing_nil ?_
    cases h with
    | ungated => exact atRest_next
    | gateMissing => exact atRest_next
    | gate => exact atRest_next
    | advanceWrite => exact atRest_next
    | _ => rfl
  | capture h => exact ⟨.nil, insertsNothing_nil⟩

theorem atRest_of_isIdle (h : loc.isIdle = true) : loc.atRest = true := by
  cases loc with
  | idle => rfl
  | worker at_ =>
    cases at_ with
    | finished outcome => rfl
    | _ => cases h
  | capture at_ =>
    cases at_ with
    | finished result => rfl
    | _ => cases h
  | transition request at_ =>
    cases at_ with
    | finished result => rfl
    | _ => cases h

theorem leavesStages_operate {o : Op} (h : OpWrites db m o locks writes) :
    ∀ w ∈ writes, leavesStages w = true := by
  cases h <;> simp [leavesStages]

def Inv : State → Prop := Machine.Beside (fun e => Paired e.db) SessionOk

theorem inv_step {settings : Settings} : ∀ s l s', Inv s → TakesOverEnded s l ∧ Context s →
    (machine settings).step s l = some s' → Inv s' := by
  refine Machine.Beside.step (R := Keeps) (fun _ _ _ _ _ h => ⟨h.writing⟩) stable
    (fun _ _ _ => keeps_of_eq rfl rfl) (fun _ _ _ _ => keeps_of_eq rfl rfl)
    (fun _ h => paired_congr h rfl rfl) (fun _ _ h => paired_congr h rfl rfl)
    (fun _ => ⟨writing_nil rfl⟩) ?_ ?_ ?_ ?_ ?_ ?_ ?_
  · intro s i proc _ _
    refine ⟨writing_nil ?_⟩
    cases proc <;> rfl
  · intro s i io locks writes next h hok hact _
    change act settings (s.session i).loc (s.moment i) _ s.world io = _ at hact
    refine ⟨writing_stmt (hok.2.locked.unwritten i) (fun job row identity hloc => ?_)
      (h.sessions i).writing (act_stmt hact)⟩
    exact hok.1 job row identity hloc
  · intro s i io locks writes next h _ hact _
    change act settings (s.session i).loc (s.moment i) _ s.world io = _ at hact
    have hauto := act_auto hact
    obtain ⟨hattempts, hclaims⟩ := stages_of_leaves (leavesStages_auto hauto) s.db
    exact ⟨paired_congr h.shared hattempts hclaims, fun j _ => keeps_of_eq hattempts hclaims,
      ⟨writing_auto hauto _⟩⟩
  · intro s i io next h hok hact
    change act settings (s.session i).loc (s.moment i) _ s.world io = _ at hact
    obtain ⟨hrest, hlog⟩ := writing_commit (h.sessions i).writing (act_commit hact)
    have hkeys := hok.2.keys
    refine ⟨?_, fun j hji => keeps_commit hok.2 hji ?_, ⟨writing_nil hrest⟩⟩
    · show Paired (s.db.applyAll (s.session i).log)
      rcases hlog with htakes | ⟨attemptId, claimId, succeeded, heq, hruns⟩
      · exact paired_takesOver h.shared htakes ((hkeys .claims).uncommitted i)
      · rw [heq]
        exact paired_record h.shared (hkeys .attempts).nodup succeeded hruns
    · rcases hlog with htakes | ⟨attemptId, claimId, succeeded, heq, -⟩
      · exact fun a ha k hk => htakes.added ha hk
      · rw [heq]
        simp [recordAttempt, recordClaim]
  · intro s i io next h _ hact
    change act settings (s.session i).loc (s.moment i) _ s.world io = _ at hact
    exact ⟨writing_nil (atRest_of_isIdle (isIdle_of_rollback hact))⟩
  · intro s i io world next h _ hact
    change act settings (s.session i).loc (s.moment i) _ s.world io = _ at hact
    refine ⟨paired_congr h.shared rfl rfl, fun j _ => keeps_of_eq rfl rfl, ⟨?_⟩⟩
    generalize (s.session i).loc = loc at hact
    cases act_call hact with
    | worker => exact writing_nil rfl
    | capture => exact ⟨.nil, insertsNothing_nil⟩
  · intro s o locks writes h _ hop _
    obtain ⟨hattempts, hclaims⟩ :=
      stages_of_leaves (leavesStages_operate (operate_writes hop)) s.db
    exact ⟨paired_congr h.shared hattempts hclaims, fun j => keeps_of_eq hattempts hclaims⟩

theorem context_step {settings : Settings} : ∀ s l s', Context s →
    (machine settings).step s l = some s' → Context s' := fun s l s' h hstep =>
  ⟨fun T => Keyed.step (draws T) s l s' (h.keys T) hstep,
    Locked.step respects s l s' h.locked hstep⟩

end Ownership

/-- Where no claim is taken over from a running attempt, a stage is recorded by its owner only. -/
theorem records_owned (settings : Settings) {db : Db} {fresh : ℕ} (h : Paired db)
    (hkeys : FreshKeys db fresh) (storage : Storage) (clock : ℕ) :
    RecordsOwned TakesOverEnded settings (initial db storage clock fresh) := by
  have hreached : ∀ s, Reach (machine settings).step TakesOverEnded
      (initial db storage clock fresh) s → Ownership.Context s ∧ Ownership.Inv s := by
    intro s hreach
    have hcontext : Ownership.Context (initial db storage clock fresh) :=
      ⟨keyed_initial hkeys storage clock, locked_initial db storage clock fresh⟩
    have hinitial : Ownership.Inv (initial db storage clock fresh) :=
      ⟨h, fun _ => ⟨Ownership.writing_nil rfl⟩, fun _ _ _ hl => absurd hl List.not_mem_nil⟩
    refine Reach.invariant (I := fun s => Ownership.Context s ∧ Ownership.Inv s)
      ⟨hcontext, hinitial⟩ ?_ hreach
    rintro x l y ⟨hx, hinv⟩ hok hstep
    exact ⟨Ownership.context_step x l y hx hstep,
      Ownership.inv_step x l y hinv ⟨hok, hx⟩ hstep⟩
  refine ⟨?_, ?_, fun s hreach a ha hdone => (hreached s hreach).2.shared.succeeded a ha hdone⟩
  · intro s i io s' job identity claimId attemptId succeeded hreach hloc hfree hstep
    obtain ⟨hcontext, hinv⟩ := hreached s hreach
    have hlog : (s.session i).log = [] := hcontext.locked.unwritten i (by rw [hloc]; rfl)
    have hview : (machine settings).view s i = s.db := by
      unfold Machine.view
      rw [hlog]
      rfl
    obtain ⟨a, hact, hperform⟩ := Option.bind_eq_some_iff.mp hstep
    change act settings _ _ _ _ _ = _ at hact
    rw [hloc, hview] at hact
    simp only [act, runPlan, recordDeletionStage] at hact
    split at hact
    · -- the call finds no attempt to record
      obtain rfl := Option.some.inj hact
      obtain rfl := Option.some.inj hperform
      exact ⟨by simp [Machine.afterRollback], rfl⟩
    · rename_i attempt hfind
      have hsel := List.find?_some hfind
      simp only [Bool.and_eq_true, beq_iff_eq] at hsel
      obtain ⟨⟨hid, hclaim⟩, hrunning⟩ := hsel
      have hmem : attempt ∈ s.db.attempts := List.mem_of_find?_eq_some hfind
      exact absurd (Ownership.owned_of_runs hinv.shared ⟨attempt, hmem, hid, hclaim, hrunning⟩)
        hfree
  · intro s i io s' job identity claimId attemptId succeeded hreach hloc hstep
    have hinv := (hreached s hreach).2
    have hwriting := (hinv.sessions i).writing
    rw [hloc] at hwriting
    obtain ⟨hlog, hruns⟩ := hwriting
    obtain ⟨a, hact, hperform⟩ := Option.bind_eq_some_iff.mp hstep
    change act settings _ _ _ _ _ = _ at hact
    rw [hloc] at hact
    obtain rfl := Option.some.inj hact
    obtain rfl := Option.some.inj hperform
    refine ⟨Ownership.owned_of_runs hinv.shared hruns, ?_⟩
    show Recorded ((s.session i).log.foldl Db.apply s.db) attemptId claimId succeeded
    rw [hlog]
    exact Ownership.recorded_of_runs hinv.shared succeeded hruns

namespace Sample

/-- A plan for each snapshot of the excluded target; both remove its mirror. -/
def contendingPlans : List Label :=
  .start 0 (exclude 1) :: List.replicate 7 (.exec 0 .ok) ++
    [.op (.createDeletionPlan (planRequest 4 103 true)),
      .op (.createDeletionPlan (planRequest 5 103 true)), .tick graceSeconds]

/-- The second plan holds the mirror until its lease is over, the first takes the mirror over, and
then the second records its success. -/
def takenOver : List Label :=
  contendingPlans ++ .start 1 (.runPlan 107) :: List.replicate 15 (.exec 1 .ok) ++
    [.tick 60, .start 0 (.runPlan 106)] ++ List.replicate 32 (.exec 0 .ok) ++
    List.replicate 5 (.exec 1 .ok)

end Sample

/-- An attempt has succeeded under a claim that was abandoned. -/
theorem success_under_abandoned_claim :
    ¬ RecordsOwned (fun _ _ => True) Sample.settings
      (initial Sample.twoSnapshots Sample.storage 10 100) := by
  intro h
  obtain ⟨s, hrun, hs⟩ : ∃ s, run (machine Sample.settings).step
      (initial Sample.twoSnapshots Sample.storage 10 100) Sample.takenOver = some s ∧
      (s.db.attempts.any fun a => a.outcome == .succeeded &&
        s.db.claims.all fun c => a.claimId != some c.claimId || c.outcome == .abandoned) = true :=
    exists_of_run_any (by decide +kernel)
  have hreach : Reach (machine Sample.settings).step (fun _ _ => True)
      (initial Sample.twoSnapshots Sample.storage 10 100) s :=
    Reach.of_run hrun (along_of_forall (by simp) _)
  obtain ⟨a, ha, hdone⟩ := List.any_eq_true.mp hs
  simp only [Bool.and_eq_true, beq_iff_eq, List.all_eq_true, Bool.or_eq_true, bne_iff_ne] at hdone
  obtain ⟨hsucceeded, habandoned⟩ := hdone
  obtain ⟨c, hc, hclaim, hcompleted⟩ := h.completed s hreach a ha hsucceeded
  rcases habandoned c hc with hother | houtcome
  · exact hother hclaim
  · rw [hcompleted] at houtcome
    cases houtcome

/-- A catalogue without attempts. -/
theorem records_owned_two_snapshots :
    Paired Sample.twoSnapshots ∧ FreshKeys Sample.twoSnapshots 100 ∧
      RecordsOwned TakesOverEnded Sample.settings
        (initial Sample.twoSnapshots Sample.storage 10 100) := by
  have hpaired : Paired Sample.twoSnapshots := by
    constructor <;> simp [Sample.twoSnapshots]
  have hkeys : FreshKeys Sample.twoSnapshots 100 := by
    intro T
    cases T <;> decide
  exact ⟨hpaired, hkeys, records_owned Sample.settings hpaired hkeys Sample.storage 10⟩

end RatatoskrVault.Retention
