import RatatoskrVault.Lib.ReadCommitted

/-! A procedure executed by itself: no other session holds a lock, and none takes a step before
it ends. Such a run is a function of where the procedure stands and of what is committed. -/
namespace RatatoskrVault.Lib

variable {Db World Lock Write Loc Loc' Input Proc Op : Type}

/-- The steps of a procedure that calls nothing outside the database. -/
structure Procedure (Db Lock Write Loc : Type) where
  apply : Db → Write → Db
  act : Loc → Moment → Db → Option (Action Unit Lock Write Loc)

/-- Where a procedure stands, its uncommitted writes, what is committed and the next identifier. -/
structure Config (Db Write Loc : Type) where
  loc : Loc
  log : List Write
  db : Db
  fresh : ℕ

namespace Config

def view (apply : Db → Write → Db) (c : Config Db Write Loc) : Db := c.log.foldl apply c.db

/-- The same procedure as a part of another. -/
def map (wrap : Loc → Loc') (c : Config Db Write Loc) : Config Db Write Loc' :=
  { c with loc := wrap c.loc }

end Config

namespace Procedure

variable (P : Procedure Db Lock Write Loc) (Q : Procedure Db Lock Write Loc') (clock : ℕ)

def exec (c : Config Db Write Loc) : Option (Config Db Write Loc) :=
  (P.act c.loc { now := clock, clock, fresh := c.fresh } (c.view P.apply)).bind fun
    | .stmt _ writes next =>
      some { c with loc := next, log := c.log ++ writes, fresh := c.fresh + 1 }
    | .auto _ writes next =>
      some { loc := next, log := [], db := writes.foldl P.apply c.db, fresh := c.fresh + 1 }
    | .commit next => some { c with loc := next, log := [], db := c.view P.apply }
    | .rollback next => some { c with loc := next, log := [] }
    | .call _ _ => none

/-- The configuration after `n` steps. -/
def execs : ℕ → Config Db Write Loc → Option (Config Db Write Loc)
  | 0, c => some c
  | n + 1, c => (P.exec clock c).bind (execs n)

/-- The first configuration comes to the second. -/
def Leads (c c' : Config Db Write Loc) : Prop := ∃ n, P.execs clock n c = some c'

variable {P Q clock} {c c' c₁ : Config Db Write Loc}

theorem Leads.refl : P.Leads clock c c := ⟨0, rfl⟩

theorem Leads.head (c₁ : Config Db Write Loc) (h : P.exec clock c = some c₁)
    (hrest : P.Leads clock c₁ c') : P.Leads clock c c' := by
  obtain ⟨n, hn⟩ := hrest
  refine ⟨n + 1, ?_⟩
  rw [execs, h]
  exact hn

theorem execs_append {n k : ℕ} (h : P.execs clock n c = some c₁) :
    P.execs clock (n + k) c = P.execs clock k c₁ := by
  induction n generalizing c with
  | zero =>
    cases h
    rw [Nat.zero_add]
  | succ n ih =>
    obtain ⟨c₂, hexec, hrest⟩ := Option.bind_eq_some_iff.mp h
    rw [Nat.succ_add, execs, hexec]
    exact ih hrest

theorem Leads.trans (h : P.Leads clock c c₁) (hrest : P.Leads clock c₁ c') :
    P.Leads clock c c' := by
  obtain ⟨n, hn⟩ := h
  obtain ⟨k, hk⟩ := hrest
  exact ⟨n + k, (execs_append hn).trans hk⟩

/-- What every step keeps, a run keeps. -/
theorem execs_invariant {I : Config Db Write Loc → Prop}
    (hstep : ∀ c c', I c → P.exec clock c = some c' → I c') {n : ℕ} (hI : I c)
    (h : P.execs clock n c = some c') : I c' := by
  induction n generalizing c with
  | zero =>
    cases h
    exact hI
  | succ n ih =>
    obtain ⟨c₁, hexec, hrest⟩ := Option.bind_eq_some_iff.mp h
    exact ih (hstep c c₁ hI hexec) hrest

/-- Of two runs from one configuration, the shorter is the beginning of the longer. -/
theorem Leads.of_ended {c₂ : Config Db Write Loc} (h : P.Leads clock c c₁)
    (hended : P.exec clock c₁ = none) (h' : P.Leads clock c c₂) : P.Leads clock c₂ c₁ := by
  obtain ⟨n, hn⟩ := h
  obtain ⟨k, hk⟩ := h'
  by_cases hle : k ≤ n
  · obtain ⟨d, rfl⟩ := Nat.exists_eq_add_of_le hle
    rw [execs_append hk] at hn
    exact ⟨d, hn⟩
  · obtain ⟨d, rfl⟩ := Nat.exists_eq_add_of_lt (Nat.lt_of_not_le hle)
    rw [Nat.add_assoc, execs_append hn, execs, hended] at hk
    cases hk

section Exec

variable {locks : List Lock} {writes : List Write} {next : Loc} {m : Moment}

theorem exec_stmt
    (h : P.act c.loc { now := clock, clock, fresh := c.fresh } (c.view P.apply)
      = some (.stmt locks writes next)) :
    P.exec clock c
      = some { loc := next, log := c.log ++ writes, db := c.db, fresh := c.fresh + 1 } := by
  rw [exec, h]
  rfl

theorem exec_auto
    (h : P.act c.loc { now := clock, clock, fresh := c.fresh } (c.view P.apply)
      = some (.auto locks writes next)) :
    P.exec clock c
      = some { loc := next, log := [], db := writes.foldl P.apply c.db, fresh := c.fresh + 1 } := by
  rw [exec, h]
  rfl

theorem exec_commit
    (h : P.act c.loc { now := clock, clock, fresh := c.fresh } (c.view P.apply)
      = some (.commit next)) :
    P.exec clock c = some { loc := next, log := [], db := c.view P.apply, fresh := c.fresh } := by
  rw [exec, h]
  rfl

theorem exec_rollback
    (h : P.act c.loc { now := clock, clock, fresh := c.fresh } (c.view P.apply)
      = some (.rollback next)) :
    P.exec clock c = some { loc := next, log := [], db := c.db, fresh := c.fresh } := by
  rw [exec, h]
  rfl

end Exec

/-- `Q` executes `P` as a part of itself, until `P` is done. -/
structure Hosts (Q : Procedure Db Lock Write Loc') (P : Procedure Db Lock Write Loc)
    (wrap : Loc → Loc') : Prop where
  apply : Q.apply = P.apply
  act : ∀ {loc m db a}, P.act loc m db = some a → Q.act (wrap loc) m db = some (a.map wrap)

theorem Hosts.exec {wrap : Loc → Loc'} (hQ : Q.Hosts P wrap) (h : P.exec clock c = some c') :
    Q.exec clock (c.map wrap) = some (c'.map wrap) := by
  obtain ⟨a, hact, ha⟩ := Option.bind_eq_some_iff.mp h
  have hhosted := hQ.act hact
  unfold Procedure.exec Config.view Config.map
  unfold Config.view at hhosted
  rw [hQ.apply, hhosted]
  cases a <;> cases ha <;> simp [Action.map, Config.view]

/-- A run of the part is a run of the whole. -/
theorem Leads.host {wrap : Loc → Loc'} (h : P.Leads clock c c') (hQ : Q.Hosts P wrap) :
    Q.Leads clock (c.map wrap) (c'.map wrap) := by
  obtain ⟨n, hn⟩ := h
  refine ⟨n, ?_⟩
  induction n generalizing c with
  | zero =>
    cases hn
    rfl
  | succ n ih =>
    obtain ⟨c₁, hexec, hrest⟩ := Option.bind_eq_some_iff.mp hn
    rw [execs, hQ.exec hexec]
    exact ih hrest

end Procedure

namespace Machine

variable {M : Machine Db World Lock Write Loc' Input Proc Op} {P : Procedure Db Lock Write Loc}

/-- A session at these locations executes the procedure. -/
structure Executes (M : Machine Db World Lock Write Loc' Input Proc Op)
    (P : Procedure Db Lock Write Loc) (wrap : Loc → Loc') : Prop where
  apply : M.apply = P.apply
  act : ∀ loc m db world input, M.act (wrap loc) m db world input
    = (P.act loc m db).map (Action.embed (fun _ => world) wrap)
  calls : ∀ loc m db next, P.act loc m db ≠ some (.call () next)

/-- Session `i` stands where the configuration says, and nobody is in its way. -/
structure Solo (wrap : Loc → Loc') (s : State Db World Lock Write Loc') (i : ℕ)
    (c : Config Db Write Loc) : Prop where
  loc : (s.session i).loc = wrap c.loc
  log : (s.session i).log = c.log
  db : s.db = c.db
  fresh : s.fresh = c.fresh
  now : (s.moment i).now = s.clock
  held : ∀ l j, (l, j) ∈ s.held → j = i

variable [DecidableEq Lock] {wrap : Loc → Loc'} {s s' : State Db World Lock Write Loc'} {i : ℕ}
  {c c' : Config Db Write Loc} {input : Input}

omit [DecidableEq Lock] in
theorem Solo.view (h : Solo wrap s i c) (hM : M.Executes P wrap) :
    M.view s i = c.view P.apply := by
  rw [Machine.view, Config.view, h.log, h.db, hM.apply]

omit [DecidableEq Lock] in
theorem Solo.moment (h : Solo wrap s i c) :
    s.moment i = { now := s.clock, clock := s.clock, fresh := c.fresh } := by
  have hnow := h.now
  have hfresh := h.fresh
  unfold State.moment at hnow ⊢
  simp only at hnow
  rw [hnow, hfresh]

theorem Solo.available (h : Solo wrap s i c) (locks : List Lock) : s.available i locks = true :=
  available_iff.mpr fun l j hmem _ => h.held l j hmem

omit [DecidableEq Lock] in
/-- The transaction of a session that is alone has ended. -/
theorem Solo.ended {loc : Loc} {db : Db} {fresh : ℕ} (h : Solo wrap s i c)
    (hsession : s'.session = (s.setSession i ⟨wrap loc, [], none⟩).session) (hdb : s'.db = db)
    (hfresh : s'.fresh = fresh) (hheld : ∀ e ∈ s'.held, e ∈ s.held) :
    Solo wrap s' i { loc, log := [], db, fresh } := by
  have hself : s'.session i = ⟨wrap loc, [], none⟩ := by
    rw [hsession, State.setSession_session_self]
  refine ⟨by rw [hself], by rw [hself], hdb, hfresh, ?_, fun l j hmem => h.held l j (hheld _ hmem)⟩
  unfold State.moment
  rw [hself]
  rfl

/-- One step of the procedure is one step of the session. -/
theorem Solo.exec (h : Solo wrap s i c) (hM : M.Executes P wrap)
    (hexec : P.exec s.clock c = some c') (input : Input) :
    ∃ s', M.step s (.exec i input) = some s' ∧ Solo wrap s' i c' ∧ s'.world = s.world ∧
      s'.clock = s.clock := by
  obtain ⟨a, hact, ha⟩ := Option.bind_eq_some_iff.mp hexec
  have hstep : M.step s (.exec i input) = M.perform s i (a.embed (fun _ => s.world) wrap) := by
    simp only [Machine.step]
    rw [h.loc, h.moment, h.view hM, hM.act, hact]
    rfl
  have hreleased : ∀ e ∈ s.release i, e ∈ s.held := fun e he => (List.mem_filter.mp he).1
  cases a with
  | stmt locks writes next =>
    cases ha
    refine ⟨afterStmt s i locks writes (wrap next), ?_, ?_, rfl, rfl⟩
    · rw [hstep]
      simp [Action.embed, perform, h.available]
    · have hself : (afterStmt s i locks writes (wrap next)).session i
          = ⟨wrap next, (s.session i).log ++ writes, some (s.moment i).now⟩ :=
        State.setSession_session_self
      refine ⟨by rw [hself], by rw [hself, h.log], h.db, ?_, ?_, fun l j hmem => ?_⟩
      · show s.fresh + 1 = c.fresh + 1
        rw [h.fresh]
      · unfold State.moment
        rw [hself]
        exact h.now
      · rcases List.mem_append.mp hmem with hnew | hold
        · obtain ⟨l', -, heq⟩ := List.mem_map.mp hnew
          exact (Prod.mk.inj heq).2.symm
        · exact h.held l j hold
  | auto locks writes next =>
    cases ha
    refine ⟨M.afterAuto s i writes (wrap next), ?_, ?_, rfl, rfl⟩
    · rw [hstep]
      simp [Action.embed, perform, h.available]
    · refine h.ended (i := i) rfl ?_ ?_ fun e he => he
      · show writes.foldl M.apply s.db = _
        rw [hM.apply, h.db]
      · show s.fresh + 1 = _
        rw [h.fresh]
  | commit next =>
    cases ha
    refine ⟨M.afterCommit s i (wrap next), hstep, ?_, rfl, rfl⟩
    exact h.ended (i := i) rfl (h.view hM) h.fresh hreleased
  | rollback next =>
    cases ha
    refine ⟨afterRollback s i (wrap next), hstep, ?_, rfl, rfl⟩
    exact h.ended (i := i) rfl h.db h.fresh hreleased
  | call world next => cases ha

/-- A step of the session is one of the procedure. -/
theorem Solo.of_step (h : Solo wrap s i c) (hM : M.Executes P wrap)
    (hstep : M.step s (.exec i input) = some s') :
    ∃ c', P.exec s.clock c = some c' ∧ Solo wrap s' i c' ∧ s'.world = s.world ∧
      s'.clock = s.clock := by
  have hsome : (P.exec s.clock c).isSome = true := by
    obtain ⟨a, hact, -⟩ := Option.bind_eq_some_iff.mp hstep
    rw [h.loc, h.moment, h.view hM, hM.act] at hact
    obtain ⟨b, hb, -⟩ := Option.map_eq_some_iff.mp hact
    unfold Procedure.exec
    rw [hb]
    cases b with
    | call world next => exact absurd hb (hM.calls _ _ _ _)
    | _ => rfl
  obtain ⟨c', hexec⟩ := Option.isSome_iff_exists.mp hsome
  obtain ⟨s₁, hs₁, hsolo⟩ := h.exec hM hexec input
  obtain rfl : s₁ = s' := Option.some.inj (hs₁.symm.trans hstep)
  exact ⟨c', hexec, hsolo⟩

/-- A run of the procedure is one of the session. -/
theorem Solo.run {n : ℕ} (h : Solo wrap s i c) (hM : M.Executes P wrap)
    (hrun : P.execs s.clock n c = some c') (input : Input) :
    ∃ s', run M.step s (List.replicate n (.exec i input)) = some s' ∧ Solo wrap s' i c' ∧
      s'.world = s.world := by
  induction n generalizing s c with
  | zero =>
    cases hrun
    exact ⟨s, rfl, h, rfl⟩
  | succ n ih =>
    obtain ⟨c₁, hexec, hrest⟩ := Option.bind_eq_some_iff.mp hrun
    obtain ⟨s₁, hs₁, hsolo, hworld, hclock⟩ := h.exec hM hexec input
    rw [← hclock] at hrest
    obtain ⟨s', hs', hsolo', hworld'⟩ := ih hsolo hrest
    refine ⟨s', ?_, hsolo', hworld'.trans hworld⟩
    rw [List.replicate_succ, Lib.run, hs₁]
    exact hs'

theorem Solo.of_run {n : ℕ} (h : Solo wrap s i c) (hM : M.Executes P wrap)
    (hrun : Lib.run M.step s (List.replicate n (.exec i input)) = some s') :
    ∃ c', P.execs s.clock n c = some c' ∧ Solo wrap s' i c' ∧ s'.world = s.world := by
  induction n generalizing s c with
  | zero =>
    cases hrun
    exact ⟨c, rfl, h, rfl⟩
  | succ n ih =>
    rw [List.replicate_succ, Lib.run] at hrun
    obtain ⟨s₁, hs₁, hrest⟩ := Option.bind_eq_some_iff.mp hrun
    obtain ⟨c₁, hexec, hsolo, hworld, hclock⟩ := h.of_step hM hs₁
    obtain ⟨c', hc', hsolo', hworld'⟩ := ih hsolo hrest
    refine ⟨c', ?_, hsolo', hworld'.trans hworld⟩
    rw [Procedure.execs, hexec]
    exact hclock ▸ hc'

/-- Only session `i` takes steps, while time passes. -/
def Only (i : ℕ) (_ : State Db World Lock Write Loc') : Label Input Proc Op → Prop
  | .exec j _ => j = i
  | .tick _ => True
  | _ => False

end Machine

/-- What every step of the procedure keeps of its view, at whatever time it is taken. Where the
procedure rests it has written nothing that is not committed, and nothing is known once it has
dropped a transaction with writes. -/
structure Procedure.Keeps (P : Procedure Db Lock Write Loc) (Rests : Loc → Prop)
    (I : Loc → Db → Prop) : Prop where
  stmt : ∀ {loc m view locks writes next}, I loc view →
    P.act loc m view = some (.stmt locks writes next) →
      ¬ Rests next ∧ I next (writes.foldl P.apply view)
  auto : ∀ {loc m view locks writes next}, I loc view →
    P.act loc m view = some (.auto locks writes next) →
      Rests loc ∧ I next (writes.foldl P.apply view)
  commit : ∀ {loc m view next}, I loc view → P.act loc m view = some (.commit next) → I next view
  rollback : ∀ {loc m view next}, I loc view → P.act loc m view = some (.rollback next) →
    (Rests loc ∧ I next view) ∨ ∀ db, I next db

/-- The procedure comes from the first location to the second and does nothing but read `db`. -/
inductive Procedure.Reads (P : Procedure Db Lock Write Loc) (db : Db) : Loc → Loc → Prop
  | refl {loc : Loc} : P.Reads db loc loc
  | auto {loc next last : Loc} (h : ∀ m, P.act loc m db = some (.auto [] [] next))
      (hrest : P.Reads db next last) : P.Reads db loc last
  | rollback {loc next last : Loc} (h : ∀ m, P.act loc m db = some (.rollback next))
      (hrest : P.Reads db next last) : P.Reads db loc last

theorem Procedure.Reads.trans {P : Procedure Db Lock Write Loc} {db : Db} {loc next last : Loc}
    (h : P.Reads db loc next) (hrest : P.Reads db next last) : P.Reads db loc last := by
  induction h with
  | refl => exact hrest
  | auto hact _ ih => exact .auto hact (ih hrest)
  | rollback hact _ ih => exact .rollback hact (ih hrest)

/-- What is only read comes to its end, executed by itself. -/
theorem Procedure.Reads.leads {P : Procedure Db Lock Write Loc} {db : Db} {loc last : Loc}
    (h : P.Reads db loc last) (clock fresh : ℕ) :
    ∃ fresh', P.Leads clock ⟨loc, [], db, fresh⟩ ⟨last, [], db, fresh'⟩ := by
  induction h generalizing fresh with
  | refl => exact ⟨fresh, .refl⟩
  | auto hact _ ih =>
    obtain ⟨fresh', hrest⟩ := ih (fresh + 1)
    exact ⟨fresh', .head _ (Procedure.exec_auto (hact _)) hrest⟩
  | rollback hact _ ih =>
    obtain ⟨fresh', hrest⟩ := ih fresh
    exact ⟨fresh', .head _ (Procedure.exec_rollback (hact _)) hrest⟩

/-- A procedure that only reads until it has ended keeps reading what it has read. -/
theorem Procedure.keeps_reads {P : Procedure Db Lock Write Loc} {db : Db} {last : Loc}
    (hended : ∀ m, P.act last m db = none) :
    P.Keeps (fun _ => True) fun loc view => view = db ∧ P.Reads db loc last where
  stmt {loc m view locks writes next} h hact := by
    obtain ⟨rfl, hreads⟩ := h
    cases hreads with
    | refl => simp [hended m] at hact
    | auto h _ => simp [h m] at hact
    | rollback h _ => simp [h m] at hact
  auto {loc m view locks writes next} h hact := by
    obtain ⟨rfl, hreads⟩ := h
    cases hreads with
    | refl => simp [hended m] at hact
    | auto h hrest =>
      rw [h m] at hact
      cases hact
      exact ⟨trivial, rfl, hrest⟩
    | rollback h _ => simp [h m] at hact
  commit {loc m view next} h hact := by
    obtain ⟨rfl, hreads⟩ := h
    cases hreads with
    | refl => simp [hended m] at hact
    | auto h _ => simp [h m] at hact
    | rollback h _ => simp [h m] at hact
  rollback {loc m view next} h hact := by
    obtain ⟨rfl, hreads⟩ := h
    cases hreads with
    | refl => simp [hended m] at hact
    | auto h _ => simp [h m] at hact
    | rollback h hrest =>
      rw [h m] at hact
      cases hact
      exact .inl ⟨trivial, rfl, hrest⟩

namespace Machine

variable {M : Machine Db World Lock Write Loc' Input Proc Op} {P : Procedure Db Lock Write Loc}
  {wrap : Loc → Loc'} {i : ℕ} {Rests : Loc → Prop} {I : Loc → Db → Prop}

/-- Session `i` stands in the procedure, and its view is as `I` says. -/
def Stands (wrap : Loc → Loc') (P : Procedure Db Lock Write Loc) (Rests : Loc → Prop)
    (I : Loc → Db → Prop) (i : ℕ) (s : State Db World Lock Write Loc') : Prop :=
  ∃ loc, (s.session i).loc = wrap loc ∧ (Rests loc → (s.session i).log = []) ∧
    I loc ((s.session i).log.foldl P.apply s.db)

theorem stands_ended {s s' : State Db World Lock Write Loc'} {loc : Loc} {db : Db}
    (hsession : s'.session = (s.setSession i ⟨wrap loc, [], none⟩).session) (hdb : s'.db = db)
    (h : I loc db) : Stands wrap P Rests I i s' := by
  have hself : s'.session i = ⟨wrap loc, [], none⟩ := by
    rw [hsession, State.setSession_session_self]
  refine ⟨loc, by rw [hself], fun _ => by rw [hself], ?_⟩
  rw [hself, hdb]
  exact h

theorem Executes.stands [DecidableEq Lock] (hM : M.Executes P wrap) (hkeeps : P.Keeps Rests I)
    {s₀ s : State Db World Lock Write Loc'} (h₀ : Stands wrap P Rests I i s₀)
    (h : Reach M.step (Only i) s₀ s) : Stands wrap P Rests I i s := by
  have hview : ∀ {s : State Db World Lock Write Loc'},
      M.view s i = (s.session i).log.foldl P.apply s.db := fun {s} => by
    rw [Machine.view, hM.apply]
  refine h.invariant h₀ (step_induction ?_ ?_ ?_ ?_ ?_ ?_ ?_ ?_ ?_)
  · rintro s j proc - hok
    exact hok.elim
  · -- a statement
    rintro s j input locks writes next ⟨loc, hloc, -, hI⟩ (rfl : j = i) hact -
    rw [hloc, hM.act] at hact
    obtain ⟨next, hstmt, rfl⟩ := embed_eq_stmt hact
    obtain ⟨hbusy, hnext⟩ := hkeeps.stmt hI (hview ▸ hstmt)
    have hself : (afterStmt s j locks writes (wrap next)).session j
        = ⟨wrap next, (s.session j).log ++ writes, some (s.moment j).now⟩ :=
      State.setSession_session_self
    refine ⟨next, by rw [hself], fun hrests => absurd hrests hbusy, ?_⟩
    rw [hself]
    show I next (((s.session j).log ++ writes).foldl P.apply s.db)
    rw [List.foldl_append]
    exact hnext
  · rintro s j input locks writes next ⟨loc, hloc, hrests, hI⟩ (rfl : j = i) hact -
    rw [hloc, hM.act] at hact
    obtain ⟨next, hauto, rfl⟩ := embed_eq_auto hact
    obtain ⟨hloc', hnext⟩ := hkeeps.auto hI (hview ▸ hauto)
    refine stands_ended (s := s) rfl rfl ?_
    show I next (writes.foldl M.apply s.db)
    rw [hrests hloc'] at hnext
    rw [hM.apply]
    exact hnext
  · rintro s j input next ⟨loc, hloc, -, hI⟩ (rfl : j = i) hact
    rw [hloc, hM.act] at hact
    obtain ⟨next, hcommit, rfl⟩ := embed_eq_commit hact
    have hnext := hkeeps.commit hI (hview ▸ hcommit)
    exact stands_ended (s := s) rfl hview hnext
  · rintro s j input next ⟨loc, hloc, hrests, hI⟩ (rfl : j = i) hact
    rw [hloc, hM.act] at hact
    obtain ⟨next, hrollback, rfl⟩ := embed_eq_rollback hact
    refine stands_ended (s := s) rfl rfl ?_
    rcases hkeeps.rollback hI (hview ▸ hrollback) with ⟨hloc', hnext⟩ | hany
    · rw [hrests hloc'] at hnext
      exact hnext
    · exact hany _
  · rintro s j input world next ⟨loc, hloc, -, -⟩ (rfl : j = i) hact
    rw [hloc, hM.act] at hact
    obtain ⟨world', next, hcall, -, rfl⟩ := embed_eq_call hact
    exact (hM.calls _ _ _ _ hcall).elim
  · rintro s j - hok
    exact hok.elim
  · rintro s o locks writes - hok
    exact hok.elim
  · rintro s n ⟨loc, hloc, hrests, hI⟩ -
    exact ⟨loc, hloc, hrests, hI⟩

/-- Nothing can keep a procedure that only reads from its end. -/
theorem Executes.reads [DecidableEq Lock] (hM : M.Executes P wrap) {db : Db} {loc last : Loc}
    (h : P.Reads db loc last) {s : State Db World Lock Write Loc'}
    (hloc : (s.session i).loc = wrap loc) (hlog : (s.session i).log = []) (hdb : s.db = db)
    (input : Input) :
    ∃ n s', run M.step s (List.replicate n (.exec i input)) = some s' ∧
      (s'.session i).loc = wrap last := by
  induction h generalizing s with
  | refl => exact ⟨0, s, rfl, hloc⟩
  | @auto loc next last hact _ ih =>
    have hfree : s.available i ([] : List Lock) = true := by simp [State.available]
    have hread : M.act (s.session i).loc (s.moment i) (M.view s i) s.world input
        = some (.auto [] [] (wrap next)) := by
      rw [hloc, hM.act, Machine.view, hlog, hdb]
      show (P.act loc _ db).map _ = _
      rw [hact]
      rfl
    have hself : (M.afterAuto s i [] (wrap next)).session i = ⟨wrap next, [], none⟩ :=
      State.setSession_session_self
    obtain ⟨n, s', hrun, hlast⟩ := ih (s := M.afterAuto s i [] (wrap next)) (by rw [hself])
      (by rw [hself]) hdb
    refine ⟨n + 1, s', ?_, hlast⟩
    rw [List.replicate_succ, Lib.run, step_auto hread hfree]
    exact hrun
  | @rollback loc next last hact _ ih =>
    have hstep : M.step s (.exec i input) = some (afterRollback s i (wrap next)) := by
      simp only [step]
      rw [hloc, hM.act, Machine.view, hlog, hdb]
      show ((P.act loc _ db).map _).bind _ = _
      rw [hact]
      rfl
    have hself : (afterRollback s i (wrap next)).session i = ⟨wrap next, [], none⟩ :=
      State.setSession_session_self
    obtain ⟨n, s', hrun, hlast⟩ := ih (s := afterRollback s i (wrap next)) (by rw [hself])
      (by rw [hself]) hdb
    refine ⟨n + 1, s', ?_, hlast⟩
    rw [List.replicate_succ, Lib.run, hstep]
    exact hrun

end Machine

end RatatoskrVault.Lib
