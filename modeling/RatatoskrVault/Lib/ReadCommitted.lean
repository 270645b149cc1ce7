import Mathlib.Logic.Function.Basic
import RatatoskrVault.Lib.Runs

/-! Sessions that run transactions against one shared database at READ COMMITTED. A statement
sees the committed database under the session's own uncommitted writes, a commit replays these
writes on what is committed by then, and a lock is held until its transaction ends. -/
namespace RatatoskrVault.Lib

/-- What a statement can read of time and identity: the start of its transaction, the wall clock
and an identifier no earlier step has used. -/
structure Moment where
  now : ℕ
  clock : ℕ
  fresh : ℕ

/-- What one step of a session asks for. -/
inductive Action (World Lock Write Loc : Type)
  /-- A statement of the open transaction: waits for `locks`, keeps them, appends `writes`. -/
  | stmt (locks : List Lock) (writes : List Write) (next : Loc)
  /-- A statement that is its own transaction. -/
  | auto (locks : List Lock) (writes : List Write) (next : Loc)
  | commit (next : Loc)
  | rollback (next : Loc)
  /-- A call outside the database. -/
  | call (world : World) (next : Loc)

/-- The same request with its continuation renamed, for a procedure called by another. -/
def Action.map {World Lock Write Loc Loc' : Type} (f : Loc → Loc') :
    Action World Lock Write Loc → Action World Lock Write Loc'
  | .stmt locks writes next => .stmt locks writes (f next)
  | .auto locks writes next => .auto locks writes (f next)
  | .commit next => .commit (f next)
  | .rollback next => .rollback (f next)
  | .call world next => .call world (f next)

/-- The same request in a larger world, of which the procedure sees a part. -/
def Action.embed {World World' Lock Write Loc Loc' : Type} (put : World → World') (f : Loc → Loc') :
    Action World Lock Write Loc → Action World' Lock Write Loc'
  | .stmt locks writes next => .stmt locks writes (f next)
  | .auto locks writes next => .auto locks writes (f next)
  | .commit next => .commit (f next)
  | .rollback next => .rollback (f next)
  | .call world next => .call (put world) (f next)

section

variable {World World' Lock Write Loc Loc' : Type} {f : Loc → Loc'} {put : World → World'}
  {o : Option (Action World Lock Write Loc)} {locks : List Lock} {writes : List Write}
  {next : Loc'} {world' : World'}

theorem embed_eq_stmt (h : o.map (Action.embed put f) = some (.stmt locks writes next)) :
    ∃ n, o = some (.stmt locks writes n) ∧ f n = next := by
  obtain ⟨a, rfl, ha⟩ := Option.map_eq_some_iff.mp h
  cases a <;> cases ha
  exact ⟨_, rfl, rfl⟩

theorem embed_eq_auto (h : o.map (Action.embed put f) = some (.auto locks writes next)) :
    ∃ n, o = some (.auto locks writes n) ∧ f n = next := by
  obtain ⟨a, rfl, ha⟩ := Option.map_eq_some_iff.mp h
  cases a <;> cases ha
  exact ⟨_, rfl, rfl⟩

theorem embed_eq_commit (h : o.map (Action.embed put f) = some (.commit next)) :
    ∃ n, o = some (.commit n) ∧ f n = next := by
  obtain ⟨a, rfl, ha⟩ := Option.map_eq_some_iff.mp h
  cases a <;> cases ha
  exact ⟨_, rfl, rfl⟩

theorem embed_eq_rollback (h : o.map (Action.embed put f) = some (.rollback next)) :
    ∃ n, o = some (.rollback n) ∧ f n = next := by
  obtain ⟨a, rfl, ha⟩ := Option.map_eq_some_iff.mp h
  cases a <;> cases ha
  exact ⟨_, rfl, rfl⟩

theorem embed_eq_call (h : o.map (Action.embed put f) = some (.call world' next)) :
    ∃ world n, o = some (.call world n) ∧ put world = world' ∧ f n = next := by
  obtain ⟨a, rfl, ha⟩ := Option.map_eq_some_iff.mp h
  cases a <;> cases ha
  exact ⟨_, _, rfl, rfl, rfl⟩

end

section

variable {World Lock Write Loc Loc' : Type} {f : Loc → Loc'} {o : Option (Action World Lock Write Loc)}
  {locks : List Lock} {writes : List Write} {next : Loc'} {world : World}

theorem map_eq_stmt (h : o.map (Action.map f) = some (.stmt locks writes next)) :
    ∃ n, o = some (.stmt locks writes n) ∧ f n = next := by
  obtain ⟨a, rfl, ha⟩ := Option.map_eq_some_iff.mp h
  cases a <;> cases ha
  exact ⟨_, rfl, rfl⟩

theorem map_eq_auto (h : o.map (Action.map f) = some (.auto locks writes next)) :
    ∃ n, o = some (.auto locks writes n) ∧ f n = next := by
  obtain ⟨a, rfl, ha⟩ := Option.map_eq_some_iff.mp h
  cases a <;> cases ha
  exact ⟨_, rfl, rfl⟩

theorem map_eq_commit (h : o.map (Action.map f) = some (.commit next)) :
    ∃ n, o = some (.commit n) ∧ f n = next := by
  obtain ⟨a, rfl, ha⟩ := Option.map_eq_some_iff.mp h
  cases a <;> cases ha
  exact ⟨_, rfl, rfl⟩

theorem map_eq_rollback (h : o.map (Action.map f) = some (.rollback next)) :
    ∃ n, o = some (.rollback n) ∧ f n = next := by
  obtain ⟨a, rfl, ha⟩ := Option.map_eq_some_iff.mp h
  cases a <;> cases ha
  exact ⟨_, rfl, rfl⟩

theorem map_eq_call (h : o.map (Action.map f) = some (.call world next)) :
    ∃ n, o = some (.call world n) ∧ f n = next := by
  obtain ⟨a, rfl, ha⟩ := Option.map_eq_some_iff.mp h
  cases a <;> cases ha
  exact ⟨_, rfl, rfl⟩

end

/-- The same request under other names for its locks and writes, in a larger world. -/
def Action.lift {World World' Lock Lock' Write Write' Loc Loc' : Type} (lock : Lock → Lock')
    (write : Write → Write') (put : World → World') (f : Loc → Loc') :
    Action World Lock Write Loc → Action World' Lock' Write' Loc'
  | .stmt locks writes next => .stmt (locks.map lock) (writes.map write) (f next)
  | .auto locks writes next => .auto (locks.map lock) (writes.map write) (f next)
  | .commit next => .commit (f next)
  | .rollback next => .rollback (f next)
  | .call world next => .call (put world) (f next)

section

variable {World World' Lock Lock' Write Write' Loc Loc' : Type} {lock : Lock → Lock'}
  {write : Write → Write'} {put : World → World'} {f : Loc → Loc'}
  {o : Option (Action World Lock Write Loc)} {locks : List Lock'} {writes : List Write'}
  {next : Loc'} {world' : World'}

theorem lift_eq_stmt (h : o.map (Action.lift lock write put f) = some (.stmt locks writes next)) :
    ∃ ls ws n, o = some (.stmt ls ws n) ∧ ls.map lock = locks ∧ ws.map write = writes ∧
      f n = next := by
  obtain ⟨a, rfl, ha⟩ := Option.map_eq_some_iff.mp h
  cases a <;> cases ha
  exact ⟨_, _, _, rfl, rfl, rfl, rfl⟩

theorem lift_eq_auto (h : o.map (Action.lift lock write put f) = some (.auto locks writes next)) :
    ∃ ls ws n, o = some (.auto ls ws n) ∧ ls.map lock = locks ∧ ws.map write = writes ∧
      f n = next := by
  obtain ⟨a, rfl, ha⟩ := Option.map_eq_some_iff.mp h
  cases a <;> cases ha
  exact ⟨_, _, _, rfl, rfl, rfl, rfl⟩

theorem lift_eq_commit (h : o.map (Action.lift lock write put f) = some (.commit next)) :
    ∃ n, o = some (.commit n) ∧ f n = next := by
  obtain ⟨a, rfl, ha⟩ := Option.map_eq_some_iff.mp h
  cases a <;> cases ha
  exact ⟨_, rfl, rfl⟩

theorem lift_eq_rollback (h : o.map (Action.lift lock write put f) = some (.rollback next)) :
    ∃ n, o = some (.rollback n) ∧ f n = next := by
  obtain ⟨a, rfl, ha⟩ := Option.map_eq_some_iff.mp h
  cases a <;> cases ha
  exact ⟨_, rfl, rfl⟩

theorem lift_eq_call (h : o.map (Action.lift lock write put f) = some (.call world' next)) :
    ∃ world n, o = some (.call world n) ∧ put world = world' ∧ f n = next := by
  obtain ⟨a, rfl, ha⟩ := Option.map_eq_some_iff.mp h
  cases a <;> cases ha
  exact ⟨_, _, rfl, rfl, rfl⟩

end

structure Session (Write Loc : Type) where
  loc : Loc
  log : List Write
  began : Option ℕ

structure State (Db World Lock Write Loc : Type) where
  db : Db
  world : World
  clock : ℕ
  fresh : ℕ
  held : List (Lock × ℕ)
  session : ℕ → Session Write Loc

inductive Label (Input Proc Op : Type)
  /-- A session that is not busy begins a procedure. -/
  | start (i : ℕ) (proc : Proc)
  | exec (i : ℕ) (input : Input)
  /-- A session stops at any point: its process ends or its connection fails. -/
  | abort (i : ℕ)
  /-- An operation that commits in one step. -/
  | op (o : Op)
  | tick (n : ℕ)

/-- The session a step belongs to. -/
def Label.session? {Input Proc Op : Type} : Label Input Proc Op → Option ℕ
  | .start i _ => some i
  | .exec i _ => some i
  | .abort i => some i
  | _ => none

structure Machine (Db World Lock Write Loc Input Proc Op : Type) where
  apply : Db → Write → Db
  act : Loc → Moment → Db → World → Input → Option (Action World Lock Write Loc)
  start : Proc → Loc
  isIdle : Loc → Bool
  aborted : Loc
  op : Op → Moment → Db → World → Option (List Lock × List Write)

variable {Db World Lock Write Loc Input Proc Op : Type}

namespace State

variable (s : State Db World Lock Write Loc)

def moment (i : ℕ) : Moment :=
  { now := ((s.session i).began).getD s.clock, clock := s.clock, fresh := s.fresh }

/-- Nobody but session `i` holds one of the locks. -/
def available [DecidableEq Lock] (i : ℕ) (locks : List Lock) : Bool :=
  s.held.all fun h => !locks.contains h.1 || h.2 == i

def release (i : ℕ) : List (Lock × ℕ) :=
  s.held.filter fun h => h.2 != i

def setSession (i : ℕ) (session : Session Write Loc) : State Db World Lock Write Loc :=
  { s with session := Function.update s.session i session }

variable {s} {i j : ℕ} {session : Session Write Loc}

@[simp] theorem setSession_session_self : (s.setSession i session).session i = session := by
  simp [setSession]

theorem setSession_session_of_ne (h : j ≠ i) :
    (s.setSession i session).session j = s.session j := by
  simp [setSession, h]

end State

namespace Machine

variable (M : Machine Db World Lock Write Loc Input Proc Op)

/-- The database as session `i` sees it. -/
def view (s : State Db World Lock Write Loc) (i : ℕ) : Db :=
  (s.session i).log.foldl M.apply s.db

def afterStart (s : State Db World Lock Write Loc) (i : ℕ) (proc : Proc) :
    State Db World Lock Write Loc :=
  s.setSession i { loc := M.start proc, log := [], began := none }

def afterStmt (s : State Db World Lock Write Loc) (i : ℕ) (locks : List Lock)
    (writes : List Write) (next : Loc) : State Db World Lock Write Loc :=
  { s.setSession i { loc := next, log := (s.session i).log ++ writes,
                     began := some (s.moment i).now } with
    held := locks.map (fun l => (l, i)) ++ s.held
    fresh := s.fresh + 1 }

def afterAuto (s : State Db World Lock Write Loc) (i : ℕ) (writes : List Write) (next : Loc) :
    State Db World Lock Write Loc :=
  { s.setSession i { loc := next, log := [], began := none } with
    db := writes.foldl M.apply s.db
    fresh := s.fresh + 1 }

def afterCommit (s : State Db World Lock Write Loc) (i : ℕ) (next : Loc) :
    State Db World Lock Write Loc :=
  { s.setSession i { loc := next, log := [], began := none } with
    db := M.view s i
    held := s.release i }

/-- The transaction of session `i` ends without its writes. -/
def afterRollback (s : State Db World Lock Write Loc) (i : ℕ) (next : Loc) :
    State Db World Lock Write Loc :=
  { s.setSession i { loc := next, log := [], began := none } with held := s.release i }

def afterCall (s : State Db World Lock Write Loc) (i : ℕ) (world : World) (next : Loc) :
    State Db World Lock Write Loc :=
  { s.setSession i { loc := next, log := [], began := none } with
    world := world
    fresh := s.fresh + 1 }

def afterOp (s : State Db World Lock Write Loc) (writes : List Write) :
    State Db World Lock Write Loc :=
  { s with db := writes.foldl M.apply s.db, fresh := s.fresh + 1 }

variable [DecidableEq Lock]

def perform (s : State Db World Lock Write Loc) (i : ℕ) :
    Action World Lock Write Loc → Option (State Db World Lock Write Loc)
  | .stmt locks writes next =>
    if s.available i locks then some (afterStmt s i locks writes next) else none
  | .auto locks writes next =>
    if s.available i locks then some (M.afterAuto s i writes next) else none
  | .commit next => some (M.afterCommit s i next)
  | .rollback next => some (afterRollback s i next)
  | .call world next => some (afterCall s i world next)

def step (s : State Db World Lock Write Loc) :
    Label Input Proc Op → Option (State Db World Lock Write Loc)
  | .start i proc => if M.isIdle (s.session i).loc then some (M.afterStart s i proc) else none
  | .exec i input =>
    (M.act (s.session i).loc (s.moment i) (M.view s i) s.world input).bind (M.perform s i)
  | .abort i => some (afterRollback s i M.aborted)
  | .op o =>
    (M.op o { now := s.clock, clock := s.clock, fresh := s.fresh } s.db s.world).bind fun r =>
      if s.held.all fun h => !r.1.contains h.1 then some (M.afterOp s r.2) else none
  | .tick n => some { s with clock := s.clock + n }

variable {M} {s s' : State Db World Lock Write Loc}

theorem available_iff {i : ℕ} {locks : List Lock} :
    s.available i locks = true ↔ ∀ l j, (l, j) ∈ s.held → l ∈ locks → j = i := by
  simp only [State.available, List.all_eq_true, Bool.or_eq_true, Bool.not_eq_true',
    beq_iff_eq, Prod.forall, List.contains_iff_mem, ← Bool.not_eq_true]
  constructor
  · intro h l j hm hl
    rcases h l j hm with hn | he
    · exact absurd hl hn
    · exact he
  · intro h l j hm
    by_cases hl : l ∈ locks
    · exact Or.inr (h l j hm hl)
    · exact Or.inl hl

/-- One obligation for each kind of step. -/
theorem step_induction {ok : State Db World Lock Write Loc → Label Input Proc Op → Prop}
    {I : State Db World Lock Write Loc → Prop}
    (start : ∀ s i proc, I s → ok s (.start i proc) → M.isIdle (s.session i).loc = true →
      I (M.afterStart s i proc))
    (stmt : ∀ s i input locks writes next, I s → ok s (.exec i input) →
      M.act (s.session i).loc (s.moment i) (M.view s i) s.world input
        = some (.stmt locks writes next) →
      s.available i locks = true → I (afterStmt s i locks writes next))
    (auto : ∀ s i input locks writes next, I s → ok s (.exec i input) →
      M.act (s.session i).loc (s.moment i) (M.view s i) s.world input
        = some (.auto locks writes next) →
      s.available i locks = true → I (M.afterAuto s i writes next))
    (commit : ∀ s i input next, I s → ok s (.exec i input) →
      M.act (s.session i).loc (s.moment i) (M.view s i) s.world input = some (.commit next) →
      I (M.afterCommit s i next))
    (rollback : ∀ s i input next, I s → ok s (.exec i input) →
      M.act (s.session i).loc (s.moment i) (M.view s i) s.world input = some (.rollback next) →
      I (afterRollback s i next))
    (call : ∀ s i input world next, I s → ok s (.exec i input) →
      M.act (s.session i).loc (s.moment i) (M.view s i) s.world input = some (.call world next) →
      I (afterCall s i world next))
    (abort : ∀ s i, I s → ok s (.abort i) → I (afterRollback s i M.aborted))
    (op : ∀ s o locks writes, I s → ok s (.op o) →
      M.op o { now := s.clock, clock := s.clock, fresh := s.fresh } s.db s.world
        = some (locks, writes) →
      (∀ l j, (l, j) ∈ s.held → l ∉ locks) → I (M.afterOp s writes))
    (tick : ∀ s n, I s → ok s (.tick n) → I { s with clock := s.clock + n }) :
    ∀ s l s', I s → ok s l → M.step s l = some s' → I s' := by
  intro s l s' hI hok hstep
  cases l with
  | start i proc =>
    simp only [step] at hstep
    split_ifs at hstep with hidle
    obtain rfl := Option.some.inj hstep
    exact start s i proc hI hok hidle
  | exec i input =>
    obtain ⟨a, ha, hp⟩ := Option.bind_eq_some_iff.mp hstep
    cases a with
    | stmt locks writes next =>
      simp only [perform] at hp
      split_ifs at hp with hl
      obtain rfl := Option.some.inj hp
      exact stmt s i input locks writes next hI hok ha hl
    | auto locks writes next =>
      simp only [perform] at hp
      split_ifs at hp with hl
      obtain rfl := Option.some.inj hp
      exact auto s i input locks writes next hI hok ha hl
    | commit next =>
      obtain rfl := Option.some.inj hp
      exact commit s i input next hI hok ha
    | rollback next =>
      obtain rfl := Option.some.inj hp
      exact rollback s i input next hI hok ha
    | call world next =>
      obtain rfl := Option.some.inj hp
      exact call s i input world next hI hok ha
  | abort i =>
    obtain rfl := Option.some.inj hstep
    exact abort s i hI hok
  | op o =>
    obtain ⟨⟨locks, writes⟩, ha, hp⟩ := Option.bind_eq_some_iff.mp hstep
    simp only at hp
    split_ifs at hp with hl
    obtain rfl := Option.some.inj hp
    refine op s o locks writes hI hok ha ?_
    intro l j hm hmem
    simp only [List.all_eq_true, Prod.forall, Bool.not_eq_true', ← Bool.not_eq_true,
      List.contains_iff_mem] at hl
    exact hl l j hm hmem
  | tick n =>
    obtain rfl := Option.some.inj hstep
    exact tick s n hI hok

theorem step_auto {i : ℕ} {input : Input} {locks : List Lock} {writes : List Write} {next : Loc}
    (h : M.act (s.session i).loc (s.moment i) (M.view s i) s.world input
      = some (.auto locks writes next)) (hfree : s.available i locks = true) :
    M.step s (.exec i input : Label Input Proc Op) = some (M.afterAuto s i writes next) := by
  simp only [step, h, Option.bind_some, perform, if_pos hfree]

theorem step_commit {i : ℕ} {input : Input} {next : Loc}
    (h : M.act (s.session i).loc (s.moment i) (M.view s i) s.world input = some (.commit next)) :
    M.step s (.exec i input : Label Input Proc Op) = some (M.afterCommit s i next) := by
  simp only [step, h, Option.bind_some, perform]

theorem step_op {o : Op} {locks : List Lock} {writes : List Write}
    (h : M.op o { now := s.clock, clock := s.clock, fresh := s.fresh } s.db s.world
      = some (locks, writes)) (hfree : ∀ l j, (l, j) ∈ s.held → l ∉ locks) :
    M.step s (.op o : Label Input Proc Op) = some (M.afterOp s writes) := by
  have hall : (s.held.all fun held => !locks.contains held.1) = true := by
    simp only [List.all_eq_true, Prod.forall, Bool.not_eq_true', ← Bool.not_eq_true,
      List.contains_iff_mem]
    exact hfree
  simp only [step, h, Option.bind_some, hall, if_true]

theorem step_session_of_ne {l : Label Input Proc Op} {j : ℕ} (h : M.step s l = some s')
    (hj : l.session? ≠ some j) : s'.session j = s.session j := by
  have hset : ∀ i σ, j ≠ i → (s.setSession i σ).session j = s.session j :=
    fun _ _ hji => State.setSession_session_of_ne hji
  cases l with
  | start i proc =>
    have hji : j ≠ i := fun hji => hj (by simp [Label.session?, hji])
    simp only [step] at h
    split_ifs at h
    obtain rfl := Option.some.inj h
    exact hset i _ hji
  | exec i input =>
    have hji : j ≠ i := fun hji => hj (by simp [Label.session?, hji])
    obtain ⟨a, -, hp⟩ := Option.bind_eq_some_iff.mp h
    cases a with
    | stmt locks writes next =>
      simp only [perform] at hp
      split_ifs at hp
      obtain rfl := Option.some.inj hp
      exact hset i _ hji
    | auto locks writes next =>
      simp only [perform] at hp
      split_ifs at hp
      obtain rfl := Option.some.inj hp
      exact hset i _ hji
    | commit next => obtain rfl := Option.some.inj hp; exact hset i _ hji
    | rollback next => obtain rfl := Option.some.inj hp; exact hset i _ hji
    | call world next => obtain rfl := Option.some.inj hp; exact hset i _ hji
  | abort i =>
    have hji : j ≠ i := fun hji => hj (by simp [Label.session?, hji])
    obtain rfl := Option.some.inj h
    exact hset i _ hji
  | op o =>
    obtain ⟨⟨locks, writes⟩, -, hp⟩ := Option.bind_eq_some_iff.mp h
    simp only at hp
    split_ifs at hp
    obtain rfl := Option.some.inj hp
    rfl
  | tick n => obtain rfl := Option.some.inj h; rfl

/-- A run of the first `n` sessions leaves the others as they were. -/
theorem run_session_of_le {ls : List (Label Input Proc Op)} {n j : ℕ}
    (h : run M.step s ls = some s')
    (hls : (ls.all fun l => l.session?.all fun i => decide (i < n)) = true) (hj : n ≤ j) :
    s'.session j = s.session j := by
  induction ls generalizing s with
  | nil => cases h; rfl
  | cons l ls ih =>
    obtain ⟨s₁, hs, hrest⟩ := Option.bind_eq_some_iff.mp h
    simp only [List.all_cons, Bool.and_eq_true] at hls
    rw [ih hrest hls.2]
    refine step_session_of_ne hs fun hl => ?_
    rw [hl] at hls
    simp at hls
    omega

end Machine

end RatatoskrVault.Lib
