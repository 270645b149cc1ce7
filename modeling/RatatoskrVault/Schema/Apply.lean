import RatatoskrVault.Lib.Locking

/-! `apply_schema`: every process that starts creates the schema unless the database has it, and
processes overlap while one replaces another. -/
namespace RatatoskrVault.ApplySchema

open Lib

variable {Statement : Type} [DecidableEq Statement]

/-- `schema.sql`: the statement that creates the one schema, and what it goes on with. -/
structure SchemaFile (Statement : Type) where
  createSchema : Statement
  rest : List Statement

def SchemaFile.statements (file : SchemaFile Statement) : List Statement :=
  file.createSchema :: file.rest

/-- The advisory lock, held to the end of the transaction that takes it. -/
inductive Lock
  | schema
  deriving DecidableEq

/-- The reply to a query. -/
inductive Reply
  | ok | error
  /-- The query took effect, and its caller is not told so. -/
  | lost
  deriving DecidableEq

/-- Where a process is in `apply_schema`. -/
inductive Loc (Statement : Type)
  | idle
  | lock | check
  | execute (rest : List Statement)
  | commit
  | applied | failed
  deriving DecidableEq

def Loc.isIdle : Loc Statement → Bool
  | .idle => true
  | .applied => true
  | .failed => true
  | _ => false

/-- A database is what has been executed in it, in order. -/
def machine (file : SchemaFile Statement) :
    Machine (List Statement) Unit Lock Statement (Loc Statement) Reply Unit Empty where
  apply db statement := db ++ [statement]
  start _ := .lock
  isIdle := Loc.isIdle
  aborted := .failed
  op o := nomatch o
  act loc _ db _ reply :=
    match loc, reply with
    | .lock, .ok => some (.stmt [.schema] [] .check)
    | .check, .ok =>
      some (.stmt [] [] (if file.createSchema ∈ db then .commit else .execute file.statements))
    | .execute (statement :: rest), .ok =>
      some (.stmt [] [statement] (if rest = [] then .commit else .execute rest))
    | .commit, .ok => some (.commit .applied)
    | .commit, .lost => some (.commit .failed)
    | .idle, _ => none
    | .applied, _ => none
    | .failed, _ => none
    | _, _ => some (.rollback .failed)

/-- Whoever decides about the schema holds the lock. -/
def discipline : Discipline (Loc Statement) Statement Lock where
  rest
    | .check => false
    | .execute _ => false
    | .commit => false
    | _ => true
  needs loc _ :=
    match loc with
    | .check => [.schema]
    | .execute _ => [.schema]
    | .commit => [.schema]
    | _ => []

section Act

variable {file : SchemaFile Statement} {loc next : Loc Statement} {m : Moment} {db : List Statement}
  {world : Unit} {reply : Reply} {locks : List Lock} {writes : List Statement}
  {action : Action Unit Lock Statement (Loc Statement)}

/-- The statements of the transaction. -/
inductive SchemaStmt (file : SchemaFile Statement) (db : List Statement) :
    Loc Statement → List Lock → List Statement → Loc Statement → Prop
  | lock : SchemaStmt file db .lock [.schema] [] .check
  | present : file.createSchema ∈ db → SchemaStmt file db .check [] [] .commit
  | absent : file.createSchema ∉ db → SchemaStmt file db .check [] [] (.execute file.statements)
  | last (statement : Statement) : SchemaStmt file db (.execute [statement]) [] [statement] .commit
  | next (statement : Statement) (rest : List Statement) : rest ≠ [] →
    SchemaStmt file db (.execute (statement :: rest)) [] [statement] (.execute rest)

theorem act_stmt (h : (machine file).act loc m db world reply = some (.stmt locks writes next)) :
    SchemaStmt file db loc locks writes next := by
  cases loc with
  | lock =>
    cases reply <;> cases h
    exact .lock
  | check =>
    cases reply <;> cases h
    split_ifs with hpresent
    · exact .present hpresent
    · exact .absent hpresent
  | execute statements =>
    cases statements with
    | nil => cases reply <;> cases h
    | cons statement rest =>
      cases reply <;> cases h
      split_ifs with hlast
      · rw [hlast]
        exact .last statement
      · exact .next statement rest hlast
  | commit => cases reply <;> cases h
  | _ => cases h

theorem act_commit (h : (machine file).act loc m db world reply = some (.commit next)) :
    loc = .commit ∧ (next = .applied ∨ next = .failed) := by
  cases loc with
  | commit =>
    cases reply <;> cases h
    · exact ⟨rfl, Or.inl rfl⟩
    · exact ⟨rfl, Or.inr rfl⟩
  | execute statements => cases statements <;> cases reply <;> cases h
  | lock => cases reply <;> cases h
  | check => cases reply <;> cases h
  | _ => cases h

theorem act_rollback (h : (machine file).act loc m db world reply = some (.rollback next)) :
    next = .failed := by
  cases loc with
  | commit =>
    cases reply <;> cases h
    rfl
  | execute statements => cases statements <;> cases reply <;> cases h <;> rfl
  | lock => cases reply <;> cases h <;> rfl
  | check => cases reply <;> cases h <;> rfl
  | _ => cases h

theorem act_transactional (h : (machine file).act loc m db world reply = some action) :
    (∀ locks writes next, action ≠ .auto locks writes next) ∧
      ∀ world next, action ≠ .call world next := by
  cases loc with
  | execute statements => cases statements <;> cases reply <;> cases h <;> simp
  | idle => cases h
  | applied => cases h
  | failed => cases h
  | _ => cases reply <;> cases h <;> simp

theorem respects (file : SchemaFile Statement) : (machine file).Respects discipline where
  start _ := rfl
  aborted := rfl
  rest h := by cases act_stmt h <;> rfl
  stmt log h l hl := by
    cases act_stmt h with
    | lock => exact Or.inr hl
    | _ => exact Or.inl hl
  auto h := absurd rfl ((act_transactional h).1 _ _ _)
  commit h := by
    rcases (act_commit h).2 with rfl | rfl
    · rfl
    · rfl
  rollback h := by
    rw [act_rollback h]
    rfl
  call h := absurd rfl ((act_transactional h).2 _ _)

end Act

section Once

variable {file : SchemaFile Statement} {db₀ : List Statement}
  {s s' : State (List Statement) Unit Lock Statement (Loc Statement)}

/-- What a process knows about the schema where it is. -/
def Knows (file : SchemaFile Statement) (db : List Statement) (log : List Statement) :
    Loc Statement → Prop
  | .check => log = []
  | .execute rest => rest ≠ [] ∧ file.createSchema ∉ db ∧ log ++ rest = file.statements
  | .commit => log = [] ∧ file.createSchema ∈ db ∨
      file.createSchema ∉ db ∧ log = file.statements
  | .applied => file.createSchema ∈ db
  | _ => True

/-- The database as it was, or with the whole file executed once. -/
def AtMostOnce (file : SchemaFile Statement) (db₀ db : List Statement) : Prop :=
  db = db₀ ∨ file.createSchema ∉ db₀ ∧ db = db₀ ++ file.statements

structure Applies (file : SchemaFile Statement) (db₀ : List Statement)
    (s : State (List Statement) Unit Lock Statement (Loc Statement)) : Prop where
  locked : Locked discipline s
  once : AtMostOnce file db₀ s.db
  knows : ∀ i, Knows file s.db (s.session i).log (s.session i).loc

theorem view_eq (i : ℕ) : (machine file).view s i = s.db ++ (s.session i).log := by
  have hfold : ∀ (log db : List Statement),
      log.foldl (machine file).apply db = db ++ log := by
    intro log
    induction log with
    | nil => intro db; simp
    | cons statement log ih =>
      intro db
      rw [List.foldl_cons, ih]
      simp [machine]
  exact hfold _ _

omit [DecidableEq Statement] in
/-- A session has moved and nothing has been committed. -/
theorem knows_moved {i : ℕ} {σ : Session Statement (Loc Statement)}
    (h : AtMostOnce file db₀ s.db ∧ ∀ i, Knows file s.db (s.session i).log (s.session i).loc)
    (hdb : s'.db = s.db) (hsession : s'.session = (s.setSession i σ).session)
    (hσ : Knows file s.db σ.log σ.loc) :
    AtMostOnce file db₀ s'.db ∧ ∀ i, Knows file s'.db (s'.session i).log (s'.session i).loc := by
  rw [hdb, hsession]
  refine ⟨h.1, fun j => ?_⟩
  by_cases hji : j = i
  · rw [hji, State.setSession_session_self]
    exact hσ
  · rw [State.setSession_session_of_ne hji]
    exact h.2 j

omit [DecidableEq Statement] in
/-- Without the lock, a process knows nothing that another one can change. -/
theorem Knows.grows {db log executed : List Statement} {loc : Loc Statement}
    (hneeds : .schema ∉ discipline.needs loc log) (h : Knows file db log loc) :
    Knows file (db ++ executed) log loc := by
  cases loc with
  | check => exact h
  | execute rest => exact absurd (List.mem_singleton_self _) hneeds
  | commit => exact absurd (List.mem_singleton_self _) hneeds
  | applied => exact List.mem_append_left _ h
  | _ => trivial

omit [DecidableEq Statement] in
/-- What the transaction of a process has written when it commits. -/
theorem atMostOnce_commit {db log : List Statement} (honce : AtMostOnce file db₀ db)
    (h : log = [] ∧ file.createSchema ∈ db ∨ file.createSchema ∉ db ∧ log = file.statements) :
    AtMostOnce file db₀ (db ++ log) ∧ file.createSchema ∈ db ++ log := by
  rcases h with ⟨rfl, hpresent⟩ | ⟨habsent, rfl⟩
  · rw [List.append_nil]
    exact ⟨honce, hpresent⟩
  · have hcreated : file.createSchema ∈ file.statements := List.mem_cons_self ..
    rcases honce with rfl | ⟨-, rfl⟩
    · exact ⟨Or.inr ⟨habsent, rfl⟩, List.mem_append_right _ hcreated⟩
    · exact absurd (List.mem_append_right _ hcreated) habsent

theorem knows_step (file : SchemaFile Statement) (db₀ : List Statement) :
    ∀ s (l : Label Reply Unit Empty) s',
      (AtMostOnce file db₀ s.db ∧ ∀ i, Knows file s.db (s.session i).log (s.session i).loc) →
      Locked discipline s → (machine file).step s l = some s' →
      AtMostOnce file db₀ s'.db ∧ ∀ i, Knows file s'.db (s'.session i).log (s'.session i).loc := by
  refine Machine.step_induction ?_ ?_ ?_ ?_ ?_ ?_ ?_ ?_ ?_
  · intro s i proc h hlocked hidle
    exact knows_moved (σ := ⟨.lock, [], none⟩) h rfl rfl trivial
  · intro s i reply locks writes next h hlocked hact hfree
    have hknows := h.2 i
    refine knows_moved h rfl rfl (i := i) ?_
    show Knows file s.db ((s.session i).log ++ writes) next
    rw [view_eq] at hact
    have hstmt := act_stmt hact
    generalize hloc : (s.session i).loc = loc at hknows hstmt
    cases hstmt with
    | lock =>
      have hlog := hlocked.unwritten i (by rw [hloc]; rfl)
      rw [hlog]
      rfl
    | present hpresent =>
      have hlog : (s.session i).log = [] := hknows
      rw [hlog, List.append_nil] at hpresent
      rw [hlog]
      exact Or.inl ⟨rfl, hpresent⟩
    | absent habsent =>
      have hlog : (s.session i).log = [] := hknows
      rw [hlog, List.append_nil] at habsent
      rw [hlog]
      exact ⟨List.cons_ne_nil _ _, habsent, rfl⟩
    | last statement => exact Or.inr ⟨hknows.2.1, hknows.2.2⟩
    | next statement rest hrest =>
      refine ⟨hrest, hknows.2.1, ?_⟩
      rw [List.append_assoc]
      exact hknows.2.2
  · intro s i reply locks writes next h hlocked hact hfree
    exact absurd rfl ((act_transactional hact).1 _ _ _)
  · intro s i reply next h hlocked hact
    obtain ⟨hloc, hnext⟩ := act_commit hact
    have hknows := h.2 i
    rw [hloc] at hknows
    obtain ⟨honce, hpresent⟩ := atMostOnce_commit h.1 hknows
    have hdb : ((machine file).afterCommit s i next).db = s.db ++ (s.session i).log := view_eq i
    rw [hdb]
    refine ⟨honce, fun j => ?_⟩
    by_cases hji : j = i
    · have hself : ((machine file).afterCommit s i next).session i = ⟨next, [], none⟩ :=
        State.setSession_session_self
      rw [hji, hself]
      rcases hnext with rfl | rfl
      · exact hpresent
      · trivial
    · have hsame : ((machine file).afterCommit s i next).session j = s.session j :=
        State.setSession_session_of_ne hji
      rw [hsame]
      refine (h.2 j).grows fun hneeds => hji (hlocked.unique hneeds ?_)
      rw [hloc]
      exact List.mem_singleton_self _
  · intro s i reply next h hlocked hact
    refine knows_moved (i := i) (σ := ⟨next, [], none⟩) h rfl rfl ?_
    rw [act_rollback hact]
    trivial
  · intro s i reply world next h hlocked hact
    exact absurd rfl ((act_transactional hact).2 _ _)
  · intro s i h hlocked
    exact knows_moved (i := i) (σ := ⟨.failed, [], none⟩) h rfl rfl trivial
  · intro s o
    exact o.elim
  · intro s n h hlocked
    exact h

/-- Processes that start together, stop at any point and lose replies leave the database as it was
or with the whole file executed once, and no process comes back from `apply_schema` without the
schema. -/
theorem schema_applied_once (file : SchemaFile Statement)
    (s₀ s : State (List Statement) Unit Lock Statement (Loc Statement))
    (hidle : ∀ i, s₀.session i = ⟨.idle, [], none⟩) (hfree : s₀.held = [])
    (ls : List (Label Reply Unit Empty)) (hrun : run (machine file).step s₀ ls = some s) :
    (s.db = s₀.db ∨ file.createSchema ∉ s₀.db ∧ s.db = s₀.db ++ file.statements) ∧
      ∀ i, (s.session i).loc = .applied → file.createSchema ∈ s.db := by
  have hstart : Applies file s₀.db s₀ := by
    refine ⟨⟨fun l i j hi => ?_, fun i l hl => ?_, fun i _ => ?_⟩, Or.inl rfl, fun i => ?_⟩
    · rw [hfree] at hi
      cases hi
    · rw [hidle i] at hl
      cases hl
    · rw [hidle i]
    · rw [hidle i]
      trivial
  have hany : Along (machine file).step (fun _ _ => True) s₀ ls :=
    along_of_forall (fun _ _ _ => trivial) _
  have hend : Applies file s₀.db s := by
    refine (Reach.of_run hrun hany).invariant hstart ?_
    intro s₁ l s₂ h _ hstep
    obtain ⟨honce, hknows⟩ := knows_step file s₀.db s₁ l s₂ ⟨h.once, h.knows⟩ h.locked hstep
    exact ⟨Locked.step (respects file) _ _ _ h.locked hstep, honce, hknows⟩
  refine ⟨hend.once, fun i hloc => ?_⟩
  have hknows := hend.knows i
  rw [hloc] at hknows
  exact hknows

end Once

namespace Sample

/-- The schema and one table. -/
def oneTable : SchemaFile ℕ := ⟨1, [2]⟩

def empty : State (List ℕ) Unit Lock ℕ (Loc ℕ) where
  db := []
  world := ()
  clock := 0
  session _ := ⟨.idle, [], none⟩
  held := []
  fresh := 0

/-- Two processes start, and the second one waits for the first. -/
def overlapping : List (Label Reply Unit Empty) :=
  [.start 0 (), .start 1 (), .exec 0 .ok, .exec 0 .ok, .exec 0 .ok, .exec 0 .ok, .exec 0 .ok,
    .exec 1 .ok, .exec 1 .ok, .exec 1 .ok]

end Sample

theorem schema_applied_once_overlapping :
    ∃ s, run (machine Sample.oneTable).step Sample.empty Sample.overlapping = some s ∧
      s.db = [1, 2] ∧ (s.session 0).loc = .applied ∧ (s.session 1).loc = .applied ∧
      (s.db = [] ∨ Sample.oneTable.createSchema ∉ ([] : List ℕ) ∧
        s.db = [] ++ Sample.oneTable.statements) ∧
      ∀ i, (s.session i).loc = .applied → Sample.oneTable.createSchema ∈ s.db := by
  refine ⟨_, rfl, rfl, rfl, rfl, ?_⟩
  exact schema_applied_once Sample.oneTable Sample.empty _ (fun _ => rfl) rfl Sample.overlapping rfl

end RatatoskrVault.ApplySchema
