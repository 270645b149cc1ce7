import Mathlib.Logic.Function.Basic
import RatatoskrVault.Lib.Runs

/-! `RuntimeState`: readiness is computed from atomics that several tasks write and every request
reads one after another. A load sees the latest store. -/
namespace RatatoskrVault.Http

open Lib

inductive CheckName
  | bus | busPublish | database | drain | startup
  deriving DecidableEq

inductive CheckState
  | pass | fail
  deriving DecidableEq

inductive CheckReason
  | startupIncomplete | shutdownRequested | dependencyUnavailable | publishFailing
  deriving DecidableEq

def CheckState.fromPass (pass : Bool) : CheckState := if pass then .pass else .fail

structure Check where
  name : CheckName
  state : CheckState
  reason : Option CheckReason
  deriving DecidableEq

/-- A check, with its reason if it does not pass. -/
def Check.of (name : CheckName) (pass : Bool) (reason : CheckReason) : Check :=
  { name, state := .fromPass pass, reason := if pass then none else some reason }

/-- A dependency that is not configured, or has not reported yet, has no value. -/
structure RuntimeState where
  startupComplete : Bool
  draining : Bool
  database : Option Bool
  bus : Option Bool
  busPublish : Option Bool
  deriving DecidableEq

namespace RuntimeState

def new : RuntimeState :=
  { startupComplete := false, draining := false, database := none, bus := none, busPublish := none }

variable (state : RuntimeState)

/-- Each reported dependency is inserted at the front. -/
def checks : List Check :=
  [(CheckName.database, state.database, CheckReason.dependencyUnavailable),
    (.busPublish, state.busPublish, .publishFailing),
    (.bus, state.bus, .dependencyUnavailable)].foldl
      (fun checks (name, reported, reason) =>
        match reported with
        | none => checks
        | some up => .of name up reason :: checks)
      [.of .drain (!state.draining) .shutdownRequested,
        .of .startup state.startupComplete .startupIncomplete]

def isReady : Bool := state.checks.all fun check => check.state == .pass

end RuntimeState

/-- The calls that change a fact. -/
inductive Setter
  | markStartupComplete
  | setDatabaseReachable (reachable : Bool)
  | setBusConnected (connected : Bool)
  | setBusPublishHealthy (healthy : Bool)
  | beginDraining
  deriving DecidableEq

def Setter.store : Setter → RuntimeState → RuntimeState
  | .markStartupComplete, state => { state with startupComplete := true }
  | .setDatabaseReachable reachable, state => { state with database := some reachable }
  | .setBusConnected connected, state => { state with bus := some connected }
  | .setBusPublishHealthy healthy, state => { state with busPublish := some healthy }
  | .beginDraining, state => { state with draining := true }

/-- The atomics, in the order `checks` loads them. -/
def loadOrder : List CheckName := [.drain, .startup, .database, .busPublish, .bus]

/-- One load. -/
def load (shared : RuntimeState) : CheckName → RuntimeState → RuntimeState
  | .drain, seen => { seen with draining := shared.draining }
  | .startup, seen => { seen with startupComplete := shared.startupComplete }
  | .database, seen => { seen with database := shared.database }
  | .busPublish, seen => { seen with busPublish := shared.busPublish }
  | .bus, seen => { seen with bus := shared.bus }

/-- The reply to `GET /health/ready`. -/
structure Readiness where
  status : ℕ
  state : String
  checks : List Check
  deriving DecidableEq

/-- Where a task is: between its loads, with what it has seen and what it has still to load. -/
inductive Task
  | idle
  /-- `publish_readiness`, which ends a setter. -/
  | publish (seen : RuntimeState) (rest : List CheckName)
  /-- A request, while it asks whether the process is ready, and while it lists the checks. -/
  | ready (seen : RuntimeState) (rest : List CheckName)
  | body (ready : Bool) (seen : RuntimeState) (rest : List CheckName)
  | replied (reply : Readiness)
  deriving DecidableEq

structure State where
  shared : RuntimeState
  /-- `vault_readiness`. -/
  gauge : Bool
  tasks : ℕ → Task

inductive Label
  | set (task : ℕ) (setter : Setter)
  | request (task : ℕ)
  | advance (task : ℕ)
  deriving DecidableEq

def reply (ready : Bool) (seen : RuntimeState) : Readiness :=
  { status := if ready then 200 else 503
    state := if ready then "ready" else "not_ready"
    checks := seen.checks }

/-- A task that can begin something. -/
def Task.free : Task → Bool
  | .idle => true
  | .replied _ => true
  | _ => false

def State.move (s : State) (task : ℕ) (next : Task) : State :=
  { s with tasks := Function.update s.tasks task next }

@[simp] theorem State.move_self (s : State) (task : ℕ) (next : Task) :
    (s.move task next).tasks task = next := Function.update_self ..

theorem State.move_of_ne (s : State) {task other : ℕ} (next : Task) (h : other ≠ task) :
    (s.move task next).tasks other = s.tasks other := Function.update_of_ne h ..

def step (s : State) : Label → Option State
  | .set task setter =>
    if (s.tasks task).free then
      some ({ s with shared := setter.store s.shared }.move task (.publish .new loadOrder))
    else none
  | .request task =>
    if (s.tasks task).free then some (s.move task (.ready .new loadOrder)) else none
  | .advance task =>
    match s.tasks task with
    | .idle => none
    | .replied _ => none
    | .publish seen (name :: rest) => some (s.move task (.publish (load s.shared name seen) rest))
    | .publish seen [] => some ({ s with gauge := seen.isReady }.move task .idle)
    | .ready seen (name :: rest) => some (s.move task (.ready (load s.shared name seen) rest))
    | .ready seen [] => some (s.move task (.body seen.isReady .new loadOrder))
    | .body ready seen (name :: rest) =>
      some (s.move task (.body ready (load s.shared name seen) rest))
    | .body ready seen [] => some (s.move task (.replied (reply ready seen)))

/-- The facts a check of this name fails on. -/
def Fails (state : RuntimeState) : CheckName → Prop
  | .drain => state.draining = true
  | .startup => state.startupComplete = false
  | .database => state.database = some false
  | .busPublish => state.busPublish = some false
  | .bus => state.bus = some false

instance (state : RuntimeState) : DecidablePred (Fails state)
  | .drain => inferInstanceAs (Decidable (state.draining = true))
  | .startup => inferInstanceAs (Decidable (state.startupComplete = false))
  | .database => inferInstanceAs (Decidable (state.database = some false))
  | .busPublish => inferInstanceAs (Decidable (state.busPublish = some false))
  | .bus => inferInstanceAs (Decidable (state.bus = some false))

section Checks

variable {state shared seen : RuntimeState} {name : CheckName}

theorem mem_checks {check : Check} : check ∈ state.checks ↔
    check = .of .drain (!state.draining) .shutdownRequested ∨
      check = .of .startup state.startupComplete .startupIncomplete ∨
      (∃ up, state.database = some up ∧ check = .of .database up .dependencyUnavailable) ∨
      (∃ up, state.busPublish = some up ∧ check = .of .busPublish up .publishFailing) ∨
      ∃ up, state.bus = some up ∧ check = .of .bus up .dependencyUnavailable := by
  obtain ⟨startupComplete, draining, database, bus, busPublish⟩ := state
  cases database <;> cases busPublish <;> cases bus <;>
    simp only [RuntimeState.checks, List.foldl_cons, List.foldl_nil, List.mem_cons,
      List.not_mem_nil, or_false, reduceCtorEq, false_and, exists_const, Option.some.injEq,
      exists_eq_left', false_or] <;> tauto

/-- What fails is listed as failed. -/
theorem exists_failed (h : Fails state name) :
    ∃ check ∈ state.checks, check.name = name ∧ check.state = .fail := by
  have hlisted : ∃ reason, Check.of name false reason ∈ state.checks := by
    cases name with
    | drain =>
      refine ⟨.shutdownRequested, mem_checks.mpr (.inl ?_)⟩
      rw [show state.draining = true from h, Bool.not_true]
    | startup =>
      refine ⟨.startupIncomplete, mem_checks.mpr (.inr (.inl ?_))⟩
      rw [show state.startupComplete = false from h]
    | database => exact ⟨_, mem_checks.mpr (.inr (.inr (.inl ⟨false, h, rfl⟩)))⟩
    | busPublish => exact ⟨_, mem_checks.mpr (.inr (.inr (.inr (.inl ⟨false, h, rfl⟩))))⟩
    | bus => exact ⟨_, mem_checks.mpr (.inr (.inr (.inr (.inr ⟨false, h, rfl⟩))))⟩
  obtain ⟨reason, hmem⟩ := hlisted
  exact ⟨_, hmem, rfl, rfl⟩

theorem not_ready_of_fails (h : Fails state name) : state.isReady = false := by
  obtain ⟨check, hmem, -, hfail⟩ := exists_failed h
  unfold RuntimeState.isReady
  rw [List.all_eq_false]
  refine ⟨check, hmem, ?_⟩
  rw [hfail]
  decide

/-- A load of what fails sees that it does, and a load of something else forgets nothing. -/
theorem fails_load {other : CheckName} (hshared : Fails shared name)
    (hseen : other ≠ name → Fails seen name) : Fails (load shared other seen) name := by
  cases other <;> cases name <;>
    first
    | exact hshared
    | exact hseen (by decide)

end Checks

section Requests

variable {s s' : State} {ls : List Label} {i : ℕ} {name : CheckName}

/-- What a request has seen of a check that fails all the time. -/
def Sees (name : CheckName) : Task → Prop
  | .ready seen rest => name ∈ rest ∨ Fails seen name
  | .body ready seen rest => ready = false ∧ (name ∈ rest ∨ Fails seen name)
  | .replied reply => reply.status = 503 ∧ reply.state = "not_ready" ∧
      ∃ check ∈ reply.checks, check.name = name ∧ check.state = .fail
  | _ => True

theorem mem_loadOrder : name ∈ loadOrder := by
  cases name <;> decide

theorem sees_load {shared seen : RuntimeState} {other : CheckName} {rest : List CheckName}
    (hshared : Fails shared name) (h : name ∈ other :: rest ∨ Fails seen name) :
    name ∈ rest ∨ Fails (load shared other seen) name := by
  by_cases hrest : name ∈ rest
  · exact Or.inl hrest
  · refine Or.inr (fails_load hshared fun hother => ?_)
    rcases h with hmem | hseen
    · rcases List.mem_cons.mp hmem with rfl | hmem
      · exact absurd rfl hother
      · exact absurd hmem hrest
    · exact hseen

theorem move_tasks {task : ℕ} {next : Task} (h : Sees name (s.tasks i))
    (hnext : task = i → Sees name next) : Sees name ((s.move task next).tasks i) := by
  by_cases hsame : i = task
  · rw [hsame, State.move_self]
    exact hnext hsame.symm
  · rw [State.move_of_ne _ _ hsame]
    exact h

theorem sees_step {l : Label} (h : Sees name (s.tasks i)) (hfails : Fails s.shared name)
    (hstep : step s l = some s') : Sees name (s'.tasks i) := by
  cases l with
  | set task setter =>
    unfold step at hstep
    simp only at hstep
    split_ifs at hstep
    obtain rfl := Option.some.inj hstep
    exact @move_tasks { s with shared := setter.store s.shared } i name task _ h fun _ => trivial
  | request task =>
    unfold step at hstep
    simp only at hstep
    split_ifs at hstep
    obtain rfl := Option.some.inj hstep
    exact move_tasks h fun _ => Or.inl mem_loadOrder
  | advance task =>
    unfold step at hstep
    simp only at hstep
    split at hstep
    · exact nomatch hstep
    · exact nomatch hstep
    · obtain rfl := Option.some.inj hstep
      exact move_tasks h fun _ => trivial
    · rename_i seen _
      obtain rfl := Option.some.inj hstep
      exact @move_tasks { s with gauge := seen.isReady } i name task _ h fun _ => trivial
    · rename_i seen other rest hat
      obtain rfl := Option.some.inj hstep
      refine move_tasks h fun hsame => ?_
      rw [← hsame, hat] at h
      exact sees_load hfails h
    · rename_i seen hat
      obtain rfl := Option.some.inj hstep
      refine move_tasks h fun hsame => ⟨?_, Or.inl mem_loadOrder⟩
      rw [← hsame, hat] at h
      exact not_ready_of_fails (h.resolve_left List.not_mem_nil)
    · rename_i ready seen other rest hat
      obtain rfl := Option.some.inj hstep
      refine move_tasks h fun hsame => ?_
      rw [← hsame, hat] at h
      exact ⟨h.1, sees_load hfails h.2⟩
    · rename_i ready seen hat
      obtain rfl := Option.some.inj hstep
      refine move_tasks h fun hsame => ?_
      rw [← hsame, hat] at h
      obtain ⟨rfl, hseen⟩ := h
      exact ⟨rfl, rfl, exists_failed (hseen.resolve_left List.not_mem_nil)⟩

/-- A request whose check fails at every later step. -/
theorem sees_request (hfree : (s.tasks i).free = true)
    (hrun : run step s (.request i :: ls) = some s')
    (hfails : ∀ s₁, step s (.request i) = some s₁ → Along step (fun s _ => Fails s.shared name) s₁ ls) :
    Sees name (s'.tasks i) := by
  obtain ⟨s₁, hs₁, hrest⟩ := Option.bind_eq_some_iff.mp hrun
  have hstart : Sees name (s₁.tasks i) := by
    unfold step at hs₁
    simp only [hfree, if_true] at hs₁
    obtain rfl := Option.some.inj hs₁
    rw [State.move_self]
    exact Or.inl mem_loadOrder
  exact (Reach.of_run hrest (hfails s₁ hs₁)).invariant (I := fun s => Sees name (s.tasks i)) hstart
    fun _ _ _ h hfails hstep => sees_step h hfails hstep

/-- A check that fails as long as a request is answered makes the process not ready, and is listed
as failed. -/
theorem failing_check_is_reported (s s' : State) (i : ℕ) (name : CheckName) (ls : List Label)
    (hfree : (s.tasks i).free = true) (hrun : run step s (.request i :: ls) = some s')
    (hfails : Along step (fun s _ => Fails s.shared name) s (.request i :: ls)) (reply : Readiness)
    (hreply : s'.tasks i = .replied reply) :
    reply.status = 503 ∧ reply.state = "not_ready" ∧
      ∃ check ∈ reply.checks, check.name = name ∧ check.state = .fail := by
  have hsees := sees_request hfree hrun hfails.2
  rw [hreply] at hsees
  exact hsees

end Requests

section Gauge

variable {s s' : State} {shared seen : RuntimeState} {name other : CheckName}

/-- The task is about to set the gauge. -/
def Task.publishing : Task → Bool
  | .publish .. => true
  | _ => false

/-- A process before its first fact. -/
def initial : State :=
  { shared := .new, gauge := RuntimeState.new.isReady, tasks := fun _ => .idle }

/-- A fact changes only once the gauge shows the facts before it. -/
def OneAtATime (s : State) : Label → Prop
  | .set _ _ => ∀ i, (s.tasks i).publishing = false
  | _ => True

/-- The gauge shows the facts, or one task is about to make it. -/
def Shows (s : State) : Prop :=
  ((∀ i, (s.tasks i).publishing = false) ∧ s.gauge = s.shared.isReady) ∨
    ∃ i seen rest, s.tasks i = .publish seen rest ∧
      (∀ j, j ≠ i → (s.tasks j).publishing = false) ∧
      ∀ name, name ∉ rest → load s.shared name seen = seen

theorem load_self : load shared name (load shared name seen) = load shared name seen := by
  cases name <;> rfl

theorem load_comm :
    load shared name (load shared other seen) = load shared other (load shared name seen) := by
  cases name <;> cases other <;> rfl

/-- All loads together see the facts. -/
theorem eq_of_loads (h : ∀ name, load shared name seen = seen) : seen = shared := by
  have hdrain := congrArg RuntimeState.draining (h .drain)
  have hstartup := congrArg RuntimeState.startupComplete (h .startup)
  have hdatabase := congrArg RuntimeState.database (h .database)
  have hpublish := congrArg RuntimeState.busPublish (h .busPublish)
  have hbus := congrArg RuntimeState.bus (h .bus)
  obtain ⟨startupComplete, draining, database, bus, busPublish⟩ := shared
  obtain ⟨startupComplete', draining', database', bus', busPublish'⟩ := seen
  simp only [load] at hdrain hstartup hdatabase hpublish hbus
  rw [hdrain, hstartup, hdatabase, hpublish, hbus]

/-- A step of one task that is not about to publish, before or after. -/
theorem shows_move {task : ℕ} {next : Task} (h : Shows s)
    (hbefore : (s.tasks task).publishing = false) (hafter : next.publishing = false) :
    Shows (s.move task next) := by
  have hothers : ∀ j, (s.tasks j).publishing = false →
      ((s.move task next).tasks j).publishing = false := by
    intro j hj
    by_cases hsame : j = task
    · rw [hsame, State.move_self]
      exact hafter
    · rw [State.move_of_ne _ _ hsame]
      exact hj
  rcases h with ⟨hquiet, hgauge⟩ | ⟨i, seen, rest, hi, hquiet, hloads⟩
  · exact Or.inl ⟨fun j => hothers j (hquiet j), hgauge⟩
  · have hne : i ≠ task := by
      rintro rfl
      rw [hi] at hbefore
      exact Bool.noConfusion hbefore
    refine Or.inr ⟨i, seen, rest, ?_, fun j hj => hothers j (hquiet j hj), hloads⟩
    rw [State.move_of_ne _ _ hne]
    exact hi

theorem shows_step {l : Label} (h : Shows s) (hone : OneAtATime s l)
    (hstep : step s l = some s') : Shows s' := by
  cases l with
  | set task setter =>
    unfold step at hstep
    simp only at hstep
    split_ifs at hstep
    obtain rfl := Option.some.inj hstep
    refine Or.inr ⟨task, _, _, State.move_self .., fun j hj => ?_, fun name hname => ?_⟩
    · rw [State.move_of_ne _ _ hj]
      exact hone j
    · exact absurd mem_loadOrder hname
  | request task =>
    unfold step at hstep
    simp only at hstep
    split_ifs at hstep with hfree
    obtain rfl := Option.some.inj hstep
    refine shows_move h ?_ rfl
    cases hat : s.tasks task <;> first | rfl | (rw [hat] at hfree; exact nomatch hfree)
  | advance task =>
    unfold step at hstep
    simp only at hstep
    split at hstep
    · exact nomatch hstep
    · exact nomatch hstep
    · rename_i seen other rest hat
      obtain rfl := Option.some.inj hstep
      rcases h with ⟨hquiet, -⟩ | ⟨i, seen', rest', hi, hquiet, hloads⟩
      · have hnot := hquiet task
        rw [hat] at hnot
        exact nomatch hnot
      · obtain rfl : task = i := by
          by_contra hne
          have hnot := hquiet task hne
          rw [hat] at hnot
          exact nomatch hnot
        obtain ⟨rfl, rfl⟩ := Task.publish.inj (hat.symm.trans hi)
        refine Or.inr ⟨task, _, _, State.move_self .., fun j hj => ?_, fun name hname => ?_⟩
        · rw [State.move_of_ne _ _ hj]
          exact hquiet j hj
        · show load s.shared name (load s.shared other seen) = load s.shared other seen
          by_cases hsame : name = other
          · rw [hsame]
            exact load_self
          · rw [load_comm, hloads name fun hmem => (List.mem_cons.mp hmem).elim hsame hname]
    · rename_i seen hat
      obtain rfl := Option.some.inj hstep
      rcases h with ⟨hquiet, -⟩ | ⟨i, seen', rest', hi, hquiet, hloads⟩
      · have hnot := hquiet task
        rw [hat] at hnot
        exact nomatch hnot
      · obtain rfl : task = i := by
          by_contra hne
          have hnot := hquiet task hne
          rw [hat] at hnot
          exact nomatch hnot
        obtain ⟨rfl, rfl⟩ := Task.publish.inj (hat.symm.trans hi)
        refine Or.inl ⟨fun j => ?_, ?_⟩
        · by_cases hsame : j = task
          · rw [hsame, State.move_self]
            rfl
          · rw [State.move_of_ne _ _ hsame]
            exact hquiet j hsame
        · show seen.isReady = s.shared.isReady
          rw [eq_of_loads fun name => hloads name List.not_mem_nil]
    · rename_i hat
      obtain rfl := Option.some.inj hstep
      exact shows_move h (by rw [hat]; rfl) rfl
    · rename_i hat
      obtain rfl := Option.some.inj hstep
      exact shows_move h (by rw [hat]; rfl) rfl
    · rename_i hat
      obtain rfl := Option.some.inj hstep
      exact shows_move h (by rw [hat]; rfl) rfl
    · rename_i hat
      obtain rfl := Option.some.inj hstep
      exact shows_move h (by rw [hat]; rfl) rfl

/-- As long as facts change one at a time, the gauge is the readiness whenever no change is under
way. -/
theorem gauge_is_readiness (s : State) (ls : List Label) (hrun : run step initial ls = some s)
    (hone : Along step OneAtATime initial ls) (hquiet : ∀ i, (s.tasks i).publishing = false) :
    s.gauge = s.shared.isReady := by
  have hinitial : Shows initial := Or.inl ⟨fun _ => rfl, rfl⟩
  have hshows : Shows s := (Reach.of_run hrun hone).invariant hinitial
    fun _ _ _ h hok hstep => shows_step h hok hstep
  rcases hshows with ⟨-, hgauge⟩ | ⟨i, seen, rest, hi, -⟩
  · exact hgauge
  · have hnot := hquiet i
    rw [hi] at hnot
    exact nomatch hnot

namespace Sample

/-- A setter from its store to the gauge. -/
def setting (task : ℕ) (setter : Setter) : List Label :=
  .set task setter :: List.replicate 6 (.advance task)

/-- A probe of the database is about to set the gauge when the drain begins. -/
def overtaken : List Label :=
  setting 0 .markStartupComplete ++
    .set 1 (.setDatabaseReachable true) :: List.replicate 5 (.advance 1) ++
      setting 2 .beginDraining ++ [.advance 1]

/-- The database does not answer while a request is served, and the process starts meanwhile. -/
def started : State :=
  { initial with shared := { RuntimeState.new with database := some false } }

def probed : List Label :=
  .request 3 :: List.replicate 2 (.advance 3) ++ setting 0 .markStartupComplete ++
    List.replicate 10 (.advance 3)

end Sample

theorem failing_check_is_reported_database :
    ∃ s' reply, run step Sample.started Sample.probed = some s' ∧ s'.tasks 3 = .replied reply ∧
      reply.status = 503 ∧ ∃ check ∈ reply.checks, check.name = .database ∧ check.state = .fail := by
  have hmeets : meets step (fun s _ => decide (Fails s.shared .database)) Sample.started
      Sample.probed = true := by decide
  have hfails : Along step (fun s _ => Fails s.shared .database) Sample.started Sample.probed :=
    along_of_meets (fun _ _ => of_decide_eq_true) hmeets
  obtain ⟨hstatus, -, hlisted⟩ := failing_check_is_reported Sample.started _ 3 .database _ rfl rfl
    hfails _ rfl
  exact ⟨_, _, rfl, rfl, hstatus, hlisted⟩

theorem gauge_is_readiness_started :
    ∃ s, run step initial (Sample.setting 0 .markStartupComplete) = some s ∧
      s.gauge = s.shared.isReady := by
  refine ⟨_, rfl, gauge_is_readiness _ (Sample.setting 0 .markStartupComplete) rfl ?_ fun i => ?_⟩
  · exact ⟨fun _ => rfl, fun _ _ => along_of_forall
      (fun l hl _ => by rw [List.eq_of_mem_replicate hl]; trivial) _⟩
  · by_cases hi : i = 0
    · rw [hi]
      rfl
    · simp only [State.move_of_ne _ _ hi]
      rfl

/-- A gauge that was computed before the drain can be set after it, and stays. -/
theorem overtaken_gauge_stays_ready :
    (run step initial Sample.overtaken).map (fun s =>
      (s.gauge, s.shared.isReady, (s.tasks 0).publishing || (s.tasks 1).publishing ||
        (s.tasks 2).publishing)) = some (true, false, false) := by
  decide

end Gauge

end RatatoskrVault.Http
