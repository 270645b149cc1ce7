import RatatoskrVault.Core.Config
import RatatoskrVault.Http.Readiness

/-! `run`: one process from its configuration to its exit code, beside the tasks it spawns, the
requests it serves, a broker that can drop the connection, and a supervisor that signals. -/
namespace RatatoskrVault.Process

open Lib Http

inductive ExitCode
  | success | failure | config
  deriving DecidableEq

def ExitCode.status : ExitCode → ℕ
  | .success => 0
  | .failure => 1
  | .config => 78

/-- The two tasks of the policy lane. -/
inductive LaneTask
  | consumer | relay
  deriving DecidableEq

/-- A task that `supervised` runs to its end, and then reports. -/
inductive TaskState
  | unspawned | working
  /-- The work is over, and the bus check does not say so yet. -/
  | over
  | reported | returned | panicked | aborted
  deriving DecidableEq

/-- A handle that a wait for the task finds ready. -/
def TaskState.finished : TaskState → Bool
  | .returned => true
  | .panicked => true
  | _ => false

inductive Broker
  | unconnected | connected
  /-- The watch channel says `lost`. -/
  | lost
  deriving DecidableEq

inductive Pool
  | absent | opened | closed
  deriving DecidableEq

/-- The admin listener, with its requests in flight. -/
inductive Listener
  | unbound
  | accepting (inFlight : ℕ)
  | closing (inFlight : ℕ)
  | closed | aborted
  deriving DecidableEq

/-- What is done before the process waits for its end. -/
inductive StartupStep
  | load | telemetry
  | connect | applySchema
  | connectBus | verifyDurable | setBusConnected | setBusPublishing
  | spawn (task : LaneTask)
  | ping | spawnProber
  | bind | markStartupComplete
  deriving DecidableEq

/-- `run`, with the `build` of `VaultRoutes`, the `start` of the policy lane and
`start_database_prober` where they are called. -/
def startupSteps (database bus : Bool) : List StartupStep :=
  [.load, .telemetry] ++
    (if database then [.connect, .applySchema] else []) ++
    (if database && bus then
      [.connectBus, .verifyDurable, .setBusConnected, .setBusPublishing, .spawn .consumer,
        .spawn .relay] else []) ++
    (if database then [.ping, .spawnProber] else []) ++
    [.bind, .markStartupComplete]

inductive StopReason
  | signal | taskExited
  deriving DecidableEq

structure ShutdownOutcome where
  graceful : Bool
  interrupted : Bool
  deriving DecidableEq

/-- Where `run` is, from its first step on in `wait_for_stop` and `drain_and_close`. -/
inductive Phase
  | starting (rest : List StartupStep)
  | waiting
  | stopping (stop : StopReason)
  | draining (stop : StopReason) (until_ : ℕ)
  | closing (stop : StopReason) (interrupted : Bool)
  | grace (stop : StopReason) (until_ : ℕ)
  | stopped (stop : StopReason) (outcome : ShutdownOutcome)
  | closingPool (stop : StopReason) (outcome : ShutdownOutcome)
  | flushing (stop : StopReason) (outcome : ShutdownOutcome)
  | exited (code : ExitCode)
  deriving DecidableEq

/-- One process and what it holds. -/
structure State where
  phase : Phase
  clock : ℕ
  health : RuntimeState
  pool : Pool
  schemaApplied : Bool
  broker : Broker
  durableVerified : Bool
  consumer : TaskState
  relay : TaskState
  prober : Bool
  listener : Listener
  /-- A signal has come that the present `signal()` has not been asked for yet. -/
  signalled : Bool
  deriving DecidableEq

def State.lane (s : State) : LaneTask → TaskState
  | .consumer => s.consumer
  | .relay => s.relay

def State.setLane (s : State) (task : LaneTask) (now : TaskState) : State :=
  match task with
  | .consumer => { s with consumer := now }
  | .relay => { s with relay := now }

def State.set (s : State) (setter : Setter) : State := { s with health := setter.store s.health }

/-- One call of the startup can fail: the code with which the process then ends. -/
def StartupStep.failure? : StartupStep → Option ExitCode
  | .load => some .config
  | .telemetry => some .failure
  | .connect => some .failure
  | .applySchema => some .failure
  | .connectBus => some .failure
  | .verifyDurable => some .failure
  | .bind => some .failure
  | _ => none

def StartupStep.effect (ok : Bool) (s : State) : StartupStep → State
  | .load => s
  | .telemetry => s
  | .connect => { s with pool := .opened }
  | .applySchema => { s with schemaApplied := true }
  | .connectBus => { s with broker := .connected }
  | .verifyDurable => { s with durableVerified := true }
  | .setBusConnected => s.set (.setBusConnected true)
  | .setBusPublishing => s.set (.setBusPublishHealthy true)
  | .spawn task => s.setLane task .working
  | .ping => s.set (.setDatabaseReachable ok)
  | .spawnProber => { s with prober := true }
  | .bind => { s with listener := .accepting 0 }
  | .markStartupComplete => s.set .markStartupComplete

/-- A task of `policy_bus::start` or the harness has stopped before it was told to. -/
def State.taskFinished (s : State) : Bool := s.consumer.finished || s.relay.finished

/-- The graceful shutdown of a server: it accepts nothing more. -/
def Listener.close : Listener → Listener
  | .accepting inFlight => .closing inFlight
  | listener => listener

/-- An aborted task does nothing more; one that has ended stays as it is. -/
def TaskState.abort : TaskState → TaskState
  | .working => .aborted
  | .over => .aborted
  | .reported => .aborted
  | task => task

structure Settings where
  readers : ConfigReaders
  config : VaultConfig

namespace Settings

variable (settings : Settings)

def startup : List StartupStep :=
  startupSteps settings.config.database.isSome settings.config.bus.isSome

/-- The answer to one call: an extracted configuration is validated too. -/
def succeeds (ok : Bool) : StartupStep → Bool
  | .load => ok && (validate settings.readers settings.config).isEmpty
  | _ => ok

def drain : ℕ := settings.config.shutdown.drainSeconds

def grace : ℕ := settings.config.shutdown.graceSeconds

def initial : State :=
  { phase := .starting settings.startup
    clock := 0
    health := .new
    pool := .absent
    schemaApplied := false
    broker := .unconnected
    durableVerified := false
    consumer := .unspawned
    relay := .unspawned
    prober := false
    listener := .unbound
    signalled := false }

/-- The next step of `run`. `ok` answers a call that can fail, and says which of two branches of a
`select!` is taken when both are ready. A `signal()` sees what comes after its first poll. -/
def advance (s : State) (ok : Bool) : Option State :=
  match s.phase with
  | .starting [] => some { s with phase := .waiting, signalled := false }
  | .starting (step :: rest) =>
    match step.failure? with
    | none => some { step.effect ok s with phase := .starting rest }
    | some code =>
      if settings.succeeds ok step then some { step.effect ok s with phase := .starting rest }
      else some { s with phase := .exited code }
  | .waiting =>
    if s.signalled then some { s with phase := .stopping .signal }
    else if s.taskFinished then some { s with phase := .stopping .taskExited }
    else none
  | .stopping stop =>
    some { s.set .beginDraining with
      phase := .draining stop (s.clock + settings.drain), signalled := false }
  | .draining stop until_ =>
    if until_ ≤ s.clock ∧ (ok = true ∨ s.signalled = false) then
      some { s with phase := .closing stop false }
    else if s.signalled then some { s with phase := .closing stop true }
    else none
  | .closing stop interrupted =>
    if interrupted then
      some { s with
        phase := .stopped stop { graceful := false, interrupted := true }, listener := .aborted }
    else
      some { s with
        phase := .grace stop (s.clock + settings.grace), listener := s.listener.close }
  | .grace stop until_ =>
    if (s.listener = .closed ∨ until_ ≤ s.clock) ∧ (ok = true ∨ s.signalled = false) then
      some { s with
        phase := .stopped stop
          { graceful := decide (s.listener = .closed), interrupted := false } }
    else if s.signalled then
      some { s with
        phase := .stopped stop { graceful := false, interrupted := true }, listener := .aborted }
    else none
  | .stopped stop outcome =>
    some { s with
      phase := .closingPool stop outcome
      prober := false
      consumer := s.consumer.abort
      relay := s.relay.abort }
  | .closingPool stop outcome =>
    some { s with
      phase := .flushing stop outcome
      pool := match s.pool with
        | .absent => .absent
        | _ => .closed }
  | .flushing stop _ =>
    some { s with phase := .exited (if stop = .taskExited then .failure else .success) }
  | .exited _ => none

end Settings

/-- The process has ended, and everything in it. -/
def Phase.over : Phase → Bool
  | .exited _ => true
  | _ => false

/-- A `signal()` has been polled and not dropped. -/
def Phase.listens : Phase → Bool
  | .waiting => true
  | .draining _ _ => true
  | .closing _ _ => true
  | .grace _ _ => true
  | _ => false

/-- What `run` does next waits for nothing, or for what has happened. -/
def State.urgent (s : State) : Bool :=
  match s.phase with
  | .waiting => s.signalled || s.taskFinished
  | .stopping _ => true
  | .draining _ until_ => s.signalled || decide (until_ ≤ s.clock)
  | .closing _ _ => true
  | .grace _ until_ =>
    s.signalled || decide (until_ ≤ s.clock) || decide (s.listener = .closed)
  | _ => false

inductive Label
  | advance (ok : Bool)
  /-- One second, unless something is due in it. -/
  | tick
  | signal
  /-- The event callback of the broker connection. -/
  | disconnect
  | laneEnds (task : LaneTask)
  | laneReports (task : LaneTask)
  | laneReturns (task : LaneTask)
  | lanePanics (task : LaneTask)
  /-- A pass of the database prober, and of the relay. -/
  | probe (reachable : Bool)
  | publishes (healthy : Bool)
  | arrive | depart
  /-- The server returns once it is closed and serves nothing. -/
  | serverEnds
  deriving DecidableEq

/-- What happens beside `run`. -/
def State.aside (s : State) : Label → Option State
  | .advance _ => none
  | .tick => if s.urgent then none else some { s with clock := s.clock + 1 }
  | .signal => some { s with signalled := s.phase.listens || s.signalled }
  | .disconnect =>
    if s.broker = .unconnected then none
    else some { s.set (.setBusConnected false) with broker := .lost }
  | .laneEnds task =>
    if s.lane task = .working then some (s.setLane task .over) else none
  | .laneReports task =>
    if s.lane task = .over then
      some ((s.set (.setBusConnected false)).setLane task .reported)
    else none
  | .laneReturns task =>
    if s.lane task = .reported then some (s.setLane task .returned) else none
  | .lanePanics task =>
    if s.lane task = .working then some (s.setLane task .panicked) else none
  | .probe reachable =>
    if s.prober then some (s.set (.setDatabaseReachable reachable)) else none
  | .publishes healthy =>
    if s.relay = .working then some (s.set (.setBusPublishHealthy healthy)) else none
  | .arrive =>
    match s.listener with
    | .accepting inFlight => some { s with listener := .accepting (inFlight + 1) }
    | _ => none
  | .depart =>
    match s.listener with
    | .accepting (inFlight + 1) => some { s with listener := .accepting inFlight }
    | .closing (inFlight + 1) => some { s with listener := .closing inFlight }
    | _ => none
  | .serverEnds => if s.listener = .closing 0 then some { s with listener := .closed } else none

def step (settings : Settings) (s : State) (l : Label) : Option State :=
  if s.phase.over then none
  else match l with
    | .advance ok => settings.advance s ok
    | l => s.aside l

section Steps

variable {settings : Settings} {s s' : State} {l : Label}

theorem step_some (h : step settings s l = some s') : s.phase.over = false ∧
    ((∃ ok, l = .advance ok ∧ settings.advance s ok = some s') ∨ s.aside l = some s') := by
  unfold step at h
  split_ifs at h with hover
  refine ⟨by simpa using hover, ?_⟩
  cases l with
  | advance ok => exact Or.inl ⟨ok, rfl, h⟩
  | _ => exact Or.inr h

/-- What the tasks and the callback of the broker report. -/
def isReport : Setter → Bool
  | .setBusConnected connected => !connected
  | .setDatabaseReachable _ => true
  | .setBusPublishHealthy _ => true
  | _ => false

/-- The task does nothing any more. -/
def TaskState.idle : TaskState → Bool
  | .unspawned => true
  | .returned => true
  | .panicked => true
  | .aborted => true
  | _ => false

/-- The report of the task is in the bus check. -/
def TaskState.told : TaskState → Bool
  | .reported => true
  | .returned => true
  | _ => false

def Listener.accepts : Listener → Bool
  | .accepting _ => true
  | _ => false

/-- The server has been told to close. -/
def Listener.closes : Listener → Bool
  | .closing _ => true
  | .closed => true
  | _ => false

/-- What can happen beside `run`: time passes or a signal comes, something is reported, a task of
the lane moves on, or a request does. -/
inductive Aside (s : State) (l : Label) : State → Prop
  | time (clock : ℕ) (signalled : Bool) (hclock : l ≠ .tick → clock = s.clock) :
    Aside s l { s with clock := clock, signalled := signalled }
  | report (setter : Setter) (broker : Broker) (hreport : isReport setter = true)
      (hbroker : broker = .lost ∨ broker = s.broker) (htick : l ≠ .tick) :
    Aside s l { s.set setter with broker := broker }
  | lane (task : LaneTask) (now : TaskState) (hactive : (s.lane task).idle = false)
      (hnow : now ≠ .unspawned) (htold : now.told = true → (s.lane task).told = true)
      (htick : l ≠ .tick) : Aside s l (s.setLane task now)
  | laneReports (task : LaneTask) (hactive : (s.lane task).idle = false) (htick : l ≠ .tick) :
    Aside s l ((s.set (.setBusConnected false)).setLane task .reported)
  | listener (listener : Listener) (hlistener : s.listener.accepts = true ∧ listener.accepts = true ∨
      (∃ inFlight, s.listener = .closing inFlight) ∧ listener.closes = true) (htick : l ≠ .tick) :
    Aside s l { s with listener := listener }

theorem aside_cases (h : s.aside l = some s') : Aside s l s' := by
  unfold State.aside at h
  cases l with
  | advance ok => cases h
  | tick =>
    simp only at h
    split_ifs at h
    obtain rfl := Option.some.inj h
    exact .time _ _ fun hl => absurd rfl hl
  | signal =>
    obtain rfl := Option.some.inj h
    exact .time _ _ fun _ => rfl
  | disconnect =>
    simp only at h
    split_ifs at h
    obtain rfl := Option.some.inj h
    exact .report _ _ rfl (Or.inl rfl) (by simp)
  | laneEnds task =>
    simp only at h
    split_ifs at h with hworking
    obtain rfl := Option.some.inj h
    exact .lane task .over (by rw [hworking]; rfl) (by simp) (fun h => by cases h) (by simp)
  | laneReports task =>
    simp only at h
    split_ifs at h with hover
    obtain rfl := Option.some.inj h
    exact .laneReports task (by rw [hover]; rfl) (by simp)
  | laneReturns task =>
    simp only at h
    split_ifs at h with hreported
    obtain rfl := Option.some.inj h
    exact .lane task .returned (by rw [hreported]; rfl) (by simp) (fun _ => by rw [hreported]; rfl)
      (by simp)
  | lanePanics task =>
    simp only at h
    split_ifs at h with hworking
    obtain rfl := Option.some.inj h
    exact .lane task .panicked (by rw [hworking]; rfl) (by simp) (fun h => by cases h) (by simp)
  | probe reachable =>
    simp only at h
    split_ifs at h
    obtain rfl := Option.some.inj h
    exact .report (.setDatabaseReachable reachable) s.broker rfl (Or.inr rfl) (by simp)
  | publishes healthy =>
    simp only at h
    split_ifs at h
    obtain rfl := Option.some.inj h
    exact .report (.setBusPublishHealthy healthy) s.broker rfl (Or.inr rfl) (by simp)
  | arrive =>
    simp only at h
    split at h
    · rename_i hlistener
      obtain rfl := Option.some.inj h
      exact .listener _ (Or.inl ⟨by rw [hlistener]; rfl, rfl⟩) (by simp)
    · cases h
  | depart =>
    simp only at h
    split at h
    · rename_i hlistener
      obtain rfl := Option.some.inj h
      exact .listener _ (Or.inl ⟨by rw [hlistener]; rfl, rfl⟩) (by simp)
    · rename_i hlistener
      obtain rfl := Option.some.inj h
      exact .listener _ (Or.inr ⟨⟨_, hlistener⟩, rfl⟩) (by simp)
    · cases h
  | serverEnds =>
    simp only at h
    split_ifs at h with hlistener
    obtain rfl := Option.some.inj h
    exact .listener _ (Or.inr ⟨⟨_, hlistener⟩, rfl⟩) (by simp)

theorem lane_setLane (task other : LaneTask) (now : TaskState) :
    (s.setLane task now).lane other = if other = task then now else s.lane other := by
  cases task <;> cases other <;> rfl

@[simp] theorem health_setLane (task : LaneTask) (now : TaskState) :
    (s.setLane task now).health = s.health := by cases task <;> rfl

@[simp] theorem phase_setLane (task : LaneTask) (now : TaskState) :
    (s.setLane task now).phase = s.phase := by cases task <;> rfl

@[simp] theorem clock_setLane (task : LaneTask) (now : TaskState) :
    (s.setLane task now).clock = s.clock := by cases task <;> rfl

@[simp] theorem pool_setLane (task : LaneTask) (now : TaskState) :
    (s.setLane task now).pool = s.pool := by cases task <;> rfl

@[simp] theorem prober_setLane (task : LaneTask) (now : TaskState) :
    (s.setLane task now).prober = s.prober := by cases task <;> rfl

@[simp] theorem listener_setLane (task : LaneTask) (now : TaskState) :
    (s.setLane task now).listener = s.listener := by cases task <;> rfl

end Steps

end RatatoskrVault.Process
