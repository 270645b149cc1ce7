import Mathlib.Data.List.Infix
import RatatoskrVault.Process.System

/-! A process that says it is ready has done everything its configuration asks of a start, and has
not been told to stop. -/
namespace RatatoskrVault.Process

open Lib Http

/-- What `run` has still to do before it waits. -/
def Phase.rest : Phase → List StartupStep
  | .starting rest => rest
  | _ => []

/-- The drain has begun. -/
def Phase.drains : Phase → Bool
  | .draining _ _ => true
  | .closing _ _ => true
  | .grace _ _ => true
  | .stopped _ _ => true
  | .closingPool _ _ => true
  | .flushing _ _ => true
  | _ => false

/-- What a step of the startup leaves behind. -/
def StartupStep.Done (settings : Settings) (s : State) : StartupStep → Prop
  | .load => validate settings.readers settings.config = []
  | .connect => s.pool ≠ .absent
  | .applySchema => s.schemaApplied = true
  | .connectBus => s.broker ≠ .unconnected
  | .verifyDurable => s.durableVerified = true
  | .setBusConnected => s.health.bus.isSome = true
  | .setBusPublishing => s.health.busPublish.isSome = true
  | .spawn task => s.lane task ≠ .unspawned
  | .ping => s.health.database.isSome = true
  | .bind => s.listener ≠ .unbound
  | .markStartupComplete => s.health.startupComplete = true
  | _ => True

/-- No step takes back what the startup has done. -/
structure Later (s s' : State) : Prop where
  pool : s.pool ≠ .absent → s'.pool ≠ .absent
  schemaApplied : s.schemaApplied = true → s'.schemaApplied = true
  broker : s.broker ≠ .unconnected → s'.broker ≠ .unconnected
  durableVerified : s.durableVerified = true → s'.durableVerified = true
  bus : s.health.bus.isSome = true → s'.health.bus.isSome = true
  busPublish : s.health.busPublish.isSome = true → s'.health.busPublish.isSome = true
  database : s.health.database.isSome = true → s'.health.database.isSome = true
  lane : ∀ task, s.lane task ≠ .unspawned → s'.lane task ≠ .unspawned
  listener : s.listener ≠ .unbound → s'.listener ≠ .unbound
  startupComplete : s.health.startupComplete = true → s'.health.startupComplete = true

section Steps

variable {settings : Settings} {s s' : State} {ok : Bool} {stage : StartupStep} {l : Label}

theorem Later.done (h : Later s s') (hdone : stage.Done settings s) : stage.Done settings s' := by
  cases stage with
  | load => exact hdone
  | telemetry => trivial
  | connect => exact h.pool hdone
  | applySchema => exact h.schemaApplied hdone
  | connectBus => exact h.broker hdone
  | verifyDurable => exact h.durableVerified hdone
  | setBusConnected => exact h.bus hdone
  | setBusPublishing => exact h.busPublish hdone
  | spawn task => exact h.lane task hdone
  | ping => exact h.database hdone
  | spawnProber => trivial
  | bind => exact h.listener hdone
  | markStartupComplete => exact h.startupComplete hdone

theorem later_effect : Later s (stage.effect ok s) := by
  cases stage with
  | spawn task =>
    constructor
    case lane =>
      intro other hother
      cases task <;> cases other <;> first | exact hother | exact fun h => by cases h
    all_goals cases task <;> exact id
  | _ =>
    constructor
    case lane =>
      intro task
      cases task <;> exact id
    all_goals first | exact id | exact fun _ h => by cases h | exact fun _ => rfl

theorem done_effect (hok : stage.failure? = none ∨ settings.succeeds ok stage = true) :
    stage.Done settings (stage.effect ok s) := by
  cases stage with
  | load =>
    have hvalid := hok.resolve_left fun h => by cases h
    unfold Settings.succeeds at hvalid
    simp only [Bool.and_eq_true, List.isEmpty_iff] at hvalid
    exact hvalid.2
  | spawn task => cases task <;> exact fun h => by cases h
  | connect => exact fun h => by cases h
  | connectBus => exact fun h => by cases h
  | bind => exact fun h => by cases h
  | telemetry => trivial
  | spawnProber => trivial
  | _ => rfl

/-- What happens beside `run` moves it nowhere, and a check of the bus that failed fails still. -/
structure Beside (s s' : State) : Prop where
  later : Later s s'
  phase : s'.phase = s.phase
  pool : s'.pool = s.pool
  startupComplete : s'.health.startupComplete = s.health.startupComplete
  draining : s'.health.draining = s.health.draining
  lost : s.health.bus = some false → s'.health.bus = some false
  unspawned : ∀ task, s.lane task = .unspawned → s'.lane task = .unspawned
  told : ∀ task, (s'.lane task).told = true →
    (s.lane task).told = true ∨ s'.health.bus = some false
  accepts : s'.listener.accepts = s.listener.accepts
  unbound : s.listener = .unbound → s'.listener = .unbound

theorem Later.trans {s₁ : State} (h : Later s s₁) (h' : Later s₁ s') : Later s s' where
  pool := h'.pool ∘ h.pool
  schemaApplied := h'.schemaApplied ∘ h.schemaApplied
  broker := h'.broker ∘ h.broker
  durableVerified := h'.durableVerified ∘ h.durableVerified
  bus := h'.bus ∘ h.bus
  busPublish := h'.busPublish ∘ h.busPublish
  database := h'.database ∘ h.database
  lane := fun task => h'.lane task ∘ h.lane task
  listener := h'.listener ∘ h.listener
  startupComplete := h'.startupComplete ∘ h.startupComplete

theorem Beside.trans {s₁ : State} (h : Beside s s₁) (h' : Beside s₁ s') : Beside s s' where
  later := h.later.trans h'.later
  phase := h'.phase.trans h.phase
  pool := h'.pool.trans h.pool
  startupComplete := h'.startupComplete.trans h.startupComplete
  draining := h'.draining.trans h.draining
  lost := h'.lost ∘ h.lost
  unspawned := fun task => h'.unspawned task ∘ h.unspawned task
  told := fun task htold => by
    rcases h'.told task htold with hbefore | hlost
    · exact (h.told task hbefore).imp_right h'.lost
    · exact Or.inr hlost
  accepts := h'.accepts.trans h.accepts
  unbound := h'.unbound ∘ h.unbound

theorem later_health {setter : Setter} {broker : Broker}
    (hbroker : broker = .lost ∨ broker = s.broker) :
    Later s { s.set setter with broker := broker } := by
  constructor
  case broker =>
    rintro hconnected rfl
    exact hconnected (hbroker.resolve_left fun h => by cases h).symm
  case lane => exact fun _ => id
  all_goals cases setter <;> first | exact id | exact fun _ => rfl

theorem later_setLane {task : LaneTask} {now : TaskState} (hnow : now ≠ .unspawned) :
    Later s (s.setLane task now) := by
  constructor
  case lane =>
    intro other hother
    rw [lane_setLane]
    split_ifs
    · exact hnow
    · exact hother
  all_goals cases task <;> exact id

/-- A task of the lane that moves on has been spawned, and says so if it has to. -/
theorem beside_setLane {task : LaneTask} {now : TaskState} (hactive : (s.lane task).idle = false)
    (hnow : now ≠ .unspawned)
    (htold : now.told = true → (s.lane task).told = true ∨ s.health.bus = some false) :
    Beside s (s.setLane task now) := by
  constructor
  case later => exact later_setLane hnow
  case unspawned =>
    intro other hother
    rw [lane_setLane]
    split_ifs with heq
    · rw [← heq, hother] at hactive
      cases hactive
    · exact hother
  case told =>
    intro other hother
    rw [lane_setLane] at hother
    rw [health_setLane]
    split_ifs at hother with heq
    · rw [heq]
      exact htold hother
    · exact Or.inl hother
  all_goals cases task <;> first | rfl | exact id

theorem beside_report {setter : Setter} {broker : Broker} (hreport : isReport setter = true)
    (hbroker : broker = .lost ∨ broker = s.broker) :
    Beside s { s.set setter with broker := broker } := by
  constructor
  case later => exact later_health hbroker
  case unspawned => exact fun _ => id
  case told => exact fun _ => .inl
  case lost =>
    intro hlost
    cases setter with
    | setBusConnected connected =>
      obtain rfl : connected = false := by simpa [isReport] using hreport
      rfl
    | _ => exact hlost
  all_goals cases setter <;> first | rfl | exact id | cases hreport

theorem later_listener {phase : Phase} {listener : Listener}
    (h : s.listener ≠ .unbound → listener ≠ .unbound) :
    Later s { s with phase := phase, listener := listener } := by
  constructor
  case lane => exact fun _ => id
  case listener => exact h
  all_goals exact id

theorem beside_of_aside (h : s.aside l = some s') : Beside s s' := by
  cases aside_cases h with
  | time clock signalled hclock =>
    constructor
    case later =>
      constructor
      case lane => exact fun _ => id
      all_goals exact id
    case unspawned => exact fun _ => id
    case told => exact fun _ => .inl
    all_goals first | rfl | exact id
  | report setter broker hreport hbroker => exact beside_report hreport hbroker
  | lane task now hactive hnow htold =>
    exact beside_setLane hactive hnow fun h => Or.inl (htold h)
  | laneReports task hactive =>
    have hreport : Beside s (s.set (.setBusConnected false)) :=
      @beside_report s (.setBusConnected false) s.broker rfl (Or.inr rfl)
    have hmoved : Beside (s.set (.setBusConnected false))
        ((s.set (.setBusConnected false)).setLane task .reported) :=
      beside_setLane hactive (by simp) fun _ => Or.inr rfl
    exact hreport.trans hmoved
  | listener listener hlistener =>
    have hbound : s.listener ≠ .unbound := by
      rcases hlistener with ⟨haccepts, -⟩ | ⟨⟨inFlight, hclosing⟩, -⟩
      · intro h
        rw [h] at haccepts
        cases haccepts
      · rw [hclosing]
        exact fun h => by cases h
    constructor
    case later =>
      refine @later_listener s s.phase listener fun _ hunbound => ?_
      rw [hunbound] at hlistener
      rcases hlistener with ⟨-, haccepts⟩ | ⟨-, hcloses⟩
      · cases haccepts
      · cases hcloses
    case accepts =>
      rcases hlistener with ⟨hbefore, hafter⟩ | ⟨⟨inFlight, hclosing⟩, hcloses⟩
      · exact hafter.trans hbefore.symm
      · rw [hclosing]
        cases listener <;> first | rfl | cases hcloses
    case unbound => exact fun h => absurd h hbound
    case unspawned => exact fun _ => id
    case told => exact fun _ => .inl
    all_goals first | rfl | exact id

end Steps

section Invariant

variable {settings : Settings} {s s' : State} {ok : Bool} {l : Label}

theorem nodup_startup : settings.startup.Nodup := by
  unfold Settings.startup
  generalize settings.config.database.isSome = database
  generalize settings.config.bus.isSome = bus
  revert database bus
  decide

/-- A lane that is not marked connected has no task. -/
theorem spawned_after_connected (database bus : Bool) :
    ∀ rest ∈ (startupSteps database bus).tails,
      rest.head? = some (.spawn .consumer) ∨ rest.head? = some (.spawn .relay) →
        .setBusConnected ∉ rest := by
  revert database bus
  decide

theorem connected_before_spawn {task : LaneTask} {rest : List StartupStep}
    (h : .spawn task :: rest <:+ settings.startup) : .setBusConnected ∉ rest := by
  have hhead : (StartupStep.spawn task :: rest).head? = some (.spawn .consumer) ∨
      (StartupStep.spawn task :: rest).head? = some (.spawn .relay) := by
    cases task with
    | consumer => exact Or.inl rfl
    | relay => exact Or.inr rfl
  intro hmem
  exact spawned_after_connected _ _ _ ((List.mem_tails _ _).mpr h) hhead
    (List.mem_cons_of_mem _ hmem)

/-- What holds of a process until it has ended. -/
structure Sound (settings : Settings) (s : State) : Prop where
  suffix : s.phase.rest <:+ settings.startup
  done : ∀ stage ∈ settings.startup, stage ∉ s.phase.rest → stage.Done settings s
  unspawned : .setBusConnected ∈ s.phase.rest → ∀ task, s.lane task = .unspawned
  told : ∀ task, (s.lane task).told = true → s.health.bus = some false
  incomplete : .markStartupComplete ∈ s.phase.rest → s.health.startupComplete = false
  draining : s.health.draining = s.phase.drains
  opened : s.phase.drains = false → s.pool ≠ .closed
  accepts : s.phase.drains = false → s.listener = .unbound ∨ s.listener.accepts = true

theorem sound_initial : Sound settings settings.initial where
  suffix := List.suffix_rfl
  done := fun _ hstage hrest => absurd hstage hrest
  unspawned := fun _ task => by cases task <;> rfl
  told := fun task htold => by cases task <;> cases htold
  incomplete := fun _ => rfl
  draining := rfl
  opened := fun _ h => by cases h
  accepts := fun _ => Or.inl rfl

theorem later_phase {phase : Phase} {signalled : Bool} :
    Later s { s with phase := phase, signalled := signalled } := by
  constructor
  case lane => exact fun _ => id
  all_goals exact id

theorem Sound.beside (h : Sound settings s) (hbeside : Beside s s') : Sound settings s' := by
  obtain ⟨suffix, done, unspawned, told, incomplete, draining, opened, accepts⟩ := h
  rw [← hbeside.phase] at suffix done unspawned incomplete draining opened accepts
  constructor
  case suffix => exact suffix
  case done => exact fun stage hstage hrest => hbeside.later.done (done stage hstage hrest)
  case unspawned => exact fun hrest task => hbeside.unspawned task (unspawned hrest task)
  case told =>
    intro task htold
    rcases hbeside.told task htold with hbefore | hlost
    · exact hbeside.lost (told task hbefore)
    · exact hlost
  case incomplete => exact fun hrest => hbeside.startupComplete.trans (incomplete hrest)
  case draining => exact hbeside.draining.trans draining
  case opened =>
    intro hphase
    rw [hbeside.pool]
    exact opened hphase
  case accepts =>
    intro hphase
    rw [hbeside.accepts]
    exact (accepts hphase).imp_left hbeside.unbound

/-- One step of the startup succeeds. -/
theorem Sound.effect {stage : StartupStep} {rest : List StartupStep} (h : Sound settings s)
    (hphase : s.phase = .starting (stage :: rest))
    (hok : stage.failure? = none ∨ settings.succeeds ok stage = true) :
    Sound settings { stage.effect ok s with phase := .starting rest } := by
  obtain ⟨suffix, done, unspawned, told, incomplete, draining, opened, accepts⟩ := h
  rw [hphase] at suffix done unspawned incomplete draining opened accepts
  have hnodup : stage ∉ rest := (List.nodup_cons.mp (nodup_startup.sublist suffix.sublist)).1
  have hlater : Later s { stage.effect ok s with phase := .starting rest } :=
    later_effect.trans later_phase
  constructor
  case suffix => exact (List.suffix_cons stage rest).trans suffix
  case done =>
    intro other hother hrest
    by_cases heq : other = stage
    · rw [heq]
      exact later_phase.done (done_effect hok)
    · exact hlater.done (done other hother fun hmem => (List.mem_cons.mp hmem).elim heq hrest)
  case unspawned =>
    intro hrest task
    have hnone := unspawned (List.mem_cons_of_mem _ hrest) task
    cases stage with
    | spawn other => exact absurd hrest (connected_before_spawn suffix)
    | _ => exact hnone
  case told =>
    intro task htold
    cases stage with
    | setBusConnected =>
      have hnone := unspawned (List.mem_cons_self ..) task
      have htask : (s.lane task).told = true := htold
      rw [hnone] at htask
      cases htask
    | spawn other =>
      have hbefore : (s.lane task).told = true := by
        cases other <;> cases task <;> first | exact htold | cases htold
      cases other <;> exact told task hbefore
    | _ => exact told task htold
  case incomplete =>
    intro hrest
    have hcomplete := incomplete (List.mem_cons_of_mem _ hrest)
    cases stage with
    | markStartupComplete => exact absurd hrest hnodup
    | spawn task => cases task <;> exact hcomplete
    | _ => exact hcomplete
  case draining =>
    cases stage with
    | spawn task => cases task <;> exact draining
    | _ => exact draining
  case opened =>
    intro _
    have hpool := opened rfl
    cases stage with
    | connect => exact fun h => by cases h
    | spawn task => cases task <;> exact hpool
    | _ => exact hpool
  case accepts =>
    intro _
    have hlistener := accepts rfl
    cases stage with
    | bind => exact Or.inr rfl
    | spawn task => cases task <;> exact hlistener
    | _ => exact hlistener

/-- `run` moves on once nothing is left of the startup. -/
theorem Sound.move (h : Sound settings s) (hbefore : s.phase.rest = []) (hlater : Later s s')
    (hrest : s'.phase.rest = []) (hbus : s'.health.bus = s.health.bus)
    (htold : ∀ task, (s'.lane task).told = true → (s.lane task).told = true)
    (hdraining : s'.health.draining = s'.phase.drains)
    (hopened : s'.phase.drains = false → s.phase.drains = false ∧ s'.pool = s.pool ∧
      s'.listener = s.listener) : Sound settings s' := by
  constructor
  case suffix =>
    rw [hrest]
    exact List.nil_suffix
  case done =>
    intro stage hstage _
    refine hlater.done (h.done stage hstage ?_)
    rw [hbefore]
    exact List.not_mem_nil
  case unspawned =>
    rw [hrest]
    exact fun hmem => absurd hmem List.not_mem_nil
  case told => exact fun task ht => hbus.trans (h.told task (htold task ht))
  case incomplete =>
    rw [hrest]
    exact fun hmem => absurd hmem List.not_mem_nil
  case draining => exact hdraining
  case opened =>
    intro hphase
    obtain ⟨hbefore, hpool, -⟩ := hopened hphase
    rw [hpool]
    exact h.opened hbefore
  case accepts =>
    intro hphase
    obtain ⟨hbefore, -, hlistener⟩ := hopened hphase
    rw [hlistener]
    exact h.accepts hbefore

theorem Listener.close_ne_unbound {listener : Listener} (h : listener ≠ .unbound) :
    listener.close ≠ .unbound := by
  cases listener with
  | unbound => exact absurd rfl h
  | _ => exact fun h => by cases h

theorem TaskState.abort_ne_unspawned {task : TaskState} (h : task ≠ .unspawned) :
    task.abort ≠ .unspawned := by
  cases task with
  | unspawned => exact absurd rfl h
  | _ => exact fun h => by cases h

theorem TaskState.told_of_abort {task : TaskState} (h : task.abort.told = true) :
    task.told = true := by
  cases task <;> first | rfl | cases h

theorem Sound.advance (h : Sound settings s) (hstep : settings.advance s ok = some s') :
    s'.phase.over = true ∨ Sound settings s' := by
  have hdraining := h.draining
  unfold Settings.advance at hstep
  cases hphase : s.phase with
  | starting rest =>
    rw [hphase] at hstep
    cases rest with
    | nil =>
      obtain rfl := Option.some.inj hstep
      rw [hphase] at hdraining
      exact Or.inr (h.move (by rw [hphase]; rfl) later_phase rfl rfl (fun _ => id) hdraining
        fun _ => ⟨by rw [hphase]; rfl, rfl, rfl⟩)
    | cons stage rest =>
      simp only at hstep
      cases hfails : stage.failure? with
      | none =>
        rw [hfails] at hstep
        obtain rfl := Option.some.inj hstep
        exact Or.inr (h.effect hphase (Or.inl hfails))
      | some code =>
        rw [hfails] at hstep
        simp only at hstep
        split_ifs at hstep with hok
        · obtain rfl := Option.some.inj hstep
          exact Or.inr (h.effect hphase (Or.inr hok))
        · obtain rfl := Option.some.inj hstep
          exact Or.inl rfl
  | waiting =>
    rw [hphase] at hstep hdraining
    simp only at hstep
    split_ifs at hstep
    all_goals
      obtain rfl := Option.some.inj hstep
      exact Or.inr (h.move (by rw [hphase]; rfl) later_phase rfl rfl (fun _ => id) hdraining
        fun _ => ⟨by rw [hphase]; rfl, rfl, rfl⟩)
  | stopping stop =>
    rw [hphase] at hstep
    obtain rfl := Option.some.inj hstep
    refine Or.inr (h.move (by rw [hphase]; rfl) ?_ rfl rfl (fun _ => id) rfl
      fun hdrains => by cases hdrains)
    constructor
    case lane => exact fun _ => id
    all_goals exact id
  | draining stop until_ =>
    rw [hphase] at hstep hdraining
    simp only at hstep
    split_ifs at hstep
    all_goals
      obtain rfl := Option.some.inj hstep
      exact Or.inr (h.move (by rw [hphase]; rfl) later_phase rfl rfl (fun _ => id) hdraining
        fun hdrains => by cases hdrains)
  | closing stop interrupted =>
    rw [hphase] at hstep hdraining
    simp only at hstep
    split_ifs at hstep
    · obtain rfl := Option.some.inj hstep
      exact Or.inr (h.move (by rw [hphase]; rfl) (later_listener fun _ h => by cases h) rfl rfl
        (fun _ => id) hdraining fun hdrains => by cases hdrains)
    · obtain rfl := Option.some.inj hstep
      exact Or.inr (h.move (by rw [hphase]; rfl) (later_listener Listener.close_ne_unbound) rfl rfl
        (fun _ => id) hdraining fun hdrains => by cases hdrains)
  | grace stop until_ =>
    rw [hphase] at hstep hdraining
    simp only at hstep
    split_ifs at hstep
    · obtain rfl := Option.some.inj hstep
      exact Or.inr (h.move (by rw [hphase]; rfl) later_phase rfl rfl (fun _ => id) hdraining
        fun hdrains => by cases hdrains)
    · obtain rfl := Option.some.inj hstep
      exact Or.inr (h.move (by rw [hphase]; rfl) (later_listener fun _ h => by cases h) rfl rfl
        (fun _ => id) hdraining fun hdrains => by cases hdrains)
  | stopped stop outcome =>
    rw [hphase] at hstep hdraining
    obtain rfl := Option.some.inj hstep
    refine Or.inr (h.move (by rw [hphase]; rfl) ?_ rfl rfl (fun task => ?_) hdraining
      fun hdrains => by cases hdrains)
    · constructor
      case lane =>
        intro task
        cases task <;> exact TaskState.abort_ne_unspawned
      all_goals exact id
    · cases task <;> exact TaskState.told_of_abort
  | closingPool stop outcome =>
    rw [hphase] at hstep hdraining
    obtain rfl := Option.some.inj hstep
    refine Or.inr (h.move (by rw [hphase]; rfl) ?_ rfl rfl (fun _ => id) hdraining
      fun hdrains => by cases hdrains)
    constructor
    case lane => exact fun _ => id
    case pool =>
      intro hpool
      cases hopened : s.pool with
      | absent => exact absurd hopened hpool
      | _ => simp
    all_goals exact id
  | flushing stop outcome =>
    rw [hphase] at hstep
    obtain rfl := Option.some.inj hstep
    exact Or.inl rfl
  | exited code =>
    rw [hphase] at hstep
    cases hstep

/-- Whatever happens, until the process has ended. -/
theorem sound_of_run {ls : List Label} (hrun : run (step settings) settings.initial ls = some s) :
    s.phase.over = true ∨ Sound settings s := by
  have hany : Along (step settings) (fun _ _ => True) settings.initial ls :=
    along_of_forall (fun _ _ _ => trivial) _
  refine (Reach.of_run hrun hany).invariant (I := fun s => s.phase.over = true ∨ Sound settings s)
    (Or.inr sound_initial) ?_
  intro s l s' hsound _ hstep
  obtain ⟨hlive, hstep⟩ := step_some hstep
  have hsound := hsound.resolve_left (by simp [hlive])
  rcases hstep with ⟨ok, -, hadvance⟩ | haside
  · exact hsound.advance hadvance
  · exact Or.inr (hsound.beside (beside_of_aside haside))

end Invariant

section Ready

variable {settings : Settings} {s : State}

theorem mem_startup : .load ∈ settings.startup ∧ .bind ∈ settings.startup ∧
    .markStartupComplete ∈ settings.startup := by
  unfold Settings.startup startupSteps
  simp

namespace Sample

/-- A process with a database and a policy lane. -/
def configured : Settings :=
  { readers :=
      { envFilter := fun _ => true
        url := fun _ => some
          { scheme := "nats"
            username := ""
            password := none
            host := some "bus"
            path := ""
            query := none
            fragment := none }
        loopbackIp := fun _ => false }
    config :=
      { database := some { url := "postgres://vault" }
        bus := some { url := "nats://bus", nkeySeedPath := none } } }

/-- Every call of the startup succeeds. -/
def started : List Label := List.replicate 15 (.advance true)

end Sample

end Ready

end RatatoskrVault.Process
