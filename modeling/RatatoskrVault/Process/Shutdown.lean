import RatatoskrVault.Lib.Accounts
import RatatoskrVault.Process.Startup

/-! How a process ends: which code it ends with, how long it takes once it has been told to stop,
and what is still open meanwhile. -/
namespace RatatoskrVault.Process

open Lib Http

def StopReason.code : StopReason → ExitCode
  | .signal => .success
  | .taskExited => .failure

/-- The code that is decided already. -/
def Phase.fate : Phase → Option ExitCode
  | .starting _ => none
  | .waiting => none
  | .stopping stop => some stop.code
  | .draining stop _ => some stop.code
  | .closing stop _ => some stop.code
  | .grace stop _ => some stop.code
  | .stopped stop _ => some stop.code
  | .closingPool stop _ => some stop.code
  | .flushing stop _ => some stop.code
  | .exited code => some code

/-- A step of the startup fails, or the wait ends: with a signal, or else with a task. -/
def Causes (settings : Settings) (s : State) (ok : Bool) (code : ExitCode) : Prop :=
  (∃ stage rest, s.phase = .starting (stage :: rest) ∧ stage.failure? = some code ∧
    settings.succeeds ok stage = false) ∨
  s.phase = .waiting ∧ (s.signalled = true ∧ code = .success ∨
    s.signalled = false ∧ s.taskFinished = true ∧ code = .failure)

section Code

variable {settings : Settings} {s s' : State} {ok : Bool} {l : Label} {code : ExitCode}

theorem fate_advance (h : settings.advance s ok = some s') (hfate : s.phase.fate = some code) :
    s'.phase.fate = some code := by
  unfold Settings.advance at h
  cases hphase : s.phase with
  | starting rest =>
    rw [hphase] at hfate
    cases hfate
  | waiting =>
    rw [hphase] at hfate
    cases hfate
  | stopping stop =>
    rw [hphase] at h hfate
    obtain rfl := Option.some.inj h
    exact hfate
  | draining stop until_ =>
    rw [hphase] at h hfate
    simp only at h
    split_ifs at h
    all_goals
      obtain rfl := Option.some.inj h
      exact hfate
  | closing stop interrupted =>
    rw [hphase] at h hfate
    simp only at h
    split_ifs at h
    all_goals
      obtain rfl := Option.some.inj h
      exact hfate
  | grace stop until_ =>
    rw [hphase] at h hfate
    simp only at h
    split_ifs at h
    all_goals
      obtain rfl := Option.some.inj h
      exact hfate
  | stopped stop outcome =>
    rw [hphase] at h hfate
    obtain rfl := Option.some.inj h
    exact hfate
  | closingPool stop outcome =>
    rw [hphase] at h hfate
    obtain rfl := Option.some.inj h
    exact hfate
  | flushing stop outcome =>
    rw [hphase] at h hfate
    obtain rfl := Option.some.inj h
    cases stop <;> exact hfate
  | exited code =>
    rw [hphase] at h
    cases h

/-- What decides a code, and nothing else does. -/
theorem causes_iff (h : settings.advance s ok = some s') (hfate : s.phase.fate = none) :
    Causes settings s ok code ↔ s'.phase.fate = some code := by
  unfold Settings.advance at h
  unfold Causes
  cases hphase : s.phase with
  | starting rest =>
    rw [hphase] at h
    cases rest with
    | nil =>
      obtain rfl := Option.some.inj h
      simp [Phase.fate]
    | cons stage rest =>
      simp only at h
      cases hfails : stage.failure? with
      | none =>
        rw [hfails] at h
        obtain rfl := Option.some.inj h
        simp [Phase.fate, hfails]
      | some other =>
        rw [hfails] at h
        simp only at h
        split_ifs at h with hok
        · obtain rfl := Option.some.inj h
          simp [Phase.fate, hok]
        · obtain rfl := Option.some.inj h
          simp [Phase.fate, hok, hfails]
  | waiting =>
    rw [hphase] at h
    simp only at h
    split_ifs at h with hsignal htask
    · obtain rfl := Option.some.inj h
      simpa [Phase.fate, StopReason.code, hsignal] using eq_comm
    · obtain rfl := Option.some.inj h
      simpa [Phase.fate, StopReason.code, hsignal, htask] using eq_comm
  | _ =>
    rw [hphase] at hfate
    cases hfate

theorem fate_none_of_causes (h : Causes settings s ok code) : s.phase.fate = none := by
  rcases h with ⟨stage, rest, hphase, -⟩ | ⟨hphase, -⟩
  · rw [hphase]
    rfl
  · rw [hphase]
    rfl

theorem fate_step (h : step settings s l = some s') (hfate : s.phase.fate = some code) :
    s'.phase.fate = some code := by
  obtain ⟨-, ⟨ok, -, hadvance⟩ | haside⟩ := step_some h
  · exact fate_advance hadvance hfate
  · rw [(beside_of_aside haside).phase]
    exact hfate

/-- A process ends with a code if and only if the moment that decides it has come: with 78 if its
configuration is refused, with 0 if a signal is there when the wait ends, and with 1 if another
call of the startup fails, or a task of the lane has ended and no signal is there. -/
theorem exits_iff_caused (settings : Settings) (ls : List Label) (s : State) (code : ExitCode)
    (hrun : run (step settings) settings.initial ls = some s) (hexit : s.phase = .exited code)
    (code' : ExitCode) :
    code' = code ↔ ∃ front ok back s₁, ls = front ++ .advance ok :: back ∧
      run (step settings) settings.initial front = some s₁ ∧ Causes settings s₁ ok code' := by
  have hfinal : s.phase.fate = some code := by rw [hexit]; rfl
  constructor
  · rintro rfl
    obtain ⟨front, l, back, s₁, s₂, rfl, hfront, hstep, hbefore, hafter⟩ :=
      exists_step_between (P := fun s => s.phase.fate = some code') hrun (fun h => by cases h) hfinal
    have hopen : s₁.phase.fate = none := by
      cases hfate : s₁.phase.fate with
      | none => rfl
      | some other =>
        have hsame := (fate_step hstep hfate).symm.trans hafter
        rw [Option.some.inj hsame] at hfate
        exact absurd hfate hbefore
    obtain ⟨-, ⟨ok, rfl, hadvance⟩ | haside⟩ := step_some hstep
    · exact ⟨front, ok, back, s₁, rfl, hfront, (causes_iff hadvance hopen).mpr hafter⟩
    · rw [(beside_of_aside haside).phase, hopen] at hafter
      cases hafter
  · rintro ⟨front, ok, back, s₁, rfl, hfront, hcauses⟩
    rw [run_append hfront] at hrun
    obtain ⟨s₂, hstep, hback⟩ := Option.bind_eq_some_iff.mp hrun
    obtain ⟨-, ⟨ok', hlabel, hadvance⟩ | haside⟩ := step_some hstep
    · obtain rfl := Label.advance.inj hlabel
      have hdecided := (causes_iff hadvance (fate_none_of_causes hcauses)).mp hcauses
      have hany : Along (step settings) (fun _ _ => True) s₂ back :=
        along_of_forall (fun _ _ _ => trivial) _
      have hkept : s.phase.fate = some code' := (Reach.of_run hback hany).invariant
        (I := fun s => s.phase.fate = some code') hdecided
        fun _ _ _ hfate _ hstep => fate_step hstep hfate
      exact Option.some.inj (hkept.symm.trans hfinal)
    · cases haside

namespace Sample

/-- The consumer of the lane ends, and a request is still served when the process closes. -/
def stopped : List Label :=
  started ++ [.arrive, .laneEnds .consumer, .laneReports .consumer, .laneReturns .consumer] ++
    List.replicate 2 (.advance true) ++ List.replicate 5 .tick ++
    List.replicate 2 (.advance true) ++ List.replicate 25 .tick ++ List.replicate 4 (.advance true)

end Sample

theorem exits_iff_caused_task :
    ∃ s, run (step Sample.configured) Sample.configured.initial Sample.stopped = some s ∧
      s.phase = .exited .failure ∧ ∀ code', code' = .failure ↔
        ∃ front ok back s₁, Sample.stopped = front ++ .advance ok :: back ∧
          run (step Sample.configured) Sample.configured.initial front = some s₁ ∧
          Causes Sample.configured s₁ ok code' := by
  refine ⟨_, rfl, rfl, ?_⟩
  exact exits_iff_caused Sample.configured Sample.stopped _ .failure rfl rfl

end Code

section Time

variable {settings : Settings} {s s' : State} {ok : Bool} {l : Label}

/-- The process has been told to stop, and `drain_and_close` has not returned. -/
def Phase.stops : Phase → Bool
  | .stopping _ => true
  | .draining _ _ => true
  | .closing _ _ => true
  | .grace _ _ => true
  | _ => false

/-- `drain_and_close` has returned. -/
def Phase.stopped? : Phase → Bool
  | .stopped _ _ => true
  | _ => false

/-- A second that passes while the process stops. -/
def stoppingSecond (s : State) (l : Label) : ℕ := if l = .tick ∧ s.phase.stops = true then 1 else 0

/-- The seconds the shutdown can still take. -/
def secondsLeft (settings : Settings) (s : State) : ℕ :=
  match s.phase with
  | .starting _ => settings.drain + settings.grace
  | .waiting => settings.drain + settings.grace
  | .stopping _ => settings.drain + settings.grace
  | .draining _ until_ => until_ - s.clock + settings.grace
  | .closing _ _ => settings.grace
  | .grace _ until_ => until_ - s.clock
  | _ => 0

theorem secondsLeft_advance (h : settings.advance s ok = some s') :
    secondsLeft settings s' ≤ secondsLeft settings s := by
  unfold Settings.advance at h
  unfold secondsLeft
  cases hphase : s.phase with
  | starting rest =>
    rw [hphase] at h
    cases rest with
    | nil =>
      obtain rfl := Option.some.inj h
      exact le_rfl
    | cons stage rest =>
      simp only at h
      split at h
      · obtain rfl := Option.some.inj h
        exact le_rfl
      · split_ifs at h
        · obtain rfl := Option.some.inj h
          exact le_rfl
        · obtain rfl := Option.some.inj h
          exact Nat.zero_le _
  | waiting =>
    rw [hphase] at h
    simp only at h
    split_ifs at h
    all_goals
      obtain rfl := Option.some.inj h
      exact le_rfl
  | stopping stop =>
    rw [hphase] at h
    obtain rfl := Option.some.inj h
    show s.clock + settings.drain - s.clock + settings.grace ≤ settings.drain + settings.grace
    omega
  | draining stop until_ =>
    rw [hphase] at h
    simp only at h
    split_ifs at h
    all_goals
      obtain rfl := Option.some.inj h
      exact Nat.le_add_left ..
  | closing stop interrupted =>
    rw [hphase] at h
    simp only at h
    split_ifs at h
    · obtain rfl := Option.some.inj h
      exact Nat.zero_le _
    · obtain rfl := Option.some.inj h
      show s.clock + settings.grace - s.clock ≤ settings.grace
      omega
  | grace stop until_ =>
    rw [hphase] at h
    simp only at h
    split_ifs at h
    all_goals
      obtain rfl := Option.some.inj h
      exact Nat.zero_le _
  | stopped stop outcome =>
    rw [hphase] at h
    obtain rfl := Option.some.inj h
    exact le_rfl
  | closingPool stop outcome =>
    rw [hphase] at h
    obtain rfl := Option.some.inj h
    exact le_rfl
  | flushing stop outcome =>
    rw [hphase] at h
    obtain rfl := Option.some.inj h
    exact le_rfl
  | exited code =>
    rw [hphase] at h
    cases h

/-- Time passes only while something is waited for. -/
theorem secondsLeft_tick (h : s.aside .tick = some s') :
    stoppingSecond s .tick + secondsLeft settings s' ≤ secondsLeft settings s := by
  unfold State.aside at h
  simp only at h
  split_ifs at h with hurgent
  obtain rfl := Option.some.inj h
  unfold State.urgent at hurgent
  unfold stoppingSecond secondsLeft
  cases hphase : s.phase with
  | draining stop until_ =>
    rw [hphase] at hurgent
    simp only [Bool.or_eq_true, decide_eq_true_eq, not_or, not_le] at hurgent
    simp only [Phase.stops, and_self, if_true]
    omega
  | grace stop until_ =>
    rw [hphase] at hurgent
    simp only [Bool.or_eq_true, decide_eq_true_eq, not_or, not_le] at hurgent
    simp only [Phase.stops, and_self, if_true]
    omega
  | stopping stop =>
    rw [hphase] at hurgent
    exact absurd rfl hurgent
  | closing stop interrupted =>
    rw [hphase] at hurgent
    exact absurd rfl hurgent
  | _ => simp [Phase.stops]

theorem clock_of_aside (h : s.aside l = some s') (hl : l ≠ .tick) : s'.clock = s.clock := by
  cases aside_cases h with
  | time clock signalled hclock => exact hclock hl
  | lane task => exact clock_setLane ..
  | laneReports task => exact clock_setLane ..
  | _ => rfl

theorem stoppingSecond_step (h : step settings s l = some s') :
    stoppingSecond s l + secondsLeft settings s' ≤ secondsLeft settings s := by
  obtain ⟨-, ⟨ok, rfl, hadvance⟩ | haside⟩ := step_some h
  · have hless := secondsLeft_advance hadvance
    have hnone : stoppingSecond s (.advance ok) = 0 := if_neg fun h => by cases h.1
    omega
  · by_cases hl : l = .tick
    · rw [hl] at haside ⊢
      exact secondsLeft_tick haside
    · have hsame : secondsLeft settings s' = secondsLeft settings s := by
        unfold secondsLeft
        rw [(beside_of_aside haside).phase, clock_of_aside haside hl]
      have hnone : stoppingSecond s l = 0 := if_neg fun h => hl h.1
      omega

/-- Steps that need nothing but `run` itself and time. -/
def Alone (l : Label) : Prop := l = .tick ∨ ∃ ok, l = .advance ok

/-- The steps of `drain_and_close` that are left. -/
def Phase.stepsLeft : Phase → ℕ
  | .stopping _ => 4
  | .draining _ _ => 3
  | .closing _ _ => 2
  | .grace _ _ => 1
  | _ => 0

/-- What `run` does on its own while it stops. -/
theorem advance_of_urgent (hstops : s.phase.stops = true) (hurgent : s.urgent = true) :
    ∃ s', settings.advance s true = some s' ∧ s'.phase.stepsLeft < s.phase.stepsLeft ∧
      (s'.phase.stops = true ∨ s'.phase.stopped? = true) := by
  unfold State.urgent at hurgent
  unfold Settings.advance
  cases hphase : s.phase with
  | stopping stop => exact ⟨_, rfl, by simp [Phase.stepsLeft], Or.inl rfl⟩
  | draining stop until_ =>
    rw [hphase] at hurgent
    simp only [Bool.or_eq_true, decide_eq_true_eq] at hurgent
    by_cases hdue : until_ ≤ s.clock
    · exact ⟨_, if_pos ⟨hdue, Or.inl rfl⟩, by simp [Phase.stepsLeft], Or.inl rfl⟩
    · have hsignal := hurgent.resolve_right hdue
      refine ⟨{ s with phase := .closing stop true }, ?_, by simp [Phase.stepsLeft], Or.inl rfl⟩
      show (if until_ ≤ s.clock ∧ _ then _ else if s.signalled = true then _ else _) = _
      rw [if_neg fun h => hdue h.1, if_pos hsignal]
  | closing stop interrupted =>
    cases interrupted with
    | true => exact ⟨_, rfl, by simp [Phase.stepsLeft], Or.inr rfl⟩
    | false => exact ⟨_, rfl, by simp [Phase.stepsLeft], Or.inl rfl⟩
  | grace stop until_ =>
    rw [hphase] at hurgent
    simp only [Bool.or_eq_true, decide_eq_true_eq] at hurgent
    by_cases hdue : s.listener = .closed ∨ until_ ≤ s.clock
    · exact ⟨_, if_pos ⟨hdue, Or.inl rfl⟩, by simp [Phase.stepsLeft], Or.inr rfl⟩
    · have hsignal : s.signalled = true := by tauto
      refine ⟨{ s with
        phase := .stopped stop { graceful := false, interrupted := true }, listener := .aborted },
        ?_, by simp [Phase.stepsLeft], Or.inr rfl⟩
      show (if (s.listener = .closed ∨ until_ ≤ s.clock) ∧ _ then _
        else if s.signalled = true then _ else _) = _
      rw [if_neg fun h => hdue h.1, if_pos hsignal]
  | _ =>
    rw [hphase] at hstops
    cases hstops

theorem over_of_stops (hstops : s.phase.stops = true) : s.phase.over = false := by
  cases hphase : s.phase <;> first | rfl | (rw [hphase] at hstops; cases hstops)

/-- Whatever is in flight, `drain_and_close` is one step nearer to its end. -/
theorem nearer_stop (hstops : s.phase.stops = true) : ∃ l s', Alone l ∧
    step settings s l = some s' ∧ (s'.phase.stops = true ∨ s'.phase.stopped? = true) ∧
    secondsLeft settings s' + s'.phase.stepsLeft < secondsLeft settings s + s.phase.stepsLeft := by
  have hlive := over_of_stops hstops
  cases hurgent : s.urgent with
  | true =>
    obtain ⟨s', hadvance, hless, hnext⟩ := @advance_of_urgent settings s hstops hurgent
    have hseconds := secondsLeft_advance hadvance
    refine ⟨.advance true, s', Or.inr ⟨true, rfl⟩, ?_, hnext, by omega⟩
    unfold step
    rw [hlive]
    exact hadvance
  | false =>
    have htick : step settings s .tick = some { s with clock := s.clock + 1 } := by
      unfold step State.aside
      rw [hlive, hurgent]
      rfl
    have hpaid := stoppingSecond_step htick
    have hone : stoppingSecond s .tick = 1 := if_pos ⟨rfl, hstops⟩
    refine ⟨.tick, _, Or.inl rfl, htick, Or.inl hstops, ?_⟩
    show secondsLeft settings { s with clock := s.clock + 1 } + s.phase.stepsLeft < _
    omega

theorem reach_one (halone : Alone l) (h : step settings s l = some s') :
    Reach (step settings) (fun _ l => Alone l) s s' := .tail .refl halone h

theorem stops_alone (hstops : s.phase.stops = true) : ∃ s',
    Reach (step settings) (fun _ l => Alone l) s s' ∧ s'.phase.stopped? = true := by
  obtain ⟨left, hleft⟩ : ∃ left, secondsLeft settings s + s.phase.stepsLeft ≤ left := ⟨_, le_rfl⟩
  induction left generalizing s with
  | zero =>
    obtain ⟨l, next, -, -, -, hless⟩ := @nearer_stop settings s hstops
    omega
  | succ left ih =>
    obtain ⟨l, next, halone, hstep, hnext | hstopped, hless⟩ := @nearer_stop settings s hstops
    · obtain ⟨s', hreach, hstopped⟩ := ih hnext (by omega)
      exact ⟨s', (reach_one halone hstep).trans hreach, hstopped⟩
    · exact ⟨next, reach_one halone hstep, hstopped⟩

theorem shutdown_of_validate (hvalid : validate settings.readers settings.config = []) :
    settings.drain + settings.grace ≤ shutdownCeilingSeconds := by
  unfold validate at hvalid
  simp only [List.append_eq_nil_iff, violationUnless_eq_nil, Bool.and_eq_true,
    decide_eq_true_eq] at hvalid
  have hceiling := hvalid.1.1.1.1.1.1.1.2
  have hsum := hceiling.2
  unfold Settings.drain Settings.grace
  unfold shutdownCeilingSeconds at hsum ⊢
  unfold u64Max at hsum
  omega

/-- A process takes its drain and its grace at most between the order to stop and the end of the
shutdown, two minutes with a configuration that is accepted, and needs no request to finish. -/
theorem stop_is_bounded (settings : Settings) (ls : List Label) (s : State)
    (hrun : run (step settings) settings.initial ls = some s) :
    total (step settings) stoppingSecond settings.initial ls ≤ settings.drain + settings.grace ∧
      (validate settings.readers settings.config = [] → settings.drain + settings.grace ≤ 120) ∧
      (s.phase.stops = true → ∃ s', Reach (step settings) (fun _ l => Alone l) s s' ∧
        s'.phase.stopped? = true) := by
  refine ⟨?_, shutdown_of_validate, stops_alone⟩
  have hsteps : ∀ s l s', True → True → step settings s l = some s' →
      True ∧ stoppingSecond s l + secondsLeft settings s' ≤ secondsLeft settings s + 0 :=
    fun _ _ _ _ _ hstep => ⟨trivial, stoppingSecond_step hstep⟩
  have hpaid := total_add_le (secondsLeft settings) hsteps hrun
    (along_of_forall (fun _ _ _ => trivial) _) trivial
  have hstart : secondsLeft settings settings.initial = settings.drain + settings.grace := rfl
  rw [total_zero] at hpaid
  omega

theorem stop_is_bounded_task :
    ∃ s, run (step Sample.configured) Sample.configured.initial Sample.stopped = some s ∧
      total (step Sample.configured) stoppingSecond Sample.configured.initial Sample.stopped ≤
        Sample.configured.drain + Sample.configured.grace := by
  refine ⟨_, rfl, ?_⟩
  exact (stop_is_bounded Sample.configured Sample.stopped _ rfl).1

end Time

section Order

variable {settings : Settings} {s s' : State} {ok : Bool} {l : Label} {task : LaneTask}

/-- What the shutdown reports of the server. -/
structure Reports (outcome : ShutdownOutcome) (listener : Listener) : Prop where
  accepts : listener.accepts = false
  graceful : outcome.graceful = true → listener = .closed
  interrupted : outcome.interrupted = true → listener = .aborted ∧ outcome.graceful = false

/-- What is still at work in the process. -/
structure AtRest (s : State) : Prop where
  prober : s.prober = false
  lane : ∀ task, (s.lane task).idle = true

/-- How far the shutdown is. -/
def InOrder (s : State) : Prop :=
  match s.phase with
  | .draining _ _ => s.listener.accepts = true ∧ s.pool ≠ .closed
  | .closing _ _ => s.listener.accepts = true ∧ s.pool ≠ .closed
  | .grace _ _ => s.listener.closes = true ∧ s.pool ≠ .closed
  | .stopped _ outcome => Reports outcome s.listener ∧ s.pool ≠ .closed
  | .closingPool _ outcome => Reports outcome s.listener ∧ AtRest s ∧ s.pool ≠ .closed
  | .flushing _ outcome => Reports outcome s.listener ∧ AtRest s
  | _ => True

theorem Listener.accepts_of_closes {listener : Listener} (h : listener.closes = true) :
    listener.accepts = false := by
  cases listener <;> first | rfl | cases h

theorem Listener.closes_close {listener : Listener} (h : listener.accepts = true) :
    listener.close.closes = true := by
  cases listener <;> first | rfl | cases h

theorem TaskState.idle_abort (task : TaskState) : task.abort.idle = true := by
  cases task <;> rfl

theorem atRest_of_aside (h : s.aside l = some s') (hrest : AtRest s) : AtRest s' := by
  obtain ⟨prober, lane⟩ := hrest
  cases aside_cases h with
  | lane task now hactive =>
    rw [lane task] at hactive
    cases hactive
  | laneReports task hactive =>
    rw [lane task] at hactive
    cases hactive
  | _ => exact ⟨prober, fun task => lane task⟩

theorem Reports.aside {outcome : ShutdownOutcome} (h : s.aside l = some s')
    (hreports : Reports outcome s.listener) : Reports outcome s'.listener := by
  obtain ⟨accepts, graceful, interrupted⟩ := hreports
  cases aside_cases h with
  | listener listener hlistener =>
    rcases hlistener with ⟨hbefore, -⟩ | ⟨⟨inFlight, hclosing⟩, hcloses⟩
    · rw [accepts] at hbefore
      cases hbefore
    · rw [hclosing] at graceful interrupted
      refine ⟨?_, fun hgraceful => ?_, fun hinterrupted => ?_⟩
      · exact Listener.accepts_of_closes hcloses
      · cases graceful hgraceful
      · cases (interrupted hinterrupted).1
  | lane task now =>
    rw [listener_setLane]
    exact ⟨accepts, graceful, interrupted⟩
  | laneReports task =>
    rw [listener_setLane]
    exact ⟨accepts, graceful, interrupted⟩
  | _ => exact ⟨accepts, graceful, interrupted⟩

theorem closes_of_aside (h : s.aside l = some s') (hcloses : s.listener.closes = true) :
    s'.listener.closes = true := by
  cases aside_cases h with
  | listener listener hlistener =>
    rcases hlistener with ⟨hbefore, -⟩ | ⟨-, hafter⟩
    · rw [Listener.accepts_of_closes hcloses] at hbefore
      cases hbefore
    · exact hafter
  | lane task now =>
    rw [listener_setLane]
    exact hcloses
  | laneReports task =>
    rw [listener_setLane]
    exact hcloses
  | _ => exact hcloses

theorem InOrder.aside (h : s.aside l = some s') (horder : InOrder s) : InOrder s' := by
  have hbeside := beside_of_aside h
  unfold InOrder at horder ⊢
  rw [hbeside.phase, hbeside.pool]
  cases hphase : s.phase with
  | draining stop until_ =>
    rw [hphase] at horder
    exact ⟨hbeside.accepts.trans horder.1, horder.2⟩
  | closing stop interrupted =>
    rw [hphase] at horder
    exact ⟨hbeside.accepts.trans horder.1, horder.2⟩
  | grace stop until_ =>
    rw [hphase] at horder
    exact ⟨closes_of_aside h horder.1, horder.2⟩
  | stopped stop outcome =>
    rw [hphase] at horder
    exact ⟨horder.1.aside h, horder.2⟩
  | closingPool stop outcome =>
    rw [hphase] at horder
    exact ⟨horder.1.aside h, atRest_of_aside h horder.2.1, horder.2.2⟩
  | flushing stop outcome =>
    rw [hphase] at horder
    exact ⟨horder.1.aside h, atRest_of_aside h horder.2⟩
  | _ => trivial

/-- A process whose startup is over and that does not drain yet accepts requests. -/
theorem Sound.accepts_of_rest (h : Sound settings s) (hrest : s.phase.rest = [])
    (hdrains : s.phase.drains = false) : s.listener.accepts = true := by
  have hbind : StartupStep.bind.Done settings s := by
    refine h.done .bind mem_startup.2.1 ?_
    rw [hrest]
    exact List.not_mem_nil
  exact (h.accepts hdrains).resolve_left hbind

theorem InOrder.advance (h : settings.advance s ok = some s') (hsound : Sound settings s)
    (horder : InOrder s) : InOrder s' := by
  unfold Settings.advance at h
  cases hphase : s.phase with
  | starting rest =>
    rw [hphase] at h
    cases rest with
    | nil =>
      obtain rfl := Option.some.inj h
      trivial
    | cons stage rest =>
      simp only at h
      split at h
      · obtain rfl := Option.some.inj h
        trivial
      · split_ifs at h
        all_goals
          obtain rfl := Option.some.inj h
          trivial
  | waiting =>
    rw [hphase] at h
    simp only at h
    split_ifs at h
    all_goals
      obtain rfl := Option.some.inj h
      trivial
  | stopping stop =>
    rw [hphase] at h
    obtain rfl := Option.some.inj h
    have hdrains : s.phase.drains = false := by rw [hphase]; rfl
    exact ⟨hsound.accepts_of_rest (by rw [hphase]; rfl) hdrains, hsound.opened hdrains⟩
  | draining stop until_ =>
    unfold InOrder at horder
    rw [hphase] at h horder
    simp only at h
    split_ifs at h
    all_goals
      obtain rfl := Option.some.inj h
      exact horder
  | closing stop interrupted =>
    unfold InOrder at horder
    rw [hphase] at h horder
    simp only at h
    split_ifs at h
    · obtain rfl := Option.some.inj h
      exact ⟨⟨rfl, (fun h => by cases h), fun _ => ⟨rfl, rfl⟩⟩, horder.2⟩
    · obtain rfl := Option.some.inj h
      exact ⟨Listener.closes_close horder.1, horder.2⟩
  | grace stop until_ =>
    unfold InOrder at horder
    rw [hphase] at h horder
    simp only at h
    split_ifs at h
    · obtain rfl := Option.some.inj h
      refine ⟨⟨Listener.accepts_of_closes horder.1, fun hgraceful => ?_, fun h => by cases h⟩,
        horder.2⟩
      exact of_decide_eq_true hgraceful
    · obtain rfl := Option.some.inj h
      exact ⟨⟨rfl, (fun h => by cases h), fun _ => ⟨rfl, rfl⟩⟩, horder.2⟩
  | stopped stop outcome =>
    unfold InOrder at horder
    rw [hphase] at h horder
    obtain rfl := Option.some.inj h
    refine ⟨horder.1, ⟨rfl, fun task => ?_⟩, horder.2⟩
    cases task <;> exact TaskState.idle_abort _
  | closingPool stop outcome =>
    unfold InOrder at horder
    rw [hphase] at h horder
    obtain rfl := Option.some.inj h
    obtain ⟨hreports, ⟨hprober, hlane⟩, -⟩ := horder
    refine ⟨hreports, ⟨hprober, fun task => ?_⟩⟩
    cases task with
    | consumer => exact hlane .consumer
    | relay => exact hlane .relay
  | flushing stop outcome =>
    rw [hphase] at h
    obtain rfl := Option.some.inj h
    trivial
  | exited code =>
    rw [hphase] at h
    cases h

end Order

end RatatoskrVault.Process
