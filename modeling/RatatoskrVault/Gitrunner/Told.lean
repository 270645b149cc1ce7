import RatatoskrVault.Gitrunner.Calls

/-! What a call of the process runner returns, in every interleaving with its child, the readers and
a caller that cancels: what `GitRunner::run` and `run_bounded` make of the process as it was seen. -/
namespace RatatoskrVault.Spawned

open Lib

/-- `From<ProcessError>`. -/
def LfsRunnerError.ofProcess : ProcessError → LfsRunnerError
  | .spawn => .spawnFailed
  | .timeout deadline => .timeout deadline
  | .interrupted => .interrupted
  | .outputLimit stream retained => .outputLimitExceeded stream retained

def Child.status : Child → Option ℤ
  | .ended code => code
  | _ => none

/-- What `GitRunner::run` returns for the result of its process. It has no cancellation. -/
def report (subcommand : Subcommand) (status : Option ℤ) :
    Except ProcessError Captured → Except GitRunnerError Captured
  | .ok captured =>
    if status.any (· ≠ 0) ∧ subcommand = .fsck then .error (.integrityCheckFailed "fsck")
    else .ok captured
  | .error .spawn => .error .spawnFailed
  | .error (.timeout deadline) => .error (.timeout deadline)
  | .error .interrupted => .error .spawnFailed
  | .error (.outputLimit stream retained) => .error (.outputLimitExceeded stream retained)

/-- The process as the call has seen it. -/
def State.observed (s : State) (wait : Wait) (readersJoined : Bool) : GitProcess :=
  if s.child = .unspawned then .notSpawned
  else
    .spawned wait { chunks := s.stdout.received, lost := s.stdout.unread }
      { chunks := s.stderr.received, lost := s.stderr.unread } readersJoined

/-- The end of the wait is one that has come about. -/
def Seen (config : ProcessConfig) (s : State) : Wait → Prop
  | .elapsed => config.deadline ≤ s.clock
  | .failed => True
  | .exited code => s.child = .ended code

section Readers

variable {config : ProcessConfig} {s s' : State} {stream : OutputStream} {cap : ℕ}
  {pipe pipe' : PipeState}

/-- A reader has taken what `read_capped` retains of what it has been given. -/
def PipeState.Exact (cap : ℕ) (pipe : PipeState) : Prop :=
  match pipe.reader with
  | .reading retained => retained = (pipe.received.map (·.1)).flatten ∧ retained.length ≤ cap
  | .finished retained overflow => readCapped cap [] pipe.received = (retained, overflow)
  | .failed => True

theorem readCapped_received (cap : ℕ) (chunks : List Chunk) : readCapped cap [] chunks =
    ((chunks.map (·.1)).flatten.take cap, decide (cap < (chunks.map (·.1)).flatten.length)) := by
  rw [readCapped_eq (Nat.zero_le cap), List.nil_append]

theorem flatten_snoc (chunks : List Chunk) (chunk : Chunk) :
    ((chunks ++ [chunk]).map (·.1)).flatten = (chunks.map (·.1)).flatten ++ chunk.1 := by
  simp

theorem exact_take {retained unread : Bytes} {chunk : Chunk} (hexact : pipe.Exact cap)
    (hreader : pipe.reader = .reading retained) :
    PipeState.Exact cap
      { unread
        received := pipe.received ++ [chunk]
        reader := .take cap retained chunk } := by
  unfold PipeState.Exact at hexact ⊢
  rw [hreader] at hexact
  obtain ⟨hretained, hlength⟩ := hexact
  have htotal := flatten_snoc pipe.received chunk
  rw [← hretained] at htotal
  unfold Reader.take
  by_cases hfits : retained.length + chunk.1.length ≤ cap
  · have htake : min chunk.1.length (cap - retained.length) = chunk.1.length := by omega
    simp only [htake, lt_irrefl, if_false, List.take_length]
    refine ⟨htotal.symm, ?_⟩
    rw [List.length_append]
    exact hfits
  · have htake : min chunk.1.length (cap - retained.length) = cap - retained.length := by omega
    have hless : cap - retained.length < chunk.1.length := by omega
    simp only [htake, hless, if_true]
    rw [readCapped_received, htotal, List.take_append, List.take_of_length_le hlength]
    have hover : cap < (retained ++ chunk.1).length := by
      rw [List.length_append]
      omega
    rw [decide_eq_true hover]

theorem PipeState.Exact.step (h : pipe.Exact (config.capBytes stream))
    (hstep : PipeStep config stream pipe pipe') : pipe'.Exact (config.capBytes stream) := by
  cases hstep with
  | writes unread hopen => exact h
  | reads retained unread chunk hreader => exact exact_take h hreader
  | ends retained hreader =>
    unfold PipeState.Exact at h ⊢
    rw [hreader] at h
    obtain ⟨rfl, hlength⟩ := h
    simp only
    rw [readCapped_received, List.take_of_length_le hlength, decide_eq_false (Nat.not_lt.mpr hlength)]
  | fails hopen => exact trivial

/-- A reader that has finished stays as it is, and is given nothing more. -/
theorem finished_step {retained : Bytes} {overflow : Bool}
    (h : pipe.reader = .finished retained overflow) (hstep : PipeStep config stream pipe pipe') :
    False := by
  cases hstep with
  | writes unread hopen => simp [h, Reader.over] at hopen
  | reads retained unread chunk hreader => simp [h] at hreader
  | ends retained hreader => simp [h] at hreader
  | fails hopen => simp [h, Reader.over] at hopen

theorem finished_of_aside {retained : Bytes} {overflow : Bool} {l : Label}
    (h : (s.pipe stream).reader = .finished retained overflow) (haside : Aside config s l s') :
    (s'.pipe stream).reader = .finished retained overflow := by
  cases haside with
  | pipe other pipe hpipe =>
    by_cases hsame : stream = other
    · rw [hsame] at h
      exact (finished_step h hpipe).elim
    · rw [pipe_setPipe_of_ne _ _ _ hsame]
      exact h
  | _ => cases stream <;> exact h

end Readers

section Results

variable {config : ProcessConfig} {s s' : State} {l : Label} {result : Except ProcessError Captured}

/-- What two finished readers make of a child that has exited. -/
def capture (code : Option ℤ) (stdout stderr : Bytes) (stdoutOverflow stderrOverflow : Bool) :
    Except ProcessError Captured :=
  if stdoutOverflow then .error (.outputLimit .stdout stdout.length)
  else if stderrOverflow then .error (.outputLimit .stderr stderr.length)
  else
    .ok
      { exitCode := code.getD (-1)
        stdout
        stderr
        stdoutTruncated := false
        stderrTruncated := false }

/-- A result that comes about as the source says. -/
inductive Reported (config : ProcessConfig) (s : State) : Except ProcessError Captured → Prop
  | interrupted : s.child ≠ .unspawned → config.waiter = .select true →
    Reported config s (.error .interrupted)
  | notSpawned : s.child = .unspawned → Reported config s (.error .spawn)
  | elapsed : s.child ≠ .unspawned → config.deadline ≤ s.clock →
    Reported config s (.error (.timeout config.deadline))
  | failed : s.child ≠ .unspawned → Reported config s (.error .spawn)
  | exited (code : Option ℤ) (stdout stderr : Bytes) (stdoutOverflow stderrOverflow : Bool) :
    s.child = .ended code → s.stdout.reader = .finished stdout stdoutOverflow →
    s.stderr.reader = .finished stderr stderrOverflow →
    Reported config s (capture code stdout stderr stdoutOverflow stderrOverflow)

/-- What the phase of a call says of its result. -/
def Tells (config : ProcessConfig) (s : State) : Prop :=
  match s.phase with
  | .spawning => s.clock = 0
  | .polling until_ => until_ = config.deadline
  | .waiting until_ => until_ = config.deadline
  | .reaping error => Reported config s (.error error)
  | .joiningStderr _ stdout overflow => s.stdout.reader = .finished stdout overflow
  | .returned result => Reported config s result
  | _ => True

structure Told (config : ProcessConfig) (s : State) : Prop where
  sound : Sound s
  tells : Tells config s
  stdout : s.stdout.Exact config.stdoutCapBytes
  stderr : s.stderr.Exact config.stderrCapBytes

/-- What changes no pipe and no child that has ended, and takes no time back, keeps a result. -/
theorem Reported.kept (h : Reported config s result)
    (hunspawned : s'.child = .unspawned ↔ s.child = .unspawned)
    (hended : ∀ code, s.child = .ended code → s'.child = .ended code) (hclock : s.clock ≤ s'.clock)
    (hreaders : ∀ stream retained overflow, (s.pipe stream).reader = .finished retained overflow →
      (s'.pipe stream).reader = .finished retained overflow) : Reported config s' result := by
  have hspawned : s.child ≠ .unspawned → s'.child ≠ .unspawned := mt hunspawned.mp
  cases h with
  | interrupted hchild hwaiter => exact .interrupted (hspawned hchild) hwaiter
  | notSpawned hchild => exact .notSpawned (hunspawned.mpr hchild)
  | elapsed hchild hdue => exact .elapsed (hspawned hchild) (hdue.trans hclock)
  | failed hchild => exact .failed (hspawned hchild)
  | exited code stdout stderr stdoutOverflow stderrOverflow hchild hstdout hstderr =>
    exact .exited code stdout stderr stdoutOverflow stderrOverflow (hended code hchild)
      (hreaders .stdout stdout stdoutOverflow hstdout)
      (hreaders .stderr stderr stderrOverflow hstderr)

theorem clock_le_of_aside (h : Aside config s l s') : s.clock ≤ s'.clock := by
  cases h with
  | tick => exact Nat.le_succ _
  | pipe stream pipe =>
    rw [clock_setPipe]
  | _ => exact le_rfl

theorem Reported.aside (h : Reported config s result) (haside : Aside config s l s') :
    Reported config s' result := by
  have hbeside := beside_of_aside haside
  exact h.kept hbeside.unspawned hbeside.ended (clock_le_of_aside haside)
    fun stream retained overflow hreader => finished_of_aside hreader haside

theorem unspawned_killGroup : s.killGroup.child = .unspawned ↔ s.child = .unspawned := by
  unfold State.killGroup
  simp only
  split_ifs with hrunning
  · simp [hrunning]
  · exact Iff.rfl

theorem ended_killGroup {code : Option ℤ} (h : s.child = .ended code) :
    s.killGroup.child = .ended code := by
  unfold State.killGroup
  simp [h]

/-- A result is not changed by the kill that comes with it. -/
theorem Reported.killed (h : Reported config s result) (phase : Phase) :
    Reported config { s.killGroup with phase } result := by
  have hkept : Reported config s.killGroup result := by
    refine h.kept unspawned_killGroup (fun code hcode => ended_killGroup hcode) le_rfl ?_
    intro stream retained overflow hreader
    cases stream <;> exact hreader
  refine hkept.kept Iff.rfl (fun code hcode => hcode) le_rfl ?_
  intro stream retained overflow hreader
  cases stream <;> exact hreader

theorem Sound.joined_child {code : Option ℤ} (h : Sound s) (hphase : s.phase = .joining code ∨
    ∃ stdout overflow, s.phase = .joiningStderr code stdout overflow) : s.child = .ended code := by
  unfold Sound at h
  rcases hphase with hphase | ⟨stdout, overflow, hphase⟩
  · rw [hphase] at h
    exact h
  · rw [hphase] at h
    exact h

theorem Tells.move (hsound : Sound s) (h : Tells config s) (hmove : Move config s s') :
    Tells config s' := by
  unfold Tells at h
  cases hmove with
  | spawned hphase =>
    rw [hphase] at h
    have huntil : s.clock + config.deadline = config.deadline := by
      rw [h]
      exact Nat.zero_add _
    unfold Tells ProcessConfig.waits
    cases config.waiter with
    | timeout => exact huntil
    | select cancellable => exact huntil
  | notSpawned hphase =>
    unfold Sound at hsound
    rw [hphase] at hsound
    exact Reported.notSpawned hsound.1
  | waits until_ cancellation hphase =>
    rw [hphase] at h
    exact h
  | polls until_ cancellation hphase =>
    rw [hphase] at h
    exact h
  | interrupts until_ hphase hwaiter =>
    exact (Reported.interrupted (hsound.child_ne hphase) hwaiter).killed _
  | elapses until_ hphase hdue =>
    rw [hphase] at h
    have hdeadline : config.deadline ≤ s.clock := by
      rw [← show until_ = config.deadline from h]
      exact hdue
    exact (Reported.elapsed (hsound.child_ne (Or.inl hphase)) hdeadline).killed _
  | exits until_ code hphase hchild => trivial
  | joins code stdout overflow hphase hreader => exact hreader
  | overflows code stdout stderr stdoutOverflow stderrOverflow hphase hreader hover =>
    rw [hphase] at h
    have hchild := hsound.joined_child (Or.inr ⟨stdout, stdoutOverflow, hphase⟩)
    have hreported : Reported config s
        (capture code stdout stderr stdoutOverflow stderrOverflow) :=
      .exited code stdout stderr stdoutOverflow stderrOverflow hchild h hreader
    have hcapture : capture code stdout stderr stdoutOverflow stderrOverflow =
        .error (if stdoutOverflow then .outputLimit .stdout stdout.length
          else .outputLimit .stderr stderr.length) := by
      unfold capture
      cases stdoutOverflow with
      | true => rfl
      | false =>
        cases stderrOverflow with
        | true => rfl
        | false => cases hover
    rw [hcapture] at hreported
    exact hreported.killed _
  | captures code stdout stderr hphase hreader =>
    rw [hphase] at h
    have hchild := hsound.joined_child (Or.inr ⟨stdout, false, hphase⟩)
    exact (Reported.exited code stdout stderr false false hchild h hreader).killed _
  | readerFails code hphase =>
    have hchild := hsound.joined_child hphase
    refine Reported.killed (.failed ?_) _
    rw [hchild]
    exact Child.noConfusion
  | reaped error hphase =>
    rw [hphase] at h
    exact Reported.killed h _
  | waitFails until_ hphase => exact (Reported.failed (hsound.child_ne (Or.inl hphase))).killed _

theorem Tells.aside (h : Tells config s) (haside : Aside config s l s') : Tells config s' := by
  unfold Tells at h ⊢
  rw [(beside_of_aside haside).phase]
  cases hphase : s.phase with
  | spawning =>
    rw [hphase] at h
    cases haside with
    | tick htick hurgent =>
      unfold ProcessConfig.urgent at hurgent
      rw [hphase] at hurgent
      simp at hurgent
    | pipe stream pipe => exact (clock_setPipe ..).trans h
    | _ => exact h
  | reaping error =>
    rw [hphase] at h
    exact Reported.aside h haside
  | returned result =>
    rw [hphase] at h
    exact Reported.aside h haside
  | joiningStderr code stdout overflow =>
    rw [hphase] at h
    have hreader : (s.pipe .stdout).reader = .finished stdout overflow := h
    exact finished_of_aside hreader haside
  | _ =>
    rw [hphase] at h
    exact h

theorem exact_of_aside (hstdout : s.stdout.Exact config.stdoutCapBytes)
    (hstderr : s.stderr.Exact config.stderrCapBytes) (haside : Aside config s l s') :
    s'.stdout.Exact config.stdoutCapBytes ∧ s'.stderr.Exact config.stderrCapBytes := by
  cases haside with
  | pipe stream pipe hpipe =>
    cases stream with
    | stdout =>
      have hexact : s.stdout.Exact (config.capBytes .stdout) := hstdout
      exact ⟨hexact.step hpipe, hstderr⟩
    | stderr =>
      have hexact : s.stderr.Exact (config.capBytes .stderr) := hstderr
      exact ⟨hstdout, hexact.step hpipe⟩
  | _ => exact ⟨hstdout, hstderr⟩

theorem Told.step (h : Told config s) (hstep : step config s l = some s') : Told config s' := by
  have hsound := h.sound.step hstep
  rcases step_cases hstep with ⟨-, hmove⟩ | ⟨-, -, rfl⟩ | haside
  · obtain ⟨hstdout, hstderr⟩ := pipes_move hmove
    refine ⟨hsound, h.tells.move h.sound hmove, ?_, ?_⟩
    · rw [hstdout]
      exact h.stdout
    · rw [hstderr]
      exact h.stderr
  · exact ⟨hsound, trivial, h.stdout, h.stderr⟩
  · have haside := aside_cases haside
    obtain ⟨hstdout, hstderr⟩ := exact_of_aside h.stdout h.stderr haside
    exact ⟨hsound, h.tells.aside haside, hstdout, hstderr⟩

end Results

section Runs

end Runs

end RatatoskrVault.Spawned
