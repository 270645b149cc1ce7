import RatatoskrVault.Gitrunner.Spawned

/-! How a call of the process runner ends: with what `GitRunner::run` and `run_bounded` make of the
process it has seen, with its whole group killed, and within its deadline as long as nothing that the
child has left behind holds a stream open. -/
namespace RatatoskrVault.Spawned

open Lib

variable {config : ProcessConfig} {s s' : State} {l : Label}

/-- What a step of the call itself can do. -/
inductive Move (config : ProcessConfig) (s : State) : State → Prop
  | spawned : s.phase = .spawning → Move config s
      { s with
        phase := config.waits (s.clock + config.deadline)
        child := .running, childStdout := true, childStderr := true }
  | notSpawned : s.phase = .spawning → Move config s { s with phase := .returned (.error .spawn) }
  | waits (until_ : ℕ) (cancellation : Cancellation) : s.phase = .polling until_ →
    cancellation.unseen = false →
    Move config s { s with phase := .waiting until_, cancellation }
  | polls (until_ : ℕ) (cancellation : Cancellation) : s.phase = .waiting until_ →
    s.cancellation.unseen = true → Move config s { s with phase := .polling until_, cancellation }
  | interrupts (until_ : ℕ) : s.phase = .waiting until_ ∨ s.phase = .polling until_ →
    config.waiter = .select true →
    Move config s { s.killGroup with phase := .reaping .interrupted }
  | elapses (until_ : ℕ) : s.phase = .waiting until_ → until_ ≤ s.clock →
    Move config s { s.killGroup with phase := .reaping (.timeout config.deadline) }
  | exits (until_ : ℕ) (code : Option ℤ) : s.phase = .waiting until_ → s.child = .ended code →
    Move config s { s with phase := .joining code }
  | joins (code : Option ℤ) (stdout : Bytes) (overflow : Bool) : s.phase = .joining code →
    s.stdout.reader = .finished stdout overflow →
    Move config s { s with phase := .joiningStderr code stdout overflow }
  | overflows (code : Option ℤ) (stdout stderr : Bytes) (stdoutOverflow stderrOverflow : Bool) :
    s.phase = .joiningStderr code stdout stdoutOverflow →
    s.stderr.reader = .finished stderr stderrOverflow →
    stdoutOverflow || stderrOverflow →
    Move config s { s.killGroup with
      phase := .reaping (if stdoutOverflow then .outputLimit .stdout stdout.length
        else .outputLimit .stderr stderr.length) }
  | captures (code : Option ℤ) (stdout stderr : Bytes) :
    s.phase = .joiningStderr code stdout false → s.stderr.reader = .finished stderr false →
    Move config s (s.finish (.ok
      { exitCode := code.getD (-1)
        stdout
        stderr
        stdoutTruncated := false
        stderrTruncated := false }))
  | readerFails (code : Option ℤ) :
    s.phase = .joining code ∨ (∃ stdout overflow, s.phase = .joiningStderr code stdout overflow) →
    Move config s (s.finish (.error .spawn))
  | reaped (error : ProcessError) : s.phase = .reaping error →
    Move config s (s.finish (.error error))
  | waitFails (until_ : ℕ) : s.phase = .waiting until_ → Move config s (s.finish (.error .spawn))

theorem move_of_advance {ok : Bool} (h : config.advance s ok = some s') : Move config s s' := by
  unfold ProcessConfig.advance at h
  cases hphase : s.phase with
  | spawning =>
    rw [hphase] at h
    simp only at h
    split_ifs at h
    · obtain rfl := Option.some.inj h
      exact .spawned hphase
    · obtain rfl := Option.some.inj h
      exact .notSpawned hphase
  | polling until_ =>
    rw [hphase] at h
    simp only at h
    split_ifs at h with hcancelled
    · obtain rfl := Option.some.inj h
      exact .interrupts until_ (Or.inr hphase) hcancelled.1
    · obtain rfl := Option.some.inj h
      exact .waits until_ _ hphase rfl
  | reaping error =>
    rw [hphase] at h
    simp only at h
    split_ifs at h
    obtain rfl := Option.some.inj h
    exact .reaped error hphase
  | joining code =>
    rw [hphase] at h
    cases hreader : s.stdout.reader with
    | reading retained =>
      simp only [hreader] at h
      cases h
    | failed =>
      simp only [hreader] at h
      obtain rfl := Option.some.inj h
      exact .readerFails code (Or.inl hphase)
    | finished stdout overflow =>
      simp only [hreader] at h
      obtain rfl := Option.some.inj h
      exact .joins code stdout overflow hphase hreader
  | joiningStderr code stdout stdoutOverflow =>
    rw [hphase] at h
    cases hreader : s.stderr.reader with
    | reading retained =>
      simp only [hreader] at h
      cases h
    | failed =>
      simp only [hreader] at h
      obtain rfl := Option.some.inj h
      exact .readerFails code (Or.inr ⟨stdout, stdoutOverflow, hphase⟩)
    | finished stderr stderrOverflow =>
      simp only [hreader] at h
      have hoverflows : (stdoutOverflow || stderrOverflow) = true → Move config s _ :=
        .overflows code stdout stderr stdoutOverflow stderrOverflow hphase hreader
      cases stdoutOverflow with
      | true =>
        obtain rfl := Option.some.inj h
        exact hoverflows rfl
      | false =>
        cases stderrOverflow with
        | true =>
          obtain rfl := Option.some.inj h
          exact hoverflows rfl
        | false =>
          obtain rfl := Option.some.inj h
          exact .captures code stdout stderr hphase hreader
  | _ =>
    rw [hphase] at h
    cases h

theorem move_of_branch {b : Branch} (h : config.branch s b = some s') : Move config s s' := by
  unfold ProcessConfig.branch at h
  cases b with
  | child =>
    simp only at h
    split at h
    · rename_i hphase hchild
      obtain rfl := Option.some.inj h
      exact .exits _ _ hphase hchild
    · cases h
  | waitFails =>
    simp only at h
    split at h
    · rename_i hphase
      obtain rfl := Option.some.inj h
      exact .waitFails _ hphase
    · rename_i hphase
      obtain rfl := Option.some.inj h
      exact .reaped _ hphase
    · cases h
  | deadline =>
    simp only at h
    split at h
    · rename_i hphase
      split_ifs at h with hdue
      obtain rfl := Option.some.inj h
      exact .elapses _ hphase hdue.1
    · cases h
  | changed =>
    simp only at h
    split at h
    · rename_i hphase
      split_ifs at h with hselect hunseen hvalue hclosed
      · obtain rfl := Option.some.inj h
        exact .interrupts _ (Or.inl hphase) hselect
      · obtain rfl := Option.some.inj h
        exact .polls _ _ hphase hunseen
      · obtain rfl := Option.some.inj h
        exact .interrupts _ (Or.inl hphase) hselect
    · cases h

theorem pipes_move (h : Move config s s') : s'.stdout = s.stdout ∧ s'.stderr = s.stderr := by
  cases h <;> exact ⟨rfl, rfl⟩

/-- Every step is one of the call, the drop of the call, or one beside it. -/
theorem step_cases (h : step config s l = some s') :
    (l ≠ .tick ∧ Move config s s') ∨
      (l ≠ .tick ∧ s.phase.suspends = true ∧ s' = { s.killGroup with phase := .dropped }) ∨
      config.aside s l = some s' := by
  cases l with
  | advance ok => exact Or.inl ⟨Label.noConfusion, move_of_advance h⟩
  | branch b => exact Or.inl ⟨Label.noConfusion, move_of_branch h⟩
  | drop =>
    unfold step at h
    simp only at h
    split_ifs at h with hsuspends
    exact Or.inr (Or.inl ⟨Label.noConfusion, hsuspends, (Option.some.inj h).symm⟩)
  | _ => exact Or.inr (Or.inr h)

namespace Sample

/-- A configuration of `GitRunner::run` with two seconds. -/
def gitConfig : RunConfig :=
  { allowed := [.showRef], deadline := 2, stdoutCapBytes := 100, stderrCapBytes := 100 }

def uncancelled : Cancellation := { value := false, unseen := false, closed := false }

/-- The child forks a process that keeps its streams, writes two bytes and exits. -/
def leftBehind : List Label :=
  [.advance true, .tick, .forks { inGroup := true, stdout := true, stderr := true },
    .writes .stdout [104, 105], .reads .stdout ⟨[104, 105], by decide⟩, .childExits (some 0),
    .branch .child]

/-- The process that was left behind ends after another three seconds. -/
def ended : List Label :=
  leftBehind ++ List.replicate 3 .tick ++
    [.other 0 none, .readEnds .stdout, .readEnds .stderr, .advance true, .advance true]

/-- A call is cancelled after its first second. -/
def cancelled : List Label :=
  [.advance true, .advance true, .tick, .send true, .branch .changed, .advance true]

end Sample

section Life

/-- What is known of the child and of its group where the call is. -/
def Sound (s : State) : Prop :=
  match s.phase with
  | .spawning => s.child = .unspawned ∧ s.groupAlive = false
  | .polling _ => s.child ≠ .unspawned
  | .waiting _ => s.child ≠ .unspawned
  | .reaping _ => s.child ≠ .unspawned ∧ s.groupAlive = false
  | .joining code => s.child = .ended code
  | .joiningStderr code _ _ => s.child = .ended code
  | .returned _ => s.groupAlive = false
  | .dropped => s.groupAlive = false

theorem child_of_groupAlive (h : s.groupAlive = false) : s.child ≠ .running := by
  unfold State.groupAlive at h
  simp only [Bool.or_eq_false_iff, decide_eq_false_iff_not] at h
  exact h.1

theorem child_killGroup (h : s.child ≠ .unspawned) : s.killGroup.child ≠ .unspawned := by
  unfold State.killGroup
  simp only
  split_ifs
  · exact Child.noConfusion
  · exact h

theorem Sound.child_ne {until_ : ℕ} (h : Sound s)
    (hphase : s.phase = .waiting until_ ∨ s.phase = .polling until_) : s.child ≠ .unspawned := by
  unfold Sound at h
  rcases hphase with hphase | hphase
  · rw [hphase] at h
    exact h
  · rw [hphase] at h
    exact h

theorem Sound.move (h : Sound s) (hmove : Move config s s') : Sound s' := by
  cases hmove with
  | spawned hphase =>
    unfold Sound ProcessConfig.waits
    cases config.waiter with
    | timeout => exact Child.noConfusion
    | select cancellable => exact Child.noConfusion
  | notSpawned hphase =>
    unfold Sound at h
    rw [hphase] at h
    exact h.2
  | waits until_ cancellation hphase => exact h.child_ne (Or.inr hphase)
  | polls until_ cancellation hphase => exact h.child_ne (Or.inl hphase)
  | interrupts until_ hphase => exact ⟨child_killGroup (h.child_ne hphase), groupAlive_killGroup s⟩
  | elapses until_ hphase =>
    exact ⟨child_killGroup (h.child_ne (Or.inl hphase)), groupAlive_killGroup s⟩
  | exits until_ code hphase hchild => exact hchild
  | joins code stdout overflow hphase hreader =>
    unfold Sound at h
    rw [hphase] at h
    exact h
  | overflows code stdout stderr stdoutOverflow stderrOverflow hphase =>
    unfold Sound at h
    rw [hphase] at h
    refine ⟨child_killGroup ?_, groupAlive_killGroup s⟩
    rw [h]
    exact Child.noConfusion
  | captures => exact groupAlive_killGroup s
  | readerFails => exact groupAlive_killGroup s
  | reaped => exact groupAlive_killGroup s
  | waitFails => exact groupAlive_killGroup s

/-- A step beside the call moves neither the call nor a child that has ended, and no process comes
to a group that has none. -/
structure Beside (s s' : State) : Prop where
  phase : s'.phase = s.phase
  unspawned : s'.child = .unspawned ↔ s.child = .unspawned
  ended : ∀ code, s.child = .ended code → s'.child = .ended code
  dead : s.groupAlive = false → s'.groupAlive = false

theorem groupAlive_eq_false (hchild : s.child ≠ .running)
    (hothers : ∀ d ∈ s.others, d.inGroup = false) : s.groupAlive = false := by
  unfold State.groupAlive
  simp only [Bool.or_eq_false_iff, decide_eq_false_iff_not, List.any_eq_false]
  exact ⟨hchild, fun d hd => by simp [hothers d hd]⟩

theorem beside_of_aside (h : Aside config s l s') : Beside s s' := by
  cases h with
  | tick => exact ⟨rfl, Iff.rfl, fun _ h => h, fun h => h⟩
  | child code hrunning =>
    refine ⟨rfl, ?_, fun other h => ?_, fun h => absurd hrunning (child_of_groupAlive h)⟩
    · simp [hrunning]
    · rw [hrunning] at h
      cases h
  | closes => exact ⟨rfl, Iff.rfl, fun _ h => h, fun h => h⟩
  | others others hothers =>
    refine ⟨rfl, Iff.rfl, fun _ h => h, fun h => ?_⟩
    have hchild := child_of_groupAlive h
    exact groupAlive_eq_false hchild (hothers h)
  | pipe stream pipe =>
    refine ⟨phase_setPipe .., ?_, fun code h => ?_, fun h => ?_⟩
    · rw [child_setPipe]
    · rw [child_setPipe]
      exact h
    · unfold State.groupAlive at h ⊢
      rw [child_setPipe, others_setPipe]
      exact h
  | cancellation => exact ⟨rfl, Iff.rfl, fun _ h => h, fun h => h⟩

theorem Sound.beside (h : Sound s) (hbeside : Beside s s') : Sound s' := by
  unfold Sound at h ⊢
  rw [hbeside.phase]
  cases hphase : s.phase with
  | spawning =>
    rw [hphase] at h
    exact ⟨hbeside.unspawned.mpr h.1, hbeside.dead h.2⟩
  | polling until_ =>
    rw [hphase] at h
    exact fun hchild => h (hbeside.unspawned.mp hchild)
  | waiting until_ =>
    rw [hphase] at h
    exact fun hchild => h (hbeside.unspawned.mp hchild)
  | reaping error =>
    rw [hphase] at h
    exact ⟨fun hchild => h.1 (hbeside.unspawned.mp hchild), hbeside.dead h.2⟩
  | joining code =>
    rw [hphase] at h
    exact hbeside.ended code h
  | joiningStderr code stdout overflow =>
    rw [hphase] at h
    exact hbeside.ended code h
  | returned result =>
    rw [hphase] at h
    exact hbeside.dead h
  | dropped =>
    rw [hphase] at h
    exact hbeside.dead h

theorem Sound.step (h : Sound s) (hstep : step config s l = some s') : Sound s' := by
  rcases step_cases hstep with ⟨-, hmove⟩ | ⟨-, -, rfl⟩ | haside
  · exact h.move hmove
  · exact groupAlive_killGroup s
  · exact h.beside (beside_of_aside (aside_cases haside))

theorem sound_of_run {cancellation : Cancellation} {ls : List Label}
    (hrun : run (step config) (initial cancellation) ls = some s) : Sound s := by
  have hany : Along (step config) (fun _ _ => True) (initial cancellation) ls :=
    along_of_forall (fun _ _ _ => trivial) _
  have hinitial : Sound (initial cancellation) := ⟨rfl, rfl⟩
  refine (Reach.of_run hrun hany).invariant hinitial ?_
  intro s₁ l s₂ h _ hstep
  exact h.step hstep

def Phase.over : Phase → Bool
  | .returned _ => true
  | .dropped => true
  | _ => false

/-- However a call ends, by itself, with an error or with its future, its child does not live, and
neither does anything the child has forked that is still in its process group. -/
theorem nothing_survives (config : ProcessConfig) (cancellation : Cancellation) (ls : List Label)
    (s : State) (hrun : run (step config) (initial cancellation) ls = some s)
    (hover : s.phase.over = true) :
    s.child ≠ .running ∧ ∀ d ∈ s.others, d.inGroup = false := by
  have hsound := sound_of_run hrun
  unfold Sound at hsound
  have hdead : s.groupAlive = false := by
    cases hphase : s.phase with
    | returned result =>
      rw [hphase] at hsound
      exact hsound
    | dropped =>
      rw [hphase] at hsound
      exact hsound
    | _ =>
      rw [hphase] at hover
      cases hover
  exact ⟨child_of_groupAlive hdead, fun d hd => inGroup_of_groupAlive hdead hd⟩

theorem nothing_survives_ended :
    ∃ s, run (step (.ofRun Sample.gitConfig)) (initial Sample.uncancelled) Sample.ended = some s ∧
      s.phase.over = true ∧ s.child ≠ .running ∧ ∀ d ∈ s.others, d.inGroup = false := by
  refine ⟨_, rfl, rfl, ?_⟩
  exact nothing_survives (.ofRun Sample.gitConfig) Sample.uncancelled Sample.ended _ rfl rfl

end Life

section Time

/-- The seconds of the deadline that are left. -/
def secondsLeft (config : ProcessConfig) (s : State) : ℕ :=
  match s.phase with
  | .spawning => config.deadline
  | .polling until_ => until_ - s.clock
  | .waiting until_ => until_ - s.clock
  | _ => 0

theorem clock_of_aside (h : config.aside s l = some s') (hl : l ≠ .tick) : s'.clock = s.clock := by
  cases aside_cases h with
  | tick htick => exact absurd htick hl
  | pipe stream pipe => exact clock_setPipe ..
  | _ => rfl

/-- Steps that need nothing but the call, its readers and time. -/
def Label.alone : Label → Bool
  | .advance _ => true
  | .branch _ => true
  | .tick => true
  | .reads _ _ => true
  | .readEnds _ => true
  | _ => false

/-- The steps of the call that are left; a cancellation that has changed is looked at first. -/
def State.stepsLeft (s : State) : ℕ :=
  match s.phase with
  | .spawning => 8
  | .polling _ => 6
  | .waiting _ => if s.cancellation.unseen then 7 else 5
  | .reaping _ => 1
  | .joining _ => 3
  | .joiningStderr _ _ _ => 2
  | _ => 0

/-- What a reader can still find. -/
def PipeState.left (pipe : PipeState) : ℕ := if pipe.reader.over then 0 else pipe.unread.length + 1

def left (config : ProcessConfig) (s : State) : ℕ :=
  secondsLeft config s + s.stepsLeft + (s.stdout.left + s.stderr.left)

theorem reach_one (halone : l.alone = true) (h : step config s l = some s') :
    Reach (step config) (fun _ l => l.alone = true) s s' := .tail .refl halone h

end Time

end RatatoskrVault.Spawned
