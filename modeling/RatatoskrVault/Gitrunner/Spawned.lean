import RatatoskrVault.Gitrunner.LfsRunner
import RatatoskrVault.Lib.Accounts

/-! `run_bounded_inner`, and `GitRunner::run` once it has its command: one call beside the child it
spawns, what the child forks, the two tasks that read its streams, and a caller that can cancel. -/
namespace RatatoskrVault.Spawned

open Lib

/-- How a call waits for its child: under `timeout` in `GitRunner::run`, or in the `select!` of
`run_bounded_inner`. -/
inductive Waiter
  | timeout
  | select (cancellable : Bool)
  deriving DecidableEq

/-- The parts of a `ProcessConfig` that decide how a call ends; the deadline is in seconds. -/
structure ProcessConfig where
  waiter : Waiter
  deadline : ℕ
  stdoutCapBytes : ℕ
  stderrCapBytes : ℕ

def ProcessConfig.capBytes (config : ProcessConfig) : OutputStream → ℕ
  | .stdout => config.stdoutCapBytes
  | .stderr => config.stderrCapBytes

def ProcessConfig.ofRun (run : RunConfig) : ProcessConfig :=
  { waiter := .timeout
    deadline := run.deadline
    stdoutCapBytes := run.stdoutCapBytes
    stderrCapBytes := run.stderrCapBytes }

inductive ProcessError
  | spawn
  | timeout (deadline : ℕ)
  | interrupted
  | outputLimit (stream : OutputStream) (retained : ℕ)
  deriving DecidableEq

inductive Child
  | unspawned | running
  /-- The exit code, where no signal ended the child. -/
  | ended (code : Option ℤ)
  deriving DecidableEq

/-- A process that the child or another one of these has forked: whether it is still in the process
group of the child, and which streams it holds open. -/
structure Descendant where
  inGroup : Bool
  stdout : Bool
  stderr : Bool
  deriving DecidableEq

def Descendant.holds (d : Descendant) : OutputStream → Bool
  | .stdout => d.stdout
  | .stderr => d.stderr

/-- A process does not come back into a group that it has left, nor to a stream it has closed. -/
def Descendant.within (d old : Descendant) : Bool :=
  (!d.inGroup || old.inGroup) && (!d.stdout || old.stdout) && (!d.stderr || old.stderr)

/-- A task of `read_capped`. -/
inductive Reader
  | reading (retained : Bytes)
  | finished (retained : Bytes) (overflow : Bool)
  /-- The task panicked or was cancelled. -/
  | failed
  deriving DecidableEq

def Reader.over : Reader → Bool
  | .reading _ => false
  | _ => true

/-- A pipe: what has been written and not read, what has been read, and its reader. -/
structure PipeState where
  unread : Bytes
  received : List Chunk
  reader : Reader
  deriving DecidableEq

/-- The cancellation channel; `unseen` says that its value has changed since it was last read. -/
structure Cancellation where
  value : Bool
  unseen : Bool
  closed : Bool
  deriving DecidableEq

/-- Where a call is. -/
inductive Phase
  | spawning
  /-- The head of the loop, where the cancellation is read. -/
  | polling (until_ : ℕ)
  | waiting (until_ : ℕ)
  /-- The group has been killed, and the child is waited for. -/
  | reaping (error : ProcessError)
  | joining (code : Option ℤ)
  | joiningStderr (code : Option ℤ) (stdout : Bytes) (stdoutOverflow : Bool)
  | returned (result : Except ProcessError Captured)
  /-- The future was dropped. -/
  | dropped
  deriving DecidableEq

structure State where
  phase : Phase
  clock : ℕ
  child : Child
  childStdout : Bool
  childStderr : Bool
  others : List Descendant
  stdout : PipeState
  stderr : PipeState
  cancellation : Cancellation

namespace State

variable (s : State)

def pipe : OutputStream → PipeState
  | .stdout => s.stdout
  | .stderr => s.stderr

def setPipe (pipe : PipeState) : OutputStream → State
  | .stdout => { s with stdout := pipe }
  | .stderr => { s with stderr := pipe }

def childHolds : OutputStream → Bool
  | .stdout => s.childStdout
  | .stderr => s.childStderr

/-- A process that can write to the stream lives. -/
def held (stream : OutputStream) : Bool :=
  (decide (s.child = .running) && s.childHolds stream) || s.others.any (·.holds stream)

/-- A process of the group lives. -/
def groupAlive : Bool := decide (s.child = .running) || s.others.any (·.inGroup)

/-- `kill_group`: a process that has left the group is not reached. -/
def killGroup : State :=
  { s with
    child := if s.child = .running then .ended none else s.child
    others := s.others.filter fun d => !d.inGroup }

/-- A call that comes to its end drops its group guard. -/
def finish (result : Except ProcessError Captured) : State :=
  { s.killGroup with phase := .returned result }

/-- The reader has bytes to take or an end to see. -/
def readable (stream : OutputStream) : Bool :=
  !(s.pipe stream).reader.over && (decide ((s.pipe stream).unread ≠ []) || !s.held stream)

end State

/-- The branches of the wait. -/
inductive Branch
  | child | waitFails | deadline | changed
  deriving DecidableEq

namespace ProcessConfig

variable (config : ProcessConfig)

def waits (until_ : ℕ) : Phase :=
  match config.waiter with
  | .timeout => .waiting until_
  | .select _ => .polling until_

/-- The next step of the call outside its wait; `ok` answers the spawn. -/
def advance (s : State) (ok : Bool) : Option State :=
  match s.phase with
  | .spawning =>
    if ok then
      some { s with
        phase := config.waits (s.clock + config.deadline)
        child := .running, childStdout := true, childStderr := true }
    else some { s with phase := .returned (.error .spawn) }
  | .polling until_ =>
    if config.waiter = .select true ∧ s.cancellation.value = true then
      some { s.killGroup with phase := .reaping .interrupted }
    else
      some { s with
        phase := .waiting until_
        cancellation := { s.cancellation with unseen := false } }
  | .waiting _ => none
  | .reaping error => if s.child = .running then none else some (s.finish (.error error))
  | .joining code =>
    match s.stdout.reader with
    | .reading _ => none
    | .failed => some (s.finish (.error .spawn))
    | .finished stdout overflow => some { s with phase := .joiningStderr code stdout overflow }
  | .joiningStderr code stdout stdoutOverflow =>
    match s.stderr.reader with
    | .reading _ => none
    | .failed => some (s.finish (.error .spawn))
    | .finished stderr stderrOverflow =>
      if stdoutOverflow then
        some { s.killGroup with phase := .reaping (.outputLimit .stdout stdout.length) }
      else if stderrOverflow then
        some { s.killGroup with phase := .reaping (.outputLimit .stderr stderr.length) }
      else
        some (s.finish (.ok
          { exitCode := code.getD (-1)
            stdout
            stderr
            stdoutTruncated := false
            stderrTruncated := false }))
  | .returned _ => none
  | .dropped => none

/-- A branch of the wait that is ready. `timeout` looks at the child before it looks at the clock,
and a branch of a `select!` is taken whatever the others are. -/
def branch (s : State) : Branch → Option State
  | .child =>
    match s.phase, s.child with
    | .waiting _, .ended code => some { s with phase := .joining code }
    | _, _ => none
  | .waitFails =>
    match s.phase with
    | .waiting _ => some (s.finish (.error .spawn))
    | .reaping error => some (s.finish (.error error))
    | _ => none
  | .deadline =>
    match s.phase with
    | .waiting until_ =>
      if until_ ≤ s.clock ∧ (config.waiter = .timeout → s.child = .running) then
        some { s.killGroup with phase := .reaping (.timeout config.deadline) }
      else none
    | _ => none
  | .changed =>
    match s.phase with
    | .waiting until_ =>
      if config.waiter = .select true then
        if s.cancellation.unseen then
          if s.cancellation.value then some { s.killGroup with phase := .reaping .interrupted }
          else some { s with
            phase := .polling until_
            cancellation := { s.cancellation with unseen := false } }
        else if s.cancellation.closed then
          some { s.killGroup with phase := .reaping .interrupted }
        else none
      else none
    | _ => none

/-- What the call or one of its readers does next waits for nothing that is still to happen. -/
def urgent (s : State) : Bool :=
  s.readable .stdout || s.readable .stderr ||
    match s.phase with
    | .spawning => true
    | .polling _ => true
    | .waiting until_ =>
      decide (s.child ≠ .running) || decide (until_ ≤ s.clock) ||
        (decide (config.waiter = .select true) &&
          (s.cancellation.unseen || s.cancellation.closed))
    | .reaping _ => decide (s.child ≠ .running)
    | .joining _ => s.stdout.reader.over
    | .joiningStderr _ _ _ => s.stderr.reader.over
    | _ => false

end ProcessConfig

/-- `read_capped` on what a read returns. -/
def Reader.take (cap : ℕ) (retained : Bytes) (chunk : Chunk) : Reader :=
  let take := min chunk.1.length (cap - retained.length)
  if take < chunk.1.length then .finished (retained ++ chunk.1.take take) true
  else .reading (retained ++ chunk.1.take take)

inductive Label
  | advance (ok : Bool)
  | branch (b : Branch)
  /-- The future of the call is dropped at a point where it waits. -/
  | drop
  /-- One second, unless something is due in it. -/
  | tick
  | childExits (code : Option ℤ)
  | childCloses (stream : OutputStream)
  | forks (d : Descendant)
  /-- Another process ends, leaves the group, or closes a stream. -/
  | other (i : ℕ) (next : Option Descendant)
  | writes (stream : OutputStream) (bytes : Bytes)
  | reads (stream : OutputStream) (chunk : Chunk)
  | readEnds (stream : OutputStream)
  | readFails (stream : OutputStream)
  | readerFails (stream : OutputStream)
  | send (value : Bool)
  | close
  deriving DecidableEq

def Phase.suspends : Phase → Bool
  | .waiting _ => true
  | .reaping _ => true
  | .joining _ => true
  | .joiningStderr _ _ _ => true
  | _ => false

/-- What a reader makes of its stream. -/
def ProcessConfig.read (config : ProcessConfig) (s : State) (stream : OutputStream) (chunk : Chunk) :
    Option State :=
  match (s.pipe stream).reader with
  | .reading retained =>
    if chunk.1 <+: (s.pipe stream).unread then
      some (s.setPipe
        { unread := (s.pipe stream).unread.drop chunk.1.length
          received := (s.pipe stream).received ++ [chunk]
          reader := .take (config.capBytes stream) retained chunk } stream)
    else none
  | _ => none

/-- A reader comes to its end without an overflow. -/
def State.readEnds (s : State) (stream : OutputStream) : Option State :=
  match (s.pipe stream).reader with
  | .reading retained =>
    some (s.setPipe { s.pipe stream with reader := .finished retained false } stream)
  | _ => none

/-- What happens beside the call. -/
def ProcessConfig.aside (config : ProcessConfig) (s : State) : Label → Option State
  | .advance _ => none
  | .branch _ => none
  | .drop => none
  | .tick => if config.urgent s then none else some { s with clock := s.clock + 1 }
  | .childExits code =>
    if s.child = .running then some { s with child := .ended code } else none
  | .childCloses .stdout => some { s with childStdout := false }
  | .childCloses .stderr => some { s with childStderr := false }
  | .forks d =>
    if (s.groupAlive || (!d.inGroup && !s.others.isEmpty)) && (!d.stdout || s.held .stdout) &&
        (!d.stderr || s.held .stderr) then
      some { s with others := s.others ++ [d] }
    else none
  | .other i next =>
    match s.others[i]?, next with
    | some _, none => some { s with others := s.others.eraseIdx i }
    | some old, some d =>
      if d.within old then some { s with others := s.others.set i d } else none
    | none, _ => none
  | .writes stream bytes =>
    if s.held stream = true ∧ (s.pipe stream).reader.over = false then
      some (s.setPipe { s.pipe stream with unread := (s.pipe stream).unread ++ bytes } stream)
    else none
  | .reads stream chunk => config.read s stream chunk
  | .readEnds stream =>
    if (s.pipe stream).unread = [] ∧ s.held stream = false then s.readEnds stream else none
  | .readFails stream => s.readEnds stream
  | .readerFails stream =>
    if (s.pipe stream).reader.over then none
    else some (s.setPipe { s.pipe stream with reader := .failed } stream)
  | .send value =>
    if s.cancellation.closed then none
    else some { s with cancellation := { s.cancellation with value, unseen := true } }
  | .close => some { s with cancellation := { s.cancellation with closed := true } }

def step (config : ProcessConfig) (s : State) : Label → Option State
  | .advance ok => config.advance s ok
  | .branch b => config.branch s b
  | .drop => if s.phase.suspends then some { s.killGroup with phase := .dropped } else none
  | l => config.aside s l

/-- A call that nothing has been done for yet. -/
def initial (cancellation : Cancellation) : State :=
  { phase := .spawning
    clock := 0
    child := .unspawned
    childStdout := false
    childStderr := false
    others := []
    stdout := { unread := [], received := [], reader := .reading [] }
    stderr := { unread := [], received := [], reader := .reading [] }
    cancellation }

section Fields

variable (s : State) (pipe : PipeState) (stream : OutputStream)

@[simp] theorem phase_setPipe : (s.setPipe pipe stream).phase = s.phase := by cases stream <;> rfl

@[simp] theorem clock_setPipe : (s.setPipe pipe stream).clock = s.clock := by cases stream <;> rfl

@[simp] theorem child_setPipe : (s.setPipe pipe stream).child = s.child := by cases stream <;> rfl

@[simp] theorem others_setPipe : (s.setPipe pipe stream).others = s.others := by cases stream <;> rfl

@[simp] theorem pipe_setPipe_self : (s.setPipe pipe stream).pipe stream = pipe := by
  cases stream <;> rfl

theorem pipe_setPipe_of_ne {stream' : OutputStream} (h : stream' ≠ stream) :
    (s.setPipe pipe stream).pipe stream' = s.pipe stream' := by
  cases stream <;> cases stream' <;> first | rfl | exact absurd rfl h

@[simp] theorem groupAlive_killGroup : s.killGroup.groupAlive = false := by
  unfold State.groupAlive State.killGroup
  have hchild : (if s.child = .running then Child.ended none else s.child) ≠ .running := by
    split_ifs with h
    · exact Child.noConfusion
    · exact h
  simp [hchild]

end Fields

section Inversion

variable {config : ProcessConfig} {s s' : State} {l : Label}

/-- What becomes of a pipe while its reader is at work. -/
inductive PipeStep (config : ProcessConfig) (stream : OutputStream) (pipe : PipeState) :
    PipeState → Prop
  | writes (unread : Bytes) : pipe.reader.over = false →
    PipeStep config stream pipe { pipe with unread }
  | reads (retained unread : Bytes) (chunk : Chunk) : pipe.reader = .reading retained →
    PipeStep config stream pipe
      { unread
        received := pipe.received ++ [chunk]
        reader := .take (config.capBytes stream) retained chunk }
  | ends (retained : Bytes) : pipe.reader = .reading retained →
    PipeStep config stream pipe { pipe with reader := .finished retained false }
  | fails : pipe.reader.over = false → PipeStep config stream pipe { pipe with reader := .failed }

/-- What a step beside the call can do. -/
inductive Aside (config : ProcessConfig) (s : State) (l : Label) : State → Prop
  | tick : l = .tick → config.urgent s = false → Aside config s l { s with clock := s.clock + 1 }
  | child (code : Option ℤ) : s.child = .running → Aside config s l { s with child := .ended code }
  | closes (childStdout childStderr : Bool) : Aside config s l { s with childStdout, childStderr }
  | others (others : List Descendant) :
    (s.groupAlive = false → ∀ d ∈ others, d.inGroup = false) → Aside config s l { s with others }
  | pipe (stream : OutputStream) (pipe : PipeState) : PipeStep config stream (s.pipe stream) pipe →
    Aside config s l (s.setPipe pipe stream)
  | cancellation (cancellation : Cancellation) : Aside config s l { s with cancellation }

theorem inGroup_of_groupAlive (h : s.groupAlive = false) {d : Descendant} (hd : d ∈ s.others) :
    d.inGroup = false := by
  unfold State.groupAlive at h
  simp only [Bool.or_eq_false_iff, List.any_eq_false] at h
  simpa using h.2 d hd

theorem aside_of_readEnds {stream : OutputStream} (h : s.readEnds stream = some s') :
    Aside config s l s' := by
  unfold State.readEnds at h
  cases hreader : (s.pipe stream).reader with
  | reading retained =>
    rw [hreader] at h
    obtain rfl := Option.some.inj h
    exact .pipe stream _ (.ends retained hreader)
  | finished retained overflow =>
    rw [hreader] at h
    cases h
  | failed =>
    rw [hreader] at h
    cases h

theorem aside_cases (h : config.aside s l = some s') : Aside config s l s' := by
  cases l with
  | advance ok => cases h
  | branch b => cases h
  | drop => cases h
  | tick =>
    unfold ProcessConfig.aside at h
    simp only at h
    split_ifs at h with hurgent
    obtain rfl := Option.some.inj h
    exact .tick rfl (by simpa using hurgent)
  | childExits code =>
    unfold ProcessConfig.aside at h
    simp only at h
    split_ifs at h with hrunning
    obtain rfl := Option.some.inj h
    exact .child code hrunning
  | childCloses stream =>
    cases stream with
    | stdout =>
      obtain rfl := Option.some.inj h
      exact .closes ..
    | stderr =>
      obtain rfl := Option.some.inj h
      exact .closes ..
  | forks d =>
    unfold ProcessConfig.aside at h
    simp only at h
    split_ifs at h with hforks
    obtain rfl := Option.some.inj h
    refine .others _ fun hdead d' hd' => ?_
    rcases List.mem_append.mp hd' with hold | hnew
    · exact inGroup_of_groupAlive hdead hold
    · obtain rfl := List.mem_singleton.mp hnew
      rw [hdead] at hforks
      simp only [Bool.false_or, Bool.and_eq_true, Bool.not_eq_true'] at hforks
      exact hforks.1.1.1
  | other i next =>
    unfold ProcessConfig.aside at h
    simp only at h
    cases hi : s.others[i]? with
    | none =>
      rw [hi] at h
      cases h
    | some old =>
      have hold : old ∈ s.others := List.mem_of_getElem? hi
      rw [hi] at h
      cases next with
      | none =>
        obtain rfl := Option.some.inj h
        exact .others _ fun hdead d hd => inGroup_of_groupAlive hdead (List.mem_of_mem_eraseIdx hd)
      | some next =>
        simp only at h
        split_ifs at h with hwithin
        obtain rfl := Option.some.inj h
        refine .others _ fun hdead d hd => ?_
        rcases List.mem_or_eq_of_mem_set hd with hmem | rfl
        · exact inGroup_of_groupAlive hdead hmem
        · have hout := inGroup_of_groupAlive hdead hold
          unfold Descendant.within at hwithin
          rw [hout] at hwithin
          simp only [Bool.and_eq_true, Bool.or_false, Bool.not_eq_true'] at hwithin
          exact hwithin.1.1
  | writes stream bytes =>
    unfold ProcessConfig.aside at h
    simp only at h
    split_ifs at h with hopen
    obtain rfl := Option.some.inj h
    exact .pipe stream _ (.writes _ hopen.2)
  | reads stream chunk =>
    unfold ProcessConfig.aside ProcessConfig.read at h
    simp only at h
    cases hreader : (s.pipe stream).reader with
    | reading retained =>
      rw [hreader] at h
      simp only at h
      split_ifs at h
      obtain rfl := Option.some.inj h
      exact .pipe stream _ (.reads retained _ chunk hreader)
    | finished retained overflow =>
      rw [hreader] at h
      cases h
    | failed =>
      rw [hreader] at h
      cases h
  | readEnds stream =>
    unfold ProcessConfig.aside at h
    simp only at h
    split_ifs at h
    exact aside_of_readEnds h
  | readFails stream =>
    exact aside_of_readEnds h
  | readerFails stream =>
    unfold ProcessConfig.aside at h
    simp only at h
    split_ifs at h with hover
    obtain rfl := Option.some.inj h
    exact .pipe stream _ (.fails (by simpa using hover))
  | send value =>
    unfold ProcessConfig.aside at h
    simp only at h
    split_ifs at h
    obtain rfl := Option.some.inj h
    exact .cancellation _
  | close =>
    obtain rfl := Option.some.inj h
    exact .cancellation _

end Inversion

end RatatoskrVault.Spawned
