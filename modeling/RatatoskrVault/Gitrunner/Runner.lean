import Mathlib.Data.Int.Notation
import Mathlib.Order.Basic
import RatatoskrVault.Core.Hex
import RatatoskrVault.Lib.Lines

/-! `GitRunner::run`: one allowlisted process, its two output streams read under a cap each, and
what the runner reports of it. -/
namespace RatatoskrVault

open Lib

inductive Subcommand
  | init | version | fsck | fetch | revList | cloneMirror | showRef | bundle | lsRemote
  deriving DecidableEq

def Subcommand.asStr : Subcommand → String
  | init => "init"
  | version => "version"
  | fsck => "fsck"
  | fetch => "fetch"
  | revList => "rev-list"
  | cloneMirror => "clone"
  | showRef => "show-ref"
  | bundle => "bundle"
  | lsRemote => "ls-remote"

/-- The parts of a runner's configuration that decide how a run ends; the deadline is in seconds. -/
structure RunConfig where
  allowed : List Subcommand
  deadline : ℕ
  stdoutCapBytes : ℕ
  stderrCapBytes : ℕ

/-- What one read returns: at least one byte, at most the buffer. -/
abbrev Chunk := { bytes : Bytes // 0 < bytes.length ∧ bytes.length ≤ 8192 }

/-- What a process writes to a stream: the chunks in which it is read, and what a read that fails
leaves unread. -/
structure Pipe where
  chunks : List Chunk
  lost : Bytes
  deriving DecidableEq

namespace Pipe

def received (pipe : Pipe) : Bytes := (pipe.chunks.map (·.1)).flatten

def text (pipe : Pipe) : Bytes := pipe.received ++ pipe.lost

end Pipe

/-- `read_capped` from what it has retained: the text and whether it goes past the cap. -/
def readCapped (cap : ℕ) (retained : Bytes) : List Chunk → Bytes × Bool
  -- the end of the stream, or a read that failed
  | [] => (retained, false)
  | chunk :: rest =>
    let take := min chunk.1.length (cap - retained.length)
    if take < chunk.1.length then (retained ++ chunk.1.take take, true)
    else readCapped cap (retained ++ chunk.1.take take) rest

inductive Wait
  | elapsed | failed
  /-- The exit code, where no signal ended the process. -/
  | exited (code : Option ℤ)
  deriving DecidableEq

/-- What the operating system makes of one invocation. -/
inductive GitProcess
  | notSpawned
  | spawned (wait : Wait) (stdout stderr : Pipe) (readersJoined : Bool)
  deriving DecidableEq

inductive OutputStream
  | stdout | stderr
  deriving DecidableEq

inductive GitRunnerError
  | disallowedSubcommand (requested : String)
  | spawnFailed
  | timeout (deadline : ℕ)
  | outputLimitExceeded (stream : OutputStream) (retained : ℕ)
  | integrityCheckFailed (tool : String)
  deriving DecidableEq

/-- The bounded capture of a finished process. -/
structure Captured where
  exitCode : ℤ
  stdout : Bytes
  stderr : Bytes
  stdoutTruncated : Bool
  stderrTruncated : Bool
  deriving DecidableEq

/-- `GitRunner::run` of an operation without credentials, under no denied root. -/
def GitRunner.run (config : RunConfig) (subcommand : Subcommand) (process : GitProcess) :
    Except GitRunnerError Captured :=
  if subcommand ∉ config.allowed then .error (.disallowedSubcommand subcommand.asStr)
  else
    match process with
    | .notSpawned => .error .spawnFailed
    | .spawned .elapsed _ _ _ => .error (.timeout config.deadline)
    | .spawned .failed _ _ _ => .error .spawnFailed
    | .spawned (.exited code) stdoutPipe stderrPipe readersJoined =>
      if readersJoined = false then .error .spawnFailed
      else
        let (stdout, stdoutOverflow) := readCapped config.stdoutCapBytes [] stdoutPipe.chunks
        let (stderr, stderrOverflow) := readCapped config.stderrCapBytes [] stderrPipe.chunks
        if stdoutOverflow then .error (.outputLimitExceeded .stdout stdout.length)
        else if stderrOverflow then .error (.outputLimitExceeded .stderr stderr.length)
        -- a failing integrity tool never surfaces as a plain exit code
        else if code.any (· ≠ 0) ∧ subcommand = .fsck then .error (.integrityCheckFailed "fsck")
        else
          .ok
            { exitCode := code.getD (-1)
              stdout
              stderr
              stdoutTruncated := stdoutOverflow
              stderrTruncated := stderrOverflow }

/-- `std::str::from_utf8`. -/
def fromUtf8 (bytes : Bytes) : Option String := String.fromUTF8? bytes.toByteArray

theorem fromUtf8_asBytes (text : String) : fromUtf8 (asBytes text) = some text := by
  have hbytes : (asBytes text).toByteArray = text.toByteArray := String.utf8Encode_toList
  unfold fromUtf8
  rw [hbytes]
  unfold String.fromUTF8?
  rw [dif_pos text.isValidUTF8]
  rfl

/-- `str::lines`. -/
def strLines (text : String) : List String :=
  (lines '\n' '\r' text.toList).map String.ofList

/-- The lines of an output as it was written, whatever its encoding. -/
def byteLines (text : Bytes) : List Bytes := lines 10 13 text

theorem readCapped_eq {cap : ℕ} {chunks : List Chunk} {retained : Bytes}
    (h : retained.length ≤ cap) :
    readCapped cap retained chunks
      = ((retained ++ (chunks.map (·.1)).flatten).take cap,
        decide (cap < (retained ++ (chunks.map (·.1)).flatten).length)) := by
  induction chunks generalizing retained with
  | nil => simp [readCapped, List.take_of_length_le h, h]
  | cons chunk rest ih =>
    unfold readCapped
    rw [List.map_cons, List.flatten_cons, ← List.append_assoc]
    by_cases hfits : retained.length + chunk.1.length ≤ cap
    · have htake : min chunk.1.length (cap - retained.length) = chunk.1.length := by omega
      have hlength : (retained ++ chunk.1).length ≤ cap := by simpa using hfits
      simp only [htake, List.take_length]
      rw [if_neg (Nat.lt_irrefl _)]
      exact ih hlength
    · have htake : min chunk.1.length (cap - retained.length) = cap - retained.length := by omega
      have hlt : cap - retained.length < chunk.1.length := by omega
      have hlong : cap < (retained ++ chunk.1 ++ (rest.map (·.1)).flatten).length := by
        rw [List.length_append, List.length_append]
        omega
      simp only [htake, hlt, if_true, hlong, decide_true]
      rw [List.take_append_of_le_length (by rw [List.length_append]; omega), List.take_append,
        List.take_of_length_le h]

/-- A reader returns what it received, cut at the cap. -/
theorem readCapped_nil (cap : ℕ) (pipe : Pipe) :
    readCapped cap [] pipe.chunks
      = (pipe.received.take cap, decide (cap < pipe.received.length)) := by
  rw [readCapped_eq (Nat.zero_le cap), List.nil_append]
  rfl

namespace GitProcess

/-- The exit status of a process that ended by itself in time. -/
def exit? : GitProcess → Option (Option ℤ)
  | spawned (.exited code) _ _ true => some code
  | _ => none

def stdout : GitProcess → Pipe
  | notSpawned => { chunks := [], lost := [] }
  | spawned _ stdout _ _ => stdout

def stderr : GitProcess → Pipe
  | notSpawned => { chunks := [], lost := [] }
  | spawned _ _ stderr _ => stderr

/-- Neither stream goes past its cap. -/
def Fits (config : RunConfig) (process : GitProcess) : Prop :=
  process.stdout.received.length ≤ config.stdoutCapBytes ∧
    process.stderr.received.length ≤ config.stderrCapBytes

instance (config : RunConfig) (process : GitProcess) : Decidable (process.Fits config) := by
  unfold Fits
  infer_instance

variable {config : RunConfig} {subcommand : Subcommand} {process : GitProcess} {code : Option ℤ}

/-- What the runner captures of a process that stays within its caps. -/
def captured (process : GitProcess) (code : Option ℤ) : Captured :=
  { exitCode := code.getD (-1)
    stdout := process.stdout.received
    stderr := process.stderr.received
    stdoutTruncated := false
    stderrTruncated := false }

theorem run_of_exit?_none (h : process.exit? = none) :
    ∃ e, GitRunner.run config subcommand process = .error e := by
  unfold GitRunner.run
  by_cases hallowed : subcommand ∉ config.allowed
  · rw [if_pos hallowed]
    exact ⟨_, rfl⟩
  · rw [if_neg hallowed]
    cases process with
    | notSpawned => exact ⟨_, rfl⟩
    | spawned wait stdout stderr readersJoined =>
      cases wait with
      | elapsed => exact ⟨_, rfl⟩
      | failed => exact ⟨_, rfl⟩
      | exited code =>
        cases readersJoined with
        | false => exact ⟨_, rfl⟩
        | true => cases h

/-- The runner on a process that ended by itself in time. -/
theorem run_of_exit? (hallowed : subcommand ∈ config.allowed) (h : process.exit? = some code) :
    GitRunner.run config subcommand process
      = if process.Fits config then
          if code.any (· ≠ 0) ∧ subcommand = .fsck then .error (.integrityCheckFailed "fsck")
          else .ok (process.captured code)
        else if config.stdoutCapBytes < process.stdout.received.length then
          .error (.outputLimitExceeded .stdout config.stdoutCapBytes)
        else .error (.outputLimitExceeded .stderr config.stderrCapBytes) := by
  obtain ⟨out, err, rfl⟩ :
      ∃ out err, process = spawned (.exited code) out err true := by
    unfold exit? at h
    split at h
    · cases h
      exact ⟨_, _, rfl⟩
    · cases h
  unfold GitRunner.run Fits captured stdout stderr
  rw [if_neg (not_not.mpr hallowed)]
  simp only [readCapped_nil, decide_eq_true_eq]
  by_cases hout : config.stdoutCapBytes < out.received.length
  · have hlength : (out.received.take config.stdoutCapBytes).length = config.stdoutCapBytes := by
      rw [List.length_take]
      omega
    simp [hout, hlength, Nat.not_le.mpr hout]
  · by_cases herr : config.stderrCapBytes < err.received.length
    · have hlength : (err.received.take config.stderrCapBytes).length = config.stderrCapBytes := by
        rw [List.length_take]
        omega
      simp [hout, herr, hlength, Nat.not_le.mpr herr]
    · simp [hout, herr, Nat.not_lt.mp hout, Nat.not_lt.mp herr,
        List.take_of_length_le (Nat.not_lt.mp hout), List.take_of_length_le (Nat.not_lt.mp herr)]

end GitProcess

/-- UTF-8 keeps line ends apart from everything else. -/
def utf8Lines : Encoding '\n' '\r' (10 : UInt8) 13 :=
  { encode := String.utf8EncodeChar
    encode_lf := by decide
    encode_cr := by decide
    encode_ne_nil := fun c => String.utf8EncodeChar_ne_nil
    lf_not_mem := fun c hc h =>
      hc (Char.toNat_inj.mp (toNat_eq_of_mem_utf8EncodeChar (by decide) h))
    cr_not_mem := fun c hc h =>
      hc (Char.toNat_inj.mp (toNat_eq_of_mem_utf8EncodeChar (by decide) h)) }

theorem eq_flatMap_of_fromUtf8 {bytes : Bytes} {text : String} (h : fromUtf8 bytes = some text) :
    bytes = text.toList.flatMap utf8Lines.encode := by
  unfold fromUtf8 String.fromUTF8? at h
  split_ifs at h with hvalid
  have htext : text.toByteArray = bytes.toByteArray := by
    rw [← Option.some.inj h]
    rfl
  have hencode : (text.toList.flatMap String.utf8EncodeChar).toByteArray = bytes.toByteArray :=
    String.utf8Encode_toList.trans htext
  have hdata := congrArg (fun b : ByteArray => b.data.toList) hencode
  show bytes = text.toList.flatMap String.utf8EncodeChar
  simpa using hdata.symm

/-- The lines of a text are those of its bytes. -/
theorem byteLines_of_fromUtf8 {bytes : Bytes} {text : String} (h : fromUtf8 bytes = some text) :
    byteLines bytes = (lines '\n' '\r' text.toList).map fun line => line.flatMap utf8Lines.encode := by
  rw [byteLines, eq_flatMap_of_fromUtf8 h]
  exact utf8Lines.lines_flatMap

/-- The number of non-empty lines. -/
def nonEmptyLines (text : Bytes) : ℕ := (byteLines text).countP (· ≠ [])

theorem nonEmptyLines_of_fromUtf8 {bytes : Bytes} {text : String} (h : fromUtf8 bytes = some text) :
    ((strLines text).filter fun line => !line.isEmpty).length = nonEmptyLines bytes := by
  rw [nonEmptyLines, byteLines_of_fromUtf8 h, List.countP_map, ← List.countP_eq_length_filter,
    strLines, List.countP_map]
  refine List.countP_congr fun line _ => ?_
  simp [utf8Lines.flatMap_eq_nil]

theorem strLines_eq_nil {bytes : Bytes} {text : String} (h : fromUtf8 bytes = some text) :
    strLines text = [] ↔ byteLines bytes = [] := by
  rw [byteLines_of_fromUtf8 h, strLines, List.map_eq_nil_iff, List.map_eq_nil_iff]

end RatatoskrVault
