import RatatoskrVault.Gitrunner.Runner
import RatatoskrVault.Lib.FileCalls
import RatatoskrVault.Lib.PathText

/-! `LfsRunner::run`: one Git LFS operation on confined paths. Git LFS itself may do anything to the
file tree and to the store. -/
namespace RatatoskrVault

open Lib

def normalizeLexically (segments : List FileName) : List PathComponent → Option (List FileName)
  | [] => some segments
  | .normal part :: rest => normalizeLexically (segments ++ [part]) rest
  | .curDir :: rest => normalizeLexically segments rest
  | .parentDir :: rest =>
    if segments = [] then none else normalizeLexically segments.dropLast rest
  | .rootDir :: _ => none

/-- A path that was found inside a canonical root. -/
structure ConfinedPath where
  root : List FileName
  segments : List FileName
  deriving DecidableEq

namespace ConfinedPath

def asPath (path : ConfinedPath) : List FileName := path.root ++ path.segments

section

variable {α : Type} (limit : ℕ) (tree : Node α)

/-- The walk down from the root: what exists is no link. -/
def inspect (resolved : List FileName) : List FileName → Bool
  | [] => true
  | segment :: rest =>
    -- a name with a NUL is refused before anything is looked up
    if segment.contains (Char.ofNat 0) then false
    else
      match symlinkMetadata limit tree (resolved ++ [segment]) with
      | .ok .link => false
      | .ok _ | .error .notFound => inspect (resolved ++ [segment]) rest
      | .error _ => false

/-- The check of a path below a root that may not resolve. -/
def confine (canonicalRoot : Except IoError (List FileName)) (relative : List PathComponent) :
    Option ConfinedPath :=
  if relative = [] then none
  else
    match canonicalRoot with
    | .error _ => none
    | .ok root =>
      match normalizeLexically [] relative with
      | none => none
      | some segments => if inspect limit tree root segments then some { root, segments } else none

/-- `ConfinedPath::new` of an absolute root. -/
def new (root : List Char) (relative : List PathComponent) : Option ConfinedPath :=
  confine limit tree (canonicalize limit tree [] root) relative

def revalidate (path : ConfinedPath) : Bool :=
  (confine limit tree (tree.resolve true limit [] path.root)
    (path.segments.map .normal)).isSome

end

end ConfinedPath

inductive LfsOperation
  | version | fetchAll | listAllLong | fsckObjects
  deriving DecidableEq

def LfsOperation.arguments : LfsOperation → List String
  | version => ["version"]
  | fetchAll => ["fetch", "--all", "origin"]
  | listAllLong => ["ls-files", "--all", "--long"]
  | fsckObjects => ["fsck", "--objects"]

inductive LfsTransferMode
  | basic | standaloneFile
  deriving DecidableEq

inductive LfsRunnerError
  | interrupted | invalidConfiguration | spawnFailed
  | timeout (deadline : ℕ)
  | outputLimitExceeded (stream : OutputStream) (retained : ℕ)
  deriving DecidableEq

structure LfsRunConfig where
  lfsBinary : List Char
  mirrorDirectory : ConfinedPath
  storageDirectory : ConfinedPath
  runHome : ConfinedPath
  transferMode : LfsTransferMode
  deadline : ℕ
  stdoutCapBytes : ℕ
  stderrCapBytes : ℕ
  deriving DecidableEq

/-- The file tree, and the files of the blob store by their digests. -/
structure Disk where
  tree : Node Bytes
  blobs : Digest → Option Bytes

/-- What Git LFS makes of its arguments in the environment of a run. -/
abbrev GitLfs := LfsRunConfig → List String → Disk → GitProcess × Disk

/-- `run_bounded` without a cancellation. -/
def runBounded (config : LfsRunConfig) : GitProcess → Except LfsRunnerError Captured
  | .notSpawned => .error .spawnFailed
  | .spawned .elapsed _ _ _ => .error (.timeout config.deadline)
  | .spawned .failed _ _ _ => .error .spawnFailed
  | .spawned (.exited code) stdoutPipe stderrPipe readersJoined =>
    if readersJoined = false then .error .spawnFailed
    else
      let (stdout, stdoutOverflow) := readCapped config.stdoutCapBytes [] stdoutPipe.chunks
      let (stderr, stderrOverflow) := readCapped config.stderrCapBytes [] stderrPipe.chunks
      if stdoutOverflow then .error (.outputLimitExceeded .stdout stdout.length)
      else if stderrOverflow then .error (.outputLimitExceeded .stderr stderr.length)
      else
        .ok
          { exitCode := code.getD (-1)
            stdout
            stderr
            stdoutTruncated := false
            stderrTruncated := false }

/-- The paths are checked again and the directories made before the process starts. -/
def LfsRunner.run (limit : ℕ) (gitLfs : GitLfs) (config : LfsRunConfig) (operation : LfsOperation)
    (disk : Disk) : Except LfsRunnerError Captured × Disk :=
  if isAbsolute config.lfsBinary &&
      config.mirrorDirectory.revalidate limit disk.tree &&
      config.storageDirectory.revalidate limit disk.tree &&
      config.runHome.revalidate limit disk.tree then
    match disk.tree.createDirs config.storageDirectory.asPath with
    | none => (.error .invalidConfiguration, disk)
    | some tree =>
      match tree.createDirs config.runHome.asPath with
      | none => (.error .invalidConfiguration, { disk with tree })
      | some tree =>
        let (process, after) := gitLfs config operation.arguments { disk with tree }
        (runBounded config process, after)
  else (.error .invalidConfiguration, disk)

theorem normalizeLexically_normal (segments parts : List FileName) :
    normalizeLexically segments (parts.map .normal) = some (segments ++ parts) := by
  induction parts generalizing segments with
  | nil => rw [List.map_nil, normalizeLexically, List.append_nil]
  | cons part parts ih => rw [List.map_cons, normalizeLexically, ih, ← List.append_cons]

namespace ConfinedPath

variable {α : Type} {limit : ℕ} {tree : Node α} {path : List FileName}

/-- Below directories the metadata of a path is that of what it names. -/
theorem symlinkMetadata_of_dirs (hreal : ∀ name ∈ path, name ≠ ['.'] ∧ name ≠ ['.', '.'])
    (hdirs : ∀ q, q <+: path → q ≠ path →
      tree.kindAt q = some .dir ∨ tree.kindAt q = none) :
    symlinkMetadata limit tree path = (tree.kindAt path).elim (.error .notFound) .ok := by
  have hresolve : tree.resolve false limit [] path
      = if (tree.lookup path).isSome then .ok path else .error .notFound := by
    have hwalk : ∀ follow, tree.walk false follow [] path
        = if (tree.lookup path).isSome then .ok path else .error .notFound := by
      intro follow
      by_cases hfound : (tree.lookup path).isSome = true
      · rw [if_pos hfound]
        refine Node.walk_direct hreal (fun q hq hne => ?_) hfound (fun h => (nomatch h))
        exact Node.kindAt_above hq hne hfound
      · rw [if_neg hfound]
        have hmissing : tree.kindAt path = none := by
          simpa [Node.kindAt] using hfound
        have hne : path ≠ [] := by
          rintro rfl
          simp at hfound
        have hroot : tree.kindAt [] = some .dir := by
          rcases hdirs [] List.nil_prefix hne.symm with hdir | hnone
          · exact hdir
          · simp [Node.kindAt] at hnone
        refine Node.walk_missing hreal hroot (fun q hq => ?_) hmissing
        by_cases heq : q = path
        · exact Or.inr (heq ▸ hmissing)
        · exact hdirs q hq heq
    cases limit with
    | zero => exact hwalk _
    | succ limit => exact hwalk _
  unfold symlinkMetadata
  rw [hresolve]
  by_cases hfound : (tree.lookup path).isSome = true
  · rw [if_pos hfound]
  · rw [if_neg hfound]
    have hmissing : tree.kindAt path = none := by simpa [Node.kindAt] using hfound
    rw [hmissing]
    rfl

/-- A path of directories, up to where nothing exists or to a last component that is no link, is
not refused. -/
theorem inspect_of_kinds {resolved segments : List FileName}
    (hreal : ∀ name ∈ resolved ++ segments, name ≠ ['.'] ∧ name ≠ ['.', '.'])
    (hdirs : ∀ q, q <+: resolved ++ segments → q ≠ resolved ++ segments →
      tree.kindAt q = some .dir ∨ tree.kindAt q = none)
    (hlink : tree.kindAt (resolved ++ segments) ≠ some .link)
    (hnul : ∀ name ∈ segments, Char.ofNat 0 ∉ name) :
    inspect limit tree resolved segments = true := by
  induction segments generalizing resolved with
  | nil => rfl
  | cons segment rest ih =>
    have hnext : resolved ++ segment :: rest = resolved ++ [segment] ++ rest :=
      List.append_cons resolved segment rest
    rw [hnext] at hreal hdirs hlink
    have hkinds : ∀ q, q <+: resolved ++ [segment] → q ≠ resolved ++ [segment] →
        tree.kindAt q = some .dir ∨ tree.kindAt q = none := by
      intro q hq hne
      refine hdirs q (hq.trans (List.prefix_append ..)) fun heq => hne ?_
      have hlength := hq.length_le
      rw [heq, List.length_append] at hlength
      exact hq.eq_of_length (by rw [heq, List.length_append]; omega)
    have hmetadata : symlinkMetadata limit tree (resolved ++ [segment]) = _ :=
      symlinkMetadata_of_dirs (fun name hname => hreal name (List.mem_append_left _ hname)) hkinds
    have hsegment : tree.kindAt (resolved ++ [segment]) ≠ some .link := by
      by_cases hend : rest = []
      · rwa [hend, List.append_nil] at hlink
      · intro heq
        rcases hdirs (resolved ++ [segment]) (List.prefix_append ..)
            (fun hsame => hend (by simpa using hsame)) with hdir | hnone
        · rw [heq] at hdir
          cases hdir
        · rw [heq] at hnone
          cases hnone
    obtain ⟨hsegmentNul, hrestNul⟩ := List.forall_mem_cons.mp hnul
    have hrest := ih hreal hdirs hlink hrestNul
    rw [inspect, if_neg (by simpa using hsegmentNul), hmetadata]
    cases hkind : tree.kindAt (resolved ++ [segment]) with
    | none => exact hrest
    | some kind =>
      cases kind with
      | link => exact absurd hkind hsegment
      | _ => exact hrest

end ConfinedPath

end RatatoskrVault
