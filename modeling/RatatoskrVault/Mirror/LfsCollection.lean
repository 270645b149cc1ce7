import RatatoskrVault.Blobstore.Local
import RatatoskrVault.Core.ManifestSigning
import RatatoskrVault.Gitrunner.LfsRunner

/-! `LfsCollector::collect`: a run-owned directory, four Git LFS calls, and the publication of every
listed object. It is complete or leaves nothing, except that a listing that repeats an object is
refused and a copy that fails is left behind. -/
namespace RatatoskrVault

open Lib Manifest

structure LfsCollectionSettings where
  lfsBinary : List Char
  mirrorRoot : List Char
  workRoot : List Char
  stageMaxBytes : ℕ
  maxObjects : ℕ
  deadline : ℕ
  transferMode : LfsTransferMode

structure LfsCollector where
  settings : LfsCollectionSettings
  storeMaxBytes : ℕ

structure LfsCollection where
  runId : FileName
  evidence : Manifest.LfsEvidence
  stagedBytes : ℕ
  deriving DecidableEq

inductive LfsCollectionError
  | toolUnavailable | unsafePath
  | runner (error : LfsRunnerError)
  | toolFailed (operation : String)
  | invalidEnumeration | quotaExceeded | missingOrCorrupt | storage
  deriving DecidableEq

/-! The names below a work root. -/
namespace StageName

def runs : FileName := ['r', 'u', 'n', 's']
def home : FileName := ['h', 'o', 'm', 'e']
def lfs : FileName := ['l', 'f', 's']
def mirrorGit : FileName := ['m', 'i', 'r', 'r', 'o', 'r', '.', 'g', 'i', 't']
def objects : FileName := ['o', 'b', 'j', 'e', 'c', 't', 's']

end StageName

/-- The primitives of a store, which only hashes. -/
def hashing (sha256 : Bytes → Digest) : Crypto :=
  { sha256
    encode := fun _ => []
    decode := fun _ => none
    sign := fun _ => ""
    verifies := fun _ _ _ => false }

section

mutual

/-- What one entry of the mirror is copied to. -/
def copyEntry : Node Bytes → Except LfsCollectionError Unit × Option (Node Bytes)
  | .file content => (.ok (), some (.file content))
  | .dir entries =>
    let (result, copies) := copyEntries entries
    (result, some (.dir copies))
  | _ => (.error .unsafePath, none)

/-- The entries as far as they are copied, with the first error. -/
def copyEntries : List (FileName × Node Bytes) →
    Except LfsCollectionError Unit × List (FileName × Node Bytes)
  | [] => (.ok (), [])
  | (name, node) :: rest =>
    match copyEntry node with
    | (.error e, copied) => (.error e, copied.toList.map fun copy => (name, copy))
    | (.ok (), copied) =>
      let (result, copies) := copyEntries rest
      (result, (copied.toList.map fun copy => (name, copy)) ++ copies)

end

/-- The destination is a new directory. A tree that is copied into itself outgrows every path. -/
def copyTree (tree : Node Bytes) (source destination : List FileName) :
    Except LfsCollectionError Unit × Node Bytes :=
  match tree.createDirs destination with
  | none => (.error .storage, tree)
  | some made =>
    if source <+: destination then (.error .storage, made)
    else
      match made.lookup source with
      | some (.dir entries) =>
        let (result, copies) := copyEntries entries
        (result, Node.put (.dir copies) destination made)
      | _ => (.error .storage, made)

mutual

def entrySize : Node Bytes → Except LfsCollectionError ℕ
  | .dir entries => directorySize 0 entries
  | .file content => .ok content.length
  | _ => .error .unsafePath

def directorySize (total : ℕ) : List (FileName × Node Bytes) → Except LfsCollectionError ℕ
  | [] => .ok total
  | (_, node) :: rest =>
    match entrySize node with
    | .error e => .error e
    | .ok size => directorySize (min (total + size) u64Max) rest

end

/-- `char::is_whitespace`. -/
def isWhitespace (c : Char) : Bool :=
  let n := c.toNat
  (9 ≤ n && n ≤ 13) || n == 32 || n == 0x85 || n == 0xA0 || n == 0x1680 ||
    (0x2000 ≤ n && n ≤ 0x200A) || n == 0x2028 || n == 0x2029 || n == 0x202F || n == 0x205F ||
    n == 0x3000

def trim (text : String) : String :=
  String.ofList ((text.toList.dropWhile isWhitespace).reverse.dropWhile isWhitespace).reverse

/-- The first piece of `split_whitespace`. -/
def firstWord (line : String) : Option String :=
  let word := (line.toList.dropWhile isWhitespace).takeWhile fun c => !isWhitespace c
  if word = [] then none else some (String.ofList word)

/-- 64 lowercase hexadecimal digits. -/
def isOid (oid : String) : Bool := oid.toList.length == 64 && oid.toList.all isHex

/-- The lines from a set of object ids on; no id may come twice. -/
def parseLines (maxObjects : ℕ) (unique : List String) :
    List String → Except LfsCollectionError (List String)
  | [] => .ok unique
  | line :: rest =>
    match firstWord line with
    | none => .error .invalidEnumeration
    | some oid =>
      if !isOid oid || unique.contains oid || decide (maxObjects < unique.length + 1) then
        .error .invalidEnumeration
      else parseLines maxObjects (unique ++ [oid]) rest

/-- `parse_oids`; the set comes in ascending order. -/
def parseOids (bytes : Bytes) (maxObjects : ℕ) : Except LfsCollectionError (List String) :=
  match fromUtf8 bytes with
  | none => .error .invalidEnumeration
  | some text =>
    match parseLines maxObjects [] ((strLines text).filter fun line => !line.isEmpty) with
    | .error e => .error e
    | .ok unique => .ok (sortBy id unique)

variable (limit : ℕ)

/-- `directory_size` of the staging directory. -/
def stagingSize (tree : Node Bytes) (storage : List FileName) : Except LfsCollectionError ℕ :=
  match tree.resolve true limit [] storage with
  | .error _ => .error .storage
  | .ok path =>
    match tree.lookup path with
    | some (.dir entries) => directorySize 0 entries
    | _ => .error .storage

def objectPath (storage : List FileName) (oid : String) : List FileName :=
  let name := oid.toList
  storage ++ [StageName.objects, name.take 2, (name.drop 2).take 2, name]

/-- What `object_path` leads to: the bytes of a regular file. -/
def objectFile (tree : Node Bytes) (storage : List FileName) (oid : String) :
    Except LfsCollectionError Bytes :=
  match tree.resolve false limit [] (objectPath storage oid) with
  | .error _ => .error .missingOrCorrupt
  | .ok path =>
    match tree.lookup path with
    | some (.file content) => .ok content
    | _ => .error .missingOrCorrupt

def runRelative (runId : FileName) : List FileName := [StageName.runs, runId]

def stagedMirrorRelative (runId : FileName) : List FileName :=
  runRelative runId ++ [StageName.mirrorGit]

def LfsCollectionSettings.confined (settings : LfsCollectionSettings) (tree : Node Bytes)
    (relative : List FileName) : Option ConfinedPath :=
  ConfinedPath.new limit tree settings.workRoot (relative.map .normal)

end

namespace LfsCollector

variable {KeyPair : Type} (primitives : Primitives KeyPair) (limit : ℕ) (gitLfs : GitLfs)
  (collector : LfsCollector) (runId : FileName)

/-- The mirror that Git LFS works on, with its storage relative to the work root. -/
def stageMirror (mirrorRelative : List PathComponent) (disk : Disk) :
    Except LfsCollectionError (ConfinedPath × List FileName) × Disk :=
  match ConfinedPath.new limit disk.tree collector.settings.mirrorRoot mirrorRelative with
  | none => (.error .unsafePath, disk)
  | some sourceMirror =>
    match collector.settings.transferMode with
    | .basic => (.ok (sourceMirror, runRelative runId ++ [StageName.lfs]), disk)
    | .standaloneFile =>
      match collector.settings.confined limit disk.tree (stagedMirrorRelative runId) with
      | none => (.error .unsafePath, disk)
      | some stagedMirror =>
        match copyTree disk.tree sourceMirror.asPath stagedMirror.asPath with
        | (.error e, tree) => (.error e, { disk with tree })
        | (.ok (), tree) =>
          (.ok (stagedMirror, stagedMirrorRelative runId ++ [StageName.lfs]), { disk with tree })

/-- Everything before the first call of Git LFS. -/
def prepare (mirrorRelative : List PathComponent) (disk : Disk) :
    Except LfsCollectionError LfsRunConfig × Disk :=
  match collector.stageMirror limit runId mirrorRelative disk with
  | (.error e, disk) => (.error e, disk)
  | (.ok (mirror, storageRelative), disk) =>
    match collector.settings.confined limit disk.tree storageRelative with
    | none => (.error .unsafePath, disk)
    | some storage =>
      match collector.settings.confined limit disk.tree (runRelative runId ++ [StageName.home]) with
      | none => (.error .unsafePath, disk)
      | some home =>
        (.ok
          { lfsBinary := collector.settings.lfsBinary
            mirrorDirectory := mirror
            storageDirectory := storage
            runHome := home
            transferMode := collector.settings.transferMode
            deadline := collector.settings.deadline
            stdoutCapBytes := 4 * 1024 * 1024
            stderrCapBytes := 256 * 1024 }, disk)

/-- One call of Git LFS, which has to end with status zero. -/
def call (name : String) (operation : LfsOperation) (config : LfsRunConfig) (disk : Disk) :
    Except LfsCollectionError Captured × Disk :=
  match LfsRunner.run limit gitLfs config operation disk with
  | (.error e, disk) => (.error (.runner e), disk)
  | (.ok captured, disk) =>
    if captured.exitCode ≠ 0 then (.error (.toolFailed name), disk) else (.ok captured, disk)

/-- What Git LFS has reported when the objects are staged and listed. -/
structure Staged where
  versionOutput : Bytes
  stagedBytes : ℕ
  listing : Bytes
  deriving DecidableEq

/-- `collect_with_runner` up to the listing. -/
def stage (config : LfsRunConfig) (disk : Disk) : Except LfsCollectionError Staged × Disk :=
  match call limit gitLfs "version" .version config disk with
  | (.error e, disk) => (.error e, disk)
  | (.ok version, disk) =>
    match call limit gitLfs "fetch" .fetchAll config disk with
    | (.error e, disk) => (.error e, disk)
    | (.ok _, disk) =>
      match stagingSize limit disk.tree config.storageDirectory.asPath with
      | .error e => (.error e, disk)
      | .ok stagedBytes =>
        if collector.settings.stageMaxBytes < stagedBytes then (.error .quotaExceeded, disk)
        else
          match call limit gitLfs "ls-files" .listAllLong config disk with
          | (.error e, disk) => (.error e, disk)
          | (.ok listed, disk) =>
            (.ok
              { versionOutput := version.stdout
                stagedBytes
                listing := listed.stdout }, disk)

/-- One object: its staged file is hashed, compared with its id, and published. -/
def publishObject (storage : List FileName) (oid : String) (disk : Disk) :
    Except LfsCollectionError Manifest.LfsObjectEvidence × Disk :=
  let store : LocalBlobStore := { maxBytes := collector.storeMaxBytes, files := disk.blobs }
  match objectFile limit disk.tree storage oid with
  | .error e => (.error e, disk)
  | .ok bytes =>
    match store.referenceForFile (hashing primitives.sha256) bytes "application/octet-stream" with
    | .error _ => (.error .missingOrCorrupt, disk)
    | .ok reference =>
      if hexDigest reference.sha256 ≠ oid then (.error .missingOrCorrupt, disk)
      else
        match store.publishFile (hashing primitives.sha256) reference bytes with
        | .error _ => (.error .storage, disk)
        | .ok store =>
          (.ok
            { oid
              blob :=
                { owner := reference.owner
                  sha256 := hexDigest reference.sha256
                  mediaType := reference.mediaType
                  sizeBytes := reference.sizeBytes } }, { disk with blobs := store.files })

def publishObjects (storage : List FileName) : List String → Disk →
    Except LfsCollectionError (List Manifest.LfsObjectEvidence) × Disk
  | [], disk => (.ok [], disk)
  | oid :: rest, disk =>
    match collector.publishObject primitives limit storage oid disk with
    | (.error e, disk) => (.error e, disk)
    | (.ok object, disk) =>
      match publishObjects storage rest disk with
      | (.error e, disk) => (.error e, disk)
      | (.ok objects, disk) => (.ok (object :: objects), disk)

/-- `collect_with_runner` from the listing on. -/
def publishListed (config : LfsRunConfig) (staged : Staged) (disk : Disk) :
    Except LfsCollectionError LfsCollection × Disk :=
  match parseOids staged.listing collector.settings.maxObjects with
  | .error e => (.error e, disk)
  | .ok oids =>
    match collector.publishObjects primitives limit config.storageDirectory.asPath oids disk with
    | (.error e, disk) => (.error e, disk)
    | (.ok objects, disk) =>
      match fromUtf8 staged.versionOutput with
      | none => (.error (.toolFailed "version"), disk)
      | some version =>
        (.ok
          { runId
            evidence := Manifest.LfsEvidence.new primitives (trim version) objects
            stagedBytes := staged.stagedBytes }, disk)

def collectWithRunner (config : LfsRunConfig) (disk : Disk) :
    Except LfsCollectionError LfsCollection × Disk :=
  match collector.stage limit gitLfs config disk with
  | (.error e, disk) => (.error e, disk)
  | (.ok staged, disk) => collector.publishListed primitives limit runId config staged disk

/-- The directory that a run owns. -/
def runDirectory : List FileName := pathParts collector.settings.workRoot ++ runRelative runId

/-- The directory of the run is removed whatever the runner's calls came to, but not where the
preparation failed. -/
def collect (mirrorRelative : List PathComponent) (disk : Disk) :
    Except LfsCollectionError LfsCollection × Disk :=
  match collector.prepare limit runId mirrorRelative disk with
  | (.error e, disk) => (.error e, disk)
  | (.ok config, disk) =>
    let (result, disk) := collector.collectWithRunner primitives limit gitLfs runId config disk
    (result, { disk with tree := removeDirAll limit disk.tree (collector.runDirectory runId) })

end LfsCollector

end RatatoskrVault
