import RatatoskrVault.Persistence.Transition
import RatatoskrVault.Retention.Worker

/-! `MirrorLifecycle::run_cancellable`, one statement, Git call or file operation at a time: the
operation chosen from what is published, the admission, the checked Git work, and the terminal
record with the mirror row and the status it leads to. -/
namespace RatatoskrVault

open Lib

inductive FailureClass
  | remoteUnavailable | dependencyUnavailable | interrupted | quotaExceeded | mirrorCorruption
  | lfsIncomplete | unsafePath
  deriving DecidableEq

inductive MirrorOperation
  | initialClone | fetch
  deriving DecidableEq

inductive MirrorCheckpoint
  | clonePending | fetchPending
  deriving DecidableEq

def MirrorOperation.checkpoint : MirrorOperation → MirrorCheckpoint
  | initialClone => .clonePending
  | fetch => .fetchPending

inductive MirrorResult
  | succeeded (objectCount bytesOnDisk : ℕ)
  | quotaRefused
  | interrupted (checkpoint : MirrorCheckpoint)
  | integrityFailed
  | failed (failure : FailureClass)
  deriving DecidableEq

namespace MirrorResult

def isSuccess : MirrorResult → Bool
  | succeeded _ _ => true
  | _ => false

/-- `result_fields`: the outcome of the evidence row, when its counts are representable. -/
def outcome? : MirrorResult → Option MirrorRunOutcome
  | succeeded objectCount bytesOnDisk =>
    if objectCount ≤ i64Max ∧ bytesOnDisk ≤ i64Max then some .succeeded else none
  | quotaRefused => some .quotaRefused
  | interrupted _ => some .interrupted
  | integrityFailed => some .integrityFailed
  | failed _ => some .failed

end MirrorResult

/-- The texts of an identifier, from the library that formats it. -/
structure UuidFormat where
  asSimple : Uuid → String
  asHyphenated : Uuid → String
  two_le_asSimple : ∀ id, 2 ≤ (asSimple id).toList.length
  asHyphenated_injective : Function.Injective asHyphenated

structure MirrorLifecycleSettings where
  crypto : Crypto
  uuid : UuidFormat
  perMirrorMaxBytes : ℕ
  globalMaxBytes : ℕ
  /-- The stage ceiling of the configured LFS collector. -/
  lfsStageMaxBytes : Option ℕ

structure MirrorRequest where
  targetId : Uuid
  source : String
  reservationBytes : ℕ
  lfsEnabled : Bool
  deriving DecidableEq

/-- What a Git process left: the exit status and, for UTF-8 text, its lines. -/
structure RunOutcome where
  exitCode : ℤ
  lines : Option (List String)
  deriving DecidableEq

/-- How one call of Git ends; a call that was cancelled or failed in the runner may or may not have
started a process. -/
inductive GitCall
  | cancelled (started : Bool)
  | runner (started : Bool)
  | exited (outcome : RunOutcome)
  deriving DecidableEq

namespace GitCall

def started : GitCall → Bool
  | cancelled started => started
  | runner started => started
  | exited _ => true

def isZeroExit : GitCall → Bool
  | exited outcome => outcome.exitCode == 0
  | _ => false

end GitCall

/-- What an LFS collection published and how it ended. -/
structure LfsCall where
  published : List Bytes
  failure : Option FailureClass
  deriving DecidableEq

/-- What a run is told by everything outside the database. -/
structure MirrorInput where
  io : IoResult := .ok
  cancelled : Bool := false
  git : GitCall := .exited { exitCode := 0, lines := none }
  size : Option ℕ := none
  lfs : LfsCall := { published := [], failure := none }
  deriving DecidableEq

/-- The storage, with a record of which published mirrors have passed an integrity check since Git
could last have changed them. The record is for the proofs: no step reads it. -/
structure MirrorStorage extends Storage where
  checked : String → Bool

inductive IntegrityFailure
  | broken | cancelled | unavailable
  deriving DecidableEq

inductive EvidenceLoc
  | fsck | showRef
  | revList (refs : RunOutcome)
  deriving DecidableEq

inductive LfsTerminal
  | complete
  | failed (failure : FailureClass)
  deriving DecidableEq

/-- An admitted run. -/
structure MirrorRun where
  request : MirrorRequest
  operation : MirrorOperation
  runId : Uuid
  deriving DecidableEq

/-- A result on its way to the durable record. -/
structure Finishing where
  run : MirrorRun
  result : MirrorResult
  lfs : Option LfsTerminal
  deriving DecidableEq

structure LifecycleOutcome where
  mirror : MirrorResult
  lfsRequired : Bool
  lfs : Option LfsTerminal
  deriving DecidableEq

inductive MirrorLoc
  | begin (request : MirrorRequest)
  | transitionStarted (request : MirrorRequest) (operation : MirrorOperation)
  | lockQuota (run : MirrorRun)
  | targetReserved (run : MirrorRun)
  | globalReserved (run : MirrorRun) (targetReserved : ℕ)
  | insertReservation (run : MirrorRun)
  | commitReservation (run : MirrorRun)
  | admitted (run : MirrorRun)
  | clone (run : MirrorRun)
  | fetch (run : MirrorRun)
  | evidence (run : MirrorRun) (at_ : EvidenceLoc)
  | publishStaging (run : MirrorRun) (objectCount : ℕ)
  | directorySize (run : MirrorRun) (objectCount : ℕ)
  | collectLfs (run : MirrorRun) (result : MirrorResult)
  | insertRun (job : Finishing)
  | releaseReservation (job : Finishing)
  | commitRun (job : Finishing)
  | ensureMirror (job : Finishing)
  | recordVerified (job : Finishing)
  | markDegraded (job : Finishing)
  | setStatus (job : Finishing) (status : TargetStatus)
  | persistLfs (job : Finishing)
  | setLfsDegraded (job : Finishing)
  | finished (result : Except VaultError LifecycleOutcome)
  deriving DecidableEq

/-- The part of a source before its first `://`. -/
def schemeOf : List Char → Option (List Char)
  | ':' :: '/' :: '/' :: _ => some []
  | c :: rest => (schemeOf rest).map (c :: ·)
  | [] => none

/-- `SourceUrl::parse`. -/
def sourceAllowed (source : String) : Bool :=
  source.toList.head? != some '-' &&
    (schemeOf source.toList).any fun scheme =>
      let scheme := scheme.map Char.toLower
      scheme == "https".toList || scheme == "file".toList

section

variable (settings : MirrorLifecycleSettings)

def mirrorRelativePath (targetId : Uuid) : String :=
  String.ofList ("mirrors/".toList ++ (settings.uuid.asSimple targetId).toList.take 2 ++ '/' ::
    (settings.uuid.asHyphenated targetId).toList ++ ".git".toList)

/-- Two targets never share a published place. -/
theorem mirrorRelativePath_injective : Function.Injective (mirrorRelativePath settings) := by
  intro a b h
  have hlist := String.ofList_injective h
  rw [List.append_assoc, List.append_assoc, List.append_assoc, List.append_assoc] at hlist
  replace hlist := List.append_cancel_left hlist
  have hlength : ∀ id, ((settings.uuid.asSimple id).toList.take 2).length = 2 := fun id => by
    have hlong := settings.uuid.two_le_asSimple id
    rw [List.length_take]
    omega
  have htail := (List.append_inj hlist ((hlength a).trans (hlength b).symm)).2
  have htext := List.append_cancel_right (List.cons.inj htail).2
  exact settings.uuid.asHyphenated_injective (String.toList_inj.mp htext)

def admittedReservation (request : MirrorRequest) : ℕ :=
  min u64Max (request.reservationBytes +
    if request.lfsEnabled then settings.lfsStageMaxBytes.getD 0 else 0)

/-- One call of the integrity check: what is left of it, or its verdict. -/
def integrityEvidence (git : GitCall) :
    EvidenceLoc → EvidenceLoc ⊕ Except IntegrityFailure ℕ
  | .fsck =>
    match git with
    | .cancelled _ => .inr (.error .cancelled)
    | _ => if git.isZeroExit then .inl .showRef else .inr (.error .broken)
  | .showRef =>
    match git with
    | .cancelled _ => .inr (.error .cancelled)
    | .runner _ => .inr (.error .unavailable)
    | .exited refs => .inl (.revList refs)
  | .revList refs =>
    match git with
    | .cancelled _ => .inr (.error .cancelled)
    | .runner _ => .inr (.error .unavailable)
    | .exited objects =>
      if refs.exitCode ≠ 0 ∨ objects.exitCode ≠ 0 then .inr (.error .broken)
      else
        match refs.lines, objects.lines with
        | some refs, some objects =>
          let count := (objects.filter fun line => !line.isEmpty).length
          if refs = [] ∨ count = 0 then .inr (.error .broken) else .inr (.ok count)
        | _, _ => .inr (.error .broken)

def IntegrityFailure.result (operation : MirrorOperation) : IntegrityFailure → MirrorResult
  | broken => .integrityFailed
  | cancelled => .interrupted operation.checkpoint
  | unavailable => .failed .dependencyUnavailable

/-- The objects a collection published are in the store whether or not it completed. -/
def LfsCall.publish (lfs : LfsCall) (storage : MirrorStorage) : MirrorStorage :=
  { storage with
    blobs := lfs.published.foldl (fun blobs bytes =>
      match blobs.referenceForFile settings.crypto bytes "application/octet-stream" with
      | .error _ => blobs
      | .ok reference =>
        match blobs.publishFile settings.crypto reference bytes with
        | .error _ => blobs
        | .ok blobs => blobs) storage.blobs }

namespace MirrorStorage

variable {settings} (storage : MirrorStorage)

/-- Git has worked inside the published directory. -/
def changed (path : String) : MirrorStorage :=
  { storage with checked := Function.update storage.checked path false }

def verified (path : String) : MirrorStorage :=
  { storage with checked := Function.update storage.checked path true }

/-- A staged mirror that passed its check takes the published place. -/
def published (path : String) : MirrorStorage :=
  { storage with
    mirrors := Function.update storage.mirrors path true
    checked := Function.update storage.checked path true }

end MirrorStorage

def failRun (e : VaultError) : Option (Action MirrorStorage Lock Write MirrorLoc) :=
  some (.rollback (.finished (.error e)))

/-- `set_target_status`: one statement behind the status guard. -/
def setTargetStatus (m : Moment) (db : Db) (targetId : Uuid) (status : TargetStatus)
    (next : MirrorLoc) : Option (Action MirrorStorage Lock Write MirrorLoc) :=
  match db.target? targetId with
  | none => some (.auto [] [] next)
  | some target =>
    match db.targetGuardStatusTransition m.clock target status with
    | .error e => failRun (classifyStatusUpdateFailure e)
    | .ok () =>
      some (.auto [.target targetId] [.setTargetStatus targetId target.status status] next)

def MirrorRun.interrupted (run : MirrorRun) : MirrorResult :=
  .interrupted run.operation.checkpoint

/-- A result that leaves nothing for the LFS collector. -/
def MirrorRun.finish (run : MirrorRun) (result : MirrorResult) : MirrorLoc :=
  .insertRun { run, result, lfs := none }

/-- Where a run goes once its transaction has recorded the result. -/
def Finishing.observe (job : Finishing) : MirrorLoc :=
  match job.result with
  | .succeeded _ _ => .ensureMirror job
  | .integrityFailed => .markDegraded job
  | _ => .setStatus job .degraded

/-- A call of Git in a published mirror: one that is gone starts no process. -/
def runGit (storage : MirrorStorage) (path : String) (git : GitCall) : GitCall :=
  if storage.mirrors path then git
  else
    match git with
    | .cancelled _ => .cancelled false
    | _ => .runner false

/-- A call of Git on the mirror a run checks: its own staging directory, or the published one. -/
def checkGit (storage : MirrorStorage) (run : MirrorRun) (git : GitCall) : GitCall :=
  match run.operation with
  | .initialClone => git
  | .fetch => runGit storage (mirrorRelativePath settings run.request.targetId) git

def reservedBytes (reservations : List MirrorQuotaReservation) : ℕ :=
  (reservations.map (·.reservedBytes)).sum

def runMirror (m : Moment) (db : Db) (storage : MirrorStorage) (input : MirrorInput) :
    MirrorLoc → Option (Action MirrorStorage Lock Write MirrorLoc)
  | .begin request =>
    if ¬ sourceAllowed request.source then failRun (.invalidDelivery "source_url")
    else if input.io ≠ .ok then failRun .storageFailed
    else
      some (.auto [] [] (.transitionStarted request
        (if storage.mirrors (mirrorRelativePath settings request.targetId) then .fetch
         else .initialClone)))
  | .transitionStarted request operation =>
    setTargetStatus m db request.targetId
      (match operation with
        | .initialClone => .cloning
        | .fetch => .fetching)
      (.lockQuota { request, operation, runId := m.fresh })
  | .lockQuota run =>
    let requested := admittedReservation settings run.request
    if 0 < requested ∧ requested ≤ i64Max ∧ 0 < settings.perMirrorMaxBytes ∧
        settings.perMirrorMaxBytes ≤ i64Max ∧ 0 < settings.globalMaxBytes ∧
        settings.globalMaxBytes ≤ i64Max then
      some (.stmt [.quota] [] (.targetReserved run))
    else failRun .storageFailed
  | .targetReserved run =>
    let reserved := reservedBytes
      (db.reservations.filter fun r => r.targetId == run.request.targetId)
    if reserved ≤ i64Max then some (.stmt [] [] (.globalReserved run reserved))
    else failRun .storageFailed
  | .globalReserved run targetReserved =>
    let requested := admittedReservation settings run.request
    let reserved := reservedBytes db.reservations
    if i64Max < reserved then failRun .storageFailed
    else if settings.perMirrorMaxBytes < min i64Max (targetReserved + requested) ∨
        settings.globalMaxBytes < min i64Max (reserved + requested) then
      some (.rollback (run.finish .quotaRefused))
    else some (.stmt [] [] (.insertReservation run))
  | .insertReservation run =>
    if (db.target? run.request.targetId).isNone then failRun .storageFailed
    else
      some (.stmt []
        [.insertReservation
          { runId := run.runId
            targetId := run.request.targetId
            reservedBytes := admittedReservation settings run.request }]
        (.commitReservation run))
  | .commitReservation run => some (.commit (.admitted run))
  | .admitted run =>
    some (.call storage
      (if input.cancelled then run.finish run.interrupted
       else match run.operation with
        | .initialClone => .clone run
        | .fetch => .fetch run))
  | .clone run =>
    -- the run directory and its confined path come before the Git call
    some (.call storage
      (match input.io with
        | .failedBefore => .collectLfs run (.failed .dependencyUnavailable)
        | .failedAfter => .collectLfs run (.failed .unsafePath)
        | .ok =>
          match input.git with
          | .cancelled _ => .collectLfs run run.interrupted
          | git =>
            if git.isZeroExit then .evidence run .fsck
            else .collectLfs run (.failed .remoteUnavailable)))
  | .fetch run =>
    let path := mirrorRelativePath settings run.request.targetId
    let git := runGit storage path input.git
    some (.call (if git.started then storage.changed path else storage)
      (match git with
        | .cancelled _ => .collectLfs run run.interrupted
        | git =>
          if git.isZeroExit then .evidence run .fsck
          else .collectLfs run (.failed .remoteUnavailable)))
  | .evidence run at_ =>
    let path := mirrorRelativePath settings run.request.targetId
    match integrityEvidence (checkGit settings storage run input.git) at_ with
    | .inl at_ => some (.call storage (.evidence run at_))
    | .inr (.error failure) =>
      some (.call storage (.collectLfs run (failure.result run.operation)))
    | .inr (.ok objectCount) =>
      match run.operation with
      | .initialClone => some (.call storage (.publishStaging run objectCount))
      | .fetch => some (.call (storage.verified path) (.directorySize run objectCount))
  | .publishStaging run objectCount =>
    let path := mirrorRelativePath settings run.request.targetId
    match input.io with
    | .failedBefore => some (.call storage (.collectLfs run (.failed .dependencyUnavailable)))
    | io =>
      -- a rename does not replace a directory that has entries
      if storage.mirrors path then
        some (.call storage (.collectLfs run (.failed .dependencyUnavailable)))
      else
        some (.call (storage.published path)
          (if io = .ok then .directorySize run objectCount
           else .collectLfs run (.failed .dependencyUnavailable)))
  | .directorySize run objectCount =>
    let path := mirrorRelativePath settings run.request.targetId
    some (.call storage (.collectLfs run
      (match if storage.mirrors path then input.size else none with
        | none => .failed .dependencyUnavailable
        | some bytesOnDisk => .succeeded objectCount bytesOnDisk)))
  | .collectLfs run result =>
    if ¬ result.isSuccess ∨ ¬ run.request.lfsEnabled then some (.call storage (run.finish result))
    else if settings.lfsStageMaxBytes.isNone then
      some (.call storage
        (.insertRun { run, result, lfs := some (.failed .dependencyUnavailable) }))
    else
      some (.call (input.lfs.publish settings storage)
        (.insertRun
          { run
            result
            lfs := some (match input.lfs.failure with
              | none => .complete
              | some failure => .failed failure) }))
  | .insertRun job =>
    match job.result.outcome? with
    | none => failRun .storageFailed
    | some outcome =>
      if (db.target? job.run.request.targetId).isNone then failRun .storageFailed
      else
        some (.stmt []
          [.insertMirrorRun
            { runId := job.run.runId, targetId := job.run.request.targetId, outcome }]
          (.releaseReservation job))
  | .releaseReservation job =>
    some (.stmt [] [.releaseReservation job.run.runId] (.commitRun job))
  | .commitRun job => some (.commit job.observe)
  | .ensureMirror job =>
    let targetId := job.run.request.targetId
    if db.mirrors.any fun mirror => mirror.targetId == targetId then
      some (.auto [] [] (.recordVerified job))
    else
      some (.auto []
        [.insertMirror
          { mirrorId := m.fresh
            targetId
            status := .initializing
            storagePath := mirrorRelativePath settings targetId
            fsckResult := .unknown }]
        (.recordVerified job))
  | .recordVerified job =>
    some (.auto [] [.setMirror job.run.request.targetId .ready .ok] (.setStatus job .ready))
  | .markDegraded job =>
    some (.auto [] [.setMirror job.run.request.targetId .degraded .failed]
      (.setStatus job .degraded))
  | .setStatus job status => setTargetStatus m db job.run.request.targetId status (.persistLfs job)
  | .persistLfs job =>
    some (.auto [] []
      (match job.lfs with
        | some (.failed _) => .setLfsDegraded job
        | _ => .finished (.ok
            { mirror := job.result, lfsRequired := job.run.request.lfsEnabled, lfs := job.lfs })))
  | .setLfsDegraded job =>
    setTargetStatus m db job.run.request.targetId .degraded
      (.finished (.ok
        { mirror := job.result, lfsRequired := job.run.request.lfsEnabled, lfs := job.lfs }))
  | .finished _ => none

end

end RatatoskrVault
