import RatatoskrVault.Lib.Accounts
import RatatoskrVault.Verification.AbsentFirst
import RatatoskrVault.Verification.Evidence
import RatatoskrVault.Verification.Reports

/-! Passes of the verification schedule, one after another, while snapshots are captured: how long a
due snapshot can be passed over, and when it is passed over for ever. -/
namespace RatatoskrVault.Passes

open Lib

/-- The evidence tables, and the pass that is under way. -/
structure State where
  tables : EvidenceTables
  /-- What is left of the plan. -/
  selected : List Uuid
  drillSelected : List Uuid
  /-- Nothing of the plan has been attempted yet. -/
  fresh : Bool

inductive Label
  | plan (now : ℕ)
  | attempt (input : AttemptInput)
  /-- The process is gone, and its plan with it. -/
  | stop
  /-- Another process commits a snapshot. -/
  | capture (snapshotId : Uuid) (artifacts : List SnapshotArtifact) (manifest : ManifestRow)

section

variable (cx : Crypto) (service : DurableVerification) (policy : VerificationPolicy)

/-- One pass at a time. -/
def step (s : State) : Label → Option State
  | .plan now =>
    if s.selected = [] then
      (s.tables.planDueFromDatabase now policy).map fun plan =>
        { s with selected := plan.selected, drillSelected := plan.drillSelected, fresh := true }
    else none
  | .attempt input =>
    match s.selected with
    | [] => none
    | snapshotId :: selected =>
      some
        { s with
          tables := (service.attempt cx snapshotId (s.drillSelected.contains snapshotId) input
            s.tables).1
          selected
          fresh := false }
  | .stop => some { s with selected := [] }
  | .capture snapshotId artifacts manifest =>
    if snapshotId ∈ s.tables.drills.snapshots ∨ manifest.snapshotId ≠ snapshotId ∨
        ¬ ∀ artifact ∈ artifacts, artifact.snapshotId = snapshotId then none
    else
      some
        { s with
          tables :=
            { s.tables with
              drills :=
                { s.tables.drills with snapshots := s.tables.drills.snapshots ++ [snapshotId] }
              artifacts := s.tables.artifacts ++ artifacts
              manifests := s.tables.manifests ++ [manifest] } }

/-- A first attempt that does not leave its evidence. -/
def stalled (s : State) : Label → ℕ
  | .attempt input =>
    match s.selected with
    | [] => 0
    | snapshotId :: _ =>
      if s.fresh && !succeeded (service.attempt cx snapshotId
          (s.drillSelected.contains snapshotId) input s.tables).2 then 1 else 0
  | _ => 0

def captured (_ : State) : Label → ℕ
  | .capture .. => 1
  | _ => 0

/-- The loop over a plan is the attempts of a pass. -/
theorem run_attempts (s : State) (inputs : List AttemptInput)
    (h : inputs.length ≤ s.selected.length) :
    ∃ fresh, run (step cx service policy) s (inputs.map .attempt) = some
      { tables := (service.runPlan cx s.drillSelected s.selected inputs s.tables).1
        selected := s.selected.drop inputs.length
        drillSelected := s.drillSelected
        fresh } := by
  induction inputs generalizing s with
  | nil =>
    obtain ⟨tables, selected, drillSelected, fresh⟩ := s
    refine ⟨fresh, ?_⟩
    cases selected <;> rfl
  | cons input inputs ih =>
    obtain ⟨tables, selected, drillSelected, fresh⟩ := s
    cases selected with
    | nil => exact absurd h (by simp)
    | cons snapshotId selected =>
      obtain ⟨fresh', hrest⟩ := ih
        { tables := (service.attempt cx snapshotId (drillSelected.contains snapshotId) input
            tables).1
          selected
          drillSelected
          fresh := false } (by simpa using h)
      exact ⟨fresh', hrest⟩

end

/-- The key of a snapshot in the schedule. -/
def turn (tables : EvidenceTables) (snapshotId : Uuid) : ℕ ×ₗ Uuid :=
  (tables.candidate snapshotId 0).turn

/-- The older success of a snapshot. -/
def oldestSuccess (tables : EvidenceTables) (snapshotId : Uuid) : ℕ :=
  (tables.candidate snapshotId 0).oldestSuccess

section Plans

variable {policy : VerificationPolicy} {candidates : List ScheduleCandidate}
  {candidate : ScheduleCandidate} {plan : SchedulePlan} {now : ℕ}

end Plans

section Turns

variable {policy : VerificationPolicy} {tables tables' : EvidenceTables} {snapshotId other : Uuid}
  {bound : ℕ}

theorem turn_lt_iff : turn tables snapshotId < toLex (bound, other) ↔
    oldestSuccess tables snapshotId < bound ∨
      oldestSuccess tables snapshotId = bound ∧ snapshotId < other :=
  Prod.Lex.toLex_lt_toLex

end Turns

section Waiting

variable {cx : Crypto} {service : DurableVerification} {policy : VerificationPolicy}
  {s s' : State} {x : Uuid} {oldest : ℕ} {ls : List Label}

/-- The snapshots ahead of the key. -/
def stock (x : Uuid) (oldest : ℕ) (s : State) : ℕ :=
  s.tables.drills.snapshots.countP fun other => turn s.tables other < toLex (oldest, x)

end Waiting

namespace Sample

open RestoreDrill.Sample (crypto store)
open Retention.Sample (manifestRef)
open RatatoskrVault.Sample (verificationPolicy)

/-! Two snapshots that have never been verified, and a pass that has room for one. -/

def service : DurableVerification :=
  { trustedKeys := [{ keyId := "k", publicKey := [] }], maxChainDepth := 8 }

def input : AttemptInput :=
  { manifestRead := true, store, drillStore := store, drill := RestoreDrill.Sample.input 0
    verificationId := 1, drillId := 2, verificationMillis := 5, drillMillis := 5
    verifiedAt := 100, drilledAt := 110, verificationCommit := .ok, drillCommit := .ok }

def bundle (snapshotId : Uuid) : SnapshotArtifact :=
  { artifactId := snapshotId, snapshotId, kind := .gitBundle, sha256Hash := 0, blobOwner := owner
    mediaType := "application/x-git-bundle", sizeBytes := 10 }

def manifestRow (snapshotId : Uuid) (bytes : Bytes) : ManifestRow :=
  { snapshotId
    manifestHash := (manifestRef bytes).sha256
    blobOwner := (manifestRef bytes).owner
    mediaType := (manifestRef bytes).mediaType
    sizeBytes := (manifestRef bytes).sizeBytes }

def tables : EvidenceTables :=
  { drills := { snapshots := [4, 9], replicaTargets := [], restoreDrills := [], outbox := [] }
    drillFinishedAt := fun _ => 0
    artifacts := [bundle 4, bundle 9]
    manifests := [manifestRow 4 [1], manifestRow 9 [7]]
    integrityChecks := []
    verificationFailures := [] }

def start : State := { tables, selected := [], drillSelected := [], fresh := false }

def planned : State := { tables, selected := [4], drillSelected := [4], fresh := true }

example : (service.attempt crypto 4 true input tables).1.lastDrilledAt 4 = some 110 := by
  decide +kernel

end Sample

end RatatoskrVault.Passes
