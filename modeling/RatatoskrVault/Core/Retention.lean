import Mathlib.Data.Finset.Basic
import RatatoskrVault.Core.Snapshot
import RatatoskrVault.Lib.Sorting

/-! The retention policy engine: which snapshots a scheduled evaluation finds eligible, and which of
them quota pressure selects. -/
namespace RatatoskrVault

open Lib

/-- The windows of a retention policy. -/
structure RetentionPolicy where
  keepLastRestorable : ℕ
  minimumAgeSeconds : ℕ
  graceSeconds : ℕ
  deriving DecidableEq

inductive PinSource
  | operator | user
  deriving DecidableEq

structure RetentionSnapshot where
  snapshotId : Uuid
  mirrorId : Uuid
  createdAtEpochSeconds : ℕ
  restorable : Bool
  activePins : Finset PinSource
  targetInactive : Bool
  deletionNotBeforeEpochSeconds : Option ℕ
  estimatedBytes : ℕ
  deriving DecidableEq

inductive DecisionReason
  | eligibleOrdinary | protectedAgeFloor | protectedKeepLastRestorable | protectedPinned
  deriving DecidableEq

structure SnapshotDecision where
  snapshotId : Uuid
  reason : DecisionReason
  deriving DecidableEq

inductive PressureTier
  | ordinary | inactiveTarget
  deriving DecidableEq

structure PressureSelection where
  snapshotId : Uuid
  tier : PressureTier
  estimatedBytes : ℕ
  deriving DecidableEq

structure QuotaPressureDecision where
  selections : List PressureSelection
  freedBytes : ℕ
  requiredBytes : ℕ
  allocationRefused : Bool
  deriving DecidableEq

/-- Addition of `u64`. -/
def saturatingAdd (a b : ℕ) : ℕ := min (a + b) u64Max

namespace RetentionSnapshot

variable (s : RetentionSnapshot)

/-- Creation time, then identity. -/
def age : ℕ ×ₗ Uuid := toLex (s.createdAtEpochSeconds, s.snapshotId)

/-- The newest first. -/
def newest : (ℕ ×ₗ Uuid)ᵒᵈ := OrderDual.toDual s.age

/-- The order of the decisions. -/
def position : Uuid ×ₗ ℕ ×ₗ Uuid := toLex (s.mirrorId, s.age)

/-- The order of escalation. -/
def escalation : Bool ×ₗ ℕ ×ₗ Uuid ×ₗ Uuid :=
  toLex (s.targetInactive, toLex (s.createdAtEpochSeconds, toLex (s.mirrorId, s.snapshotId)))

def tier : PressureTier := if s.targetInactive then .inactiveTarget else .ordinary

def selection : PressureSelection :=
  { snapshotId := s.snapshotId, tier := s.tier, estimatedBytes := s.estimatedBytes }

end RetentionSnapshot

section

variable (snapshots : List RetentionSnapshot) (policy : RetentionPolicy) (evaluatedAt : ℕ)

/-- The group of a mirror, in the order of the input. -/
def restorableByMirror (mirrorId : Uuid) : List RetentionSnapshot :=
  snapshots.filter fun s => s.restorable && s.mirrorId == mirrorId

def keepLast : List Uuid :=
  ((snapshots.filter (·.restorable)).map (·.mirrorId)).dedup.flatMap fun mirrorId =>
    ((sortBy RetentionSnapshot.newest (restorableByMirror snapshots mirrorId)).take
      (max policy.keepLastRestorable 1)).map (·.snapshotId)

def decisionReason (s : RetentionSnapshot) : DecisionReason :=
  if s.activePins ≠ ∅ then .protectedPinned
  else if evaluatedAt - s.createdAtEpochSeconds < policy.minimumAgeSeconds then .protectedAgeFloor
  else if s.snapshotId ∈ keepLast snapshots policy then .protectedKeepLastRestorable
  else .eligibleOrdinary

def evaluateRetention : List SnapshotDecision :=
  (sortBy RetentionSnapshot.position snapshots).map fun s =>
    { snapshotId := s.snapshotId, reason := decisionReason snapshots policy evaluatedAt s }

/-- The decision collected under an id, where a later one replaces an earlier one. -/
def decisionOf? (decisions : List SnapshotDecision) (snapshotId : Uuid) : Option DecisionReason :=
  (decisions.reverse.find? fun d => d.snapshotId == snapshotId).map (·.reason)

def pressureCandidates : List RetentionSnapshot :=
  let decisions := evaluateRetention snapshots policy evaluatedAt
  sortBy RetentionSnapshot.escalation
    (snapshots.filter fun s =>
      decisionOf? decisions s.snapshotId == some .eligibleOrdinary &&
        s.deletionNotBeforeEpochSeconds.any fun deadline => decide (deadline ≤ evaluatedAt))

/-- The loop over the candidates; what has been freed is threaded through it. -/
def selectPressure (requiredBytes : ℕ) :
    List RetentionSnapshot → ℕ → List PressureSelection × ℕ
  | [], freed => ([], freed)
  | s :: rest, freed =>
    if requiredBytes ≤ freed then ([], freed)
    else
      let (selections, total) :=
        selectPressure requiredBytes rest (saturatingAdd freed s.estimatedBytes)
      (s.selection :: selections, total)

def evaluateQuotaPressure (requiredBytes : ℕ) : QuotaPressureDecision :=
  let (selections, freedBytes) :=
    selectPressure requiredBytes (pressureCandidates snapshots policy evaluatedAt) 0
  { selections, freedBytes, requiredBytes, allocationRefused := decide (freedBytes < requiredBytes) }

end

end RatatoskrVault
