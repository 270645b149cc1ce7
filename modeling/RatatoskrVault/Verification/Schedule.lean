import Mathlib.Data.Prod.Lex
import RatatoskrVault.Core.Delivery
import RatatoskrVault.Core.Snapshot

/-! The schedule of verifications and restore drills: which due snapshots one pass admits, and why
it defers the others. -/
namespace RatatoskrVault

/-- Finite scheduling and execution budgets for verification work. -/
structure VerificationPolicy where
  verificationFrequencySeconds : ℕ
  drillFrequencySeconds : ℕ
  sampleSize : ℕ
  scratchByteBudget : ℕ
  maxConcurrent : ℕ
  perDrillTimeoutSeconds : ℕ

structure ScheduleCandidate where
  snapshotId : Uuid
  bundleSizeBytes : ℕ
  lastVerifiedAt : Option Time
  lastDrilledAt : Option Time
  deriving DecidableEq

inductive DeferralReason
  | capacity | scratchBudget
  deriving DecidableEq

structure SchedulePlan where
  selected : List Uuid
  drillSelected : List Uuid
  deferred : List (Uuid × DeferralReason)
  deriving DecidableEq

def isDue (lastSuccess : Option Time) (frequency now : ℕ) : Bool :=
  lastSuccess.all fun last => decide (frequency ≤ now - last)

namespace ScheduleCandidate

variable (candidate : ScheduleCandidate)

def drillIsDue (now : ℕ) (policy : VerificationPolicy) : Bool :=
  isDue candidate.lastDrilledAt policy.drillFrequencySeconds now

def isDue (now : ℕ) (policy : VerificationPolicy) : Bool :=
  RatatoskrVault.isDue candidate.lastVerifiedAt policy.verificationFrequencySeconds now ||
    candidate.drillIsDue now policy

/-- The older of the two successes, absent ones aside. -/
def oldestSuccess : ℕ :=
  match candidate.lastVerifiedAt, candidate.lastDrilledAt with
  | some verified, some drilled => min verified drilled
  | some verified, none => verified
  | none, some drilled => drilled
  | none, none => 0

end ScheduleCandidate

def VerificationPolicy.validate (policy : VerificationPolicy) : Bool :=
  policy.verificationFrequencySeconds != 0 && policy.drillFrequencySeconds != 0 &&
    policy.sampleSize != 0 && policy.scratchByteBudget != 0 && policy.maxConcurrent != 0 &&
    policy.perDrillTimeoutSeconds != 0

/-- Admission of the due candidates in order, with the bytes admitted so far. -/
def admitDue (now : ℕ) (policy : VerificationPolicy) :
    List ScheduleCandidate → ℕ → SchedulePlan → SchedulePlan
  | [], _, plan => plan
  | candidate :: rest, admittedBytes, plan =>
    let nextBytes := admittedBytes + candidate.bundleSizeBytes
    if min policy.sampleSize policy.maxConcurrent ≤ plan.selected.length then
      admitDue now policy rest admittedBytes
        { plan with deferred := plan.deferred ++ [(candidate.snapshotId, .capacity)] }
    else if u64Max < nextBytes ∨ policy.scratchByteBudget < nextBytes then
      admitDue now policy rest admittedBytes
        { plan with deferred := plan.deferred ++ [(candidate.snapshotId, .scratchBudget)] }
    else
      admitDue now policy rest nextBytes
        { plan with
          selected := plan.selected ++ [candidate.snapshotId]
          drillSelected :=
            if candidate.drillIsDue now policy then plan.drillSelected ++ [candidate.snapshotId]
            else plan.drillSelected }

def planDueSnapshots (now : ℕ) (policy : VerificationPolicy)
    (candidates : List ScheduleCandidate) : Option SchedulePlan :=
  if policy.validate then
    let due := (candidates.filter fun candidate => candidate.isDue now policy).mergeSort fun x y =>
      decide (toLex (x.oldestSuccess, x.snapshotId) ≤ toLex (y.oldestSuccess, y.snapshotId))
    some (admitDue now policy due 0 { selected := [], drillSelected := [], deferred := [] })
  else none

end RatatoskrVault
