import Mathlib.Data.List.MinMax
import Mathlib.Data.List.Sort
import RatatoskrVault.Core.PolicyFeed
import RatatoskrVault.Schema.Guards

/-! The reads of the policy lane: the revision that governs a target, the repositories a source
governed before a version, and the ledger of decided commands. -/
namespace RatatoskrVault

namespace Db

variable (db : Db)

def repositoryTarget? (provider externalRepositoryId : String) : Option Target :=
  db.targets.find? fun t =>
    t.provider == provider && t.externalRepositoryId == externalRepositoryId &&
      t.targetKind == .repository

def revisionsOf (targetId : Uuid) : List Revision :=
  db.revisions.filter fun r => r.targetId == targetId

/-- The highest revision of a target. -/
def governing? (targetId : Uuid) : Option Revision :=
  (db.revisionsOf targetId).argmax (·.policyRevision)

/-- The highest revision of a target among those of other sources and those below a version. -/
def governingBefore? (source : String) (version : ℕ) (targetId : Uuid) : Option Revision :=
  ((db.revisionsOf targetId).filter fun r =>
    r.source != some source || decide (r.policyRevision < version)).argmax (·.policyRevision)

def targetsGovernedBefore (source : String) (version : ℕ) : List String :=
  ((db.targets.filter fun t =>
      t.targetKind == .repository &&
        (db.governingBefore? source version t.targetId).any fun r =>
          r.source == some source && r.preservationLevel != .none).map
    (·.externalRepositoryId)).insertionSort (· ≤ ·)

/-- The versions of the accepted ledger rows, in the order in which the rows committed. -/
def acceptedVersions : List ℕ :=
  (db.commands.filter fun row => row.outcome == .accepted).map (·.policyVersion)

def lastAppliedPolicyVersion : ℕ := db.acceptedVersions.foldr max 0

def policyCommandRecorded (commandId : Uuid) : Bool :=
  db.commands.any fun row => row.commandId == commandId

/-- The row constraints and the unique keys of `backup_policy_commands`. -/
def commandAllowed (row : PolicyCommand) : Bool :=
  decide (0 < row.policyVersion) && !db.policyCommandRecorded row.commandId &&
    !(row.outcome == .accepted && db.acceptedVersions.contains row.policyVersion)

theorem le_lastAppliedPolicyVersion {db : Db} {version : ℕ} (h : version ∈ db.acceptedVersions) :
    version ≤ db.lastAppliedPolicyVersion := by
  unfold lastAppliedPolicyVersion
  generalize db.acceptedVersions = versions at h ⊢
  induction versions with
  | nil => cases h
  | cons v versions ih =>
    rcases List.mem_cons.mp h with rfl | hmem
    · exact le_max_left _ _
    · exact le_max_of_le_right (ih hmem)

end Db

/-- The record a governing revision arrived as. -/
def governedRecord (policy : Revision) : ValidatedDelivery :=
  { preservationLevel := policy.preservationLevel
    pinned := some policy.pinned
    includeWiki := some policy.includeWiki
    includeReleases := some policy.includeReleases
    includeIssues := some policy.includeIssues
    offsiteRequired := some policy.offsiteRequired
    correlationId := policy.correlationId
    policyRevision := some policy.policyRevision }

end RatatoskrVault
