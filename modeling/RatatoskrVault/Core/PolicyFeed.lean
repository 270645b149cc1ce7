import RatatoskrVault.Schema.Tables

/-! The adapter from a desired backup policy to deliveries, and the decision about one policy
version with the acknowledgement that reports it. -/
namespace RatatoskrVault

/-- The parts of the shared contracts that are not in this repository: name-based identifiers,
the parsers of entity references and producer names, and the check of an acknowledgement. -/
structure Contracts where
  newV5 : Uuid → String → Uuid
  entityRef : String → Bool
  producerName : String → Bool
  validate : PolicyAcknowledged → Bool

structure DesiredBackupPolicy where
  policyVersion : ℕ
  repositories : List String
  deriving DecidableEq

/-- A decoded command. -/
structure CommandEnvelope where
  commandId : Uuid
  policy : DesiredBackupPolicy
  deriving DecidableEq

def policySource : String := "github-policy"

def provider : String := "github"

inductive PolicyFeedError
  | policyVersionNotMonotonic (candidate lastApplied : ℕ)
  deriving DecidableEq

section

variable (contracts : Contracts)

def policyDelivery (commandId : Uuid) (policyVersion : ℕ) (repositoryRef : String)
    (preservationLevel : String) : IncomingDelivery :=
  { provider
    externalRepositoryId := repositoryRef
    source := policySource
    messageId := contracts.newV5 commandId repositoryRef
    delivery :=
      { preservationLevel
        pinned := none
        includeWiki := none
        includeReleases := none
        includeIssues := none
        offsiteRequired := none
        correlationId := "backup_policy:" ++ toString policyVersion
        policyRevision := some policyVersion } }

/-- The listed repositories are mirrored, and those governed before that are missing from the
list are withdrawn. -/
def deliveriesForPolicy (commandId : Uuid) (policy : DesiredBackupPolicy)
    (lastAppliedVersion : ℕ) (previouslyGoverned : List String) :
    Except PolicyFeedError (List IncomingDelivery) :=
  if policy.policyVersion ≤ lastAppliedVersion then
    .error (.policyVersionNotMonotonic policy.policyVersion lastAppliedVersion)
  else
    let dropped := previouslyGoverned.filter fun reference =>
      !policy.repositories.contains reference
    .ok
      ((policy.repositories.map fun reference =>
          policyDelivery contracts commandId policy.policyVersion reference "git_mirror") ++
        dropped.map fun reference =>
          policyDelivery contracts commandId policy.policyVersion reference "none")

inductive PolicyRejectionCode
  | policyVersionNotMonotonic
  deriving DecidableEq

def PolicyRejectionCode.asStr : PolicyRejectionCode → String
  | policyVersionNotMonotonic => "policy_version_not_monotonic"

inductive PolicyDecision
  | accepted (policyVersion previousApplied : ℕ)
  | rejected (policyVersion lastApplied : ℕ) (code : PolicyRejectionCode)
  deriving DecidableEq

namespace PolicyDecision

def forVersion (policyVersion lastApplied : ℕ) : PolicyDecision :=
  if lastApplied < policyVersion then accepted policyVersion lastApplied
  else rejected policyVersion lastApplied .policyVersionNotMonotonic

def policyVersion : PolicyDecision → ℕ
  | accepted version _ => version
  | rejected version _ _ => version

/-- The version that was applied last when the decision was made. -/
def lastApplied : PolicyDecision → ℕ
  | accepted _ previous => previous
  | rejected _ last _ => last

def outcome : PolicyDecision → PolicyCommandOutcome
  | accepted _ _ => .accepted
  | rejected _ _ _ => .rejected

def rejectionCode : PolicyDecision → Option PolicyRejectionCode
  | accepted _ _ => none
  | rejected _ _ code => some code

def payload (decision : PolicyDecision) (causation : Uuid) : PolicyAcknowledged :=
  { acknowledgedPolicyVersion := decision.policyVersion
    outcome := decision.outcome
    reasons := decision.rejectionCode.toList.map (·.asStr)
    lastAppliedPolicyVersion := decision.lastApplied
    causation }

theorem outcome_forVersion {version last : ℕ} :
    (forVersion version last).outcome = .accepted ↔ last < version := by
  unfold forVersion
  split_ifs with h <;> simp [outcome, h]

end PolicyDecision

/-- `acknowledgement_envelope`: nothing when the contract refuses a part of it. -/
def acknowledgementEnvelope (command : CommandEnvelope) (decision : PolicyDecision) :
    Option PolicyAcknowledged :=
  let payload := decision.payload command.commandId
  if contracts.entityRef ("backup_policy:" ++ toString decision.policyVersion) &&
      contracts.entityRef ("command:" ++ toString command.commandId) &&
      contracts.producerName "ratatoskr-vault" && contracts.validate payload then some payload
  else none

end

end RatatoskrVault
