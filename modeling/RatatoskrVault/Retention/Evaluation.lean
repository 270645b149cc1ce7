import RatatoskrVault.Schema.Guards

/-! The record of a policy-engine evaluation and of its candidates. -/
namespace RatatoskrVault

/-- A row of `retention_policies`. -/
structure RetentionPolicyRow where
  policyId : Uuid
  minimumAgeSeconds : ℕ
  graceSeconds : ℕ
  keepLastRestorable : ℕ
  deriving DecidableEq

structure RetentionEvaluationRequest where
  targetId : Uuid
  policyId : Uuid
  policy : RetentionPolicy
  mode : RetentionEvaluationMode
  requiredBytes : Option ℕ
  outcome : RetentionEvaluationOutcome
  correlationId : Uuid
  evaluatedAt : Time
  candidates : List RetentionCandidateEvidence
  deriving DecidableEq

/-- The order of the closed vocabulary. -/
def PinSource.isBefore : PinSource → PinSource → Bool
  | .operator, .user => true
  | _, _ => false

/-- Every source is before the next. -/
def pinSourcesAscend : List PinSource → Bool
  | left :: right :: rest => left.isBefore right && pinSourcesAscend (right :: rest)
  | _ => true

def checkedEpoch (value : ℕ) : Except VaultError ℕ :=
  if value ≤ i64Max then .ok value else .error (.invalidDelivery "retention_timestamp")

/-- Bytes are required exactly of an evaluation under pressure. -/
def requiredBytesMatch : RetentionEvaluationMode → Option ℕ → Bool
  | .scheduled, none => true
  | .quotaPressure, some bytes => decide (0 < bytes ∧ bytes ≤ i64Max)
  | _, _ => false

def validateEvaluationRequest (request : RetentionEvaluationRequest) : Except VaultError Unit := do
  if 100000 < request.candidates.length ∨ ¬ (request.candidates.map (·.snapshotId)).Nodup ∨
      ¬ request.candidates.all fun c => pinSourcesAscend c.pinSources then
    .error (.invalidDelivery "retention_candidates")
  else if ¬ requiredBytesMatch request.mode request.requiredBytes then
    .error (.invalidDelivery "retention_required_bytes")
  else if request.outcome = .allocationRefused ∧ request.mode ≠ .quotaPressure then
    .error (.invalidDelivery "retention_evaluation_outcome")
  else if i32Max < request.policy.keepLastRestorable then
    .error (.invalidDelivery "retention_policy")
  else
    let _ ← checkedEpoch request.evaluatedAt
    let minimumAgeSeconds ← checkedEpoch request.policy.minimumAgeSeconds
    let graceSeconds ← checkedEpoch request.policy.graceSeconds
    if 315360000 < minimumAgeSeconds ∨ ¬ (1 ≤ graceSeconds ∧ graceSeconds ≤ 315360000) ∨
        ¬ (1 ≤ request.policy.keepLastRestorable ∧ request.policy.keepLastRestorable ≤ 1000000) then
      .error (.invalidDelivery "retention_policy")
    else .ok ()

/-- The policy is stored with the values the engine used, and the target exists. -/
def validateEvaluationScope (policies : List RetentionPolicyRow) (db : Db)
    (request : RetentionEvaluationRequest) : Except VaultError Unit :=
  if (db.target? request.targetId).isSome ∧
      ((policies.find? fun row => row.policyId == request.policyId).map fun row =>
        (row.minimumAgeSeconds, row.graceSeconds, row.keepLastRestorable)) =
        some (request.policy.minimumAgeSeconds, request.policy.graceSeconds,
          request.policy.keepLastRestorable) then .ok ()
  else .error (.invalidDelivery "retention_evaluation_scope")

def insertEvaluationCandidate (db : Db) (request : RetentionEvaluationRequest)
    (candidate : RetentionCandidateEvidence) : Except VaultError Unit := do
  if ¬ db.snapshots.any fun s =>
      s.snapshotId == candidate.snapshotId && s.targetId == request.targetId then
    .error (.invalidDelivery "retention_candidate_snapshot")
  else if i64Max < candidate.estimatedBytes then
    .error (.invalidDelivery "retention_estimated_bytes")
  else
    match candidate.deletionNotBefore with
    | none => .ok ()
    | some notBefore =>
      let _ ← checkedEpoch notBefore
      .ok ()

def recordRetentionEvaluation (policies : List RetentionPolicyRow) (db : Db) (evaluationId : Uuid)
    (request : RetentionEvaluationRequest) : Except VaultError RetentionEvaluation := do
  validateEvaluationRequest request
  validateEvaluationScope policies db request
  request.candidates.forM (insertEvaluationCandidate db request)
  return {
    evaluationId
    targetId := request.targetId
    policyId := request.policyId
    mode := request.mode
    policySnapshot := request.policy
    requiredBytes := request.requiredBytes
    outcome := request.outcome
    correlationId := request.correlationId
    evaluatedAt := request.evaluatedAt
    candidates := request.candidates }

end RatatoskrVault
