import RatatoskrVault.Core.Snapshot

/-! The configured replica targets and the startup rules for them. -/
namespace RatatoskrVault

/-- A parsed endpoint URL. -/
structure Endpoint where
  scheme : String
  username : String
  password : Option String
  host : Option String
  path : String
  query : Option String
  fragment : Option String
  deriving DecidableEq

structure ReplicaTargetConfig where
  endpoint : Endpoint
  bucket : String
  region : String
  keyPrefix : String := ""
  enabled : Bool := true
  required : Bool := true
  accessKey : String := ""
  secretAccessKey : String := ""
  connectTimeoutSeconds : ℕ
  requestTimeoutSeconds : ℕ
  attemptTimeoutSeconds : ℕ
  maxObjectBytes : ℕ
  maxBacklogItems : ℕ
  maxBacklogBytes : ℕ
  maxConcurrent : ℕ
  bounded : maxObjectBytes ≤ u64Max := by decide

/-- One startup-rule violation. -/
structure Violation where
  key : String
  envVar : String
  rule : String
  deriving DecidableEq

def violationUnless (holds : Bool) (violation : Violation) : List Violation :=
  if holds then [] else [violation]

def replicaPositive (value : ℕ) (key envVar rule : String) : List Violation :=
  violationUnless (value != 0) { key, envVar, rule }

section

-- `host.parse::<IpAddr>()` and `is_loopback`
variable (loopbackIp : String → Bool)

/-- The rules of one enabled target. -/
def ReplicaTargetConfig.violations (target : ReplicaTargetConfig) : List Violation :=
  let endpoint := target.endpoint
  let loopbackHttp := endpoint.scheme == "http" &&
    endpoint.host.any fun host => host == "localhost" || loopbackIp host
  let endpointIsOrigin := endpoint.username.isEmpty && endpoint.password.isNone &&
    endpoint.query.isNone && endpoint.fragment.isNone && endpoint.path == "/"
  violationUnless ((endpoint.scheme == "https" || loopbackHttp) && endpointIsOrigin)
      { key := "replicas.targets.<target>.endpoint"
        envVar := "RATATOSKR__REPLICAS__TARGETS__<TARGET>__ENDPOINT"
        rule := "must be a credential-free https:// origin, except loopback http:// origins " ++
          "used by local tests" } ++
    violationUnless (!target.accessKey.isEmpty)
      { key := "replicas.targets.<target>.access_key"
        envVar := "RATATOSKR__REPLICAS__TARGETS__<TARGET>__ACCESS_KEY"
        rule := "must be supplied through the process environment" } ++
    violationUnless (!target.secretAccessKey.isEmpty)
      { key := "replicas.targets.<target>.secret_access_key"
        envVar := "RATATOSKR__REPLICAS__TARGETS__<TARGET>__SECRET_ACCESS_KEY"
        rule := "must be supplied through the process environment" } ++
    replicaPositive target.connectTimeoutSeconds
      "replicas.targets.<target>.connect_timeout_seconds"
      "RATATOSKR__REPLICAS__TARGETS__<TARGET>__CONNECT_TIMEOUT_SECONDS"
      "must be a positive finite connection timeout" ++
    replicaPositive target.requestTimeoutSeconds
      "replicas.targets.<target>.request_timeout_seconds"
      "RATATOSKR__REPLICAS__TARGETS__<TARGET>__REQUEST_TIMEOUT_SECONDS"
      "must be a positive finite end-to-end deadline" ++
    replicaPositive target.attemptTimeoutSeconds
      "replicas.targets.<target>.attempt_timeout_seconds"
      "RATATOSKR__REPLICAS__TARGETS__<TARGET>__ATTEMPT_TIMEOUT_SECONDS"
      "must be a positive finite attempt timeout" ++
    replicaPositive target.maxObjectBytes
      "replicas.targets.<target>.max_object_bytes"
      "RATATOSKR__REPLICAS__TARGETS__<TARGET>__MAX_OBJECT_BYTES"
      "must be a positive finite object-size ceiling" ++
    replicaPositive target.maxBacklogItems
      "replicas.targets.<target>.max_backlog_items"
      "RATATOSKR__REPLICAS__TARGETS__<TARGET>__MAX_BACKLOG_ITEMS"
      "must be a positive finite item ceiling" ++
    replicaPositive target.maxBacklogBytes
      "replicas.targets.<target>.max_backlog_bytes"
      "RATATOSKR__REPLICAS__TARGETS__<TARGET>__MAX_BACKLOG_BYTES"
      "must be a positive finite byte ceiling" ++
    violationUnless (decide (1 ≤ target.maxConcurrent ∧ target.maxConcurrent ≤ 4))
      { key := "replicas.targets.<target>.max_concurrent"
        envVar := "RATATOSKR__REPLICAS__TARGETS__<TARGET>__MAX_CONCURRENT"
        rule := "must be 1..=4 for the deployment target's four CPU cores" }

def replicaViolations (targets : List ReplicaTargetConfig) : List Violation :=
  (targets.filter (·.enabled)).flatMap (·.violations loopbackIp)

end

end RatatoskrVault
