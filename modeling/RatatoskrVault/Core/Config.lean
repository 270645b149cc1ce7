import RatatoskrVault.Core.ReplicaConfig
import RatatoskrVault.Lib.PathText

/-! The configuration of a Vault process, and the rules it is checked against at startup. -/
namespace RatatoskrVault

open Lib

structure DatabaseConfig where
  url : String
  maxConnections : ℕ := 10
  acquireTimeoutSeconds : ℕ := 5

structure ShutdownConfig where
  drainSeconds : ℕ := 5
  graceSeconds : ℕ := 25

/-- The roots and byte budgets of mirror work. -/
structure MirrorLifecycleConfig where
  root : List Char
  workRoot : List Char
  perMirrorMaxBytes : ℕ
  globalMaxBytes : ℕ
  maxConcurrentOperations : ℕ := 4

structure LfsConfig where
  binary : List Char
  stageMaxBytes : ℕ
  maxObjects : ℕ
  operationTimeoutSeconds : ℕ

structure VerificationConfig where
  scratchRoot : List Char
  verificationFrequencySeconds : ℕ
  drillFrequencySeconds : ℕ
  sampleSize : ℕ
  scratchByteBudget : ℕ
  maxConcurrent : ℕ
  perDrillTimeoutSeconds : ℕ
  manifestSigningSeed : String
  trustedManifestPublicKeys : List (String × String)

structure BusConfig where
  url : String
  nkeySeedPath : Option (List Char)

structure OtlpConfig where
  endpoint : Endpoint
  timeoutSeconds : ℕ := 5
  headers : List (String × String) := []

structure TelemetryConfig where
  logFilter : String := "info"
  otlp : Option OtlpConfig := none

structure VaultConfig where
  database : Option DatabaseConfig := none
  shutdown : ShutdownConfig := {}
  mirror : Option MirrorLifecycleConfig := none
  lfs : Option LfsConfig := none
  verification : Option VerificationConfig := none
  replicas : Option (List ReplicaTargetConfig) := none
  bus : Option BusConfig := none
  telemetry : TelemetryConfig := {}

/-- The readers of texts that the process takes from its libraries. -/
structure ConfigReaders where
  envFilter : String → Bool
  url : String → Option Endpoint
  loopbackIp : String → Bool

def shutdownCeilingSeconds : ℕ := 120

def positive (value : ℕ) (key envVar rule : String) : List Violation :=
  violationUnless (value != 0) { key, envVar, rule }

def within (low value high : ℕ) : Bool := decide (low ≤ value ∧ value ≤ high)

def isLowerHex (value : String) (expectedLength : ℕ) : Bool :=
  value.utf8ByteSize == expectedLength &&
    value.toList.all fun c => c.isDigit || ('a' ≤ c && c ≤ 'f')

/-- `Path::starts_with`, of components. -/
def pathStartsWith (path start : List Char) : Bool :=
  (components start).isPrefixOf (components path)

def pathsOverlap (left right : List Char) : Bool :=
  pathStartsWith left right || pathStartsWith right left

section

variable (readers : ConfigReaders) (config : VaultConfig)

/-- A mirror section has finite positive budgets and the four permits of the host. -/
def mirrorViolations : List Violation :=
  match config.mirror with
  | none => []
  | some mirror =>
    violationUnless (isAbsolute mirror.root)
        { key := "mirror.root"
          envVar := "RATATOSKR__MIRROR__ROOT"
          rule := "must be an absolute confined storage root" } ++
      violationUnless
        (isAbsolute mirror.workRoot && components mirror.workRoot != components mirror.root)
        { key := "mirror.work_root"
          envVar := "RATATOSKR__MIRROR__WORK_ROOT"
          rule := "must be an absolute staging root distinct from mirror.root" } ++
      positive mirror.perMirrorMaxBytes "mirror.per_mirror_max_bytes"
        "RATATOSKR__MIRROR__PER_MIRROR_MAX_BYTES" "must be a positive finite byte budget" ++
      positive mirror.globalMaxBytes "mirror.global_max_bytes"
        "RATATOSKR__MIRROR__GLOBAL_MAX_BYTES" "must be a positive finite byte budget" ++
      violationUnless (mirror.maxConcurrentOperations == 4)
        { key := "mirror.max_concurrent_operations"
          envVar := "RATATOSKR__MIRROR__MAX_CONCURRENT_OPERATIONS"
          rule := "must equal 4, the deployment target's four CPU cores" }

/-- Git LFS needs an absolute binary, and limits inside the budgets of the mirror section. -/
def lfsViolations : List Violation :=
  match config.lfs with
  | none => []
  | some lfs =>
    let stageIsBounded := config.mirror.any fun mirror =>
      decide (0 < lfs.stageMaxBytes ∧ lfs.stageMaxBytes ≤ mirror.perMirrorMaxBytes ∧
        lfs.stageMaxBytes ≤ mirror.globalMaxBytes)
    violationUnless (isAbsolute lfs.binary)
        { key := "lfs.binary"
          envVar := "RATATOSKR__LFS__BINARY"
          rule := "must be an absolute path to the allowlisted git-lfs executable" } ++
      violationUnless stageIsBounded
        { key := "lfs.stage_max_bytes"
          envVar := "RATATOSKR__LFS__STAGE_MAX_BYTES"
          rule := "must be positive and no greater than configured per-mirror and global budgets" } ++
      positive lfs.maxObjects "lfs.max_objects" "RATATOSKR__LFS__MAX_OBJECTS"
        "must be a positive finite referenced-object limit" ++
      positive lfs.operationTimeoutSeconds "lfs.operation_timeout_seconds"
        "RATATOSKR__LFS__OPERATION_TIMEOUT_SECONDS" "must be a positive finite process deadline"

def verificationViolations : List Violation :=
  match config.verification with
  | none => []
  | some verification =>
    let scratchOverlapsLiveStorage := config.mirror.all fun mirror =>
      pathsOverlap verification.scratchRoot mirror.root ||
        pathsOverlap verification.scratchRoot mirror.workRoot
    violationUnless (isAbsolute verification.scratchRoot && !scratchOverlapsLiveStorage)
        { key := "verification.scratch_root"
          envVar := "RATATOSKR__VERIFICATION__SCRATCH_ROOT"
          rule := "must be an absolute root disjoint from configured mirror and work roots" } ++
      positive verification.verificationFrequencySeconds
        "verification.verification_frequency_seconds"
        "RATATOSKR__VERIFICATION__VERIFICATION_FREQUENCY_SECONDS"
        "must be a positive finite interval" ++
      positive verification.drillFrequencySeconds "verification.drill_frequency_seconds"
        "RATATOSKR__VERIFICATION__DRILL_FREQUENCY_SECONDS" "must be a positive finite interval" ++
      positive verification.sampleSize "verification.sample_size"
        "RATATOSKR__VERIFICATION__SAMPLE_SIZE" "must be a positive finite sample" ++
      positive verification.scratchByteBudget "verification.scratch_byte_budget"
        "RATATOSKR__VERIFICATION__SCRATCH_BYTE_BUDGET" "must be a positive finite byte budget" ++
      violationUnless (within 1 verification.maxConcurrent 4)
        { key := "verification.max_concurrent"
          envVar := "RATATOSKR__VERIFICATION__MAX_CONCURRENT"
          rule := "must be 1..=4 for the deployment target's four CPU cores" } ++
      positive verification.perDrillTimeoutSeconds "verification.per_drill_timeout_seconds"
        "RATATOSKR__VERIFICATION__PER_DRILL_TIMEOUT_SECONDS"
        "must be a positive finite process deadline" ++
      violationUnless (isLowerHex verification.manifestSigningSeed 64)
        { key := "verification.manifest_signing_seed"
          envVar := "RATATOSKR__VERIFICATION__MANIFEST_SIGNING_SEED"
          rule := "must be a 32-byte lowercase hexadecimal Ed25519 seed" } ++
      violationUnless
        (!verification.trustedManifestPublicKeys.isEmpty &&
          verification.trustedManifestPublicKeys.all fun (keyId, publicKey) =>
            isLowerHex keyId 64 && isLowerHex publicKey 64)
        { key := "verification.trusted_manifest_public_keys"
          envVar := "RATATOSKR__VERIFICATION__TRUSTED_MANIFEST_PUBLIC_KEYS__<KEY_ID>"
          rule := "must contain lowercase SHA-256 key ids mapped to 32-byte lowercase " ++
            "hexadecimal Ed25519 public keys" }

def databaseViolations : List Violation :=
  match config.database with
  | none => []
  | some database =>
    violationUnless (within 1 database.maxConnections 100)
        { key := "database.max_connections"
          envVar := "RATATOSKR__DATABASE__MAX_CONNECTIONS"
          rule := "must be 1..=100" } ++
      violationUnless (within 1 database.acquireTimeoutSeconds 30)
        { key := "database.acquire_timeout_seconds"
          envVar := "RATATOSKR__DATABASE__ACQUIRE_TIMEOUT_SECONDS"
          rule := "must be 1..=30" } ++
      violationUnless
        ("postgres://".toList.isPrefixOf database.url.toList ||
          "postgresql://".toList.isPrefixOf database.url.toList)
        { key := "database.url"
          envVar := "RATATOSKR__DATABASE__URL"
          rule := "must be a postgres:// or postgresql:// URL" }

def isHeaderName (name : String) : Bool :=
  within 1 name.utf8ByteSize 64 &&
    name.toList.all fun c => c.isLower || c.isDigit || c == '-'

def otlpViolations : List Violation :=
  match config.telemetry.otlp with
  | none => []
  | some otlp =>
    violationUnless (otlp.endpoint.scheme == "http" || otlp.endpoint.scheme == "https")
        { key := "telemetry.otlp.endpoint"
          envVar := "RATATOSKR__TELEMETRY__OTLP__ENDPOINT"
          rule := "must be an http:// or https:// URL of an OTLP/gRPC collector" } ++
      violationUnless (within 1 otlp.timeoutSeconds 60)
        { key := "telemetry.otlp.timeout_seconds"
          envVar := "RATATOSKR__TELEMETRY__OTLP__TIMEOUT_SECONDS"
          rule := "must be 1..=60" } ++
      otlp.headers.flatMap fun (name, _) =>
        violationUnless (isHeaderName name)
          { key := "telemetry.otlp.headers.<name>"
            envVar := "RATATOSKR__TELEMETRY__OTLP__HEADERS__<NAME>"
            rule := "each header name must be 1..=64 lowercase letters, digits or hyphens" }

/-- The bus needs a broker without credentials, a database, and a seed over TLS. -/
def busViolations : List Violation :=
  match config.bus with
  | none => []
  | some bus =>
    let parsed := readers.url bus.url
    let brokerOk := parsed.any fun url =>
      (url.scheme == "nats" || url.scheme == "tls") && url.host.isSome && url.username.isEmpty &&
        url.password.isNone && url.query.isNone && url.fragment.isNone &&
        (url.path == "" || url.path == "/")
    let overTls := parsed.any fun url => url.scheme == "tls"
    violationUnless brokerOk
        { key := "bus.url"
          envVar := "RATATOSKR__BUS__URL"
          rule := "must be a credential-free nats:// or tls:// broker URL without a path" } ++
      violationUnless config.database.isSome
        { key := "bus.url"
          envVar := "RATATOSKR__BUS__URL"
          rule := "needs RATATOSKR__DATABASE__URL: the policy lane cannot finish a command " ++
            "without it" } ++
      match bus.nkeySeedPath with
      | some path =>
        violationUnless (isAbsolute path)
          { key := "bus.nkey_seed_path"
            envVar := "RATATOSKR__BUS__NKEY_SEED_PATH"
            rule := "must be the absolute path of the nkey seed file, e.g. " ++
              "/etc/ratatoskr/vault.nkey" }
      | none =>
        violationUnless (!overTls)
          { key := "bus.nkey_seed_path"
            envVar := "RATATOSKR__BUS__NKEY_SEED_PATH"
            rule := "is required for a tls:// broker: the seed authenticates this identity" }

/-- Every startup rule, in order. -/
def validate : List Violation :=
  let drain := config.shutdown.drainSeconds
  let grace := config.shutdown.graceSeconds
  violationUnless (readers.envFilter config.telemetry.logFilter)
      { key := "telemetry.log_filter"
        envVar := "RATATOSKR__TELEMETRY__LOG_FILTER"
        rule := "must parse as a tracing-subscriber EnvFilter directive string, e.g. " ++
          "info,vault=debug" } ++
    violationUnless (decide (drain ≤ 60))
      { key := "shutdown.drain_seconds"
        envVar := "RATATOSKR__SHUTDOWN__DRAIN_SECONDS"
        rule := "must be 0..=60, and drain_seconds + grace_seconds must not exceed 120" } ++
    violationUnless
      (within 1 grace shutdownCeilingSeconds &&
        decide (min u64Max (drain + grace) ≤ shutdownCeilingSeconds))
      { key := "shutdown.grace_seconds"
        envVar := "RATATOSKR__SHUTDOWN__GRACE_SECONDS"
        rule := "must be 1..=120, and drain_seconds + grace_seconds must not exceed 120" } ++
    databaseViolations config ++ otlpViolations config ++ mirrorViolations config ++
    lfsViolations config ++ verificationViolations config ++
    (config.replicas.elim [] (replicaViolations readers.loopbackIp)) ++
    busViolations readers config

end

section

variable {readers : ConfigReaders} {config : VaultConfig}

theorem violationUnless_eq_nil {holds : Bool} {violation : Violation} :
    violationUnless holds violation = [] ↔ holds = true := by
  unfold violationUnless
  cases holds <;> simp

theorem positive_eq_nil {value : ℕ} {key envVar rule : String} :
    positive value key envVar rule = [] ↔ 0 < value := by
  unfold positive
  rw [violationUnless_eq_nil, bne_iff_ne]
  omega

theorem mirrorViolations_of_validate (h : validate readers config = []) :
    mirrorViolations config = [] := by
  unfold validate at h
  simp only [List.append_eq_nil_iff] at h
  exact h.1.1.1.1.2

/-- The defaults pass their own rules. -/
theorem validate_defaults (h : readers.envFilter "info" = true) : validate readers {} = [] := by
  unfold validate
  rw [h]
  rfl

end

end RatatoskrVault
