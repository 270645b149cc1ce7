import RatatoskrVault.Verification.Durable
import RatatoskrVault.Verification.Schedule

/-! `DurableVerification`: what one attempt at a snapshot leaves in the evidence tables, and the
schedule that is read back from them. -/
namespace RatatoskrVault

structure StoredVerificationReport where
  verificationId : Uuid
  snapshotId : Uuid
  manifest : BlobRef
  outcome : ReportOutcome
  failureClass : Option String
  durationMillis : ℕ
  /-- A JSON array, as the next field. -/
  stages : List StageReport
  checkedArtifacts : List BlobRef
  expectedRefCount : ℕ
  expectedRefSetSha256 : String
  deriving DecidableEq

/-- A row of `integrity_checks`. -/
structure IntegrityCheckRow where
  report : StoredVerificationReport
  expectedRefsHash : Digest
  finishedAt : Time
  deriving DecidableEq

/-- A `vault.snapshot.verification_failed.v1` row of the outbox. -/
structure VerificationFailedEvent where
  verificationId : Uuid
  snapshotId : Uuid
  manifestSha256 : Digest
  failureClass : Option String
  deriving DecidableEq

/-- The tables verification reads and writes. -/
structure EvidenceTables where
  /-- `snapshots`, `replica_targets`, `restore_drills` and the outbox facts about drills. -/
  drills : DrillTables
  /-- `restore_drills.finished_at`, by the primary key. -/
  drillFinishedAt : Uuid → Time
  artifacts : List SnapshotArtifact
  manifests : List ManifestRow
  integrityChecks : List IntegrityCheckRow
  verificationFailures : List VerificationFailedEvent

/-- `stored_verification`; the identifier and the duration are drawn by the verifier. -/
def storedVerification (report : VerificationReport) (verificationId : Uuid)
    (durationMillis : ℕ) : StoredVerificationReport :=
  { verificationId
    snapshotId := report.snapshotId
    manifest := report.manifest
    outcome := report.outcome
    failureClass := report.failure.map (·.code)
    durationMillis := saturateU64 durationMillis
    stages := report.stages
    checkedArtifacts := report.checkedArtifacts
    expectedRefCount := saturateU64 report.expectedRefCount
    expectedRefSetSha256 := report.expectedRefSetSha256 }

namespace StoredVerificationReport

variable (report : StoredVerificationReport)

def failureConsistent : Bool :=
  match report.outcome with
  | .passed => report.failureClass.isNone
  | .failed => report.failureClass.any fun value => !value.isEmpty

/-- `validate_verification_report`. -/
def validate : Except VaultError Unit :=
  if !report.failureConsistent || report.manifest.owner != owner ||
      report.manifest.mediaType != "application/json" then
    .error (.invalidDelivery "verification_report")
  else .ok ()

/-- The fact a failed report is announced with. -/
def failed : VerificationFailedEvent :=
  { verificationId := report.verificationId
    snapshotId := report.snapshotId
    manifestSha256 := report.manifest.sha256
    failureClass := report.failureClass }

end StoredVerificationReport

namespace EvidenceTables

variable (tables : EvidenceTables)

/-- `record_verification` up to its commit. -/
def recordVerification (report : StoredVerificationReport) (finishedAt : Time) :
    Except VaultError EvidenceTables := do
  report.validate
  let expectedRefsHash ← checkedDigest report.expectedRefSetSha256
  let _ ← checkedI64 report.durationMillis
  let _ ← checkedI64 report.expectedRefCount
  if !tables.drills.snapshots.contains report.snapshotId ||
      tables.integrityChecks.any fun known =>
        known.report.verificationId == report.verificationId then
    .error .storageFailed
  else
    .ok
      { tables with
        integrityChecks := tables.integrityChecks ++ [{ report, expectedRefsHash, finishedAt }]
        verificationFailures := tables.verificationFailures ++
          if report.outcome = .failed then [report.failed] else [] }

/-- `record_restore_drill` up to its commit, with the time of its row. -/
def recordDrill (report : StoredRestoreDrillReport) (finishedAt : Time) :
    Except VaultError EvidenceTables := do
  let drills ← recordRestoreDrill tables.drills report
  .ok
    { tables with
      drills
      drillFinishedAt := Function.update tables.drillFinishedAt report.drillId finishedAt }

/-- The end of a transaction: a commit that is reported as failed may have taken place. -/
def commit (body : Except VaultError EvidenceTables) (io : IoResult) :
    EvidenceTables × Except VaultError Unit :=
  match body, io with
  | .error e, _ => (tables, .error e)
  | .ok tables', .ok => (tables', .ok ())
  | .ok _, .failedBefore => (tables, .error .storageFailed)
  | .ok tables', .failedAfter => (tables', .error .storageFailed)

def snapshotManifest (snapshotId : Uuid) : Except VaultError BlobRef :=
  match tables.manifests.find? fun row => row.snapshotId == snapshotId with
  | none => .error (.invalidDelivery "snapshot_id")
  | some row =>
    .ok
      { owner := row.blobOwner
        sha256 := row.manifestHash
        mediaType := row.mediaType
        sizeBytes := row.sizeBytes }

/-- The latest passed check of a snapshot. -/
def lastVerifiedAt (snapshotId : Uuid) : Option Time :=
  ((tables.integrityChecks.filter fun row =>
    row.report.snapshotId == snapshotId && row.report.outcome == .passed).map (·.finishedAt)).max?

/-- The latest passed drill of a snapshot. -/
def lastDrilledAt (snapshotId : Uuid) : Option Time :=
  ((tables.drills.restoreDrills.filter fun row =>
    row.report.snapshotId == snapshotId && row.report.outcome == .passed).map fun row =>
      tables.drillFinishedAt row.report.drillId).max?

/-- The sizes a snapshot is grouped by. -/
def bundleSizes (snapshotId : Uuid) : List ℕ :=
  ((tables.artifacts.filter fun artifact =>
    artifact.snapshotId == snapshotId && artifact.kind == .gitBundle).map (·.sizeBytes)).dedup

def candidate (snapshotId : Uuid) (bundleSizeBytes : ℕ) : ScheduleCandidate :=
  { snapshotId
    bundleSizeBytes
    lastVerifiedAt := tables.lastVerifiedAt snapshotId
    lastDrilledAt := tables.lastDrilledAt snapshotId }

def verificationScheduleRecords : List ScheduleCandidate :=
  tables.drills.snapshots.flatMap fun snapshotId =>
    (tables.bundleSizes snapshotId).map (tables.candidate snapshotId)

def planDueFromDatabase (now : ℕ) (policy : VerificationPolicy) : Option SchedulePlan :=
  planDueSnapshots now policy tables.verificationScheduleRecords

end EvidenceTables

structure VerificationExecution where
  verification : VerificationReport
  drill : Option RestoreDrillReport
  deriving DecidableEq

/-- What one attempt is told by everything outside the tables. -/
structure AttemptInput where
  /-- Whether the manifest's row can be read. -/
  manifestRead : Bool
  /-- The local store as the verifier finds it, and as the drill does. -/
  store : LocalBlobStore
  drillStore : LocalBlobStore
  drill : DrillInput
  verificationId : Uuid
  drillId : Uuid
  verificationMillis : ℕ
  drillMillis : ℕ
  verifiedAt : Time
  drilledAt : Time
  verificationCommit : IoResult
  drillCommit : IoResult

/-- The snapshot passed, and so did its drill if there was one. -/
def VerificationExecution.passed (execution : VerificationExecution) : Bool :=
  execution.verification.outcome == .passed && execution.drill.all (·.outcome == .passed)

/-- An attempt that has left the evidence it was to leave. -/
def succeeded : Except VaultError VerificationExecution → Bool
  | .ok execution => execution.passed
  | .error _ => false

structure DurableVerification where
  trustedKeys : List ManifestVerificationKey
  maxChainDepth : ℕ

namespace DurableVerification

variable (cx : Crypto) (service : DurableVerification)

/-- The report on one snapshot. -/
def verify (snapshotId : Uuid) (manifest : BlobRef) (input : AttemptInput) : VerificationReport :=
  let verifier : ArtifactVerifier :=
    { store := input.store
      trustedKeys := service.trustedKeys
      maxChainDepth := service.maxChainDepth }
  verifier.verify cx snapshotId manifest

/-- Only a snapshot that has just passed is drilled. -/
def run (snapshotId : Uuid) (manifest : BlobRef) (executeDrill : Bool) (input : AttemptInput)
    (tables : EvidenceTables) : EvidenceTables × Except VaultError VerificationExecution :=
  let verification := service.verify cx snapshotId manifest input
  let stored := storedVerification verification input.verificationId input.verificationMillis
  match tables.commit (tables.recordVerification stored input.verifiedAt)
      input.verificationCommit with
  | (tables, .error e) => (tables, .error e)
  | (tables, .ok ()) =>
    if executeDrill && verification.outcome == .passed then
      let report := RestoreDrill.run cx input.drillStore verification input.drill input.drillId
        input.drillMillis
      match tables.commit (tables.recordDrill (storedDrill report) input.drilledAt)
          input.drillCommit with
      | (tables, .error e) => (tables, .error e)
      | (tables, .ok ()) => (tables, .ok { verification, drill := some report })
    else (tables, .ok { verification, drill := none })

/-- The body of the loop over a plan. -/
def attempt (snapshotId : Uuid) (executeDrill : Bool) (input : AttemptInput)
    (tables : EvidenceTables) : EvidenceTables × Except VaultError VerificationExecution :=
  if input.manifestRead then
    match tables.snapshotManifest snapshotId with
    | .error e => (tables, .error e)
    | .ok manifest => service.run cx snapshotId manifest executeDrill input tables
  else (tables, .error .storageFailed)

/-- `run_plan`; the process may be gone before it has seen all of the plan. -/
def runPlan (drillSelected : List Uuid) : List Uuid → List AttemptInput → EvidenceTables →
    EvidenceTables × List (Uuid × Except VaultError VerificationExecution)
  | snapshotId :: selected, input :: inputs, tables =>
    let (tables, result) :=
      service.attempt cx snapshotId (drillSelected.contains snapshotId) input tables
    let (tables, results) := runPlan drillSelected selected inputs tables
    (tables, (snapshotId, result) :: results)
  | _, _, tables => (tables, [])

end DurableVerification

section Records

variable {tables tables' : EvidenceTables} {report : StoredVerificationReport}
  {drill : StoredRestoreDrillReport} {finishedAt : Time} {snapshotId : Uuid}

theorem StoredVerificationReport.validate_iff :
    report.validate = .ok () ↔ report.failureConsistent = true ∧ report.manifest.owner = owner ∧
      report.manifest.mediaType = "application/json" := by
  unfold StoredVerificationReport.validate
  split_ifs with h
  · simp only [Bool.or_eq_true, Bool.not_eq_true', bne_iff_ne] at h
    simp only [false_iff]
    rintro ⟨hconsistent, howner, htype⟩
    rw [hconsistent] at h
    simp [howner, htype] at h
  · simp only [Bool.or_eq_true, Bool.not_eq_true', bne_iff_ne, not_or, not_not,
      Bool.not_eq_false] at h
    simp only [true_iff]
    exact ⟨h.1.1, h.1.2, h.2⟩

/-- The row and the fact a record adds, and what it asked for. -/
structure RecordedCheck (tables : EvidenceTables) (report : StoredVerificationReport)
    (finishedAt : Time) (tables' : EvidenceTables) : Prop where
  validated : report.validate = .ok ()
  snapshot : report.snapshotId ∈ tables.drills.snapshots
  fresh : ∀ known ∈ tables.integrityChecks,
    known.report.verificationId ≠ report.verificationId
  result : ∃ expectedRefsHash, tables' =
    { tables with
      integrityChecks := tables.integrityChecks ++ [{ report, expectedRefsHash, finishedAt }]
      verificationFailures := tables.verificationFailures ++
        if report.outcome = .failed then [report.failed] else [] }

/-- The row a drill adds, with its time, and what its record asked for. -/
structure RecordedDrill (tables : EvidenceTables) (drill : StoredRestoreDrillReport)
    (finishedAt : Time) (tables' : EvidenceTables) : Prop where
  insertable : Insertable tables.drills drill
  recorded : Recorded tables.drills drill tables'.drills
  result : tables' =
    { tables with
      drills := tables'.drills
      drillFinishedAt := Function.update tables.drillFinishedAt drill.drillId finishedAt }

/-- The latest of the times that count, once another row is there. -/
theorem latest_concat {Row : Type} (counts : Row → Bool) (time : Row → ℕ) (rows : List Row)
    (row : Row) : (((rows ++ [row]).filter counts).map time).max? =
      if counts row = true then
        some (((rows.filter counts).map time).max?.elim (time row) (max · (time row)))
      else ((rows.filter counts).map time).max? := by
  have hconcat : ∀ times : List ℕ, (times ++ [time row]).max? =
      some (times.max?.elim (time row) (max · (time row))) := by
    intro times
    induction times with
    | nil => rfl
    | cons first times ih =>
      rw [List.cons_append, List.max?_cons, ih, List.max?_cons]
      cases times.max? with
      | none => rfl
      | some latest => simp [Nat.max_assoc]
  rw [List.filter_append]
  split_ifs with hcounts
  · rw [List.filter_cons_of_pos hcounts, List.filter_nil, List.map_append, List.map_singleton]
    exact hconcat _
  · rw [List.filter_cons_of_neg hcounts, List.filter_nil, List.append_nil]

namespace RecordedCheck

theorem drills_eq (h : RecordedCheck tables report finishedAt tables') :
    tables'.drills = tables.drills := by
  obtain ⟨_, hresult⟩ := h.result
  rw [hresult]

theorem lastDrilledAt_eq (h : RecordedCheck tables report finishedAt tables') :
    tables'.lastDrilledAt snapshotId = tables.lastDrilledAt snapshotId := by
  obtain ⟨_, hresult⟩ := h.result
  rw [hresult]
  rfl

/-- Only a passed check of the snapshot itself moves its time. -/
theorem lastVerifiedAt_eq (h : RecordedCheck tables report finishedAt tables') :
    tables'.lastVerifiedAt snapshotId =
      if report.snapshotId = snapshotId ∧ report.outcome = .passed then
        some ((tables.lastVerifiedAt snapshotId).elim finishedAt (max · finishedAt))
      else tables.lastVerifiedAt snapshotId := by
  obtain ⟨_, hresult⟩ := h.result
  rw [hresult]
  unfold EvidenceTables.lastVerifiedAt
  rw [latest_concat]
  simp only [Bool.and_eq_true, beq_iff_eq]

end RecordedCheck

namespace RecordedDrill

theorem lastVerifiedAt_eq (h : RecordedDrill tables drill finishedAt tables') :
    tables'.lastVerifiedAt snapshotId = tables.lastVerifiedAt snapshotId := by
  rw [h.result]
  rfl

theorem lastDrilledAt_eq (h : RecordedDrill tables drill finishedAt tables') :
    tables'.lastDrilledAt snapshotId =
      if drill.snapshotId = snapshotId ∧ drill.outcome = .passed then
        some ((tables.lastDrilledAt snapshotId).elim finishedAt (max · finishedAt))
      else tables.lastDrilledAt snapshotId := by
  obtain ⟨row, hrow, hrows⟩ := h.recorded.row
  rw [h.result]
  unfold EvidenceTables.lastDrilledAt
  simp only [hrows]
  -- the rows that are there keep their times, since the new identifier is none of theirs
  have hkept : ((tables.drills.restoreDrills.filter fun row =>
      row.report.snapshotId == snapshotId && row.report.outcome == .passed).map fun row =>
        Function.update tables.drillFinishedAt drill.drillId finishedAt row.report.drillId) =
      (tables.drills.restoreDrills.filter fun row =>
        row.report.snapshotId == snapshotId && row.report.outcome == .passed).map fun row =>
          tables.drillFinishedAt row.report.drillId := by
    refine List.map_congr_left fun known hknown => ?_
    exact Function.update_of_ne (h.insertable.fresh known (List.mem_of_mem_filter hknown)) _ _
  rw [latest_concat, hkept, hrow, Function.update_self]
  simp only [Bool.and_eq_true, beq_iff_eq]

end RecordedDrill

end Records

section Attempts

variable {cx : Crypto} {service : DurableVerification} {snapshotId : Uuid} {manifest : BlobRef}
  {executeDrill : Bool} {input : AttemptInput} {tables tables' : EvidenceTables}
  {result : Except VaultError VerificationExecution}

/-- Everything an attempt can do: nothing, one check, or one check that passed and one drill. -/
inductive Attempted (cx : Crypto) (service : DurableVerification) (snapshotId : Uuid)
    (executeDrill : Bool) (input : AttemptInput) (tables : EvidenceTables) :
    EvidenceTables → Except VaultError VerificationExecution → Prop
  | untouched (e : VaultError) :
    Attempted cx service snapshotId executeDrill input tables tables (.error e)
  | checked {manifest : BlobRef} {tables' : EvidenceTables}
      {result : Except VaultError VerificationExecution}
      (known : tables.snapshotManifest snapshotId = .ok manifest)
      (recorded : RecordedCheck tables (storedVerification
        (service.verify cx snapshotId manifest input) input.verificationId
        input.verificationMillis) input.verifiedAt tables')
      (ended : (∃ e, result = .error e) ∨
        (executeDrill = false ∨ (service.verify cx snapshotId manifest input).outcome = .failed) ∧
          result = .ok { verification := service.verify cx snapshotId manifest input, drill := none }) :
    Attempted cx service snapshotId executeDrill input tables tables' result
  | drilled {manifest : BlobRef} {middle tables' : EvidenceTables}
      {result : Except VaultError VerificationExecution}
      (known : tables.snapshotManifest snapshotId = .ok manifest)
      (recorded : RecordedCheck tables (storedVerification
        (service.verify cx snapshotId manifest input) input.verificationId
        input.verificationMillis) input.verifiedAt middle)
      (asked : executeDrill = true)
      (passed : (service.verify cx snapshotId manifest input).outcome = .passed)
      (report : RestoreDrillReport)
      (drill : report = RestoreDrill.run cx input.drillStore
        (service.verify cx snapshotId manifest input) input.drill input.drillId input.drillMillis)
      (drilled : RecordedDrill middle (storedDrill report) input.drilledAt tables')
      (ended : (∃ e, result = .error e) ∨ result = .ok
        { verification := service.verify cx snapshotId manifest input, drill := some report }) :
    Attempted cx service snapshotId executeDrill input tables tables' result

theorem verify_snapshotId :
    (service.verify cx snapshotId manifest input).snapshotId = snapshotId := by
  unfold DurableVerification.verify ArtifactVerifier.verify
  simp only
  split_ifs
  · rfl
  · split
    · rfl
    · split
      · rfl
      · split <;> rfl

theorem verify_manifest :
    (service.verify cx snapshotId manifest input).manifest = manifest := by
  unfold DurableVerification.verify ArtifactVerifier.verify
  simp only
  split_ifs
  · rfl
  · split
    · rfl
    · split
      · rfl
      · split <;> rfl

/-- The times that may replace those on record: no older ones, and none up to `bound` is new. -/
def Later (bound : ℕ) (old new : Option Time) : Prop :=
  new = old ∨ ∃ time, new = some time ∧ bound < time ∧ ∀ before, old = some before → before ≤ time

theorem later_max {bound time : ℕ} (old : Option Time) (h : bound < time) :
    Later bound old (some (old.elim time (max · time))) := by
  cases old with
  | none => exact Or.inr ⟨time, rfl, h, fun before hbefore => nomatch hbefore⟩
  | some before =>
    refine Or.inr ⟨max before time, rfl, lt_max_of_lt_right h, fun before' hbefore => ?_⟩
    obtain rfl : before = before' := Option.some.inj hbefore
    exact le_max_left _ _

/-- Another snapshot is not touched. -/
theorem Attempted.others (h : Attempted cx service snapshotId executeDrill input tables tables' result)
    {other : Uuid} (hother : other ≠ snapshotId) :
    tables'.lastVerifiedAt other = tables.lastVerifiedAt other ∧
      tables'.lastDrilledAt other = tables.lastDrilledAt other := by
  have hid : ∀ {manifest : BlobRef},
      ¬((storedVerification (service.verify cx snapshotId manifest input) input.verificationId
          input.verificationMillis).snapshotId = other ∧
        (storedVerification (service.verify cx snapshotId manifest input) input.verificationId
          input.verificationMillis).outcome = .passed) := by
    rintro manifest ⟨hsame, -⟩
    exact hother (hsame.symm.trans verify_snapshotId)
  cases h with
  | untouched e => exact ⟨rfl, rfl⟩
  | checked known recorded ended =>
    have hverified := @RecordedCheck.lastVerifiedAt_eq _ _ _ _ other recorded
    rw [if_neg hid] at hverified
    exact ⟨hverified, recorded.lastDrilledAt_eq⟩
  | drilled known recorded asked passed report drill drilled ended =>
    have hverified := @RecordedCheck.lastVerifiedAt_eq _ _ _ _ other recorded
    rw [if_neg hid] at hverified
    have hdrilled := @RecordedDrill.lastDrilledAt_eq _ _ _ _ other drilled
    have hreport : (storedDrill report).snapshotId = snapshotId := by
      rw [drill]
      exact verify_snapshotId
    rw [if_neg fun hcase => hother (hcase.1.symm.trans hreport)] at hdrilled
    exact ⟨drilled.lastVerifiedAt_eq.trans hverified, hdrilled.trans recorded.lastDrilledAt_eq⟩

/-- Neither time of the snapshot itself gets older. -/
theorem Attempted.later (h : Attempted cx service snapshotId executeDrill input tables tables' result)
    {bound : ℕ} (hverified : bound < input.verifiedAt) (hdrilled : bound < input.drilledAt) :
    Later bound (tables.lastVerifiedAt snapshotId) (tables'.lastVerifiedAt snapshotId) ∧
      Later bound (tables.lastDrilledAt snapshotId) (tables'.lastDrilledAt snapshotId) := by
  cases h with
  | untouched e => exact ⟨Or.inl rfl, Or.inl rfl⟩
  | checked known recorded ended =>
    rw [recorded.lastVerifiedAt_eq, recorded.lastDrilledAt_eq]
    refine ⟨?_, Or.inl rfl⟩
    split_ifs
    · exact later_max _ hverified
    · exact Or.inl rfl
  | drilled known recorded asked passed report drill drilled ended =>
    rw [drilled.lastVerifiedAt_eq, drilled.lastDrilledAt_eq, recorded.lastVerifiedAt_eq,
      recorded.lastDrilledAt_eq]
    constructor
    · split_ifs
      · exact later_max _ hverified
      · exact Or.inl rfl
    · split_ifs
      · exact later_max _ hdrilled
      · exact Or.inl rfl

end Attempts

end RatatoskrVault
