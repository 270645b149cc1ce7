import RatatoskrVault.Retention.System
import RatatoskrVault.Verification.Drill

/-! Drill reports and their rows: `RestoreDrill::run` reports what a drill has shown, and
`record_restore_drill` stores the report with the fact that alerts when it failed. -/
namespace RatatoskrVault

/-- Where the bytes of a drill came from. -/
inductive RestoreSource
  | localStore
  | replica (replicaTargetId : Uuid)
  deriving DecidableEq

structure RestoreDrillReport where
  drillId : Uuid
  snapshotId : Uuid
  manifest : BlobRef
  source : RestoreSource
  durationMillis : ℕ
  outcome : ReportOutcome
  failure : Option VerificationFailure
  stages : List StageReport
  expectedRefCount : ℕ
  observedRefCount : ℕ
  expectedRefSetSha256 : String
  observedRefSetSha256 : String
  networkDisabled : Bool
  liveMirrorAccessed : Bool
  lfsRestored : Option Bool
  expectedLfsObjectCount : Option ℕ
  observedLfsObjectCount : Option ℕ
  expectedLfsBytes : Option ℕ
  observedLfsBytes : Option ℕ
  expectedLfsAggregateSha256 : Option String
  observedLfsAggregateSha256 : Option String
  deriving DecidableEq

structure StoredRestoreDrillReport where
  drillId : Uuid
  snapshotId : Uuid
  manifest : BlobRef
  source : RestoreSource
  outcome : ReportOutcome
  failureClass : Option String
  refsMatched : Bool
  durationMillis : ℕ
  /-- A JSON array. -/
  stages : List StageReport
  expectedRefCount : ℕ
  observedRefCount : ℕ
  expectedRefSetSha256 : String
  observedRefSetSha256 : String
  lfsRestored : Option Bool
  expectedLfsObjectCount : Option ℕ
  observedLfsObjectCount : Option ℕ
  expectedLfsBytes : Option ℕ
  observedLfsBytes : Option ℕ
  expectedLfsAggregateSha256 : Option String
  observedLfsAggregateSha256 : Option String
  networkDisabled : Bool
  liveMirrorAccessed : Bool
  deriving DecidableEq

/-- A row of `restore_drills`; its digests are stored as bytes. -/
structure RestoreDrillRow where
  report : StoredRestoreDrillReport
  expectedRefsHash : Digest
  observedRefsHash : Digest
  expectedLfsAggregateHash : Option Digest
  observedLfsAggregateHash : Option Digest
  deriving DecidableEq

/-- A `vault.restore.failed.v1` row of the outbox. -/
structure RestoreFailedEvent where
  drillId : Uuid
  snapshotId : Uuid
  manifestSha256 : Digest
  failureClass : Option String
  deriving DecidableEq

/-- The tables a drill is recorded in, and the rows they refer to. -/
structure DrillTables where
  snapshots : List Uuid
  replicaTargets : List Uuid
  restoreDrills : List RestoreDrillRow
  outbox : List RestoreFailedEvent
  deriving DecidableEq

/-- The replica target of a report is a known one. -/
def DrillTables.holds (tables : DrillTables) : RestoreSource → Bool
  | .localStore => true
  | .replica replicaTargetId => tables.replicaTargets.contains replicaTargetId

def VerificationFailure.code : VerificationFailure → String
  | .hashMismatch => "hash_mismatch"
  | .manifestInvalid => "manifest_invalid"
  | .bundleInvalid => "bundle_invalid"
  | .isolationFailed => "isolation_failed"
  | .refMismatch => "ref_mismatch"
  | .replicaUnavailable => "replica_unavailable"
  | .lfsInvalid => "lfs_invalid"

def hexValue? (c : Char) : Option ℕ :=
  if '0' ≤ c ∧ c ≤ '9' then some (c.toNat - 48)
  else if 'a' ≤ c ∧ c ≤ 'f' then some (c.toNat - 87)
  else none

/-- `decode_digest`: exactly 64 lowercase hexadecimal digits. -/
def decodeDigest (hex : String) : Option Digest :=
  if hex.toList.length = 64 then
    (hex.toList.mapM hexValue?).map fun values =>
      BitVec.ofNat 256 (values.foldl (fun n value => 16 * n + value) 0)
  else none

namespace RestoreDrill

def buildDrillReport (cx : Crypto) (drillId : Uuid) (verification : VerificationReport)
    (source : RestoreSource) (durationMillis : ℕ) (result : DrillResult) : RestoreDrillReport :=
  let (stages, observedRefs, restoredLfs, failure) :=
    match result with
    | .ok (stages, refs, lfs) => (stages, refs, lfs, none)
    | .error e => (e.stages, e.observed, e.restoredLfs, some e.failure)
  { drillId
    snapshotId := verification.snapshotId
    manifest := verification.manifest
    source
    durationMillis
    outcome := if failure.isNone then .passed else .failed
    failure
    stages
    expectedRefCount := verification.expectedRefCount
    observedRefCount := observedRefs.length
    expectedRefSetSha256 := verification.expectedRefSetSha256
    observedRefSetSha256 := hexDigest (canonicalRefDigest cx observedRefs)
    networkDisabled := true
    liveMirrorAccessed := false
    lfsRestored := verification.expectedLfsObjectCount.map fun expected =>
      restoredLfs.any fun value => value.objectCount == expected
    expectedLfsObjectCount := verification.expectedLfsObjectCount
    observedLfsObjectCount := restoredLfs.map (·.objectCount)
    expectedLfsBytes := verification.expectedLfsBytes
    observedLfsBytes := restoredLfs.map (·.totalBytes)
    expectedLfsAggregateSha256 := verification.expectedLfsAggregateSha256
    observedLfsAggregateSha256 := restoredLfs.map fun value => hexDigest value.aggregateSha256 }

/-- One drill from the local store. -/
def run (cx : Crypto) (store : LocalBlobStore) (verification : VerificationReport)
    (input : DrillInput) (drillId : Uuid) (durationMillis : ℕ) : RestoreDrillReport :=
  buildDrillReport cx drillId verification .localStore durationMillis
    (execute cx store verification input)

end RestoreDrill

/-- `u64::try_from(value).unwrap_or(u64::MAX)`. -/
def saturateU64 (value : ℕ) : ℕ := min value u64Max

def storedDrill (report : RestoreDrillReport) : StoredRestoreDrillReport :=
  { drillId := report.drillId
    snapshotId := report.snapshotId
    manifest := report.manifest
    source := report.source
    outcome := report.outcome
    failureClass := report.failure.map (·.code)
    refsMatched := report.expectedRefCount == report.observedRefCount &&
      report.expectedRefSetSha256 == report.observedRefSetSha256
    durationMillis := saturateU64 report.durationMillis
    stages := report.stages
    expectedRefCount := saturateU64 report.expectedRefCount
    observedRefCount := saturateU64 report.observedRefCount
    expectedRefSetSha256 := report.expectedRefSetSha256
    observedRefSetSha256 := report.observedRefSetSha256
    lfsRestored := report.lfsRestored
    expectedLfsObjectCount := report.expectedLfsObjectCount.map saturateU64
    observedLfsObjectCount := report.observedLfsObjectCount.map saturateU64
    expectedLfsBytes := report.expectedLfsBytes
    observedLfsBytes := report.observedLfsBytes
    expectedLfsAggregateSha256 := report.expectedLfsAggregateSha256
    observedLfsAggregateSha256 := report.observedLfsAggregateSha256
    networkDisabled := report.networkDisabled
    liveMirrorAccessed := report.liveMirrorAccessed }

namespace StoredRestoreDrillReport

variable (report : StoredRestoreDrillReport)

def lfsEvidenceConsistent : Bool :=
  let valuesPresent := report.lfsRestored.isSome && report.expectedLfsObjectCount.isSome &&
    report.observedLfsObjectCount.isSome && report.expectedLfsBytes.isSome &&
    report.observedLfsBytes.isSome && report.expectedLfsAggregateSha256.isSome &&
    report.observedLfsAggregateSha256.isSome
  let valuesAbsent := report.lfsRestored.isNone && report.expectedLfsObjectCount.isNone &&
    report.observedLfsObjectCount.isNone && report.expectedLfsBytes.isNone &&
    report.observedLfsBytes.isNone && report.expectedLfsAggregateSha256.isNone &&
    report.observedLfsAggregateSha256.isNone
  valuesPresent || valuesAbsent

def failureConsistent : Bool :=
  match report.outcome with
  | .passed => report.failureClass.isNone && report.refsMatched
  | .failed => report.failureClass.any fun value => !value.isEmpty

/-- `validate_report`. -/
def validate : Except VaultError Unit :=
  if !report.failureConsistent || report.manifest.owner != owner ||
      report.manifest.mediaType != "application/json" || !report.networkDisabled ||
      report.liveMirrorAccessed || !report.lfsEvidenceConsistent then
    .error (.invalidDelivery "restore_drill_report")
  else .ok ()

end StoredRestoreDrillReport

def checkedI64 (value : ℕ) : Except VaultError ℕ :=
  if value ≤ i64Max then .ok value else .error (.invalidDelivery "restore_drill_report")

def checkedDigest (hex : String) : Except VaultError Digest :=
  match decodeDigest hex with
  | some digest => .ok digest
  | none => .error (.invalidDelivery "restore_drill_report")

/-- `transpose` of an optional conversion. -/
def checkedOption {α β : Type} (check : α → Except VaultError β) :
    Option α → Except VaultError (Option β)
  | none => .ok none
  | some value => (check value).map some

/-- `record_restore_drill`: one row, and one fact for the alert when the drill failed. -/
def recordRestoreDrill (tables : DrillTables) (report : StoredRestoreDrillReport) :
    Except VaultError DrillTables := do
  report.validate
  let expectedRefsHash ← checkedDigest report.expectedRefSetSha256
  let observedRefsHash ← checkedDigest report.observedRefSetSha256
  let _ ← checkedI64 report.durationMillis
  let _ ← checkedI64 report.expectedRefCount
  let _ ← checkedI64 report.observedRefCount
  let _ ← checkedOption checkedI64 report.expectedLfsObjectCount
  let _ ← checkedOption checkedI64 report.observedLfsObjectCount
  let _ ← checkedOption checkedI64 report.expectedLfsBytes
  let _ ← checkedOption checkedI64 report.observedLfsBytes
  let expectedLfsAggregateHash ← checkedOption checkedDigest report.expectedLfsAggregateSha256
  let observedLfsAggregateHash ← checkedOption checkedDigest report.observedLfsAggregateSha256
  let row : RestoreDrillRow :=
    { report, expectedRefsHash, observedRefsHash, expectedLfsAggregateHash
      observedLfsAggregateHash }
  if !tables.snapshots.contains report.snapshotId || !tables.holds report.source ||
      tables.restoreDrills.any fun known => known.report.drillId == report.drillId then
    .error .storageFailed
  else
    .ok
      { tables with
        restoreDrills := tables.restoreDrills ++ [row]
        outbox := tables.outbox ++
          if report.outcome = .failed then
            [{ drillId := report.drillId
               snapshotId := report.snapshotId
               manifestSha256 := report.manifest.sha256
               failureClass := report.failureClass }]
          else [] }

section

theorem hexValue?_hexDigit {value : ℕ} (h : value < 16) :
    hexValue? (hexDigit value) = some value := by
  have hall : ∀ value < 16, hexValue? (hexDigit value) = some value := by decide
  exact hall value h

/-- What a digest is printed as is read back. -/
theorem decodeDigest_hexDigest (digest : Digest) :
    (decodeDigest (hexDigest digest)).isSome = true := by
  have hvalues : ∀ (positions : List ℕ),
      (positions.map fun i => hexDigit (digest.toNat / 16 ^ (63 - i) % 16)).mapM hexValue?
        = some (positions.map fun i => digest.toNat / 16 ^ (63 - i) % 16) := by
    intro positions
    induction positions with
    | nil => rfl
    | cons i rest ih =>
      have hvalue : hexValue? (hexDigit (digest.toNat / 16 ^ (63 - i) % 16))
          = some (digest.toNat / 16 ^ (63 - i) % 16) := hexValue?_hexDigit (Nat.mod_lt _ (by decide))
      rw [List.map_cons, List.mapM_cons, hvalue, ih]
      rfl
  unfold decodeDigest
  rw [if_pos (hexDigest_length digest)]
  have hdigits : (hexDigest digest).toList
      = (List.range 64).map fun i => hexDigit (digest.toNat / 16 ^ (63 - i) % 16) := by
    simp only [hexDigest, String.toList_ofList]
  rw [hdigits, hvalues]
  rfl

theorem saturateU64_le {value : ℕ} : saturateU64 value ≤ i64Max ↔ value ≤ i64Max := by
  unfold saturateU64 u64Max i64Max
  omega

/-- Everything the record asks of a report, and of the tables. -/
structure Insertable (tables : DrillTables) (report : StoredRestoreDrillReport) : Prop where
  validated : report.validate = .ok ()
  expectedRefs : (decodeDigest report.expectedRefSetSha256).isSome = true
  observedRefs : (decodeDigest report.observedRefSetSha256).isSome = true
  duration : report.durationMillis ≤ i64Max
  expectedRefCount : report.expectedRefCount ≤ i64Max
  observedRefCount : report.observedRefCount ≤ i64Max
  counts : ∀ count ∈ [report.expectedLfsObjectCount, report.observedLfsObjectCount,
    report.expectedLfsBytes, report.observedLfsBytes], ∀ n, count = some n → n ≤ i64Max
  aggregates : ∀ aggregate ∈ [report.expectedLfsAggregateSha256,
    report.observedLfsAggregateSha256], ∀ hex, aggregate = some hex →
      (decodeDigest hex).isSome = true
  snapshot : report.snapshotId ∈ tables.snapshots
  source : tables.holds report.source = true
  fresh : ∀ known ∈ tables.restoreDrills, known.report.drillId ≠ report.drillId

/-- The row and the fact a record adds. -/
structure Recorded (tables : DrillTables) (report : StoredRestoreDrillReport)
    (tables' : DrillTables) : Prop where
  row : ∃ row : RestoreDrillRow, row.report = report ∧
    tables'.restoreDrills = tables.restoreDrills ++ [row]
  outbox : tables'.outbox = tables.outbox ++
    if report.outcome = .failed then
      [{ drillId := report.drillId
         snapshotId := report.snapshotId
         manifestSha256 := report.manifest.sha256
         failureClass := report.failureClass }]
    else []
  others : tables'.snapshots = tables.snapshots ∧ tables'.replicaTargets = tables.replicaTargets

variable {tables tables' : DrillTables} {report : StoredRestoreDrillReport}

theorem checkedI64_ok {value n : ℕ} (h : checkedI64 value = .ok n) : value ≤ i64Max := by
  unfold checkedI64 at h
  split_ifs at h with hle
  exact hle

theorem checkedDigest_ok {hex : String} {digest : Digest} (h : checkedDigest hex = .ok digest) :
    (decodeDigest hex).isSome = true := by
  unfold checkedDigest at h
  split at h
  · rename_i hsome
    rw [hsome]
    rfl
  · cases h

theorem checkedOption_ok {α β : Type} {check : α → Except VaultError β} {value : Option α}
    {result : Option β} (h : checkedOption check value = .ok result) (x : α)
    (hx : value = some x) : ∃ y, check x = .ok y := by
  rw [hx] at h
  simp only [checkedOption] at h
  cases hcheck : check x with
  | error e =>
    rw [hcheck] at h
    cases h
  | ok y => exact ⟨y, rfl⟩

theorem exists_checkedDigest {hex : String} (h : (decodeDigest hex).isSome = true) :
    ∃ digest, checkedDigest hex = .ok digest := by
  obtain ⟨digest, hdigest⟩ := Option.isSome_iff_exists.mp h
  refine ⟨digest, ?_⟩
  unfold checkedDigest
  rw [hdigest]

theorem exists_checkedOption {α β : Type} {check : α → Except VaultError β} {value : Option α}
    (h : ∀ x, value = some x → ∃ y, check x = .ok y) :
    ∃ result, checkedOption check value = .ok result := by
  cases value with
  | none => exact ⟨none, rfl⟩
  | some x =>
    obtain ⟨y, hy⟩ := h x rfl
    refine ⟨some y, ?_⟩
    simp only [checkedOption, hy]
    rfl

theorem checkedI64_of_le {value : ℕ} (h : value ≤ i64Max) : checkedI64 value = .ok value := by
  unfold checkedI64
  rw [if_pos h]

/-- What is recorded has been asked for everything. -/
theorem insertable_of_record (h : recordRestoreDrill tables report = .ok tables') :
    Insertable tables report ∧ Recorded tables report tables' := by
  unfold recordRestoreDrill at h
  simp only [bind, Except.bind] at h
  split at h
  · cases h
  rename_i hvalid
  split at h
  · cases h
  rename_i hexpected
  split at h
  · cases h
  rename_i hobserved
  split at h
  · cases h
  rename_i hduration
  split at h
  · cases h
  rename_i hexpectedCount
  split at h
  · cases h
  rename_i hobservedCount
  split at h
  · cases h
  rename_i hobjects
  split at h
  · cases h
  rename_i hobservedObjects
  split at h
  · cases h
  rename_i hbytes
  split at h
  · cases h
  rename_i hobservedBytes
  split at h
  · cases h
  rename_i haggregate
  split at h
  · cases h
  rename_i hobservedAggregate
  split at h
  · cases h
  rename_i hknown
  cases h
  have hcount : ∀ {count : Option ℕ} {result}, checkedOption checkedI64 count = .ok result →
      ∀ n, count = some n → n ≤ i64Max := by
    intro count result hok n hn
    obtain ⟨_, hn'⟩ := checkedOption_ok hok n hn
    exact checkedI64_ok hn'
  have hdigest : ∀ {aggregate : Option String} {result},
      checkedOption checkedDigest aggregate = .ok result →
      ∀ hex, aggregate = some hex → (decodeDigest hex).isSome = true := by
    intro aggregate result hok hex hhex
    obtain ⟨_, hhex'⟩ := checkedOption_ok hok hex hhex
    exact checkedDigest_ok hhex'
  simp only [Bool.or_eq_true, Bool.not_eq_true', not_or, Bool.not_eq_false,
    List.contains_iff_mem, List.any_eq_true, beq_iff_eq, not_exists, not_and] at hknown
  refine ⟨⟨hvalid, checkedDigest_ok hexpected, checkedDigest_ok hobserved, checkedI64_ok hduration,
    checkedI64_ok hexpectedCount, checkedI64_ok hobservedCount, ?_, ?_, hknown.1.1,
    hknown.1.2, hknown.2⟩,
    ⟨⟨_, rfl, rfl⟩, rfl, rfl, rfl⟩⟩
  · simp only [List.forall_mem_cons]
    exact ⟨hcount hobjects, hcount hobservedObjects, hcount hbytes, hcount hobservedBytes,
      fun _ hmem => absurd hmem List.not_mem_nil⟩
  · simp only [List.forall_mem_cons]
    exact ⟨hdigest haggregate, hdigest hobservedAggregate,
      fun _ hmem => absurd hmem List.not_mem_nil⟩

theorem record_of_insertable (h : Insertable tables report) :
    ∃ tables', recordRestoreDrill tables report = .ok tables' := by
  obtain ⟨_, hexpected⟩ := exists_checkedDigest h.expectedRefs
  obtain ⟨_, hobserved⟩ := exists_checkedDigest h.observedRefs
  have hcount : ∀ count ∈ [report.expectedLfsObjectCount, report.observedLfsObjectCount,
      report.expectedLfsBytes, report.observedLfsBytes],
      ∃ result, checkedOption checkedI64 count = .ok result := fun count hmem =>
    exists_checkedOption fun n hn => ⟨n, checkedI64_of_le (h.counts count hmem n hn)⟩
  have hdigest : ∀ aggregate ∈ [report.expectedLfsAggregateSha256,
      report.observedLfsAggregateSha256],
      ∃ result, checkedOption checkedDigest aggregate = .ok result := fun aggregate hmem =>
    exists_checkedOption fun hex hhex => exists_checkedDigest (h.aggregates aggregate hmem hex hhex)
  obtain ⟨_, hobjects⟩ := hcount report.expectedLfsObjectCount (by simp)
  obtain ⟨_, hobservedObjects⟩ := hcount report.observedLfsObjectCount (by simp)
  obtain ⟨_, hbytes⟩ := hcount report.expectedLfsBytes (by simp)
  obtain ⟨_, hobservedBytes⟩ := hcount report.observedLfsBytes (by simp)
  obtain ⟨_, haggregate⟩ := hdigest report.expectedLfsAggregateSha256 (by simp)
  obtain ⟨_, hobservedAggregate⟩ := hdigest report.observedLfsAggregateSha256 (by simp)
  unfold recordRestoreDrill
  simp only [bind, Except.bind, h.validated, hexpected, hobserved, checkedI64_of_le h.duration,
    checkedI64_of_le h.expectedRefCount, checkedI64_of_le h.observedRefCount, hobjects,
    hobservedObjects, hbytes, hobservedBytes, haggregate, hobservedAggregate]
  rw [if_neg]
  · exact ⟨_, rfl⟩
  · simp only [Bool.or_eq_true, Bool.not_eq_true', not_or, Bool.not_eq_false,
      List.contains_iff_mem, List.any_eq_true, beq_iff_eq, not_exists, not_and]
    exact ⟨⟨h.snapshot, h.source⟩, h.fresh⟩

end

end RatatoskrVault
