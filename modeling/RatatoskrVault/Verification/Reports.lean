import RatatoskrVault.Verification.Durable

/-! Which drill reports the database takes: the report is built from what the drill has restored,
the validator asks for what the verification has expected. -/
namespace RatatoskrVault

namespace RestoreDrill

section

variable (cx : Crypto) (store : LocalBlobStore) (verification : VerificationReport)
  (input : DrillInput)

/-- No LFS object is expected, and none is restored. -/
def WithoutLfs : Prop :=
  verification.expectedLfsObjectCount = none ∧ verification.expectedLfsBytes = none ∧
    verification.expectedLfsAggregateSha256 = none ∧
    ∀ evidence, Restores cx store verification input evidence → evidence.lfs = none

/-- LFS objects are expected, and the drill goes all the way and restores some. -/
structure WithLfs : Prop where
  count : ∃ n, verification.expectedLfsObjectCount = some n ∧ n ≤ i64Max
  bytes : ∃ n, verification.expectedLfsBytes = some n ∧ n ≤ i64Max
  aggregate : ∃ hex, verification.expectedLfsAggregateSha256 = some hex ∧
    (decodeDigest hex).isSome = true
  restored : ∃ evidence lfs, Restores cx store verification input evidence ∧
    evidence.lfs = some lfs ∧ lfs.objects.length ≤ i64Max ∧ lfs.totalBytes ≤ i64Max

/-- When the report of a drill can be stored. -/
structure Recordable (tables : DrillTables) (durationMillis : ℕ) : Prop where
  snapshot : verification.snapshotId ∈ tables.snapshots
  manifest : verification.manifest.owner = owner ∧
    verification.manifest.mediaType = "application/json"
  refs : verification.expectedRefCount ≤ i64Max ∧
    (decodeDigest verification.expectedRefSetSha256).isSome = true
  duration : durationMillis ≤ i64Max
  /-- The report expects the refs the manifest lists, where the drill restores those. -/
  matched : ∀ evidence, Restores cx store verification input evidence →
    verification.expectedRefCount = evidence.refs.length ∧
      verification.expectedRefSetSha256 = hexDigest (canonicalRefDigest cx evidence.refs)
  lfs : WithoutLfs cx store verification input ∨ WithLfs cx store verification input

end

/-- The report is accepted and recorded once, with its fact; if it passed, its refs match. -/
structure Stored (tables : DrillTables) (report : RestoreDrillReport) : Prop where
  accepted : (storedDrill report).validate = .ok ()
  recorded : ∃ tables', recordRestoreDrill tables (storedDrill report) = .ok tables' ∧
    Recorded tables (storedDrill report) tables'
  matched : report.outcome = .passed → (storedDrill report).refsMatched = true

section

variable {cx : Crypto} {store : LocalBlobStore} {verification : VerificationReport}
  {input : DrillInput} {tables : DrillTables} {drillId : Uuid} {durationMillis : ℕ}
  {evidence evidence' : SnapshotManifest} {stages : List StageReport} {e : DrillFailure}

theorem validate_iff {report : StoredRestoreDrillReport} :
    report.validate = .ok () ↔
      report.failureConsistent = true ∧ report.manifest.owner = owner ∧
        report.manifest.mediaType = "application/json" ∧ report.networkDisabled = true ∧
        report.liveMirrorAccessed = false ∧ report.lfsEvidenceConsistent = true := by
  unfold StoredRestoreDrillReport.validate
  split_ifs with h
  · simp only [false_iff]
    simp only [Bool.or_eq_true, Bool.not_eq_true', bne_iff_ne, ne_eq] at h
    rintro ⟨h₁, h₂, h₃, h₄, h₅, h₆⟩
    simp [h₁, h₂, h₃, h₄, h₅, h₆] at h
  · simp only [true_iff]
    simp only [Bool.or_eq_true, Bool.not_eq_true', bne_iff_ne, ne_eq, not_or, Bool.not_eq_false,
      not_not, Bool.not_eq_true] at h
    exact ⟨h.1.1.1.1.1, h.1.1.1.1.2, h.1.1.1.2, h.1.1.2, h.1.2, h.2⟩

/-- A report is stored exactly when it is insertable. -/
theorem stored_iff_insertable {report : RestoreDrillReport} :
    Stored tables report ↔ Insertable tables (storedDrill report) := by
  constructor
  · intro h
    obtain ⟨tables', hrecord, -⟩ := h.recorded
    exact (insertable_of_record hrecord).1
  · intro h
    obtain ⟨tables', hrecord⟩ := record_of_insertable h
    refine ⟨h.validated, ⟨tables', hrecord, (insertable_of_record hrecord).2⟩, fun hpassed => ?_⟩
    have hconsistent := (validate_iff.mp h.validated).1
    unfold StoredRestoreDrillReport.failureConsistent at hconsistent
    have hstored : (storedDrill report).outcome = .passed := hpassed
    rw [hstored] at hconsistent
    simp only [Bool.and_eq_true] at hconsistent
    exact hconsistent.2

theorem restores_unique (h : Restores cx store verification input evidence)
    (h' : Restores cx store verification input evidence') : evidence = evidence' := by
  have hsame := h.manifest.symm.trans h'.manifest
  exact Except.ok.inj hsame

/-- The seven LFS fields agree exactly when the verification has expected what the drill has
restored. -/
theorem lfsEvidenceConsistent_iff {restored : Option RestoredLfs} {report : StoredRestoreDrillReport}
    (hrestored : report.lfsRestored = verification.expectedLfsObjectCount.map fun expected =>
      restored.any fun value => value.objectCount == expected)
    (hcount : report.expectedLfsObjectCount
      = verification.expectedLfsObjectCount.map saturateU64)
    (hobserved : report.observedLfsObjectCount = (restored.map (·.objectCount)).map saturateU64)
    (hbytes : report.expectedLfsBytes = verification.expectedLfsBytes)
    (hobservedBytes : report.observedLfsBytes = restored.map (·.totalBytes))
    (haggregate : report.expectedLfsAggregateSha256 = verification.expectedLfsAggregateSha256)
    (hobservedAggregate : report.observedLfsAggregateSha256
      = restored.map fun value => hexDigest value.aggregateSha256) :
    report.lfsEvidenceConsistent = true ↔
      (verification.expectedLfsObjectCount.isSome = true ∧
        verification.expectedLfsBytes.isSome = true ∧
        verification.expectedLfsAggregateSha256.isSome = true ∧ restored.isSome = true) ∨
      verification.expectedLfsObjectCount = none ∧ verification.expectedLfsBytes = none ∧
        verification.expectedLfsAggregateSha256 = none ∧ restored = none := by
  unfold StoredRestoreDrillReport.lfsEvidenceConsistent
  rw [hrestored, hcount, hobserved, hbytes, hobservedBytes, haggregate, hobservedAggregate]
  cases verification.expectedLfsObjectCount <;> cases verification.expectedLfsBytes <;>
    cases verification.expectedLfsAggregateSha256 <;> cases restored <;> simp

/-- The end of a drill as its report shows it: the refs seen, and the LFS restored. -/
def seen : DrillResult → List RefEvidence × Option RestoredLfs
  | .ok (_, observed, restored) => (observed, restored)
  | .error e => (e.observed, e.restoredLfs)

/-- The LFS expected and the LFS restored are both there, or neither is. -/
def SameLfs (verification : VerificationReport) (restored : Option RestoredLfs) : Prop :=
  (verification.expectedLfsObjectCount = none ∧ verification.expectedLfsBytes = none ∧
    verification.expectedLfsAggregateSha256 = none ∧ restored = none) ∨
  (∃ n, verification.expectedLfsObjectCount = some n ∧ n ≤ i64Max) ∧
    (∃ n, verification.expectedLfsBytes = some n ∧ n ≤ i64Max) ∧
    (∃ hex, verification.expectedLfsAggregateSha256 = some hex ∧
      (decodeDigest hex).isSome = true) ∧
    ∃ lfs, restored = some lfs ∧ lfs.objectCount ≤ i64Max ∧ lfs.totalBytes ≤ i64Max

/-- What the database takes of a report, by what the drill has ended with. -/
structure Wanted (cx : Crypto) (tables : DrillTables) (verification : VerificationReport)
    (durationMillis : ℕ) (result : DrillResult) : Prop where
  snapshot : verification.snapshotId ∈ tables.snapshots
  manifest : verification.manifest.owner = owner ∧
    verification.manifest.mediaType = "application/json"
  refs : verification.expectedRefCount ≤ i64Max ∧
    (decodeDigest verification.expectedRefSetSha256).isSome = true
  duration : durationMillis ≤ i64Max
  matched : result.isOk = true → verification.expectedRefCount = (seen result).1.length ∧
    verification.expectedRefSetSha256 = hexDigest (canonicalRefDigest cx (seen result).1)
  lfs : SameLfs verification (seen result).2

variable {result : DrillResult}

theorem failureConsistent_iff :
    (storedDrill (buildDrillReport cx drillId verification .localStore durationMillis
        result)).failureConsistent = true ↔
      (result.isOk = true → verification.expectedRefCount = (seen result).1.length ∧
        verification.expectedRefSetSha256 = hexDigest (canonicalRefDigest cx (seen result).1)) := by
  cases result with
  | error e =>
    have hcode : e.failure.code.isEmpty = false := by cases e.failure <;> rfl
    simp [StoredRestoreDrillReport.failureConsistent, storedDrill, buildDrillReport, hcode,
      Except.isOk, Except.toBool]
  | ok value =>
    obtain ⟨stages, observed, restored⟩ := value
    simp [StoredRestoreDrillReport.failureConsistent, storedDrill, buildDrillReport, seen,
      Except.isOk, Except.toBool]

theorem insertable_iff_wanted
    (hfresh : ∀ known ∈ tables.restoreDrills, known.report.drillId ≠ drillId)
    (hlines : (seen result).1.length ≤ i64Max) :
    Insertable tables (storedDrill (buildDrillReport cx drillId verification .localStore
        durationMillis result)) ↔ Wanted cx tables verification durationMillis result := by
  let report := storedDrill (buildDrillReport cx drillId verification .localStore durationMillis
    result)
  have hobserved : report.observedLfsObjectCount
        = ((seen result).2.map (·.objectCount)).map saturateU64 ∧
      report.observedLfsBytes = (seen result).2.map (·.totalBytes) ∧
      report.observedLfsAggregateSha256
        = (seen result).2.map (fun value => hexDigest value.aggregateSha256) ∧
      report.lfsRestored = verification.expectedLfsObjectCount.map (fun expected =>
        (seen result).2.any fun value => value.objectCount == expected) ∧
      report.observedRefCount = saturateU64 (seen result).1.length ∧
      report.observedRefSetSha256 = hexDigest (canonicalRefDigest cx (seen result).1) := by
    cases result <;> exact ⟨rfl, rfl, rfl, rfl, rfl, rfl⟩
  obtain ⟨hcount, hbytes, haggregate, hrestored, hrefs, hdigest⟩ := hobserved
  have hshape := @lfsEvidenceConsistent_iff verification _ report hrestored rfl hcount rfl hbytes
    rfl haggregate
  constructor
  · intro h
    obtain ⟨hmatched, howner, hmedia, -, -, hconsistent⟩ := validate_iff.mp h.validated
    refine ⟨h.snapshot, ⟨howner, hmedia⟩, ⟨saturateU64_le.mp h.expectedRefCount, h.expectedRefs⟩,
      saturateU64_le.mp h.duration, failureConsistent_iff.mp hmatched, ?_⟩
    rcases hshape.mp hconsistent with ⟨hobjects, hsizes, hhex, hsome⟩ | hnone
    · obtain ⟨n, hn⟩ := Option.isSome_iff_exists.mp hobjects
      obtain ⟨size, hsize⟩ := Option.isSome_iff_exists.mp hsizes
      obtain ⟨hex, hhex⟩ := Option.isSome_iff_exists.mp hhex
      obtain ⟨lfs, hlfs⟩ := Option.isSome_iff_exists.mp hsome
      have hn' := h.counts report.expectedLfsObjectCount (by simp [report]) (saturateU64 n)
        (congrArg (Option.map saturateU64) hn)
      have hsize' := h.counts report.expectedLfsBytes (by simp [report]) size hsize
      have hcount' := h.counts report.observedLfsObjectCount (by simp [report])
        (saturateU64 lfs.objectCount) (by rw [hcount, hlfs]; rfl)
      have hbytes' := h.counts report.observedLfsBytes (by simp [report]) lfs.totalBytes
        (by rw [hbytes, hlfs]; rfl)
      have hhex' := h.aggregates report.expectedLfsAggregateSha256 (by simp [report]) hex hhex
      exact Or.inr ⟨⟨n, hn, saturateU64_le.mp hn'⟩, ⟨size, hsize, hsize'⟩, ⟨hex, hhex, hhex'⟩,
        lfs, hlfs, saturateU64_le.mp hcount', hbytes'⟩
    · exact Or.inl hnone
  · intro h
    refine ⟨validate_iff.mpr ⟨failureConsistent_iff.mpr h.matched, h.manifest.1, h.manifest.2, rfl,
      rfl, hshape.mpr ?_⟩, h.refs.2, ?_, saturateU64_le.mpr h.duration,
      saturateU64_le.mpr h.refs.1, ?_, ?_, ?_, h.snapshot, rfl, hfresh⟩
    · rcases h.lfs with hnone | ⟨⟨n, hn, -⟩, ⟨size, hsize, -⟩, ⟨hex, hhex, -⟩, lfs, hlfs, -⟩
      · exact Or.inr hnone
      · refine Or.inl ?_
        rw [hn, hsize, hhex, hlfs]
        exact ⟨rfl, rfl, rfl, rfl⟩
    · change (decodeDigest report.observedRefSetSha256).isSome = true
      rw [hdigest]
      exact decodeDigest_hexDigest _
    · change report.observedRefCount ≤ i64Max
      rw [hrefs]
      exact saturateU64_le.mpr hlines
    · change ∀ count ∈ [verification.expectedLfsObjectCount.map saturateU64,
        report.observedLfsObjectCount, verification.expectedLfsBytes, report.observedLfsBytes], _
      rw [hcount, hbytes]
      rcases h.lfs with ⟨hn, hsize, -, hlfs⟩ | ⟨⟨n, hn, hle⟩, ⟨size, hsize, hsize'⟩, -, lfs, hlfs,
        hobjects, htotal⟩
      · rw [hn, hsize, hlfs]
        simp
      · rw [hn, hsize, hlfs]
        simp only [List.forall_mem_cons, Option.map_some, Option.some.injEq, forall_eq']
        exact ⟨saturateU64_le.mpr hle, saturateU64_le.mpr hobjects, hsize', htotal,
          fun _ hmem => absurd hmem List.not_mem_nil⟩
    · change ∀ aggregate ∈ [verification.expectedLfsAggregateSha256,
        report.observedLfsAggregateSha256], _
      rw [haggregate]
      rcases h.lfs with ⟨-, -, hhex, hlfs⟩ | ⟨-, -, ⟨hex, hhex, hdecoded⟩, lfs, hlfs, -⟩
      · rw [hhex, hlfs]
        simp
      · rw [hhex, hlfs]
        simp only [List.forall_mem_cons, Option.map_some, Option.some.injEq, forall_eq']
        exact ⟨hdecoded, decodeDigest_hexDigest _, fun _ hmem => absurd hmem List.not_mem_nil⟩

theorem seen_length
    (hcapped : ∀ outcome lines, input.showRef = .exited outcome → outcome.lines = some lines →
      lines.length ≤ i64Max) :
    (seen (execute cx store verification input)).1.length ≤ i64Max := by
  cases hexecute : execute cx store verification input with
  | error e =>
    obtain ⟨-, hempty | ⟨outcome, lines, hshow, hlines, hlength⟩⟩ := execute_error hexecute
    · simp [seen, hempty]
    · simp only [seen, hlength]
      exact hcapped outcome lines hshow hlines
  | ok value =>
    obtain ⟨stages, observed, restored⟩ := value
    obtain ⟨evidence, hrestores, rfl, -⟩ := restores_of_execute hexecute
    obtain ⟨outcome, hshow, -, hparse⟩ := hrestores.refs
    obtain ⟨lines, hlines, hlength⟩ := parseRefOutput_length hparse
    simp only [seen, hlength]
    exact hcapped outcome lines hshow hlines

/-- The report of a drill is stored exactly when the verification has expected the refs and the LFS
objects that the drill restores, and what it has expected fits the columns. -/
theorem stored_iff_recordable
    (hfresh : ∀ known ∈ tables.restoreDrills, known.report.drillId ≠ drillId)
    (hcapped : ∀ outcome lines, input.showRef = .exited outcome → outcome.lines = some lines →
      lines.length ≤ i64Max) :
    Stored tables (run cx store verification input drillId durationMillis) ↔
      Recordable cx store verification input tables durationMillis := by
  rw [stored_iff_insertable]
  unfold run
  rw [insertable_iff_wanted hfresh (seen_length hcapped)]
  cases hexecute : execute cx store verification input with
  | error e =>
    -- a drill that fails restores nothing, whatever the verification has expected
    have hnone : ∀ evidence, ¬ Restores cx store verification input evidence := by
      intro evidence hrestores
      obtain ⟨stages, hok⟩ := execute_of_restores hrestores
      rw [hexecute] at hok
      cases hok
    have hlfs : (seen (.error e)).2 = none := (execute_error hexecute).1
    constructor
    · intro h
      refine ⟨h.snapshot, h.manifest, h.refs, h.duration,
        fun evidence hrestores => absurd hrestores (hnone evidence), ?_⟩
      rcases h.lfs with ⟨hcount, hbytes, haggregate, -⟩ | ⟨-, -, -, lfs, hsome, -⟩
      · exact Or.inl ⟨hcount, hbytes, haggregate,
          fun evidence hrestores => absurd hrestores (hnone evidence)⟩
      · rw [hlfs] at hsome
        cases hsome
    · intro h
      refine ⟨h.snapshot, h.manifest, h.refs, h.duration, fun hok => (by cases hok), ?_⟩
      rcases h.lfs with ⟨hcount, hbytes, haggregate, -⟩ | hwith
      · exact Or.inl ⟨hcount, hbytes, haggregate, hlfs⟩
      · obtain ⟨evidence, lfs, hrestores, -⟩ := hwith.restored
        exact absurd hrestores (hnone evidence)
  | ok value =>
    obtain ⟨stages, observed, restored⟩ := value
    obtain ⟨evidence, hrestores, hobserved, hrestored⟩ := restores_of_execute hexecute
    have honly : ∀ evidence', Restores cx store verification input evidence' →
        evidence' = evidence := fun evidence' h => restores_unique h hrestores
    have hseen : seen (.ok (stages, observed, restored))
        = (evidence.refs, evidence.lfs.map (restoredLfs cx)) := by
      rw [hobserved, hrestored]
      rfl
    constructor
    · intro h
      have hmatched := h.matched rfl
      rw [hseen] at hmatched
      refine ⟨h.snapshot, h.manifest, h.refs, h.duration, fun evidence' h' => ?_, ?_⟩
      · rw [honly evidence' h']
        exact hmatched
      · rcases h.lfs with ⟨hcount, hbytes, haggregate, hnone⟩ |
          ⟨hcount, hbytes, haggregate, lfs, hsome, hobjects, htotal⟩
        · rw [hseen] at hnone
          refine Or.inl ⟨hcount, hbytes, haggregate, fun evidence' h' => ?_⟩
          rw [honly evidence' h']
          exact Option.map_eq_none_iff.mp hnone
        · rw [hseen] at hsome
          obtain ⟨found, hfound, rfl⟩ := Option.map_eq_some_iff.mp hsome
          exact Or.inr ⟨hcount, hbytes, haggregate, evidence, found, hrestores, hfound, hobjects,
            htotal⟩
    · intro h
      refine ⟨h.snapshot, h.manifest, h.refs, h.duration, fun _ => ?_, ?_⟩
      · rw [hseen]
        exact h.matched evidence hrestores
      · rw [hseen]
        rcases h.lfs with ⟨hcount, hbytes, haggregate, hnone⟩ | hwith
        · refine Or.inl ⟨hcount, hbytes, haggregate, ?_⟩
          rw [hnone evidence hrestores]
          rfl
        · obtain ⟨evidence', lfs, h', hfound, hobjects, htotal⟩ := hwith.restored
          rw [honly evidence' h'] at hfound
          exact Or.inr ⟨hwith.count, hwith.bytes, hwith.aggregate, restoredLfs cx lfs,
            congrArg (Option.map (restoredLfs cx)) hfound, hobjects, htotal⟩

end

namespace Sample

open Retention.Sample (sha256 bundleRef manifestRef manifest)

/-! One snapshot with an LFS object, and a Git that refuses its bundle. -/

def object : LfsObjectEvidence :=
  { oid := sha256 [30]
    blob := { owner, sha256 := sha256 [30], mediaType := "application/octet-stream", sizeBytes := 1 } }

def crypto : Crypto :=
  { Retention.Sample.crypto with
    decode := fun bytes =>
      if bytes = [3] then
        some { manifest [10] none with
          lfs := some { toolVersion := "3", objects := [object], totalBytes := 1
                        aggregateSha256 := sha256 [40] } }
      else Retention.Sample.crypto.decode bytes }

def store : LocalBlobStore :=
  { maxBytes := 1000
    files := fun digest => [[1], [3], [10], [30]].find? fun bytes => sha256 bytes = digest }

def verification (bytes : Bytes) : VerificationReport :=
  ArtifactVerifier.verify crypto
    { store, trustedKeys := [{ keyId := "k", publicKey := [] }], maxChainDepth := 8 } 4
    (manifestRef bytes)

def tables : DrillTables :=
  { snapshots := [4], replicaTargets := [], restoreDrills := [], outbox := [] }

def exited (exitCode : ℤ) : DrillCall := .exited { exitCode, lines := some [] }

/-- `git bundle verify` leaves with `exitCode`. -/
def input (exitCode : ℤ) : DrillInput :=
  { scratchCreated := true, bundleConfined := true, init := exited 0
    bundleVerify := exited exitCode, fetch := exited 0, fsck := exited 0, showRef := exited 0
    lfsWrites := [] }

theorem input_capped (exitCode : ℤ) (outcome : RunOutcome) (lines : List String)
    (hshow : (input exitCode).showRef = .exited outcome) (hlines : outcome.lines = some lines) :
    lines.length ≤ i64Max := by
  cases hshow
  cases hlines
  exact Nat.zero_le _

end Sample

theorem stored_iff_recordable_refused :
    Stored Sample.tables (run Sample.crypto Sample.store (Sample.verification [1]) (Sample.input 1)
        7 5) ↔
      Recordable Sample.crypto Sample.store (Sample.verification [1]) (Sample.input 1) Sample.tables
        5 :=
  stored_iff_recordable (fun _ hmem => absurd hmem List.not_mem_nil) (Sample.input_capped 1)

/-- Git refuses the bundle of a verified snapshot with LFS objects: its report is not accepted, and
no alert is recorded. -/
theorem failed_lfs_drill_not_stored :
    (Sample.verification [3]).outcome = .passed ∧
      ¬ Stored Sample.tables (run Sample.crypto Sample.store (Sample.verification [3])
        (Sample.input 1) 7 5) := by
  constructor
  · decide +kernel
  · intro h
    have hrefused : (storedDrill (run Sample.crypto Sample.store (Sample.verification [3])
        (Sample.input 1) 7 5)).lfsEvidenceConsistent = false := by decide +kernel
    have hconsistent := (validate_iff.mp h.accepted).2.2.2.2.2
    rw [hrefused] at hconsistent
    cases hconsistent

end RestoreDrill

end RatatoskrVault
