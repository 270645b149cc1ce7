import RatatoskrVault.Verification.Passes

/-! What the rows of the evidence tables say, after any run of passes. -/
namespace RatatoskrVault

/-- The fact a failed drill is announced with. -/
def StoredRestoreDrillReport.failed (report : StoredRestoreDrillReport) : RestoreFailedEvent :=
  { drillId := report.drillId
    snapshotId := report.snapshotId
    manifestSha256 := report.manifest.sha256
    failureClass := report.failureClass }

/-- Both kinds of evidence have their identifiers and their facts in the outbox, every row is about
the manifest of its snapshot, and a drill rests on a check that passed. -/
structure EvidenceTables.Consistent (tables : EvidenceTables) : Prop where
  checkIds : (tables.integrityChecks.map (·.report.verificationId)).Nodup
  drillIds : (tables.drills.restoreDrills.map (·.report.drillId)).Nodup
  failures : tables.verificationFailures =
    (tables.integrityChecks.filter (·.report.outcome == .failed)).map (·.report.failed)
  alerts : tables.drills.outbox =
    (tables.drills.restoreDrills.filter (·.report.outcome == .failed)).map (·.report.failed)
  manifests : ∀ check ∈ tables.integrityChecks,
    tables.snapshotManifest check.report.snapshotId = .ok check.report.manifest
  reasons : ∀ check ∈ tables.integrityChecks,
    check.report.failureClass.isNone = true ↔ check.report.outcome = .passed
  backed : ∀ drill ∈ tables.drills.restoreDrills, ∃ check ∈ tables.integrityChecks,
    check.report.outcome = .passed ∧ check.report.snapshotId = drill.report.snapshotId ∧
      check.report.manifest = drill.report.manifest
  restored : ∀ drill ∈ tables.drills.restoreDrills, drill.report.outcome = .passed →
    drill.report.expectedRefSetSha256 = drill.report.observedRefSetSha256 ∧
      drill.report.expectedRefCount = drill.report.observedRefCount
  isolated : ∀ drill ∈ tables.drills.restoreDrills,
    drill.report.networkDisabled = true ∧ drill.report.liveMirrorAccessed = false

/-- No row is changed or removed. -/
structure EvidenceTables.Extends (tables tables' : EvidenceTables) : Prop where
  checks : tables.integrityChecks <+: tables'.integrityChecks
  drills : tables.drills.restoreDrills <+: tables'.drills.restoreDrills
  failures : tables.verificationFailures <+: tables'.verificationFailures
  alerts : tables.drills.outbox <+: tables'.drills.outbox

section

variable {tables tables' : EvidenceTables} {report : StoredVerificationReport}
  {drill : StoredRestoreDrillReport} {finishedAt : Time}

theorem EvidenceTables.Extends.refl : tables.Extends tables :=
  ⟨List.prefix_refl _, List.prefix_refl _, List.prefix_refl _, List.prefix_refl _⟩

theorem EvidenceTables.Extends.trans {tables'' : EvidenceTables} (h : tables.Extends tables')
    (h' : tables'.Extends tables'') : tables.Extends tables'' :=
  ⟨h.checks.trans h'.checks, h.drills.trans h'.drills, h.failures.trans h'.failures,
    h.alerts.trans h'.alerts⟩

/-- Rows with a new identifier beside rows without repetition. -/
theorem nodup_concat {Row : Type} {key : Row → Uuid} {rows : List Row} {row : Row}
    (h : (rows.map key).Nodup) (hfresh : ∀ known ∈ rows, key known ≠ key row) :
    ((rows ++ [row]).map key).Nodup := by
  rw [List.map_append, List.map_singleton]
  refine List.nodup_append'.mpr ⟨h, List.nodup_singleton _, fun id hid hnew => ?_⟩
  obtain ⟨known, hknown, rfl⟩ := List.mem_map.mp hid
  exact hfresh known hknown (List.mem_singleton.mp hnew)

/-- The facts about the failed rows, once another row is there. -/
theorem facts_concat {Row Fact : Type} {fails : Row → Bool} {fact : Row → Fact} {rows : List Row}
    {row : Row} : ((rows ++ [row]).filter fails).map fact =
      (rows.filter fails).map fact ++ if fails row = true then [fact row] else [] := by
  rw [List.filter_append, List.map_append]
  split_ifs with h
  · rw [List.filter_cons_of_pos h, List.filter_nil, List.map_singleton]
  · rw [List.filter_cons_of_neg h, List.filter_nil, List.map_nil]

theorem RecordedCheck.extends (h : RecordedCheck tables report finishedAt tables') :
    tables.Extends tables' := by
  obtain ⟨_, hresult⟩ := h.result
  rw [hresult]
  exact ⟨List.prefix_append _ _, List.prefix_refl _, List.prefix_append _ _, List.prefix_refl _⟩

theorem RecordedDrill.extends (h : RecordedDrill tables drill finishedAt tables') :
    tables.Extends tables' := by
  obtain ⟨_, -, hrows⟩ := h.recorded.row
  have houtbox := h.recorded.outbox
  refine ⟨?_, ?_, ?_, ?_⟩
  · rw [h.result]
  · rw [hrows]
    exact List.prefix_append _ _
  · rw [h.result]
  · rw [houtbox]
    exact List.prefix_append _ _

/-- A check of the snapshot's own manifest. -/
theorem EvidenceTables.Consistent.recordedCheck (h : tables.Consistent)
    (hrecorded : RecordedCheck tables report finishedAt tables')
    (hmanifest : tables.snapshotManifest report.snapshotId = .ok report.manifest) :
    tables'.Consistent := by
  obtain ⟨expectedRefsHash, hresult⟩ := hrecorded.result
  have hconsistent := (StoredVerificationReport.validate_iff.mp hrecorded.validated).1
  have hnew : ∀ {P : IntegrityCheckRow → Prop}, (∀ check ∈ tables.integrityChecks, P check) →
      P { report, expectedRefsHash, finishedAt } → ∀ check ∈ tables'.integrityChecks, P check := by
    intro P hbefore hlast check hcheck
    rw [hresult] at hcheck
    rcases List.mem_append.mp hcheck with hmem | hmem
    · exact hbefore check hmem
    · rwa [List.mem_singleton.mp hmem]
  have hfind : ∀ id, tables'.snapshotManifest id = tables.snapshotManifest id := by
    intro id
    rw [hresult]
    rfl
  have hdrills := hrecorded.drills_eq
  constructor
  case checkIds =>
    rw [hresult]
    exact nodup_concat h.checkIds hrecorded.fresh
  case drillIds =>
    rw [hdrills]
    exact h.drillIds
  case failures =>
    rw [hresult]
    simp only [facts_concat, h.failures, beq_iff_eq]
  case alerts =>
    rw [hdrills]
    exact h.alerts
  case manifests =>
    refine hnew (fun check hcheck => ?_) ?_
    · rw [hfind]
      exact h.manifests check hcheck
    · rw [hfind]
      exact hmanifest
  case reasons =>
    refine hnew h.reasons ?_
    unfold StoredVerificationReport.failureConsistent at hconsistent
    cases houtcome : report.outcome with
    | passed =>
      rw [houtcome] at hconsistent
      exact ⟨fun _ => rfl, fun _ => hconsistent⟩
    | failed =>
      rw [houtcome] at hconsistent
      cases hclass : report.failureClass with
      | none => simp [hclass] at hconsistent
      | some text => simp
  case backed =>
    intro drill hdrill
    rw [hdrills] at hdrill
    obtain ⟨check, hcheck, hrest⟩ := h.backed drill hdrill
    refine ⟨check, ?_, hrest⟩
    rw [hresult]
    exact List.mem_append_left _ hcheck
  case restored =>
    rw [hdrills]
    exact h.restored
  case isolated =>
    rw [hdrills]
    exact h.isolated

/-- A drill of a snapshot whose check has passed. -/
theorem EvidenceTables.Consistent.recordedDrill {report : RestoreDrillReport} (h : tables.Consistent)
    (hrecorded : RecordedDrill tables (storedDrill report) finishedAt tables')
    (hbacked : ∃ check ∈ tables.integrityChecks, check.report.outcome = .passed ∧
      check.report.snapshotId = report.snapshotId ∧ check.report.manifest = report.manifest) :
    tables'.Consistent := by
  obtain ⟨row, hrow, hrows⟩ := hrecorded.recorded.row
  obtain ⟨hconsistent, -, -, hnetwork, hlive, -⟩ :=
    RestoreDrill.validate_iff.mp hrecorded.insertable.validated
  have hchecks : tables'.integrityChecks = tables.integrityChecks := by rw [hrecorded.result]
  have hnew : ∀ {P : RestoreDrillRow → Prop}, (∀ drill ∈ tables.drills.restoreDrills, P drill) →
      P row → ∀ drill ∈ tables'.drills.restoreDrills, P drill := by
    intro P hbefore hlast drill hdrill
    rw [hrows] at hdrill
    rcases List.mem_append.mp hdrill with hmem | hmem
    · exact hbefore drill hmem
    · rwa [List.mem_singleton.mp hmem]
  constructor
  case checkIds =>
    rw [hchecks]
    exact h.checkIds
  case drillIds =>
    rw [hrows]
    refine nodup_concat h.drillIds fun known hknown => ?_
    rw [hrow]
    exact hrecorded.insertable.fresh known hknown
  case failures =>
    rw [hrecorded.result]
    exact h.failures
  case alerts =>
    rw [hrecorded.recorded.outbox, hrows, facts_concat, h.alerts, hrow]
    simp only [beq_iff_eq]
    rfl
  case manifests =>
    intro check hcheck
    rw [hchecks] at hcheck
    rw [hrecorded.result]
    exact h.manifests check hcheck
  case reasons =>
    rw [hchecks]
    exact h.reasons
  case backed =>
    rw [hchecks]
    refine hnew h.backed ?_
    rw [hrow]
    exact hbacked
  case restored =>
    refine hnew h.restored ?_
    rw [hrow]
    intro hpassed
    unfold StoredRestoreDrillReport.failureConsistent at hconsistent
    rw [hpassed] at hconsistent
    have hmatched : (report.expectedRefCount == report.observedRefCount &&
        report.expectedRefSetSha256 == report.observedRefSetSha256) = true :=
      (Bool.and_eq_true_iff.mp hconsistent).2
    obtain ⟨hcount, hsha⟩ := Bool.and_eq_true_iff.mp hmatched
    exact ⟨beq_iff_eq.mp hsha, congrArg saturateU64 (beq_iff_eq.mp hcount)⟩
  case isolated =>
    refine hnew h.isolated ?_
    rw [hrow]
    exact ⟨hnetwork, hlive⟩

end

section

variable {cx : Crypto} {service : DurableVerification} {snapshotId : Uuid} {executeDrill : Bool}
  {input : AttemptInput} {tables tables' : EvidenceTables}
  {result : Except VaultError VerificationExecution}

theorem Attempted.consistent
    (h : Attempted cx service snapshotId executeDrill input tables tables' result)
    (hconsistent : tables.Consistent) : tables'.Consistent ∧ tables.Extends tables' := by
  have hmanifest : ∀ {manifest : BlobRef}, tables.snapshotManifest snapshotId = .ok manifest →
      tables.snapshotManifest (service.verify cx snapshotId manifest input).snapshotId =
        .ok (service.verify cx snapshotId manifest input).manifest := by
    intro manifest hknown
    rw [verify_snapshotId, verify_manifest]
    exact hknown
  cases h with
  | untouched e => exact ⟨hconsistent, .refl⟩
  | checked known recorded ended =>
    exact ⟨hconsistent.recordedCheck recorded (hmanifest known), recorded.extends⟩
  | @drilled manifest middle _ _ known recorded asked passed report drill drilled ended =>
    have hmiddle := hconsistent.recordedCheck recorded (hmanifest known)
    refine ⟨hmiddle.recordedDrill drilled ?_, recorded.extends.trans drilled.extends⟩
    obtain ⟨expectedRefsHash, hresult⟩ := recorded.result
    refine ⟨{ report := storedVerification (service.verify cx snapshotId manifest input)
                input.verificationId input.verificationMillis
              expectedRefsHash, finishedAt := input.verifiedAt }, ?_, passed, ?_, ?_⟩
    · rw [hresult]
      exact List.mem_append_right _ (List.mem_singleton_self _)
    · rw [drill]
      rfl
    · rw [drill]
      rfl

end

namespace Passes

open Lib

end Passes

end RatatoskrVault
