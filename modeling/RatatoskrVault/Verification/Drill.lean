import RatatoskrVault.Verification.Artifact
import RatatoskrVault.Verification.Refs

/-! `RestoreDrill::execute`: a stored bundle is restored into an empty repository, and the refs
found there are compared with the manifest. -/
namespace RatatoskrVault

/-- How a call of Git in the scratch repository ends. -/
inductive DrillCall
  | outsideConfinement | runner
  | exited (outcome : RunOutcome)
  deriving DecidableEq

/-- A call of Git that leaves with status 0. -/
def DrillCall.Succeeds (call : DrillCall) : Prop :=
  ∃ outcome, call = .exited outcome ∧ outcome.exitCode = 0

/-- How the copy of one LFS object into the scratch repository ends. -/
inductive LfsWrite
  | written | sourceUnreadable | destinationRefused
  deriving DecidableEq

/-- What a drill is told by everything outside the store: the scratch directory, the confined path
of the bundle, the Git processes, and the copies of the LFS objects. -/
structure DrillInput where
  scratchCreated : Bool
  bundleConfined : Bool
  init : DrillCall
  bundleVerify : DrillCall
  fetch : DrillCall
  fsck : DrillCall
  showRef : DrillCall
  lfsWrites : List LfsWrite
  deriving DecidableEq

structure RestoredLfs where
  objectCount : ℕ
  totalBytes : ℕ
  aggregateSha256 : Digest
  deriving DecidableEq

/-- The end of a drill that fails: its stages, the failure, the refs seen and the LFS restored. -/
structure DrillFailure where
  stages : List StageReport
  failure : VerificationFailure
  observed : List RefEvidence
  restoredLfs : Option RestoredLfs
  deriving DecidableEq

abbrev DrillResult :=
  Except DrillFailure (List StageReport × List RefEvidence × Option RestoredLfs)

namespace RestoreDrill

/-- A failure before any ref was seen. -/
def fail (stages : List StageReport) (failure : VerificationFailure) : DrillFailure :=
  { stages, failure, observed := [], restoredLfs := none }

def runGitStage (stage : String) (call : DrillCall) (stages : List StageReport) :
    Except DrillFailure (RunOutcome × List StageReport) :=
  match call with
  | .outsideConfinement => .error (fail (stages ++ [{ stage, passed := false }]) .isolationFailed)
  | .runner => .error (fail (stages ++ [{ stage, passed := false }]) .bundleInvalid)
  | .exited outcome =>
    if outcome.exitCode = 0 then .ok (outcome, stages ++ [{ stage, passed := true }])
    else .error (fail (stages ++ [{ stage, passed := false }]) .bundleInvalid)

def byName (references : List RefEvidence) : List RefEvidence :=
  references.mergeSort fun left right => decide (left.name ≤ right.name)

def parseRefOutput (outcome : RunOutcome) : Except VerificationFailure (List RefEvidence) :=
  match outcome.lines with
  | none => .error .bundleInvalid
  | some lines =>
    match lines.mapM parseLine with
    | none => .error .bundleInvalid
    | some references => .ok (byName references)

variable (cx : Crypto) (store : LocalBlobStore)

def loadManifest (reference : BlobRef) : Except VerificationFailure SnapshotManifest :=
  match store.verify cx reference, store.files reference.sha256 with
  | .error _, _ => .error .hashMismatch
  | .ok (), none => .error .manifestInvalid
  | .ok (), some bytes =>
    match cx.decode bytes with
    | none => .error .manifestInvalid
    | some manifest => .ok manifest

/-- Every object is verified before it is written. -/
def writeObjects : List LfsObjectEvidence → List LfsWrite → Except VerificationFailure Unit
  | [], _ => .ok ()
  | object :: rest, writes =>
    match store.verify cx object.blob, writes.head?.getD .written with
    | .error _, _ => .error .lfsInvalid
    | .ok (), .sourceUnreadable => .error .lfsInvalid
    | .ok (), .destinationRefused => .error .isolationFailed
    | .ok (), .written => writeObjects rest writes.tail

def materializeLfs (evidence : Option LfsEvidence) (writes : List LfsWrite)
    (stages : List StageReport) :
    List StageReport × Except VerificationFailure (Option RestoredLfs) :=
  match evidence with
  | none => (stages, .ok none)
  | some lfs =>
    match writeObjects cx store lfs.objects writes with
    | .error failure => (stages ++ [{ stage := "lfs_objects", passed := false }], .error failure)
    | .ok () =>
      (stages ++ [{ stage := "lfs_objects", passed := true }],
        .ok (some
          { objectCount := lfs.objects.length
            totalBytes := lfs.totalBytes
            aggregateSha256 := canonicalLfsDigest cx lfs.objects }))

/-- The comparison that ends the Git stages. -/
def compareRefs (evidence : SnapshotManifest) (input : DrillInput) (observed : List RefEvidence)
    (stages : List StageReport) : DrillResult :=
  let stages := stages ++ [{ stage := "ref_compare", passed := observed == evidence.refs }]
  if observed = evidence.refs then
    match materializeLfs cx store evidence.lfs input.lfsWrites stages with
    | (stages, .error failure) => .error { stages, failure, observed, restoredLfs := none }
    | (stages, .ok restoredLfs) => .ok (stages, observed, restoredLfs)
  else .error { stages, failure := .refMismatch, observed, restoredLfs := none }

/-- The calls of Git, from the empty repository to the refs it holds. -/
def restore (input : DrillInput) : Except DrillFailure (List RefEvidence × List StageReport) := do
  let (_, stages) ← runGitStage "init" input.init []
  let (_, stages) ← runGitStage "bundle_verify" input.bundleVerify stages
  let (_, stages) ← runGitStage "fetch" input.fetch stages
  let (_, stages) ← runGitStage "fsck" input.fsck stages
  let (outcome, stages) ← runGitStage "show_ref" input.showRef stages
  match parseRefOutput outcome with
  | .error failure => .error (fail stages failure)
  | .ok observed => .ok (observed, stages)

def execute (verification : VerificationReport) (input : DrillInput) : DrillResult :=
  if verification.outcome ≠ .passed then .error (fail [] .bundleInvalid)
  else
    match loadManifest cx store verification.manifest with
    | .error failure => .error (fail [] failure)
    | .ok evidence =>
      match evidence.bundles.head? with
      | none => .error (fail [] .bundleInvalid)
      | some bundle =>
        match store.verify cx bundle with
        | .error _ => .error (fail [] .hashMismatch)
        | .ok () =>
          if ¬ input.scratchCreated ∨ ¬ input.bundleConfined then .error (fail [] .isolationFailed)
          else
            match restore input with
            | .error failure => .error failure
            | .ok (observed, stages) => compareRefs cx store evidence input observed stages

section

variable {cx store} {input : DrillInput} {stages : List StageReport} {e : DrillFailure}

theorem runGitStage_error {stage : String} {call : DrillCall}
    (h : runGitStage stage call stages = .error e) : e.failure ≠ .refMismatch := by
  unfold runGitStage at h
  split at h
  · cases h
    exact VerificationFailure.noConfusion
  · cases h
    exact VerificationFailure.noConfusion
  · split_ifs at h
    cases h
    exact VerificationFailure.noConfusion

theorem runGitStage_ok {stage : String} {call : DrillCall} {outcome : RunOutcome}
    {stages' : List StageReport} (h : runGitStage stage call stages = .ok (outcome, stages')) :
    call = .exited outcome := by
  unfold runGitStage at h
  split at h
  · cases h
  · cases h
  · split_ifs at h
    cases h
    rfl

theorem parseRefOutput_error {outcome : RunOutcome} {failure : VerificationFailure}
    (h : parseRefOutput outcome = .error failure) : failure ≠ .refMismatch := by
  unfold parseRefOutput at h
  split at h
  · cases h
    exact VerificationFailure.noConfusion
  · split at h <;> cases h
    exact VerificationFailure.noConfusion

/-- A stage of Git that fails is no mismatch of refs. -/
theorem restore_error (h : restore input = .error e) : e.failure ≠ .refMismatch := by
  unfold restore at h
  simp only [bind, Except.bind] at h
  (repeat' split at h) <;> cases h <;>
    first | exact runGitStage_error ‹_› | exact parseRefOutput_error ‹_›

/-- The refs that are compared are those that the last call of Git printed. -/
theorem restore_ok {observed : List RefEvidence} (h : restore input = .ok (observed, stages)) :
    ∃ outcome, input.showRef = .exited outcome ∧ parseRefOutput outcome = .ok observed := by
  unfold restore at h
  simp only [bind, Except.bind] at h
  (repeat' split at h) <;> cases h
  exact ⟨_, runGitStage_ok ‹_›, ‹_›⟩

theorem writeObjects_error {objects : List LfsObjectEvidence} {writes : List LfsWrite}
    {failure : VerificationFailure} (h : writeObjects cx store objects writes = .error failure) :
    failure ≠ .refMismatch := by
  induction objects generalizing writes with
  | nil => cases h
  | cons object rest ih =>
    unfold writeObjects at h
    split at h
    · cases h
      exact VerificationFailure.noConfusion
    · cases h
      exact VerificationFailure.noConfusion
    · cases h
      exact VerificationFailure.noConfusion
    · exact ih h

theorem materializeLfs_error {evidence : Option LfsEvidence} {writes : List LfsWrite}
    {stages' : List StageReport} {failure : VerificationFailure}
    (h : materializeLfs cx store evidence writes stages = (stages', .error failure)) :
    failure ≠ .refMismatch := by
  unfold materializeLfs at h
  split at h
  · cases h
  · split at h
    · cases h
      exact writeObjects_error ‹_›
    · cases h

theorem loadManifest_error {reference : BlobRef} {failure : VerificationFailure}
    (h : loadManifest cx store reference = .error failure) : failure ≠ .refMismatch := by
  unfold loadManifest at h
  split at h
  · cases h
    exact VerificationFailure.noConfusion
  · cases h
    exact VerificationFailure.noConfusion
  · split at h <;> cases h
    exact VerificationFailure.noConfusion

/-- A drill fails on its refs only where those it has seen are not those of the manifest. -/
theorem execute_refMismatch {verification : VerificationReport}
    (h : execute cx store verification input = .error e) (hmismatch : e.failure = .refMismatch) :
    ∃ evidence bundle outcome observed,
      loadManifest cx store verification.manifest = .ok evidence ∧
      evidence.bundles.head? = some bundle ∧ store.verify cx bundle = .ok () ∧
      input.showRef = .exited outcome ∧ parseRefOutput outcome = .ok observed ∧
      observed ≠ evidence.refs := by
  unfold execute at h
  split at h
  · cases h
    cases hmismatch
  split at h
  · rename_i failure hload
    cases h
    exact absurd hmismatch (loadManifest_error hload)
  · rename_i evidence hload
    split at h
    · cases h
      cases hmismatch
    · rename_i bundle hbundle
      split at h
      · cases h
        cases hmismatch
      · rename_i hverify
        split at h
        · cases h
          cases hmismatch
        · split at h
          · cases h
            exact absurd hmismatch (restore_error ‹_›)
          · rename_i observed stages hrestore
            obtain ⟨outcome, hshow, hparse⟩ := restore_ok hrestore
            refine ⟨evidence, bundle, outcome, observed, hload, hbundle, hverify, hshow, hparse, ?_⟩
            intro hsame
            unfold compareRefs at h
            simp only [if_pos hsame] at h
            split at h
            · cases h
              exact materializeLfs_error ‹_› hmismatch
            · cases h

/-- What `show-ref` prints is read back in the order of names. -/
theorem parseRefOutput_showRef (refs : List GitRef) :
    parseRefOutput (showRef refs) = .ok (byName (refs.map (·.toRefEvidence))) := by
  have hlines : (refs.map (·.line)).mapM parseLine = some (refs.map (·.toRefEvidence)) := by
    induction refs with
    | nil => rfl
    | cons reference rest ih =>
      rw [List.map_cons, List.mapM_cons, parseLine_line, ih]
      rfl
  unfold parseRefOutput showRef
  simp only [hlines]

end

/-- All that a drill has to find on its way to success. -/
structure Restores (cx : Crypto) (store : LocalBlobStore) (verification : VerificationReport)
    (input : DrillInput) (evidence : SnapshotManifest) : Prop where
  verified : verification.outcome = .passed
  manifest : loadManifest cx store verification.manifest = .ok evidence
  bundle : ∃ bundle, evidence.bundles.head? = some bundle ∧ store.verify cx bundle = .ok ()
  confined : input.scratchCreated = true ∧ input.bundleConfined = true
  calls : ∀ call ∈ [input.init, input.bundleVerify, input.fetch, input.fsck], call.Succeeds
  refs : ∃ outcome, input.showRef = .exited outcome ∧ outcome.exitCode = 0 ∧
    parseRefOutput outcome = .ok evidence.refs
  lfs : ∀ lfs, evidence.lfs = some lfs → writeObjects cx store lfs.objects input.lfsWrites = .ok ()

/-- What a drill has restored of the LFS objects of a manifest. -/
def restoredLfs (cx : Crypto) (lfs : LfsEvidence) : RestoredLfs :=
  { objectCount := lfs.objects.length
    totalBytes := lfs.totalBytes
    aggregateSha256 := canonicalLfsDigest cx lfs.objects }

section

variable {cx : Crypto} {store : LocalBlobStore} {verification : VerificationReport}
  {input : DrillInput} {stages : List StageReport} {evidence : SnapshotManifest} {e : DrillFailure}

theorem runGitStage_of_succeeds {stage : String} {call : DrillCall} {outcome : RunOutcome}
    (hcall : call = .exited outcome) (hexit : outcome.exitCode = 0) :
    runGitStage stage call stages = .ok (outcome, stages ++ [{ stage, passed := true }]) := by
  rw [hcall]
  simp only [runGitStage, if_pos hexit]

theorem succeeds_of_runGitStage {stage : String} {call : DrillCall} {outcome : RunOutcome}
    {stages' : List StageReport} (h : runGitStage stage call stages = .ok (outcome, stages')) :
    call = .exited outcome ∧ outcome.exitCode = 0 := by
  have hcall := runGitStage_ok h
  refine ⟨hcall, ?_⟩
  rw [hcall] at h
  simp only [runGitStage] at h
  split_ifs at h with hexit
  exact hexit

/-- The Git stages end with the refs of the last call. -/
theorem restore_of_succeeds
    (hcalls : ∀ call ∈ [input.init, input.bundleVerify, input.fetch, input.fsck], call.Succeeds)
    {outcome : RunOutcome} (hshow : input.showRef = .exited outcome) (hexit : outcome.exitCode = 0)
    {observed : List RefEvidence} (hparse : parseRefOutput outcome = .ok observed) :
    ∃ stages, restore input = .ok (observed, stages) := by
  obtain ⟨_, hinit, hinit₀⟩ := hcalls input.init (by simp)
  obtain ⟨_, hverify, hverify₀⟩ := hcalls input.bundleVerify (by simp)
  obtain ⟨_, hfetch, hfetch₀⟩ := hcalls input.fetch (by simp)
  obtain ⟨_, hfsck, hfsck₀⟩ := hcalls input.fsck (by simp)
  unfold restore
  simp only [bind, Except.bind, runGitStage_of_succeeds hinit hinit₀,
    runGitStage_of_succeeds hverify hverify₀, runGitStage_of_succeeds hfetch hfetch₀,
    runGitStage_of_succeeds hfsck hfsck₀, runGitStage_of_succeeds hshow hexit, hparse]
  exact ⟨_, rfl⟩

theorem succeeds_of_restore {observed : List RefEvidence}
    (h : restore input = .ok (observed, stages)) :
    (∀ call ∈ [input.init, input.bundleVerify, input.fetch, input.fsck], call.Succeeds) ∧
      ∃ outcome, input.showRef = .exited outcome ∧ outcome.exitCode = 0 ∧
        parseRefOutput outcome = .ok observed := by
  unfold restore at h
  simp only [bind, Except.bind] at h
  split at h
  · cases h
  rename_i hinit
  split at h
  · cases h
  rename_i hverify
  split at h
  · cases h
  rename_i hfetch
  split at h
  · cases h
  rename_i hfsck
  split at h
  · cases h
  rename_i hshow
  have hrefs : ∀ call ∈ [input.init, input.bundleVerify, input.fetch, input.fsck],
      call.Succeeds := by
    simp only [List.forall_mem_cons]
    exact ⟨⟨_, succeeds_of_runGitStage hinit⟩, ⟨_, succeeds_of_runGitStage hverify⟩,
      ⟨_, succeeds_of_runGitStage hfetch⟩, ⟨_, succeeds_of_runGitStage hfsck⟩,
      fun _ hmem => absurd hmem List.not_mem_nil⟩
  obtain ⟨hcall, hexit⟩ := succeeds_of_runGitStage hshow
  split at h
  · cases h
  · rename_i hparse
    cases h
    exact ⟨hrefs, _, hcall, hexit, hparse⟩

theorem materializeLfs_of_written {writes : List LfsWrite}
    (h : ∀ lfs, evidence.lfs = some lfs → writeObjects cx store lfs.objects writes = .ok ()) :
    ∃ stages', materializeLfs cx store evidence.lfs writes stages
      = (stages', .ok (evidence.lfs.map (restoredLfs cx))) := by
  unfold materializeLfs
  cases hlfs : evidence.lfs with
  | none => exact ⟨_, rfl⟩
  | some lfs =>
    simp only [h lfs hlfs]
    exact ⟨_, rfl⟩

theorem written_of_materializeLfs {writes : List LfsWrite} {stages' : List StageReport}
    {restored : Option RestoredLfs}
    (h : materializeLfs cx store evidence.lfs writes stages = (stages', .ok restored)) :
    (∀ lfs, evidence.lfs = some lfs → writeObjects cx store lfs.objects writes = .ok ()) ∧
      restored = evidence.lfs.map (restoredLfs cx) := by
  unfold materializeLfs at h
  cases hlfs : evidence.lfs with
  | none =>
    rw [hlfs] at h
    cases h
    exact ⟨fun _ hsome => (by cases hsome), rfl⟩
  | some lfs =>
    rw [hlfs] at h
    simp only at h
    split at h
    · cases h
    · rename_i hwritten
      cases h
      refine ⟨fun lfs' hsome => ?_, rfl⟩
      obtain rfl : lfs = lfs' := Option.some.inj hsome
      exact hwritten

/-- A drill that finds everything passes, with the refs and the LFS objects of the manifest. -/
theorem execute_of_restores (h : Restores cx store verification input evidence) :
    ∃ stages, execute cx store verification input
      = .ok (stages, evidence.refs, evidence.lfs.map (restoredLfs cx)) := by
  obtain ⟨bundle, hbundle, hverify⟩ := h.bundle
  obtain ⟨outcome, hshow, hexit, hparse⟩ := h.refs
  obtain ⟨stages, hrestore⟩ := restore_of_succeeds h.calls hshow hexit hparse
  have hmaterialized : ∃ stages', materializeLfs cx store evidence.lfs input.lfsWrites
      (stages ++ [{ stage := "ref_compare", passed := evidence.refs == evidence.refs }])
      = (stages', .ok (evidence.lfs.map (restoredLfs cx))) :=
    materializeLfs_of_written h.lfs
  obtain ⟨stages', hwritten⟩ := hmaterialized
  have hconfined : ¬ (¬ input.scratchCreated = true ∨ ¬ input.bundleConfined = true) := by
    rw [h.confined.1, h.confined.2]
    simp
  refine ⟨stages', ?_⟩
  unfold execute
  simp only [h.verified, h.manifest, hbundle, hverify, hrestore, compareRefs, hwritten, ne_eq,
    not_true_eq_false, if_false, if_neg hconfined, if_true]

/-- A drill passes only where it has found everything. -/
theorem restores_of_execute {observed : List RefEvidence} {restored : Option RestoredLfs}
    (h : execute cx store verification input = .ok (stages, observed, restored)) :
    ∃ evidence, Restores cx store verification input evidence ∧ observed = evidence.refs ∧
      restored = evidence.lfs.map (restoredLfs cx) := by
  unfold execute at h
  split at h
  · cases h
  rename_i hverified
  split at h
  · cases h
  rename_i evidence hmanifest
  split at h
  · cases h
  rename_i bundle hbundle
  split at h
  · cases h
  rename_i hverify
  by_cases hconfined : ¬ input.scratchCreated = true ∨ ¬ input.bundleConfined = true
  · rw [if_pos hconfined] at h
    cases h
  rw [if_neg hconfined] at h
  split at h
  · cases h
  rename_i seen stages₀ hrestore
  obtain ⟨hcalls, outcome, hshow, hexit, hparse⟩ := succeeds_of_restore hrestore
  unfold compareRefs at h
  simp only at h
  split_ifs at h with hsame
  split at h
  · cases h
  rename_i hwritten
  cases h
  obtain ⟨hlfs, hrestored⟩ := written_of_materializeLfs hwritten
  push Not at hverified hconfined
  refine ⟨evidence, ⟨hverified, hmanifest, ⟨bundle, hbundle, hverify⟩, hconfined, hcalls,
    ⟨outcome, hshow, hexit, hsame ▸ hparse⟩, hlfs⟩, hsame, hrestored⟩

/-- A stage of Git that fails has seen no refs. -/
theorem restore_error_empty (h : restore input = .error e) :
    e.observed = [] ∧ e.restoredLfs = none := by
  have hstage : ∀ {stage call stages e}, runGitStage stage call stages = .error e →
      e.observed = [] ∧ e.restoredLfs = none := by
    intro stage call stages e h
    unfold runGitStage at h
    split at h
    · cases h
      exact ⟨rfl, rfl⟩
    · cases h
      exact ⟨rfl, rfl⟩
    · split_ifs at h
      cases h
      exact ⟨rfl, rfl⟩
  unfold restore at h
  simp only [bind, Except.bind] at h
  (repeat' split at h) <;> cases h <;> first
    | exact hstage ‹_›
    | exact ⟨rfl, rfl⟩

theorem length_of_mapM {α β : Type} {f : α → Option β} {xs : List α} {ys : List β}
    (h : xs.mapM f = some ys) : ys.length = xs.length := by
  induction xs generalizing ys with
  | nil =>
    rw [List.mapM_nil] at h
    cases h
    rfl
  | cons x xs ih =>
    rw [List.mapM_cons] at h
    obtain ⟨y, -, hrest⟩ := Option.bind_eq_some_iff.mp h
    obtain ⟨rest, hmap, hys⟩ := Option.bind_eq_some_iff.mp hrest
    cases hys
    rw [List.length_cons, List.length_cons, ih hmap]

theorem parseRefOutput_length {outcome : RunOutcome} {observed : List RefEvidence}
    (h : parseRefOutput outcome = .ok observed) :
    ∃ lines, outcome.lines = some lines ∧ observed.length = lines.length := by
  unfold parseRefOutput at h
  split at h
  · cases h
  · rename_i lines hlines
    split at h
    · cases h
    · rename_i references hreferences
      cases h
      refine ⟨lines, hlines, ?_⟩
      rw [byName, List.length_mergeSort]
      exact length_of_mapM hreferences

/-- A drill that fails has restored no LFS object, and seen at most what was printed. -/
theorem execute_error (h : execute cx store verification input = .error e) :
    e.restoredLfs = none ∧ (e.observed = [] ∨ ∃ outcome lines, input.showRef = .exited outcome ∧
      outcome.lines = some lines ∧ e.observed.length = lines.length) := by
  have hnone : ∀ {stages failure}, e = fail stages failure →
      e.restoredLfs = none ∧ (e.observed = [] ∨ ∃ outcome lines, input.showRef = .exited outcome ∧
        outcome.lines = some lines ∧ e.observed.length = lines.length) := by
    rintro stages failure rfl
    exact ⟨rfl, Or.inl rfl⟩
  unfold execute at h
  split at h
  · exact hnone (Except.error.inj h).symm
  split at h
  · exact hnone (Except.error.inj h).symm
  split at h
  · exact hnone (Except.error.inj h).symm
  split at h
  · exact hnone (Except.error.inj h).symm
  split at h
  · exact hnone (Except.error.inj h).symm
  split at h
  · rename_i hrestore
    cases h
    obtain ⟨hobserved, hlfs⟩ := restore_error_empty hrestore
    exact ⟨hlfs, Or.inl hobserved⟩
  · rename_i observed stages hrestore
    obtain ⟨outcome, hshow, hparse⟩ := restore_ok hrestore
    obtain ⟨lines, hlines, hlength⟩ := parseRefOutput_length hparse
    have hseen : e.restoredLfs = none ∧ e.observed = observed := by
      unfold compareRefs at h
      simp only at h
      split_ifs at h
      · split at h
        · cases h
          exact ⟨rfl, rfl⟩
        · cases h
      · cases h
        exact ⟨rfl, rfl⟩
    refine ⟨hseen.1, Or.inr ⟨outcome, lines, hshow, hlines, ?_⟩⟩
    rw [hseen.2]
    exact hlength

end

end RestoreDrill

end RatatoskrVault
