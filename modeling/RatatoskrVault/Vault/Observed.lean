import Mathlib.Data.List.TakeWhile
import RatatoskrVault.Lib.Bounded
import RatatoskrVault.Vault.Checked
import RatatoskrVault.Vault.Recorded

/-! Which observation of a mirror a snapshot is taken of: the newest run of its target, as long as no
older one is presented while the mirror is healthy. -/
namespace RatatoskrVault

open Lib

namespace Db

variable (db : Db) (source : SnapshotSource)

/-- The rows of the target from the successful run that the source names. -/
def observations : List MirrorLifecycleRun :=
  (db.mirrorRuns.filter fun run => run.targetId == source.targetId).dropWhile fun run =>
    !(run.runId == source.mirrorLifecycleRunId && run.outcome == .succeeded)

/-- A later run has changed the mirror or failed to verify it; a refusal leaves it alone. -/
def superseded : Bool := (db.observations source).tail.any fun run => run.outcome != .quotaRefused

/-- The source names the newest successful run of its target, and nothing came of it since. -/
def newestObservation : Bool := !(db.observations source).isEmpty && !db.superseded source

variable {db source}

theorem observations_ne_nil {run : MirrorLifecycleRun} (hmem : run ∈ db.mirrorRuns)
    (htarget : run.targetId = source.targetId) (hid : run.runId = source.mirrorLifecycleRunId)
    (houtcome : run.outcome = .succeeded) : db.observations source ≠ [] := by
  intro hnone
  have hall := List.dropWhile_eq_nil_iff.mp hnone run
    (List.mem_filter.mpr ⟨hmem, by simpa using htarget⟩)
  simp [hid, houtcome] at hall

/-- A source that passes the check is the newest exactly where it is not superseded. -/
theorem newestObservation_of_healthy (h : db.healthySource source = true) :
    db.newestObservation source = !db.superseded source := by
  obtain ⟨mirror, -, hmirror⟩ := List.any_eq_true.mp h
  simp only [Bool.and_eq_true, beq_iff_eq] at hmirror
  obtain ⟨⟨⟨⟨-, htarget⟩, -⟩, -⟩, hruns⟩ := hmirror
  obtain ⟨run, hmem, hrun⟩ := List.any_eq_true.mp hruns
  simp only [Bool.and_eq_true, beq_iff_eq] at hrun
  have hsome : db.observations source ≠ [] :=
    observations_ne_nil hmem (hrun.1.1.trans htarget) hrun.1.2 hrun.2
  unfold newestObservation
  rw [List.isEmpty_eq_false_iff.mpr hsome]
  rfl

end Db

namespace CaptureLoc

/-- The source a capture is about to check. -/
def checking? : CaptureLoc → Option SnapshotSource
  | selectSource request _ => some request.source
  | recordSource built => some built.source
  | _ => none

/-- The source a call has checked and not returned on: `snapshot_parent` up to its second statement,
`record_built_snapshot` up to its commit. -/
def checked? : CaptureLoc → Option SnapshotSource
  | selectParent request _ => some request.source
  | recordParent built => some built.source
  | insertSnapshot built => some built.source
  | artifactStart built _ _ => some built.source
  | artifactLock built _ _ _ _ _ => some built.source
  | insertManifest built _ => some built.source
  | commit built _ => some built.source
  | _ => none

end CaptureLoc

namespace Vault

def Loc.checking? : Loc → Option SnapshotSource
  | .retention (.capture at_) => at_.checking?
  | _ => none

def Loc.checked? : Loc → Option SnapshotSource
  | .retention (.capture at_) => at_.checked?
  | _ => none

section

variable (settings : Settings)

/-- No superseded source is presented while the mirror is healthy, and no run of a target is
recorded, refusals apart, between a check of its source and the return of the call. -/
structure Timely (s : State) (l : Label) : Prop where
  presented : ∀ i input source, l = .exec i input →
    (s.session i).loc.checking? = some source → s.db.healthySource source = true →
      s.db.superseded source = false
  recorded : ∀ i input next row, l = .exec i input →
    (machine settings).act (s.session i).loc (s.moment i) ((machine settings).view s i) s.world input
      = some (.commit next) →
    Write.insertMirrorRun row ∈ (s.session i).log → ∀ j source,
      (s.session j).loc.checked? = some source → row.targetId = source.targetId →
        row.outcome = .quotaRefused

end

/-- What a session has checked is the newest observation, and a check opens its transaction. -/
structure Observes (db : Db) (σ : Session Write Loc) : Prop where
  newest : ∀ source, σ.loc.checked? = some source → db.newestObservation source = true
  opening : ∀ source, σ.loc.checking? = some source → σ.log = []

abbrev Observed : State → Prop :=
  Machine.Beside (fun _ => True) fun e _ σ => Observes e.db σ

section

variable {settings : Settings} {m : Moment} {db db' : Db} {storage storage' : MirrorStorage}
  {input : MirrorInput} {loc next : Loc} {locks : List Lock} {writes log : List Write}
  {s s' : State} {i : ℕ} {began : Option ℕ}

theorem Observes.of_other (hchecked : loc.checked? = none) (hchecking : loc.checking? = none) :
    Observes db ⟨loc, log, began⟩ := by
  refine ⟨fun source h => ?_, fun source h => ?_⟩
  · rw [hchecked] at h
    cases h
  · rw [hchecking] at h
    cases h

/-- A statement of a capture passes the check or keeps what it has checked. -/
theorem CaptureStmt.checked {at_ n : CaptureLoc} (h : CaptureStmt m db at_ locks writes n) :
    n.checking? = none ∧ ∀ source, n.checked? = some source →
      at_.checked? = some source ∨
        at_.checking? = some source ∧ db.healthySource source = true := by
  cases h with
  | recordSource hsource => exact ⟨rfl, fun source h => by cases h; exact Or.inr ⟨rfl, hsource⟩⟩
  | _ => exact ⟨rfl, fun source h => Or.inl h⟩

theorem SessionStmt.checked (h : SessionStmt settings m db loc locks writes next) :
    next.checking? = none ∧ ∀ source, next.checked? = some source →
      loc.checked? = some source ∨
        loc.checking? = some source ∧ db.healthySource source = true := by
  cases h with
  | retention h =>
    cases h with
    | capture h => exact CaptureStmt.checked h
    | _ => exact ⟨rfl, fun source h => by cases h⟩
  | _ => exact ⟨rfl, fun source h => by cases h⟩

/-- A statement that commits by itself leads to a check, or passes one. -/
theorem SessionAuto.checked (h : SessionAuto settings m db storage loc locks writes next) :
    ∀ source, next.checked? = some source →
      loc.checking? = some source ∧ db.healthySource source = true := by
  cases h with
  | retention h =>
    cases h with
    | capture h =>
      cases h with
      | selectSource hsource => exact fun source h => by cases h; exact ⟨rfl, hsource⟩
      | _ => exact fun source h => by cases h
    | _ => exact fun source h => by cases h
  | _ => exact fun source h => by cases h

/-- The check of a session reads what is committed. -/
theorem Observed.view_of_checking (h : Observed s) {source : SnapshotSource}
    (hchecking : (s.session i).loc.checking? = some source) :
    (machine settings).view s i = s.db := by
  unfold Machine.view
  rw [(h.sessions i).opening source hchecking]
  rfl

theorem Observed.passed (h : Observed s) (htimely : Timely settings s (.exec i input))
    {source : SnapshotSource} (hchecking : (s.session i).loc.checking? = some source)
    (hhealthy : ((machine settings).view s i).healthySource source = true) :
    s.db.newestObservation source = true := by
  rw [h.view_of_checking hchecking] at hhealthy
  rw [Db.newestObservation_of_healthy hhealthy,
    htimely.presented i input source rfl hchecking hhealthy]
  rfl

end

namespace Sample

end Sample

end Vault

end RatatoskrVault
