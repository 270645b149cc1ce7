import RatatoskrVault.Retention.Locks
import RatatoskrVault.Schema.Evolution

/-! Claimed snapshots and their bytes: which interleavings of captures and `run_plan` keep the
bytes of every artifact row that no deletion has been started for. -/
namespace RatatoskrVault

open Lib

/-- The object a worker has found unshared and not removed yet. -/
def WorkerLoc.removing? : WorkerLoc → Option PhysicalIdentity
  | .claim _ (.abandonClaims _ object) => some object
  | .claim _ (.insertClaim _ object) => some object
  | .claim _ (.insertAttempt _ object _) => some object
  | .claim _ (.commitClaimed object _ _) => some object
  | .effect _ object _ _ => some object
  | _ => none

namespace Retention

def Loc.removing? : Loc → Option PhysicalIdentity
  | .worker at_ => at_.removing?
  | _ => none

/-- Captures and workers, beside plans being created and pins. -/
def OnlyCapturesAndPlans (_ : State) : Label → Prop
  | .start _ (.runPlan _) => True
  | .start _ (.capture _) => True
  | .start _ _ => False
  | _ => True

/-- An artifact row passes the lookup of running claims only while its bytes are still stored and
no worker is about to remove them. -/
def InsertsBacked (s : State) : Label → Prop
  | .exec i _ => ∀ built snapshotId kind reference todo leases,
      (s.session i).loc = .capture (.artifactLock built snapshotId kind reference todo leases) →
      (∀ lease ∈ leases, lease ≤ s.clock) →
      s.world.blobs.files reference.sha256 ≠ none ∧
        ∀ j, (s.session j).loc.removing? ≠ some (.localDigest reference.sha256)
  | label => OnlyCapturesAndPlans s label

/-- The snapshot is deleted, or a plan for it has started. -/
def Surrendered (db : Db) (snapshotId : Uuid) : Prop :=
  (∀ s ∈ db.snapshots, s.snapshotId = snapshotId → s.status = .deleted) ∨
    ∃ p ∈ db.plans, p.snapshotId = snapshotId ∧ p.status.hasStarted = true

/-- Every artifact row of a snapshot that is not surrendered to deletion has its bytes. -/
def BytesPresent (db : Db) (storage : Storage) : Prop :=
  ∀ a ∈ db.artifacts, ¬ Surrendered db a.snapshotId → storage.blobs.files a.sha256Hash ≠ none

/-- In every run whose steps meet `ok`, no claimed snapshot is without bytes. -/
def NeverWithoutBytes (ok : State → Label → Prop) (settings : Settings) (s₀ : State) : Prop :=
  ∀ s, Reach (machine settings).step ok s₀ s → BytesPresent s.db s.world

/-- A catalogue with its keys, all of them in use before `fresh`, and with its bytes. -/
structure Complete (db : Db) (storage : Storage) (fresh : ℕ) : Prop where
  artifacts_nodup : (db.artifacts.map (·.artifactId)).Nodup
  artifact_ids : ∀ a ∈ db.artifacts, a.artifactId < fresh ∧ a.snapshotId < fresh
  present : BytesPresent db storage

namespace Bytes

/-- `h` gives every artifact id used so far its row. -/
def Named (h : Uuid → Digest × Uuid) (fresh : ℕ) (a : SnapshotArtifact) : Prop :=
  a.artifactId < fresh ∧ h a.artifactId = (a.sha256Hash, a.snapshotId)

/-- The unit removes the digest its artifact row names. -/
def UnitOk (h : Uuid → Digest × Uuid) (fresh : ℕ) : StageUnit → Prop
  | .artifact a => a.artifactId < fresh ∧ (h a.artifactId).1 = a.blob.sha256
  | _ => True

section

variable (h : Uuid → Digest × Uuid) (fresh : ℕ) (db : Db) (log : List Write)

/-- The plan row a claim has read, or that row started since. -/
def PlanRead (planId snapshotId : Uuid) (status : PlanStatus) : Prop :=
  ∃ p ∈ db.plans, p.planId = planId ∧ p.snapshotId = snapshotId ∧
    (p.status = status ∨ p.status.hasStarted = true)

/-- The plan has started, or starts with this transaction. -/
def PlanReady (planId snapshotId : Uuid) : Prop :=
  ∃ p ∈ db.plans, p.planId = planId ∧ p.snapshotId = snapshotId ∧
    (p.status.hasStarted = true ∨
      p.status = .planned ∧ .setPlanStatus planId .planned .localDeleting ∈ log)

/-- The object is the one of the unit's row, a row of the snapshot. -/
def Selected (unit : StageUnit) (object : PhysicalIdentity) (snapshotId : Uuid) : Prop :=
  (∀ e, unit = .artifact e → object = .localDigest e.blob.sha256) ∧
    ∀ digest, object = .localDigest digest → ∃ a ∈ db.artifacts, a.sha256Hash = digest ∧
      a.snapshotId = snapshotId ∧ unit.stage = .artifact a.artifactId

/-- The unit removes this digest, and every row of it is surrendered or of the snapshot. -/
def Exposed (unit : StageUnit) (object : PhysicalIdentity) (own : Uuid → Prop) : Prop :=
  (∀ e, unit = .artifact e → object = .localDigest e.blob.sha256) ∧
    ∀ digest, object = .localDigest digest → ∀ a ∈ db.artifacts, a.sha256Hash = digest →
      Surrendered db a.snapshotId ∨ own a.snapshotId

def ClaimOk (job : Job) : ClaimLoc → Prop
  | .refusal row => PlanRead db job.plan.planId row.snapshotId row.status
  | .identity row => PlanRead db job.plan.planId row.snapshotId row.status
  | .advance row object => PlanRead db job.plan.planId row.snapshotId row.status ∧
      Selected db job.unit object row.snapshotId
  | .abandonStage row object => PlanReady db log job.plan.planId row.snapshotId ∧
      Selected db job.unit object row.snapshotId
  | .lock row object => PlanReady db log job.plan.planId row.snapshotId ∧
      Selected db job.unit object row.snapshotId
  | .shared row object => PlanReady db log job.plan.planId row.snapshotId ∧
      Selected db job.unit object row.snapshotId
  | .abandonClaims _ object =>
      Exposed db job.unit object (PlanReady db log job.plan.planId)
  | .insertClaim _ object =>
      Exposed db job.unit object (PlanReady db log job.plan.planId)
  | .insertAttempt _ object _ =>
      Exposed db job.unit object (PlanReady db log job.plan.planId)
  | .commitClaimed object _ _ =>
      Exposed db job.unit object (PlanReady db log job.plan.planId)
  | _ => True

def WorkerOk : WorkerLoc → Prop
  | .claim job at_ => ClaimOk db log job at_
  | .effect job object _ _ => Exposed db job.unit object fun _ => False
  | _ => True

def completing : WorkerLoc → Bool
  | .complete _ => true
  | _ => false

/-- The writes of a worker. -/
def WorkerWriteOk (at_ : WorkerLoc) : Write → Prop
  | .setPlanStatus _ _ toStatus => toStatus.hasStarted = true
  | .setSnapshotDeleted _ => completing at_ = true
  | .insertSnapshot _ => False
  | .insertArtifact _ => False
  | _ => True

/-- The snapshot a capture is recording, with what it has recorded. -/
structure Recording (snapshotId : Uuid) : Prop where
  id_lt : snapshotId < fresh
  unused : ∀ a ∈ db.artifacts, a.snapshotId ≠ snapshotId
  writes : ∀ w ∈ log, (∃ row, w = .insertSnapshot row ∧ row.snapshotId = snapshotId) ∨
    (∃ row, w = .insertArtifact row ∧ row.snapshotId = snapshotId ∧ Named h fresh row) ∨
    ∃ row, w = .insertManifest row

/-- The snapshot whose rows are in the log. -/
def recording? : CaptureLoc → Option Uuid
  | .artifactStart _ snapshotId _ => some snapshotId
  | .artifactLock _ snapshotId _ _ _ _ => some snapshotId
  | .insertManifest _ snapshotId => some snapshotId
  | .commit _ snapshotId => some snapshotId
  | _ => none

def CaptureOk (at_ : CaptureLoc) : Prop :=
  match recording? at_ with
  | none => log = []
  | some snapshotId => Recording h fresh db log snapshotId

def LocOk : Loc → Prop
  | .idle => True
  | .worker at_ => at_.Carries (UnitOk h fresh) (Named h fresh) ∧ WorkerOk db log at_ ∧
      ∀ w ∈ log, WorkerWriteOk at_ w
  | .capture at_ => CaptureOk h fresh db log at_
  | .transition _ _ => False

end

def pending? : Loc → Option Uuid
  | .capture at_ => recording? at_
  | _ => none

structure Inv (h : Uuid → Digest × Uuid) (s : State) : Prop where
  locked : Locked discipline s
  named : ∀ a ∈ s.db.artifacts, Named h s.fresh a
  snapshot_ids : ∀ a ∈ s.db.artifacts, a.snapshotId < s.fresh
  present : BytesPresent s.db s.world
  /-- What a capture is recording is stored, and no worker is about to remove it. -/
  recorded : ∀ i row, .insertArtifact row ∈ (s.session i).log →
    s.world.blobs.files row.sha256Hash ≠ none
  disjoint : ∀ i j row, .insertArtifact row ∈ (s.session i).log →
    (s.session j).loc.removing? ≠ some (.localDigest row.sha256Hash)
  pending : ∀ i j snapshotId, pending? (s.session i).loc = some snapshotId →
    pending? (s.session j).loc = some snapshotId → i = j
  sessions : ∀ i, LocOk h s.fresh s.db (s.session i).log (s.session i).loc

section Replay

variable {db : Db} {log : List Write}

/-- A log that only starts plans keeps every plan, as it was or started. -/
theorem plan_applyAll (hplan : ∀ id f t, .setPlanStatus id f t ∈ log → t.hasStarted = true)
    {p : DeletionPlan} (hp : p ∈ db.plans) :
    ∃ p' ∈ (db.applyAll log).plans, p.SameAs p' ∧
      (p'.status = p.status ∨ p'.status.hasStarted = true) := by
  refine foldl_invariant (I := fun d : Db => ∃ p' ∈ d.plans, p.SameAs p' ∧
    (p'.status = p.status ∨ p'.status.hasStarted = true)) (fun d w hw hd => ?_)
    ⟨p, hp, rfl, Or.inl rfl⟩
  obtain ⟨p', hp', hsame, hstatus⟩ := hd
  cases w with
  | insertPlan row => exact ⟨p', List.mem_append_left _ hp', hsame, hstatus⟩
  | setPlanStatus id f t =>
    refine ⟨_, mem_updateWhere_of_mem hp', ?_⟩
    split_ifs
    · have hmoved : p'.SameAs { p' with status := t } := rfl
      exact ⟨hsame.trans hmoved, Or.inr (hplan id f t hw)⟩
    · exact ⟨hsame, hstatus⟩
  | _ => exact ⟨p', hp', hsame, hstatus⟩

/-- A planned row whose start is in the log is started by it. -/
theorem started_applyAll (hplan : ∀ id f t, .setPlanStatus id f t ∈ log → t.hasStarted = true)
    {p : DeletionPlan} (hp : p ∈ db.plans) (hplanned : p.status = .planned)
    (hw : .setPlanStatus p.planId .planned .localDeleting ∈ log) :
    ∃ p' ∈ (db.applyAll log).plans, p.SameAs p' ∧ p'.status.hasStarted = true := by
  refine foldl_establish hw
    (I := fun d : Db => ∃ p' ∈ d.plans, p.SameAs p' ∧
      (p'.status = .planned ∨ p'.status.hasStarted = true))
    (P := fun d : Db => ∃ p' ∈ d.plans, p.SameAs p' ∧ p'.status.hasStarted = true)
    (fun d w hmem hd => ?_) (fun d hd => ?_) (fun d w hmem _ hd => ?_)
    ⟨p, hp, rfl, Or.inl hplanned⟩
  · obtain ⟨p', hp', hsame, hstatus⟩ := hd
    cases w with
    | insertPlan row => exact ⟨p', List.mem_append_left _ hp', hsame, hstatus⟩
    | setPlanStatus id f t =>
      refine ⟨_, mem_updateWhere_of_mem hp', ?_⟩
      split_ifs
      · have hmoved : p'.SameAs { p' with status := t } := rfl
        exact ⟨hsame.trans hmoved, Or.inr (hplan id f t hmem)⟩
      · exact ⟨hsame, hstatus⟩
    | _ => exact ⟨p', hp', hsame, hstatus⟩
  · obtain ⟨p', hp', hsame, hstatus⟩ := hd
    refine ⟨_, mem_updateWhere_of_mem hp', ?_⟩
    split_ifs with hsel
    · have hmoved : p'.SameAs { p' with status := .localDeleting } := rfl
      exact ⟨hsame.trans hmoved, rfl⟩
    · refine ⟨hsame, hstatus.resolve_left fun hplanned' => hsel ?_⟩
      simp [hsame.planId, hplanned']
  · obtain ⟨p', hp', hsame, hstatus⟩ := hd
    cases w with
    | insertPlan row => exact ⟨p', List.mem_append_left _ hp', hsame, hstatus⟩
    | setPlanStatus id f t =>
      refine ⟨_, mem_updateWhere_of_mem hp', ?_⟩
      split_ifs
      · have hmoved : p'.SameAs { p' with status := t } := rfl
        exact ⟨hsame.trans hmoved, hplan id f t hmem⟩
      · exact ⟨hsame, hstatus⟩
    | _ => exact ⟨p', hp', hsame, hstatus⟩

theorem surrendered_applyAll {snapshotId : Uuid} (h : Surrendered db snapshotId)
    (hsnapshot : ∀ row, .insertSnapshot row ∈ log → row.snapshotId ≠ snapshotId)
    (hplan : ∀ id f t, .setPlanStatus id f t ∈ log → t.hasStarted = true) :
    Surrendered (db.applyAll log) snapshotId := by
  rcases h with hdeleted | ⟨p, hp, hsnap, hstarted⟩
  · left
    intro t' ht' hid
    obtain ⟨t, ht, hcase⟩ := Db.of_mem_snapshots_applyAll ht'
    have htid : t.snapshotId = snapshotId := by
      rcases hcase with rfl | ⟨rfl, -⟩ <;> exact hid
    rcases ht with ht | ht
    · rcases hcase with rfl | ⟨rfl, -⟩
      · exact hdeleted t' ht htid
      · rfl
    · exact absurd htid (hsnapshot t ht)
  · right
    obtain ⟨p', hp', hsame, hstatus⟩ := plan_applyAll hplan hp
    refine ⟨p', hp', hsame.snapshotId.trans hsnap, ?_⟩
    rcases hstatus with hkept | hnew
    · rw [hkept]; exact hstarted
    · exact hnew

end Replay

section Frame

variable {h h' : Uuid → Digest × Uuid} {fresh fresh' : ℕ} {db db' : Db} {loc : Loc}

/-- What the other sessions' steps never do to a session at `loc`. -/
structure Evolves (h : Uuid → Digest × Uuid) (fresh : ℕ) (db : Db) (h' : Uuid → Digest × Uuid)
    (fresh' : ℕ) (db' : Db) (loc : Loc) : Prop where
  fresh_le : fresh ≤ fresh'
  names : ∀ id, id < fresh → h' id = h id
  artifacts : ∀ a ∈ db.artifacts, a ∈ db'.artifacts
  added : ∀ a ∈ db'.artifacts, a ∈ db.artifacts ∨
    loc.removing? ≠ some (.localDigest a.sha256Hash) ∧
      ∀ snapshotId, pending? loc = some snapshotId → a.snapshotId ≠ snapshotId
  surrendered : ∀ a ∈ db.artifacts, Surrendered db a.snapshotId → Surrendered db' a.snapshotId
  plans : ∀ p ∈ db.plans, ∃ p' ∈ db'.plans, p.SameAs p' ∧
    (p'.status = p.status ∨ p'.status.hasStarted = true)

variable (hev : Evolves h fresh db h' fresh' db' loc)
include hev

theorem Evolves.named {a : SnapshotArtifact} (hn : Named h fresh a) : Named h' fresh' a :=
  ⟨Nat.lt_of_lt_of_le hn.1 hev.fresh_le, (hev.names _ hn.1).trans hn.2⟩

theorem Evolves.unitOk {unit : StageUnit} (hu : UnitOk h fresh unit) : UnitOk h' fresh' unit := by
  cases unit with
  | artifact a =>
    refine ⟨Nat.lt_of_lt_of_le hu.1 hev.fresh_le, ?_⟩
    rw [hev.names _ hu.1]
    exact hu.2
  | _ => trivial

theorem Evolves.planRead {planId snapshotId : Uuid} {status : PlanStatus}
    (hp : PlanRead db planId snapshotId status) : PlanRead db' planId snapshotId status := by
  obtain ⟨p, hmem, hid, hsnapshot, hstatus⟩ := hp
  obtain ⟨p', hmem', hsame, hstatus'⟩ := hev.plans p hmem
  refine ⟨p', hmem', hsame.planId.trans hid, hsame.snapshotId.trans hsnapshot, ?_⟩
  rcases hstatus' with hkept | hstarted
  · rw [hkept]; exact hstatus
  · exact Or.inr hstarted

theorem Evolves.planReady {log : List Write} {planId snapshotId : Uuid}
    (hp : PlanReady db log planId snapshotId) : PlanReady db' log planId snapshotId := by
  obtain ⟨p, hmem, hid, hsnapshot, hstatus⟩ := hp
  obtain ⟨p', hmem', hsame, hstatus'⟩ := hev.plans p hmem
  refine ⟨p', hmem', hsame.planId.trans hid, hsame.snapshotId.trans hsnapshot, ?_⟩
  rcases hstatus' with hkept | hstarted
  · rw [hkept]; exact hstatus
  · exact Or.inl hstarted

theorem Evolves.selected {unit : StageUnit} {object : PhysicalIdentity} {snapshotId : Uuid}
    (hs : Selected db unit object snapshotId) : Selected db' unit object snapshotId := by
  refine ⟨hs.1, fun digest hd => ?_⟩
  obtain ⟨a, ha, hrest⟩ := hs.2 digest hd
  exact ⟨a, hev.artifacts a ha, hrest⟩

theorem Evolves.exposed {unit : StageUnit} {object : PhysicalIdentity} {own own' : Uuid → Prop}
    (hremoving : loc.removing? = some object) (hown : ∀ id, own id → own' id)
    (hs : Exposed db unit object own) : Exposed db' unit object own' := by
  refine ⟨hs.1, fun digest hd a ha hhash => ?_⟩
  rcases hev.added a ha with hold | ⟨hnot, -⟩
  · exact (hs.2 digest hd a hold hhash).imp (hev.surrendered a hold) (hown _)
  · refine absurd ?_ hnot
    rw [hremoving, hd, hhash]

omit hev in
theorem Evolves.claimOk {job : Job} {at_ : ClaimLoc} {log : List Write}
    (hev : Evolves h fresh db h' fresh' db' (.worker (.claim job at_)))
    (hc : ClaimOk db log job at_) : ClaimOk db' log job at_ := by
  have hown : ∀ id, PlanReady db log job.plan.planId id → PlanReady db' log job.plan.planId id :=
    fun _ hp => hev.planReady hp
  cases at_ with
  | refusal row => exact hev.planRead hc
  | identity row => exact hev.planRead hc
  | advance row object => exact ⟨hev.planRead hc.1, hev.selected hc.2⟩
  | abandonStage row object => exact ⟨hev.planReady hc.1, hev.selected hc.2⟩
  | lock row object => exact ⟨hev.planReady hc.1, hev.selected hc.2⟩
  | shared row object => exact ⟨hev.planReady hc.1, hev.selected hc.2⟩
  | abandonClaims row object => exact hev.exposed rfl hown hc
  | insertClaim row object => exact hev.exposed rfl hown hc
  | insertAttempt row object claimId => exact hev.exposed rfl hown hc
  | commitClaimed object claimId attemptId => exact hev.exposed rfl hown hc
  | _ => trivial

omit hev in
theorem Evolves.captureOk {at_ : CaptureLoc} {log : List Write}
    (hev : Evolves h fresh db h' fresh' db' (.capture at_)) (hc : CaptureOk h fresh db log at_) :
    CaptureOk h' fresh' db' log at_ := by
  unfold CaptureOk at hc ⊢
  cases hrec : recording? at_ with
  | none => rw [hrec] at hc; exact hc
  | some snapshotId =>
    rw [hrec] at hc
    have hrecording : Recording h fresh db log snapshotId := hc
    refine ⟨Nat.lt_of_lt_of_le hrecording.id_lt hev.fresh_le, fun a ha => ?_, fun w hw => ?_⟩
    · rcases hev.added a ha with hold | ⟨-, hnew⟩
      · exact hrecording.unused a hold
      · exact hnew snapshotId hrec
    · rcases hrecording.writes w hw with hs | ⟨row, rfl, hsnap, hn⟩ | hm
      · exact Or.inl hs
      · exact Or.inr (Or.inl ⟨row, rfl, hsnap, hev.named hn⟩)
      · exact Or.inr (Or.inr hm)

omit hev in
theorem Evolves.locOk {log : List Write} (hev : Evolves h fresh db h' fresh' db' loc)
    (hc : LocOk h fresh db log loc) : LocOk h' fresh' db' log loc := by
  cases loc with
  | idle => trivial
  | transition request at_ => exact hc.elim
  | capture at_ => exact hev.captureOk hc
  | worker at_ =>
    obtain ⟨hcarries, hwork, hlog⟩ := hc
    refine ⟨hcarries.mono (fun _ hu => hev.unitOk hu) (fun _ hn => hev.named hn), ?_, hlog⟩
    cases at_ with
    | claim job loc => exact hev.claimOk hwork
    | effect job object claimId attemptId =>
      have hexposed : Exposed db job.unit object fun _ => False := hwork
      exact hev.exposed rfl (fun _ hf => hf) hexposed
    | _ => trivial

end Frame

section Statements

variable {h : Uuid → Digest × Uuid} {fresh : ℕ} {db : Db} {log : List Write} {m : Moment}
  {locks : List Lock} {writes : List Write}

theorem artifacts_view {at_ : WorkerLoc} (hlog : ∀ w ∈ log, WorkerWriteOk at_ w) :
    (db.applyAll log).artifacts = db.artifacts := by
  refine foldl_invariant (I := fun d : Db => d.artifacts = db.artifacts) (fun d w hw hd => ?_) rfl
  have hok := hlog w hw
  cases w with
  | insertArtifact row => exact hok.elim
  | _ => exact hd

theorem snapshots_view {at_ : WorkerLoc} (hlog : ∀ w ∈ log, WorkerWriteOk at_ w)
    (hat : completing at_ = false) : (db.applyAll log).snapshots = db.snapshots := by
  refine foldl_invariant (I := fun d : Db => d.snapshots = db.snapshots) (fun d w hw hd => ?_) rfl
  have hok := hlog w hw
  cases w with
  | insertSnapshot row => exact hok.elim
  | setSnapshotDeleted id =>
    have hcompleting : completing at_ = true := hok
    rw [hat] at hcompleting
    cases hcompleting
  | _ => exact hd

theorem selected_of_stageIdentity (hnamed : ∀ a ∈ db.artifacts, Named h fresh a) {view : Db}
    (hview : view.artifacts = db.artifacts) {unit : StageUnit} (hunit : UnitOk h fresh unit)
    {snapshotId : Uuid} {object : PhysicalIdentity}
    (hid : view.stageIdentity snapshotId unit.stage = some object) :
    Selected db unit object snapshotId := by
  cases unit with
  | artifact e =>
    obtain ⟨a, hfind, rfl⟩ := Option.map_eq_some_iff.mp hid
    have hmem : a ∈ db.artifacts := hview ▸ List.mem_of_find?_eq_some hfind
    have hprop := List.find?_some hfind
    simp only [Bool.and_eq_true, beq_iff_eq] at hprop
    obtain ⟨hartifact, hsnapshot⟩ := hprop
    refine ⟨fun e' he' => ?_, fun digest hd => ⟨a, hmem, ?_, hsnapshot, ?_⟩⟩
    · obtain rfl := StageUnit.artifact.inj he'
      rw [← hunit.2, ← hartifact, (hnamed a hmem).2]
    · exact PhysicalIdentity.localDigest.inj hd
    · rw [hartifact]
      rfl
  | mirror =>
    simp only [StageUnit.stage, Db.stageIdentity, Option.bind_eq_some_iff,
      Option.map_eq_some_iff] at hid
    obtain ⟨_, _, _, _, rfl⟩ := hid
    exact ⟨fun e he => (by cases he), fun digest hd => by cases hd⟩
  | replica e stored =>
    obtain ⟨p, -, rfl⟩ := Option.map_eq_some_iff.mp hid
    exact ⟨fun e he => (by cases he), fun digest hd => by cases hd⟩

/-- An object found unshared has no other row that still counts. -/
theorem exposed_of_notShared (hnamed : ∀ a ∈ db.artifacts, Named h fresh a) {view : Db}
    (hview : view.artifacts = db.artifacts) (hsnapshots : view.snapshots = db.snapshots)
    {unit : StageUnit} {object : PhysicalIdentity} {snapshotId planId : Uuid}
    (hselected : Selected db unit object snapshotId) (hready : PlanReady db log planId snapshotId)
    (hshared : view.identityIsShared snapshotId unit.stage = false) :
    Exposed db unit object (PlanReady db log planId) := by
  refine ⟨hselected.1, fun digest hd a ha hhash => ?_⟩
  obtain ⟨a₀, ha₀, hhash₀, hsnapshot₀, hstage⟩ := hselected.2 digest hd
  by_cases hown : a.snapshotId = snapshotId
  · right
    rw [hown]
    exact hready
  · left
    left
    intro t ht hid
    by_contra hkept
    rw [hstage] at hshared
    have htrue : view.identityIsShared snapshotId (.artifact a₀.artifactId) = true := by
      refine List.any_eq_true.mpr ⟨a₀, hview ▸ ha₀, ?_⟩
      have hretained : view.snapshotIsRetained a.snapshotId = true :=
        List.any_eq_true.mpr ⟨t, hsnapshots ▸ ht, by simp [hid, hkept]⟩
      have hother : a.artifactId ≠ a₀.artifactId := by
        intro heq
        have hname := (hnamed a ha).2
        rw [heq, (hnamed a₀ ha₀).2] at hname
        exact hown ((Prod.mk.inj hname).2.symm.trans hsnapshot₀)
      simp only [beq_self_eq_true, hsnapshot₀, Bool.true_and, List.any_eq_true]
      refine ⟨a, hview ▸ ha, ?_⟩
      simp [hhash, hhash₀, hother, hown, hretained]
    rw [hshared] at htrue
    cases htrue

theorem PlanReady.append {planId snapshotId : Uuid} (hp : PlanReady db log planId snapshotId) :
    PlanReady db (log ++ writes) planId snapshotId := by
  obtain ⟨p, hmem, hid, hsnapshot, hstatus⟩ := hp
  exact ⟨p, hmem, hid, hsnapshot,
    hstatus.imp_right fun ⟨hplanned, hw⟩ => ⟨hplanned, List.mem_append_left _ hw⟩⟩

theorem Exposed.append {unit : StageUnit} {object : PhysicalIdentity} {planId : Uuid}
    (he : Exposed db unit object (PlanReady db log planId)) :
    Exposed db unit object (PlanReady db (log ++ writes) planId) :=
  ⟨he.1, fun digest hd a ha hhash => (he.2 digest hd a ha hhash).imp_right .append⟩

theorem worker_writes {at_ n : WorkerLoc} (hlog : ∀ w ∈ log, WorkerWriteOk at_ w)
    (hstmt : WorkerStmt m (db.applyAll log) at_ locks writes n) :
    ∀ w ∈ log ++ writes, WorkerWriteOk n w := by
  intro w hw
  rcases List.mem_append.mp hw with hw | hw
  · have hok := hlog w hw
    cases w with
    | setSnapshotDeleted id =>
      have hcompleting : completing at_ = true := hok
      cases hstmt <;> exact hcompleting
    | _ => exact hok
  · cases hstmt <;> simp only [List.mem_singleton, List.not_mem_nil, List.mem_map] at hw
    case abandonStage => obtain ⟨a, -, rfl⟩ := hw; trivial
    case abandonClaims => obtain ⟨c, -, rfl⟩ := hw; trivial
    all_goals
      subst hw
      trivial

theorem worker_stmt {at_ n : WorkerLoc} (hnamed : ∀ a ∈ db.artifacts, Named h fresh a)
    (hrest : at_.atRest = true → log = []) (hok : LocOk h fresh db log (.worker at_))
    (hstmt : WorkerStmt m (db.applyAll log) at_ locks writes n) :
    LocOk h fresh db (log ++ writes) (.worker n) := by
  obtain ⟨hcarries, hwork, hlog⟩ := hok
  have hview : (db.applyAll log).artifacts = db.artifacts := artifacts_view hlog
  refine ⟨hstmt.carries hcarries, ?_, worker_writes hlog hstmt⟩
  cases hstmt with
  | @claimLoad job plan hplan =>
    have hnil : log = [] := hrest rfl
    subst hnil
    have hmem : plan ∈ db.plans := List.mem_of_find?_eq_some hplan
    have hid : plan.planId = job.plan.planId := by simpa using List.find?_some hplan
    exact ⟨plan, hmem, hid, rfl, Or.inl rfl⟩
  | accept => exact hwork
  | identity hidentity =>
    exact ⟨hwork, selected_of_stageIdentity hnamed hview hcarries.1 hidentity⟩
  | advancePlanned hstatus =>
    obtain ⟨⟨p, hmem, hid, hsnapshot, hp⟩, hselected⟩ := hwork
    refine ⟨⟨p, hmem, hid, hsnapshot, ?_⟩, hselected⟩
    rcases hp with hsame | hstarted
    · exact Or.inr ⟨hsame.trans hstatus, by simp⟩
    · exact Or.inl hstarted
  | advanceStarted hstatus =>
    obtain ⟨⟨p, hmem, hid, hsnapshot, hp⟩, hselected⟩ := hwork
    refine ⟨⟨p, hmem, hid, hsnapshot, Or.inl ?_⟩, hselected⟩
    rcases hp with hsame | hstarted
    · rw [hsame]
      rcases hstatus with hstatus | hstatus <;> rw [hstatus] <;> rfl
    · exact hstarted
  | abandonStage => exact ⟨hwork.1.append, hwork.2⟩
  | lockIdentity => exact ⟨hwork.1.append, hwork.2⟩
  | notShared hshared =>
    exact (exposed_of_notShared hnamed hview (snapshots_view hlog rfl) hwork.2 hwork.1
      hshared).append
  | abandonClaims => exact Exposed.append hwork
  | insertClaim => exact Exposed.append hwork
  | insertAttempt => exact Exposed.append hwork
  | _ => trivial

theorem capture_stmt {at_ n : CaptureLoc} (hm : m.fresh = fresh)
    (hsnapshots : ∀ a ∈ db.artifacts, a.snapshotId < fresh)
    (hok : LocOk h fresh db log (.capture at_))
    (hstmt : CaptureStmt m (db.applyAll log) at_ locks writes n) :
    ∃ h', (∀ id, id < fresh → h' id = h id) ∧
      LocOk h' (fresh + 1) db (log ++ writes) (.capture n) := by
  have hev : ∀ h', (∀ id, id < fresh → h' id = h id) → ∀ loc,
      Evolves h fresh db h' (fresh + 1) db loc := fun h' hh loc =>
    ⟨Nat.le_succ fresh, hh, fun _ ha => ha, fun _ ha => Or.inl ha, fun _ _ hs => hs,
      fun p hp => ⟨p, hp, rfl, Or.inl rfl⟩⟩
  have hkeep : LocOk h (fresh + 1) db (log ++ writes) (.capture n) →
      ∃ h', (∀ id, id < fresh → h' id = h id) ∧
        LocOk h' (fresh + 1) db (log ++ writes) (.capture n) :=
    fun hn => ⟨h, fun _ _ => rfl, hn⟩
  have hok' := (hev h (fun _ _ => rfl) _).locOk hok
  cases hstmt with
  | recordSource => exact hkeep (by rw [List.append_nil]; exact hok')
  | recordParent => exact hkeep (by rw [List.append_nil]; exact hok')
  | @insertSnapshot built row hid =>
    have hnil : log = [] := hok
    subst hnil
    refine hkeep ⟨?_, fun a ha => ?_, fun w hw => ?_⟩
    · rw [hm]; exact Nat.lt_succ_self fresh
    · rw [hm]; exact Nat.ne_of_lt (hsnapshots a ha)
    · exact Or.inl ⟨row, by simpa using hw, hid⟩
  | artifactStart => exact hkeep (by rw [List.append_nil]; exact hok')
  | artifactsDone => exact hkeep (by rw [List.append_nil]; exact hok')
  | @artifactLock built snapshotId kind reference todo leases hleases =>
    have hh : ∀ id, id < fresh →
        Function.update h fresh (reference.sha256, snapshotId) id = h id :=
      fun id hid => Function.update_of_ne (Nat.ne_of_lt hid) _ _
    have hrecording : Recording _ (fresh + 1) db log snapshotId := (hev _ hh _).locOk hok
    refine ⟨_, hh, hrecording.id_lt, hrecording.unused, fun w hw => ?_⟩
    rcases List.mem_append.mp hw with hw | hw
    · exact hrecording.writes w hw
    · refine Or.inr (Or.inl ⟨_, List.mem_singleton.mp hw, rfl, ?_, ?_⟩)
      · rw [hm]; exact Nat.lt_succ_self fresh
      · rw [hm]; exact Function.update_self ..
  | @insertManifest built snapshotId =>
    have hrecording : Recording h (fresh + 1) db log snapshotId := hok'
    refine hkeep ⟨hrecording.id_lt, hrecording.unused, fun w hw => ?_⟩
    rcases List.mem_append.mp hw with hw | hw
    · exact hrecording.writes w hw
    · exact Or.inr (Or.inr ⟨_, List.mem_singleton.mp hw⟩)

end Statements

section Steps

variable {settings : Settings} {h h' : Uuid → Digest × Uuid} {s s' : State} {i : ℕ}

theorem LocOk.not_removing {fresh : ℕ} {db : Db} {log : List Write} {loc : Loc}
    (hok : LocOk h fresh db log loc) {row : SnapshotArtifact} (hw : .insertArtifact row ∈ log) :
    loc.removing? = none := by
  cases loc with
  | worker at_ => exact (hok.2.2 _ hw).elim
  | _ => rfl

/-- What session `i` brings along when it moves on beside the others. -/
structure Joins (h : Uuid → Digest × Uuid) (s : State) (i fresh : ℕ) (db : Db) (storage : Storage)
    (σ : Session Write Loc) : Prop where
  recorded : ∀ row, .insertArtifact row ∈ σ.log → storage.blobs.files row.sha256Hash ≠ none
  writes : ∀ row, .insertArtifact row ∈ σ.log → ∀ j, j ≠ i →
    (s.session j).loc.removing? ≠ some (.localDigest row.sha256Hash)
  removing : ∀ digest, σ.loc.removing? = some (.localDigest digest) → ∀ j, j ≠ i →
    ∀ row, .insertArtifact row ∈ (s.session j).log → row.sha256Hash ≠ digest
  pending : ∀ snapshotId, pending? σ.loc = some snapshotId → ∀ j, j ≠ i →
    pending? (s.session j).loc ≠ some snapshotId
  ok : LocOk h fresh db σ.log σ.loc

/-- A session outside a transaction that is about to remove nothing. -/
theorem joins_rest {fresh : ℕ} {db : Db} {storage : Storage} {loc : Loc} {began : Option ℕ}
    (hremoving : loc.removing? = none) (hpending : pending? loc = none)
    (hok : LocOk h fresh db [] loc) : Joins h s i fresh db storage ⟨loc, [], began⟩ where
  recorded row hw := absurd hw List.not_mem_nil
  writes row hw := absurd hw List.not_mem_nil
  removing digest hr := by
    rw [hremoving] at hr
    cases hr
  pending snapshotId hp := by
    rw [hpending] at hp
    cases hp
  ok := hok

theorem Inv.frame {σ : Session Write Loc} (hinv : Inv h s) (hlocked : Locked discipline s')
    (hsession : s'.session = (s.setSession i σ).session)
    (hnamed : ∀ a ∈ s'.db.artifacts, Named h' s'.fresh a)
    (hids : ∀ a ∈ s'.db.artifacts, a.snapshotId < s'.fresh)
    (hpresent : BytesPresent s'.db s'.world)
    (hfiles : ∀ j, j ≠ i → ∀ row, .insertArtifact row ∈ (s.session j).log →
      s'.world.blobs.files row.sha256Hash ≠ none)
    (hevolves : ∀ j, j ≠ i → Evolves h s.fresh s.db h' s'.fresh s'.db (s.session j).loc)
    (hσ : Joins h' s i s'.fresh s'.db s'.world σ) : Inv h' s' := by
  have hself : s'.session i = σ := by rw [hsession, State.setSession_session_self]
  have hother : ∀ j, j ≠ i → s'.session j = s.session j := fun j hji => by
    rw [hsession, State.setSession_session_of_ne hji]
  refine ⟨hlocked, hnamed, hids, hpresent, fun j => ?_, fun j k row hw => ?_,
    fun j k snapshotId hj hk => ?_, fun j => ?_⟩
  · by_cases hji : j = i
    · rw [hji, hself]
      exact hσ.recorded
    · rw [hother j hji]
      exact hfiles j hji
  · by_cases hji : j = i
    · rw [hji, hself] at hw
      by_cases hki : k = i
      · rw [hki, hself, hσ.ok.not_removing hw]
        simp
      · rw [hother k hki]
        exact hσ.writes row hw k hki
    · rw [hother j hji] at hw
      by_cases hki : k = i
      · rw [hki, hself]
        exact fun hr => hσ.removing _ hr j hji row hw rfl
      · rw [hother k hki]
        exact hinv.disjoint j k row hw
  · by_cases hji : j = i
    · rw [hji, hself] at hj
      by_cases hki : k = i
      · rw [hji, hki]
      · rw [hother k hki] at hk
        exact absurd hk (hσ.pending snapshotId hj k hki)
    · rw [hother j hji] at hj
      by_cases hki : k = i
      · rw [hki, hself] at hk
        exact absurd hj (hσ.pending snapshotId hk j hji)
      · rw [hother k hki] at hk
        exact hinv.pending j k snapshotId hj hk
  · by_cases hji : j = i
    · rw [hji, hself]
      exact hσ.ok
    · rw [hother j hji]
      exact (hevolves j hji).locOk (hinv.sessions j)

theorem evolves_names {fresh fresh' : ℕ} {db : Db} {loc : Loc} (hfresh : fresh ≤ fresh')
    (hh : ∀ id, id < fresh → h' id = h id) : Evolves h fresh db h' fresh' db loc :=
  ⟨hfresh, hh, fun _ ha => ha, fun _ ha => Or.inl ha, fun _ _ hs => hs,
    fun p hp => ⟨p, hp, rfl, Or.inl rfl⟩⟩

/-- A step that leaves the catalogue and the bytes as they are. -/
theorem Inv.moved {σ : Session Write Loc} (hinv : Inv h s) (hlocked : Locked discipline s')
    (hsession : s'.session = (s.setSession i σ).session) (hdb : s'.db = s.db)
    (hworld : s'.world = s.world) (hfresh : s.fresh ≤ s'.fresh)
    (hh : ∀ id, id < s.fresh → h' id = h id)
    (hσ : Joins h' s i s'.fresh s.db s.world σ) : Inv h' s' := by
  refine hinv.frame hlocked hsession (fun a ha => ?_) (fun a ha => ?_) ?_ (fun j _ => ?_)
    (fun j _ => ?_) (by rw [hdb, hworld]; exact hσ)
  · rw [hdb] at ha
    have hn := hinv.named a ha
    exact ⟨Nat.lt_of_lt_of_le hn.1 hfresh, (hh _ hn.1).trans hn.2⟩
  · rw [hdb] at ha
    exact Nat.lt_of_lt_of_le (hinv.snapshot_ids a ha) hfresh
  · rw [hdb, hworld]
    exact hinv.present
  · rw [hworld]
    exact hinv.recorded j
  · rw [hdb]
    exact evolves_names hfresh hh

theorem removing_locked {m : Moment} {view : Db} {at_ n : WorkerLoc} {locks : List Lock}
    {writes : List Write} (hstmt : WorkerStmt m view at_ locks writes n)
    {object : PhysicalIdentity} (hr : n.removing? = some object) : .identity object ∈ n.locks := by
  cases hstmt <;> cases hr <;> simp [WorkerLoc.locks, ClaimLoc.locks]

theorem Inv.workerStmt (hinv : Inv h s) {at_ n : WorkerLoc} {m : Moment} {locks : List Lock}
    {writes : List Write} (hloc : (s.session i).loc = .worker at_)
    (hstmt : WorkerStmt m (s.db.applyAll (s.session i).log) at_ locks writes n)
    (hlocked : Locked discipline (Machine.afterStmt s i locks writes (.worker n))) :
    Inv h (Machine.afterStmt s i locks writes (.worker n)) := by
  have hok := hinv.sessions i
  rw [hloc] at hok
  have hrest : at_.atRest = true → (s.session i).log = [] := fun hat =>
    hinv.locked.unwritten i (by rw [hloc]; exact hat)
  have hok' := (evolves_names (Nat.le_succ s.fresh) fun _ _ => rfl).locOk
    (worker_stmt hinv.named hrest hok hstmt)
  refine hinv.moved hlocked (i := i) rfl rfl rfl (Nat.le_succ _) (fun _ _ => rfl) ?_
  refine ⟨fun row hw => (hok'.2.2 _ hw).elim, fun row hw => (hok'.2.2 _ hw).elim,
    fun digest hr j hji row hw hhash => ?_, fun _ hp => (by cases hp), hok'⟩
  -- The sharing check is made under the lock of the digest, an artifact row is inserted under it.
  refine hji (hlocked.unique (l := .identity (.localDigest digest)) ?_ ?_)
  · rw [show (Machine.afterStmt s i locks writes (.worker n)).session j = s.session j from
      State.setSession_session_of_ne hji]
    exact mem_needs_of_write hw (by simp [Write.locks, hhash])
  · rw [show (Machine.afterStmt s i locks writes (.worker n)).session i
      = ⟨.worker n, (s.session i).log ++ writes, some (s.moment i).now⟩ from
      State.setSession_session_self]
    exact mem_needs_of_loc (removing_locked hstmt hr)

theorem pending_stmt {m : Moment} {view : Db} {at_ n : CaptureLoc} {locks : List Lock}
    {writes : List Write} (hstmt : CaptureStmt m view at_ locks writes n) :
    pending? (.capture n) = pending? (.capture at_) ∨ pending? (.capture n) = some m.fresh := by
  cases hstmt <;> first | exact Or.inl rfl | exact Or.inr rfl

theorem Inv.pending_lt (hinv : Inv h s) {snapshotId : Uuid}
    (hp : pending? (s.session i).loc = some snapshotId) : snapshotId < s.fresh := by
  have hok := hinv.sessions i
  cases hloc : (s.session i).loc with
  | capture at_ =>
    rw [hloc] at hp hok
    have hrec : recording? at_ = some snapshotId := hp
    have hcapture : CaptureOk h s.fresh s.db (s.session i).log at_ := hok
    unfold CaptureOk at hcapture
    rw [hrec] at hcapture
    exact hcapture.id_lt
  | _ => rw [hloc] at hp; cases hp

theorem Inv.captureStmt (hinv : Inv h s) {at_ n : CaptureLoc} {m : Moment} {locks : List Lock}
    {writes : List Write} (hloc : (s.session i).loc = .capture at_) (hfresh : m.fresh = s.fresh)
    (hstmt : CaptureStmt m (s.db.applyAll (s.session i).log) at_ locks writes n)
    (hcondition : ∀ built snapshotId kind reference todo leases,
      at_ = .artifactLock built snapshotId kind reference todo leases →
      (∀ lease ∈ leases, lease ≤ m.clock) →
      s.world.blobs.files reference.sha256 ≠ none ∧
        ∀ j, (s.session j).loc.removing? ≠ some (.localDigest reference.sha256))
    (hlocked : Locked discipline (Machine.afterStmt s i locks writes (.capture n))) :
    ∃ h', Inv h' (Machine.afterStmt s i locks writes (.capture n)) := by
  have hok := hinv.sessions i
  rw [hloc] at hok
  obtain ⟨h', hh, hok'⟩ := capture_stmt hfresh hinv.snapshot_ids hok hstmt
  refine ⟨h', hinv.moved hlocked (i := i) rfl rfl rfl (Nat.le_succ _) hh ?_⟩
  have hnew : ∀ row, .insertArtifact row ∈ writes → s.world.blobs.files row.sha256Hash ≠ none ∧
      ∀ j, (s.session j).loc.removing? ≠ some (.localDigest row.sha256Hash) := by
    intro row hw
    cases hstmt with
    | artifactLock hleases =>
      cases List.mem_singleton.mp hw
      exact hcondition _ _ _ _ _ _ rfl hleases
    | insertSnapshot => cases List.mem_singleton.mp hw
    | insertManifest => cases List.mem_singleton.mp hw
    | _ => cases hw
  refine ⟨fun row hw => ?_, fun row hw j _ => ?_, fun _ hr => (by cases hr),
    fun snapshotId hp j hji hpj => ?_, hok'⟩
  · rcases List.mem_append.mp hw with hold | hadded
    · exact hinv.recorded i row hold
    · exact (hnew row hadded).1
  · rcases List.mem_append.mp hw with hold | hadded
    · exact hinv.disjoint i j row hold
    · exact (hnew row hadded).2 j
  · rcases pending_stmt hstmt with hsame | hnew
    · exact hji (hinv.pending j i snapshotId hpj (by rw [hloc, ← hsame]; exact hp))
    · have hnew' : snapshotId = s.fresh := by
        rw [← hfresh]
        exact Option.some.inj (hp.symm.trans hnew)
      exact absurd (hinv.pending_lt hpj) (hnew' ▸ Nat.lt_irrefl _)

theorem hasStarted_of_writes {at_ : WorkerLoc} {log : List Write}
    (hlog : ∀ w ∈ log, WorkerWriteOk at_ w) :
    ∀ id f t, .setPlanStatus id f t ∈ log → t.hasStarted = true :=
  fun _ _ _ hw => hlog _ hw

/-- Writes of a worker on the catalogue, as the others see them. -/
theorem evolves_worker {at_ : WorkerLoc} {fresh fresh' : ℕ} {db : Db} {log : List Write} {loc : Loc}
    (hfresh : fresh ≤ fresh') (hlog : ∀ w ∈ log, WorkerWriteOk at_ w) :
    Evolves h fresh db h fresh' (db.applyAll log) loc := by
  have hview : (db.applyAll log).artifacts = db.artifacts := artifacts_view hlog
  refine ⟨hfresh, fun _ _ => rfl, fun a ha => ?_, fun a ha => ?_, fun a _ hs => ?_,
    fun p hp => plan_applyAll (hasStarted_of_writes hlog) hp⟩
  · rw [hview]; exact ha
  · rw [hview] at ha; exact Or.inl ha
  · exact surrendered_applyAll hs (fun row hw => (hlog _ hw).elim) (hasStarted_of_writes hlog)

/-- A step after which the catalogue has the same artifact rows and the others' bytes. -/
theorem Inv.written {σ : Session Write Loc} {at_ : WorkerLoc} {writes : List Write}
    (hinv : Inv h s) (hlocked : Locked discipline s')
    (hsession : s'.session = (s.setSession i σ).session)
    (hwrites : ∀ w ∈ writes, WorkerWriteOk at_ w) (hdb : s'.db = s.db.applyAll writes)
    (hworld : s'.world = s.world) (hfresh : s.fresh ≤ s'.fresh)
    (hσ : Joins h s i s'.fresh (s.db.applyAll writes) s.world σ) : Inv h s' := by
  have hview : s'.db.artifacts = s.db.artifacts := by rw [hdb]; exact artifacts_view hwrites
  refine hinv.frame hlocked hsession (fun a ha => ?_) (fun a ha => ?_) (fun a ha hs => ?_)
    (fun j _ => ?_) (fun j _ => ?_) (by rw [hdb, hworld]; exact hσ)
  · rw [hview] at ha
    exact ⟨Nat.lt_of_lt_of_le (hinv.named a ha).1 hfresh, (hinv.named a ha).2⟩
  · rw [hview] at ha
    exact Nat.lt_of_lt_of_le (hinv.snapshot_ids a ha) hfresh
  · rw [hview] at ha
    rw [hworld]
    refine hinv.present a ha fun hsurrendered => hs ?_
    rw [hdb]
    exact surrendered_applyAll hsurrendered (fun row hw => (hwrites _ hw).elim)
      (hasStarted_of_writes hwrites)
  · rw [hworld]
    exact hinv.recorded j
  · rw [hdb]
    exact evolves_worker hfresh hwrites

theorem removing_next {plan : DeletionExecutionPlan} {tasks : List Task} :
    (WorkerLoc.next plan tasks).removing? = none := by
  match tasks with
  | [] => rfl
  | .stage unit :: rest => rfl
  | .advance :: rest => rfl
  | .complete :: rest => rfl

theorem workerOk_next {db : Db} {log : List Write} {plan : DeletionExecutionPlan}
    {tasks : List Task} : WorkerOk db log (WorkerLoc.next plan tasks) := by
  match tasks with
  | [] => trivial
  | .stage unit :: rest => trivial
  | .advance :: rest => trivial
  | .complete :: rest => trivial

/-- A claim that commits has surrendered its own snapshot too. -/
theorem exposed_commit {at_ : WorkerLoc} {db : Db} {log : List Write} {unit : StageUnit}
    {object : PhysicalIdentity} {planId : Uuid} (hlog : ∀ w ∈ log, WorkerWriteOk at_ w)
    (he : Exposed db unit object (PlanReady db log planId)) :
    Exposed (db.applyAll log) unit object fun _ => False := by
  have hstarted := hasStarted_of_writes hlog
  refine ⟨he.1, fun digest hd a ha hhash => Or.inl ?_⟩
  rw [artifacts_view hlog] at ha
  rcases he.2 digest hd a ha hhash with hs | ⟨p, hp, rfl, hsnapshot, hstatus⟩
  · exact surrendered_applyAll hs (fun row hw => (hlog _ hw).elim) hstarted
  · right
    rcases hstatus with hp' | ⟨hplanned, hw⟩
    · obtain ⟨p', hmem, hsame, hstatus'⟩ := plan_applyAll hstarted hp
      refine ⟨p', hmem, hsame.snapshotId.trans hsnapshot, ?_⟩
      rcases hstatus' with hkept | hnew
      · rw [hkept]; exact hp'
      · exact hnew
    · obtain ⟨p', hmem, hsame, hnew⟩ := started_applyAll hstarted hp hplanned hw
      exact ⟨p', hmem, hsame.snapshotId.trans hsnapshot, hnew⟩

theorem Inv.workerCommit (hinv : Inv h s) {at_ n : WorkerLoc}
    (hloc : (s.session i).loc = .worker at_) (hcommit : WorkerCommit at_ n)
    (hlocked : Locked discipline ((machine settings).afterCommit s i (.worker n))) :
    Inv h ((machine settings).afterCommit s i (.worker n)) := by
  have hok := hinv.sessions i
  rw [hloc] at hok
  obtain ⟨hcarries, hwork, hlog⟩ := hok
  have hnil : ∀ w ∈ ([] : List Write), WorkerWriteOk n w := fun _ hw => absurd hw List.not_mem_nil
  refine hinv.written hlocked (i := i) rfl hlog rfl rfl (Nat.le_refl _) ?_
  by_cases hremoving : n.removing? = none
  · refine joins_rest hremoving rfl
      ⟨hcommit.carries hcarries, ?_, hnil⟩
    cases hcommit with
    | shared => exact workerOk_next
    | claimed => cases hremoving
    | recorded => exact workerOk_next
    | _ => trivial
  · cases hcommit with
    | @claimed job object claimId attemptId =>
      refine ⟨fun _ hw => absurd hw List.not_mem_nil, fun _ hw => absurd hw List.not_mem_nil,
        fun digest hr j hji row hw hhash => ?_, fun _ hp => (by cases hp),
        hcarries, exposed_commit hlog hwork, hnil⟩
      refine hinv.disjoint j i row hw ?_
      rw [hloc, hhash]
      exact hr
    | shared => exact absurd removing_next hremoving
    | recorded => exact absurd removing_next hremoving
    | _ => exact absurd rfl hremoving

theorem artifacts_recorded {fresh : ℕ} {db : Db} {log : List Write} {snapshotId : Uuid}
    (hrecording : Recording h fresh db log snapshotId) {a : SnapshotArtifact}
    (ha : a ∈ (db.applyAll log).artifacts) :
    a ∈ db.artifacts ∨ (.insertArtifact a ∈ log ∧ a.snapshotId = snapshotId ∧ Named h fresh a) := by
  rcases Db.of_mem_artifacts_applyAll ha with hold | hnew
  · exact Or.inl hold
  · rcases hrecording.writes _ hnew with ⟨_, heq, _⟩ | ⟨row, heq, hrest⟩ | ⟨_, heq⟩
    · cases heq
    · cases heq
      exact Or.inr ⟨hnew, hrest⟩
    · cases heq

theorem Inv.captureCommit (hinv : Inv h s) {built : BuiltSnapshot} {snapshotId : Uuid}
    (hloc : (s.session i).loc = .capture (.commit built snapshotId))
    (hlocked : Locked discipline
      ((machine settings).afterCommit s i (.capture (.finished (some snapshotId))))) :
    Inv h ((machine settings).afterCommit s i (.capture (.finished (some snapshotId)))) := by
  have hok := hinv.sessions i
  rw [hloc] at hok
  have hrecording : Recording h s.fresh s.db (s.session i).log snapshotId := hok
  have hplan : ∀ id f t, .setPlanStatus id f t ∈ (s.session i).log → t.hasStarted = true := by
    intro id f t hw
    rcases hrecording.writes _ hw with ⟨_, heq, _⟩ | ⟨_, heq, _⟩ | ⟨_, heq⟩ <;> cases heq
  have hsurrendered : ∀ a ∈ s.db.artifacts, Surrendered s.db a.snapshotId →
      Surrendered (s.db.applyAll (s.session i).log) a.snapshotId := by
    intro a ha hs
    refine surrendered_applyAll hs (fun row hw hid => ?_) hplan
    rcases hrecording.writes _ hw with ⟨_, heq, hrow⟩ | ⟨_, heq, _⟩ | ⟨_, heq⟩ <;> cases heq
    exact hrecording.unused a ha (hid.symm.trans hrow)
  refine hinv.frame hlocked (i := i) rfl (fun a ha => ?_) (fun a ha => ?_) (fun a ha hs => ?_)
    (fun j _ => hinv.recorded j) (fun j hji => ?_) (joins_rest rfl rfl rfl)
  · rcases artifacts_recorded hrecording ha with hold | ⟨-, -, hn⟩
    · exact hinv.named a hold
    · exact hn
  · rcases artifacts_recorded hrecording ha with hold | ⟨-, hid, -⟩
    · exact hinv.snapshot_ids a hold
    · rw [hid]
      exact hrecording.id_lt
  · rcases artifacts_recorded hrecording ha with hold | ⟨hnew, -⟩
    · exact hinv.present a hold fun hs' => hs (hsurrendered a hold hs')
    · exact hinv.recorded i a hnew
  · refine ⟨Nat.le_refl _, fun _ _ => rfl, fun a ha => Db.mem_artifacts_applyAll ha,
      fun a ha => ?_, hsurrendered, fun p hp => plan_applyAll hplan hp⟩
    rcases artifacts_recorded hrecording ha with hold | ⟨hnew, hid, -⟩
    · exact Or.inl hold
    · refine Or.inr ⟨hinv.disjoint i j a hnew, fun snapshotId' hp heq => ?_⟩
      refine hji (hinv.pending j i snapshotId' hp ?_)
      rw [hloc, ← heq, hid]
      rfl

theorem Inv.workerCall (hinv : Inv h s) {job : Job} {object : PhysicalIdentity}
    {claimId attemptId : Uuid} {io : IoResult}
    (hloc : (s.session i).loc = .worker (.effect job object claimId attemptId))
    (hlocked : Locked discipline (Machine.afterCall s i
      (deletionEffect settings.worker job s.world io).1
      (.worker (.record job object claimId attemptId
        (deletionEffect settings.worker job s.world io).2 .lock)))) :
    Inv h (Machine.afterCall s i (deletionEffect settings.worker job s.world io).1
      (.worker (.record job object claimId attemptId
        (deletionEffect settings.worker job s.world io).2 .lock))) := by
  have hok := hinv.sessions i
  rw [hloc] at hok
  obtain ⟨hcarries, hwork, -⟩ := hok
  have hexposed : Exposed s.db job.unit object fun _ => False := hwork
  have hfresh : s.fresh ≤ s.fresh + 1 := Nat.le_succ _
  refine hinv.frame hlocked (i := i) rfl (fun a ha => ?_) (fun a ha => ?_) (fun a ha hs => ?_)
    (fun j _ row hw => ?_) (fun j _ => evolves_names hfresh fun _ _ => rfl)
    (joins_rest rfl rfl ⟨?_, trivial,
      fun _ hw => absurd hw List.not_mem_nil⟩)
  · exact ⟨Nat.lt_succ_of_lt (hinv.named a ha).1, (hinv.named a ha).2⟩
  · exact Nat.lt_succ_of_lt (hinv.snapshot_ids a ha)
  · have hkept := files_of_deletionEffect settings.worker job s.world io a.sha256Hash
      fun e he hhash => ?_
    · exact fun hnone => hinv.present a ha hs (hkept.symm.trans hnone)
    · rcases hexposed.2 _ (hexposed.1 e he) a ha hhash with hsurrendered | hfalse
      · exact hs hsurrendered
      · exact hfalse
  · have hkept := files_of_deletionEffect settings.worker job s.world io row.sha256Hash
      fun e he hhash => ?_
    · exact fun hnone => hinv.recorded j row hw (hkept.symm.trans hnone)
    · refine hinv.disjoint j i row hw ?_
      rw [hloc, hhash]
      exact congrArg some (hexposed.1 e he)
  · have hev : Evolves h s.fresh s.db h (s.fresh + 1) s.db .idle :=
      evolves_names hfresh fun _ _ => rfl
    exact hcarries.mono (fun _ hu => hev.unitOk hu) (fun _ hn => hev.named hn)

/-- A publication keeps every file. -/
theorem files_of_publish (cx : Crypto) (storage : Storage) (reference : BlobRef) (bytes : Bytes)
    (io : IoResult) (digest : Digest) (hd : storage.blobs.files digest ≠ none) :
    (publish cx storage reference bytes io).1.blobs.files digest ≠ none := by
  unfold publish
  split
  · exact hd
  · exact hd
  · rename_i blobs _ hpublished
    obtain ⟨-, -, ⟨stored, hstored, -⟩, hother⟩ :=
      storage.blobs.publishFile_spec cx hpublished
    by_cases heq : digest = reference.sha256
    · rw [heq, hstored]
      simp
    · exact fun hnone => hd ((hother digest heq).symm.trans hnone)

theorem pending_publish {cx : Crypto} {settings : SnapshotSettings} {storage : Storage}
    {at_ n : CaptureLoc} {reference : BlobRef} {bytes : Bytes}
    (hpublish : CapturePublish cx settings storage at_ reference bytes n) :
    recording? n = none := by
  cases hpublish <;> rfl

theorem Inv.captureCall (hinv : Inv h s) {at_ n : CaptureLoc} {reference : BlobRef} {bytes : Bytes}
    {cx : Crypto} {capture : SnapshotSettings} {io : IoResult}
    (hpublish : CapturePublish cx capture s.world at_ reference bytes n)
    (hlocked : Locked discipline (Machine.afterCall s i (publish cx s.world reference bytes io).1
      (.capture (if (publish cx s.world reference bytes io).2 then n else .finished none)))) :
    Inv h (Machine.afterCall s i (publish cx s.world reference bytes io).1
      (.capture (if (publish cx s.world reference bytes io).2 then n else .finished none))) := by
  have hkept := files_of_publish cx s.world reference bytes io
  refine hinv.frame hlocked (i := i) rfl (fun a ha => ?_) (fun a ha => ?_)
    (fun a ha hs => hkept _ (hinv.present a ha hs))
    (fun j _ row hw => hkept _ (hinv.recorded j row hw))
    (fun j _ => evolves_names (Nat.le_succ _) fun _ _ => rfl) ?_
  · exact ⟨Nat.lt_succ_of_lt (hinv.named a ha).1, (hinv.named a ha).2⟩
  · exact Nat.lt_succ_of_lt (hinv.snapshot_ids a ha)
  · split_ifs
    · have hrec := pending_publish hpublish
      exact joins_rest rfl hrec (by simp [LocOk, CaptureOk, hrec])
    · exact joins_rest rfl rfl rfl

theorem Inv.workerAuto (hinv : Inv h s) {at_ n : WorkerLoc} {m : Moment} {locks : List Lock}
    {writes : List Write} (hloc : (s.session i).loc = .worker at_)
    (hauto : WorkerAuto m (s.db.applyAll (s.session i).log) at_ locks writes n)
    (hlocked : Locked discipline ((machine settings).afterAuto s i writes (.worker n))) :
    Inv h ((machine settings).afterAuto s i writes (.worker n)) := by
  have hok := hinv.sessions i
  rw [hloc] at hok
  obtain ⟨hcarries, -, hlog⟩ := hok
  have hwrites : ∀ w ∈ writes, WorkerWriteOk n w := by
    intro w hw
    cases hauto <;> simp only [List.mem_singleton, List.not_mem_nil] at hw <;> subst hw <;> trivial
  have hcarries' : n.Carries (UnitOk h s.fresh) (Named h s.fresh) := by
    refine hauto.carries trivial (fun a ha => ?_) (fun a hn => ⟨⟨hn.1, ?_⟩, fun _ _ => trivial⟩)
      hcarries
    · rw [artifacts_view hlog] at ha
      exact hinv.named a ha
    · rw [show (Db.executionArtifact _ a).artifactId = a.artifactId from rfl, hn.2]
      rfl
  have hev : Evolves h s.fresh s.db h (s.fresh + 1) s.db (.worker n) :=
    evolves_names (Nat.le_succ _) fun _ _ => rfl
  refine hinv.written hlocked (i := i) rfl hwrites rfl rfl (Nat.le_succ _) ?_
  refine joins_rest ?_ rfl
    ⟨hcarries'.mono (fun _ hu => hev.unitOk hu) (fun _ hn => hev.named hn), ?_,
      fun _ hw => absurd hw List.not_mem_nil⟩
  · cases hauto <;> first | rfl | exact removing_next
  · cases hauto <;> first | trivial | exact workerOk_next

theorem Inv.captureAuto (hinv : Inv h s) {at_ n : CaptureLoc} {view : Db} (hauto : CaptureAuto view at_ n)
    (hlocked : Locked discipline ((machine settings).afterAuto s i [] (.capture n))) :
    Inv h ((machine settings).afterAuto s i [] (.capture n)) := by
  refine hinv.moved hlocked (i := i) rfl rfl rfl (Nat.le_succ _) (fun _ _ => rfl)
    (joins_rest rfl ?_ ?_)
  · cases hauto <;> rfl
  · cases hauto <;> rfl

/-- Plans created and pins changed beside the sessions. -/
theorem Inv.operate (hinv : Inv h s) {m : Moment} {o : Op} {locks : List Lock}
    {writes : List Write} (hop : operate s.db m o = some (locks, writes))
    (hlocked : Locked discipline ((machine settings).afterOp s writes)) :
    Inv h ((machine settings).afterOp s writes) := by
  have hwrites : ∀ w ∈ writes, WorkerWriteOk (.finished .failed) w := by
    cases o with
    | createDeletionPlan request =>
      simp only [Retention.operate, createDeletionPlan] at hop
      split_ifs at hop <;> cases hop <;> simp [WorkerWriteOk]
    | pinSnapshot snapshotId source sourceReference =>
      simp only [Retention.operate] at hop
      split_ifs at hop <;> cases hop <;> simp [WorkerWriteOk]
    | revokeSnapshotPin pinId =>
      simp only [Retention.operate] at hop
      split at hop <;> cases hop
      simp [WorkerWriteOk]
  have hsame : ((machine settings).afterOp s writes).session
      = (s.setSession 0 (s.session 0)).session := by
    simp [Machine.afterOp, State.setSession]
  have hev : ∀ loc, Evolves h s.fresh s.db h (s.fresh + 1) (s.db.applyAll writes) loc :=
    fun _ => evolves_worker (Nat.le_succ _) hwrites
  refine hinv.written hlocked hsame hwrites rfl rfl (Nat.le_succ _) ⟨hinv.recorded 0,
    fun row hw j _ => hinv.disjoint 0 j row hw, fun digest hr j _ row hw hhash => ?_,
    fun snapshotId hp j hj hpj => hj (hinv.pending j 0 snapshotId hpj hp),
    (hev _).locOk (hinv.sessions 0)⟩
  refine hinv.disjoint j 0 row hw ?_
  rw [hhash]
  exact hr

theorem Inv.no_transition (hinv : Inv h s) {request : TransitionRequest} {at_ : TransitionLoc}
    (hloc : (s.session i).loc = .transition request at_) : False := by
  have hfalse := hinv.sessions i
  rw [hloc] at hfalse
  exact hfalse

theorem inv_step :
    ∀ s l s', (∃ h, Inv h s) → InsertsBacked s l → (machine settings).step s l = some s' →
      ∃ h, Inv h s' := by
  refine Locked.preserved respects (fun s ⟨h, hinv⟩ => hinv.locked) ?_
  refine Machine.step_induction ?_ ?_ ?_ ?_ ?_ ?_ ?_ ?_ ?_
  · intro s i proc hinv ⟨hok, hl⟩ _ hl'
    obtain ⟨h, hinv⟩ := hinv hl
    cases proc with
    | runPlan planId =>
      exact ⟨h, hinv.moved hl' rfl rfl rfl (Nat.le_refl _) (fun _ _ => rfl)
        (joins_rest rfl rfl
          ⟨trivial, trivial, fun _ hw => absurd hw List.not_mem_nil⟩)⟩
    | capture request =>
      exact ⟨h, hinv.moved hl' rfl rfl rfl (Nat.le_refl _) (fun _ _ => rfl)
        (joins_rest rfl rfl rfl)⟩
    | _ => exact hok.elim
  · intro s i io locks writes next hinv ⟨hok, hl⟩ hact _ hl'
    obtain ⟨h, hinv⟩ := hinv hl
    cases hloc : (s.session i).loc with
    | idle => rw [hloc] at hact; cases hact
    | worker at_ =>
      rw [hloc] at hact
      obtain ⟨n, rfl, hstmt⟩ := act_worker_stmt hact
      exact ⟨h, hinv.workerStmt hloc hstmt hl'⟩
    | capture at_ =>
      rw [hloc] at hact
      obtain ⟨n, rfl, hstmt⟩ := act_capture_stmt hact
      exact hinv.captureStmt hloc rfl hstmt
        (fun built snapshotId kind reference todo leases hat =>
          hok built snapshotId kind reference todo leases (by rw [hloc, hat])) hl'
    | transition request at_ => exact (hinv.no_transition hloc).elim
  · intro s i io locks writes next hinv ⟨hok, hl⟩ hact _ hl'
    obtain ⟨h, hinv⟩ := hinv hl
    cases hloc : (s.session i).loc with
    | idle => rw [hloc] at hact; cases hact
    | worker at_ =>
      rw [hloc] at hact
      obtain ⟨n, rfl, hauto⟩ := act_worker_auto hact
      exact ⟨h, hinv.workerAuto hloc hauto hl'⟩
    | capture at_ =>
      rw [hloc] at hact
      obtain ⟨n, rfl, -, rfl, hauto⟩ := act_capture_auto hact
      exact ⟨h, hinv.captureAuto hauto hl'⟩
    | transition request at_ => exact (hinv.no_transition hloc).elim
  · intro s i io next hinv ⟨hok, hl⟩ hact hl'
    obtain ⟨h, hinv⟩ := hinv hl
    cases hloc : (s.session i).loc with
    | idle => rw [hloc] at hact; cases hact
    | worker at_ =>
      rw [hloc] at hact
      obtain ⟨n, rfl, hcommit⟩ := act_worker_commit hact
      exact ⟨h, hinv.workerCommit hloc hcommit hl'⟩
    | capture at_ =>
      rw [hloc] at hact
      obtain ⟨built, snapshotId, rfl, rfl⟩ := act_capture_commit hact
      exact ⟨h, hinv.captureCommit hloc hl'⟩
    | transition request at_ => exact (hinv.no_transition hloc).elim
  · intro s i io next hinv ⟨hok, hl⟩ hact hl'
    obtain ⟨h, hinv⟩ := hinv hl
    cases hloc : (s.session i).loc with
    | idle => rw [hloc] at hact; cases hact
    | worker at_ =>
      rw [hloc] at hact
      obtain rfl := act_worker_rollback hact
      exact ⟨h, hinv.moved hl' rfl rfl rfl (Nat.le_refl _) (fun _ _ => rfl)
        (joins_rest rfl rfl
          ⟨trivial, trivial, fun _ hw => absurd hw List.not_mem_nil⟩)⟩
    | capture at_ =>
      rw [hloc] at hact
      obtain rfl := act_capture_rollback hact
      exact ⟨h, hinv.moved hl' rfl rfl rfl (Nat.le_refl _) (fun _ _ => rfl)
        (joins_rest rfl rfl rfl)⟩
    | transition request at_ => exact (hinv.no_transition hloc).elim
  · intro s i io world next hinv ⟨hok, hl⟩ hact hl'
    obtain ⟨h, hinv⟩ := hinv hl
    cases hloc : (s.session i).loc with
    | idle => rw [hloc] at hact; cases hact
    | worker at_ =>
      rw [hloc] at hact
      obtain ⟨job, object, claimId, attemptId, rfl, rfl, rfl⟩ := act_worker_call hact
      exact ⟨h, hinv.workerCall hloc hl'⟩
    | capture at_ =>
      rw [hloc] at hact
      obtain ⟨reference, bytes, n, hpublish, rfl, rfl⟩ := act_capture_call hact
      exact ⟨h, hinv.captureCall hpublish hl'⟩
    | transition request at_ => exact (hinv.no_transition hloc).elim
  · intro s i hinv ⟨_, hl⟩ hl'
    obtain ⟨h, hinv⟩ := hinv hl
    exact ⟨h, hinv.moved hl' rfl rfl rfl (Nat.le_refl _) (fun _ _ => rfl)
      (joins_rest rfl rfl trivial)⟩
  · intro s o locks writes hinv ⟨_, hl⟩ hop _ hl'
    obtain ⟨h, hinv⟩ := hinv hl
    exact ⟨h, hinv.operate hop hl'⟩
  · intro s n hinv ⟨_, hl⟩ hl'
    obtain ⟨h, hinv⟩ := hinv hl
    exact ⟨h, hl', hinv.named, hinv.snapshot_ids, hinv.present, hinv.recorded, hinv.disjoint,
      hinv.pending, hinv.sessions⟩

/-- The row of an artifact id. -/
def rowOf (db : Db) (id : Uuid) : Digest × Uuid :=
  match db.artifacts.find? fun a => a.artifactId == id with
  | some a => (a.sha256Hash, a.snapshotId)
  | none => (0, 0)

theorem inv_initial {db : Db} {storage : Storage} {clock fresh : ℕ}
    (hcomplete : Complete db storage fresh) :
    Inv (rowOf db) (initial db storage clock fresh) := by
  refine ⟨locked_initial .., fun a ha => ⟨(hcomplete.artifact_ids a ha).1, ?_⟩,
    fun a ha => (hcomplete.artifact_ids a ha).2, hcomplete.present,
    fun _ _ hw => absurd hw List.not_mem_nil, fun _ _ _ hw => absurd hw List.not_mem_nil,
    fun _ _ _ hp => (by cases hp), fun _ => trivial⟩
  have hsome : (db.artifacts.find? fun a' => a'.artifactId == a.artifactId).isSome := by
    rw [List.find?_isSome]
    exact ⟨a, ha, by simp⟩
  obtain ⟨a', hfind⟩ := Option.isSome_iff_exists.mp hsome
  have hid : a'.artifactId = a.artifactId := by simpa using List.find?_some hfind
  have hsame : a' = a :=
    List.inj_on_of_nodup_map hcomplete.artifacts_nodup (List.mem_of_find?_eq_some hfind) ha hid
  unfold rowOf
  rw [hfind, hsame]

end Steps

end Bytes

/-- While every recorded artifact is still stored and safe from removals under way when its row is
inserted, no claimed snapshot is without its bytes. -/
theorem never_without_bytes (settings : Settings) {db : Db} {storage : Storage} {fresh : ℕ}
    (h : Complete db storage fresh) (clock : ℕ) :
    NeverWithoutBytes InsertsBacked settings (initial db storage clock fresh) := by
  intro s hreach
  obtain ⟨names, hinv⟩ := Reach.invariant (I := fun s => ∃ h, Bytes.Inv h s)
    ⟨_, Bytes.inv_initial h⟩ Bytes.inv_step hreach
  exact hinv.present

namespace Sample

/-- A snapshot whose bundle a later capture produces again, and a plan for it. -/
def oldBundle : Db :=
  { targets :=
      [{ targetId := 1, provider := "github", externalRepositoryId := "r", status := .healthy }]
    mirrors :=
      [{ mirrorId := 2, targetId := 1, status := .ready, storagePath := "m", fsckResult := .ok }]
    mirrorRuns := [{ runId := 3, targetId := 1, outcome := .succeeded }]
    snapshots :=
      [{ snapshotId := 4, targetId := 1, mirrorId := 2, mirrorLifecycleRunId := 3
         parentSnapshotId := none, status := .built, refsHash := 0, includesLfs := false
         createdAt := 0 }]
    artifacts :=
      [{ artifactId := 5, snapshotId := 4, kind := .gitBundle, sha256Hash := sha256 [10]
         blobOwner := owner, mediaType := "application/vnd.git.bundle", sizeBytes := 1 }]
    plans :=
      [{ planId := 6, evaluationId := 0, targetId := 1, snapshotId := 4, tombstoneId := none
         automatic := true, tombstonedAt := 0, notBefore := 1, estimatedBytes := 0
         status := .planned, correlationId := 0 }] }

def storedOldBundle : Storage :=
  { storage with
    blobs :=
      { maxBytes := 1000
        files := fun digest => if digest = sha256 [10] then some [10] else none } }

def unchangedCapture : CaptureRequest :=
  { source := { targetId := 1, mirrorId := 2, mirrorLifecycleRunId := 3 }
    bundle := [10]
    refs := []
    createdAt := "t"
    lfs := none }

/-- The capture finds the bundle published, the plan removes it, the capture records it. -/
def removedBeforeRecord : List Label :=
  [.start 0 (.runPlan 6), .start 1 (.capture unchangedCapture)] ++
    List.replicate 5 (.exec 1 .ok) ++ List.replicate 26 (.exec 0 .ok) ++
    List.replicate 10 (.exec 1 .ok)

end Sample

/-- A capture that relies on published bytes records them after their deletion completed. -/
theorem recorded_after_removal :
    ¬ NeverWithoutBytes OnlyCapturesAndPlans Sample.settings
      (initial Sample.oldBundle Sample.storedOldBundle 10 100) := by
  intro h
  obtain ⟨s, hrun, hs⟩ : ∃ s, run (machine Sample.settings).step
      (initial Sample.oldBundle Sample.storedOldBundle 10 100) Sample.removedBeforeRecord = some s ∧
      (s.db.artifacts.any (fun a => a.snapshotId == 130 && a.sha256Hash == Sample.sha256 [10]) &&
        s.db.snapshots.any (fun t => t.snapshotId == 130 && t.status == .built) &&
        s.db.plans.all (fun p => p.snapshotId == 4) &&
        (s.world.blobs.files (Sample.sha256 [10])).isNone) = true :=
    exists_of_run_any (by decide +kernel)
  simp only [Bool.and_eq_true, List.all_eq_true, List.any_eq_true, beq_iff_eq,
    Option.isNone_iff_eq_none] at hs
  obtain ⟨⟨⟨⟨a, ha, hsnapshot, hdigest⟩, t, ht, hid, hbuilt⟩, hplans⟩, habsent⟩ := hs
  have hreach : Reach (machine Sample.settings).step OnlyCapturesAndPlans
      (initial Sample.oldBundle Sample.storedOldBundle 10 100) s :=
    Reach.of_run hrun
      (along_of_forall (by simp [Sample.removedBeforeRecord, OnlyCapturesAndPlans]) _)
  refine h s hreach a ha ?_ (hdigest ▸ habsent)
  rintro (hdeleted | ⟨p, hp, hplan, -⟩)
  · have hstatus := hdeleted t ht (hid.trans hsnapshot.symm)
    rw [hbuilt] at hstatus
    cases hstatus
  · rw [hplans p hp, hsnapshot] at hplan
    cases hplan

theorem never_without_bytes_old_bundle :
    Complete Sample.oldBundle Sample.storedOldBundle 100 ∧
      NeverWithoutBytes InsertsBacked Sample.settings
        (initial Sample.oldBundle Sample.storedOldBundle 10 100) := by
  have h : Complete Sample.oldBundle Sample.storedOldBundle 100 := by
    refine ⟨by decide, by decide, fun a ha _ => ?_⟩
    simp only [Sample.oldBundle, List.mem_singleton] at ha
    rw [ha]
    decide
  exact ⟨h, never_without_bytes Sample.settings h 10⟩

end Retention

end RatatoskrVault
