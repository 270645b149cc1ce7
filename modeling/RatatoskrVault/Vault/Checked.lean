import RatatoskrVault.Lib.Sequential
import RatatoskrVault.Vault.Steps

/-! When a mirror row that reports a passed integrity check speaks of the directory as it is: no
run of Git has changed the directory since, or the run that changed it is still to report. -/
namespace RatatoskrVault

open Lib

/-- Writes to the row that reports a mirror's last integrity check. -/
def Write.observesMirror : Write → Bool
  | .insertMirror _ => true
  | .setMirror _ _ _ => true
  | _ => false

/-- The writes of a mirror run's transactions. -/
def Write.recordsRun : Write → Bool
  | .insertReservation _ => true
  | .insertMirrorRun _ => true
  | .releaseReservation _ => true
  | _ => false

/-- The row of the target reports a passed check. -/
def Db.mirrorVerified (db : Db) (targetId : Uuid) : Bool :=
  db.mirrors.any fun mirror =>
    mirror.targetId == targetId && mirror.status == .ready && mirror.fsckResult == .ok

/-- What is certain of a call in an integrity check: the check goes on, or ends in a verdict. -/
def GitCall.isConclusive (at_ : EvidenceLoc) : GitCall → Bool
  | cancelled _ => false
  | runner _ => at_ == .fsck
  | exited _ => true

/-- A conclusive call ends the check only with the verdict that the mirror is broken. -/
theorem broken_of_isConclusive {call : GitCall} {at_ : EvidenceLoc} {failure : IntegrityFailure}
    (h : integrityEvidence call at_ = .inr (.error failure)) (hcall : call.isConclusive at_ = true) :
    failure = .broken := by
  cases call with
  | cancelled started => cases hcall
  | runner started =>
    cases at_ with
    | fsck => cases h; rfl
    | _ => cases hcall
  | exited outcome =>
    cases at_ with
    | fsck =>
      simp only [integrityEvidence] at h
      split_ifs at h
      cases h
      rfl
    | showRef => cases h
    | revList refs =>
      simp only [integrityEvidence] at h
      (repeat' split at h) <;> cases h <;> rfl

namespace MirrorLoc

/-- The target a run works on. -/
def target? : MirrorLoc → Option Uuid
  | begin request => some request.targetId
  | transitionStarted request _ => some request.targetId
  | lockQuota run => some run.request.targetId
  | targetReserved run => some run.request.targetId
  | globalReserved run _ => some run.request.targetId
  | insertReservation run => some run.request.targetId
  | commitReservation run => some run.request.targetId
  | admitted run => some run.request.targetId
  | clone run => some run.request.targetId
  | fetch run => some run.request.targetId
  | evidence run _ => some run.request.targetId
  | publishStaging run _ => some run.request.targetId
  | directorySize run _ => some run.request.targetId
  | collectLfs run _ => some run.request.targetId
  | insertRun job => some job.run.request.targetId
  | releaseReservation job => some job.run.request.targetId
  | commitRun job => some job.run.request.targetId
  | ensureMirror job => some job.run.request.targetId
  | recordVerified job => some job.run.request.targetId
  | markDegraded job => some job.run.request.targetId
  | setStatus job _ => some job.run.request.targetId
  | persistLfs job => some job.run.request.targetId
  | setLfsDegraded job => some job.run.request.targetId
  | finished _ => none

/-- The target whose published mirror the run has fetched into: the check has no verdict yet, or
the row does not have it. -/
def unsettled? : MirrorLoc → Option Uuid
  | evidence run _ => if run.operation = .fetch then some run.request.targetId else none
  | collectLfs run result => ofResult run result
  | insertRun job => ofResult job.run job.result
  | releaseReservation job => ofResult job.run job.result
  | commitRun job => ofResult job.run job.result
  | markDegraded job => ofResult job.run job.result
  | _ => none
where
  ofResult (run : MirrorRun) (result : MirrorResult) : Option Uuid :=
    if run.operation = .fetch ∧ result = .integrityFailed then some run.request.targetId else none

theorem target?_of_unsettled? {at_ : MirrorLoc} {targetId : Uuid}
    (h : at_.unsettled? = some targetId) : at_.target? = some targetId := by
  cases at_ <;> simp_all [unsettled?, unsettled?.ofResult, target?]

section

variable (settings : MirrorLifecycleSettings) (db : Db) (storage : MirrorStorage)

/-- The target of the run exists. -/
def HasTarget (run : MirrorRun) : Prop := (db.target? run.request.targetId).isSome = true

/-- The published mirror of the run has passed a check since it was last changed. -/
def IsChecked (run : MirrorRun) : Prop :=
  storage.checked (mirrorRelativePath settings run.request.targetId) = true

/-- What a run knows of its target and of the mirror it is about to report. -/
def Consistent : MirrorLoc → Prop
  | commitReservation run => HasTarget db run
  | admitted run => HasTarget db run
  | clone run => HasTarget db run
  | fetch run => HasTarget db run ∧ run.operation = .fetch
  | evidence run _ => HasTarget db run
  | publishStaging run _ => HasTarget db run
  | directorySize run _ => HasTarget db run ∧ IsChecked settings storage run
  | collectLfs run result =>
    HasTarget db run ∧ (result.isSuccess = true → IsChecked settings storage run)
  | insertRun job =>
    (job.result ≠ .quotaRefused → HasTarget db job.run) ∧
      (job.result.isSuccess = true → IsChecked settings storage job.run)
  | releaseReservation job => job.result.isSuccess = true → IsChecked settings storage job.run
  | commitRun job => job.result.isSuccess = true → IsChecked settings storage job.run
  | ensureMirror job => IsChecked settings storage job.run
  | recordVerified job => IsChecked settings storage job.run
  | _ => True

end

variable {settings : MirrorLifecycleSettings} {db db' : Db} {storage storage' : MirrorStorage}

/-- Targets stay, and nobody else changes the mirror of the run's target. -/
theorem Consistent.mono {at_ : MirrorLoc} (h : at_.Consistent settings db storage)
    (htargets : ∀ t, (db.target? t).isSome = true → (db'.target? t).isSome = true)
    (hchecked : ∀ t, at_.target? = some t →
      storage.checked (mirrorRelativePath settings t) = true →
      storage'.checked (mirrorRelativePath settings t) = true) :
    at_.Consistent settings db' storage' := by
  cases at_ with
  | commitReservation run => exact htargets _ h
  | admitted run => exact htargets _ h
  | clone run => exact htargets _ h
  | fetch run => exact ⟨htargets _ h.1, h.2⟩
  | evidence run loc => exact htargets _ h
  | publishStaging run objectCount => exact htargets _ h
  | directorySize run objectCount => exact ⟨htargets _ h.1, hchecked _ rfl h.2⟩
  | collectLfs run result =>
    exact ⟨htargets _ h.1, fun hsuccess => hchecked _ rfl (h.2 hsuccess)⟩
  | insertRun job =>
    exact ⟨fun hresult => htargets _ (h.1 hresult), fun hsuccess => hchecked _ rfl (h.2 hsuccess)⟩
  | releaseReservation job => exact fun hsuccess => hchecked _ rfl (h hsuccess)
  | commitRun job => exact fun hsuccess => hchecked _ rfl (h hsuccess)
  | ensureMirror job => exact hchecked _ rfl h
  | recordVerified job => exact hchecked _ rfl h
  | _ => trivial

end MirrorLoc

section Quiet

variable {m : Moment} {db : Db} {locks : List Lock} {writes : List Write}

theorem TransitionStmt.quiet {request : TransitionRequest} {at_ next : TransitionLoc}
    (h : TransitionStmt request m db at_ locks writes next) :
    ∀ w ∈ writes, w.observesMirror = false := by
  cases h with
  | cancelPlans =>
    intro w hw
    obtain ⟨p, -, rfl⟩ := List.mem_map.mp hw
    rfl
  | _ => simp [Write.observesMirror]

theorem CycleStmt.quiet {at_ next : CycleLoc} (h : CycleStmt m db at_ locks writes next) :
    ∀ w ∈ writes, w.observesMirror = false := by
  cases h with
  | transition h => exact h.quiet
  | _ => simp [Write.observesMirror]

theorem CommandStmt.quiet {at_ next : CommandLoc} (h : CommandStmt m db at_ locks writes next) :
    ∀ w ∈ writes, w.observesMirror = false := by
  cases h with
  | apply h => exact h.quiet
  | _ => simp [Write.observesMirror]

theorem WorkerStmt.quiet {at_ next : WorkerLoc} (h : WorkerStmt m db at_ locks writes next) :
    ∀ w ∈ writes, w.observesMirror = false := by
  cases h with
  | abandonStage =>
    intro w hw
    obtain ⟨a, -, rfl⟩ := List.mem_map.mp hw
    rfl
  | abandonClaims =>
    intro w hw
    obtain ⟨c, -, rfl⟩ := List.mem_map.mp hw
    rfl
  | _ => simp [Write.observesMirror]

theorem CaptureStmt.quiet {at_ next : CaptureLoc} (h : CaptureStmt m db at_ locks writes next) :
    ∀ w ∈ writes, w.observesMirror = false := by
  cases h <;> simp [Write.observesMirror]

theorem WorkerAuto.quiet {at_ next : WorkerLoc} (h : WorkerAuto m db at_ locks writes next) :
    ∀ w ∈ writes, w.observesMirror = false := by
  cases h <;> simp [Write.observesMirror]

theorem StatusAuto.quiet {targetId : Uuid} {status : TargetStatus}
    (h : StatusAuto m db targetId status locks writes) :
    ∀ w ∈ writes, w.observesMirror = false := by
  cases h <;> simp [Write.observesMirror]

theorem MirrorStmt.records {settings : MirrorLifecycleSettings} {at_ next : MirrorLoc}
    (h : MirrorStmt settings db at_ locks writes next) : ∀ w ∈ writes, w.recordsRun = true := by
  cases h <;> simp [Write.recordsRun]

/-- A statement stays within the run and settles nothing. -/
theorem MirrorStmt.within {settings : MirrorLifecycleSettings} {at_ next : MirrorLoc}
    (h : MirrorStmt settings db at_ locks writes next) :
    next.target? = at_.target? ∧ next.unsettled? = at_.unsettled? := by
  cases h <;> exact ⟨rfl, rfl⟩

theorem MirrorStmt.consistent {settings : MirrorLifecycleSettings} {storage : MirrorStorage}
    {at_ next : MirrorLoc} (h : MirrorStmt settings db at_ locks writes next) {db' : Db}
    (hat : at_.Consistent settings db' storage) (htargets : db.targets = db'.targets) :
    next.Consistent settings db' storage := by
  cases h with
  | insertReservation htarget =>
    unfold Db.target? at htarget
    rw [htargets] at htarget
    exact htarget
  | insertRun houtcome => exact hat.2
  | releaseReservation => exact hat
  | _ => trivial

end Quiet

namespace Db

variable {db : Db} {log : List Write}

theorem mirrors_of_quiet (db : Db) (h : ∀ w ∈ log, w.observesMirror = false) :
    (log.foldl Db.apply db).mirrors = db.mirrors := by
  refine foldl_invariant (I := fun d : Db => d.mirrors = db.mirrors) (fun d w hw hd => ?_) rfl
  have hquiet := h w hw
  cases w with
  | insertMirror row => cases hquiet
  | setMirror targetId status fsckResult => cases hquiet
  | _ => exact hd

/-- A report on one mirror says nothing of another. -/
theorem mirrorVerified_setMirror_of_ne {targetId t : Uuid} {status : MirrorStatus}
    {fsckResult : FsckResult} (hne : t ≠ targetId) :
    (db.apply (.setMirror targetId status fsckResult)).mirrorVerified t = db.mirrorVerified t := by
  simp only [mirrorVerified, Db.apply, updateWhere, List.any_map]
  congr 1
  funext mirror
  by_cases hmirror : mirror.targetId = targetId
  · have hother : (targetId == t) = false := by simpa using fun h => hne (Eq.symm h)
    simp [hmirror, hother]
  · simp [hmirror]

theorem mirrorVerified_setMirror_degraded {targetId : Uuid} :
    (db.apply (.setMirror targetId .degraded .failed)).mirrorVerified targetId = false := by
  simp only [mirrorVerified, Db.apply, updateWhere, List.any_map, List.any_eq_false]
  intro mirror _
  by_cases hmirror : mirror.targetId = targetId <;> simp [hmirror]

theorem targets_of_records (db : Db) (h : ∀ w ∈ log, w.recordsRun = true) :
    (log.foldl Db.apply db).targets = db.targets := by
  refine foldl_invariant (I := fun d : Db => d.targets = db.targets) (fun d w hw hd => ?_) rfl
  have hrecords := h w hw
  cases w with
  | insertTarget row => cases hrecords
  | setTargetStatus targetId fromStatus toStatus => cases hrecords
  | _ => exact hd

/-- Targets are never removed. -/
theorem target?_isSome_foldl {targetId : Uuid} (log : List Write)
    (h : (db.target? targetId).isSome = true) :
    ((log.foldl Db.apply db).target? targetId).isSome = true := by
  have hiff : ∀ d : Db, (d.target? targetId).isSome = true ↔
      targetId ∈ d.targets.map (·.targetId) := by
    intro d
    simp [Db.target?, List.find?_isSome]
  rw [hiff] at h ⊢
  refine foldl_invariant (I := fun d : Db => targetId ∈ d.targets.map (·.targetId))
    (fun d w _ hd => ?_) h
  cases w with
  | insertTarget row =>
    have hmem : targetId ∈ (d.targets ++ [row]).map (·.targetId) := by
      rw [List.map_append]
      exact List.mem_append_left _ hd
    exact hmem
  | setTargetStatus id fromStatus toStatus =>
    have hids := map_updateWhere (t := d.targets)
      (p := fun t : Target => t.targetId == id && t.status == fromStatus)
      (f := fun t => { t with status := toStatus }) (g := fun t => t.targetId) (fun _ => rfl)
    exact hids.symm ▸ hd
  | _ => exact hd

end Db

namespace Vault

def Loc.target? : Loc → Option Uuid
  | .mirror at_ => at_.target?
  | _ => none

def Loc.unsettled? : Loc → Option Uuid
  | .mirror at_ => at_.unsettled?
  | _ => none

theorem Loc.target?_of_unsettled? {loc : Loc} {targetId : Uuid}
    (h : loc.unsettled? = some targetId) : loc.target? = some targetId := by
  cases loc with
  | mirror at_ => exact MirrorLoc.target?_of_unsettled? h
  | _ => cases h

section

variable {settings : Settings} {m : Moment} {db : Db} {storage : MirrorStorage}
  {locks : List Lock} {writes : List Write}

theorem SessionStmt.quiet {loc next : Loc} (h : SessionStmt settings m db loc locks writes next) :
    ∀ w ∈ writes, w.observesMirror = false := by
  cases h with
  | command h => exact h.quiet
  | cycle h => exact h.quiet
  | mirror h => cases h <;> simp [Write.observesMirror]
  | retention h =>
    cases h with
    | worker h => exact h.quiet
    | capture h => exact h.quiet
    | transition h => exact h.quiet

theorem OpWrites.quiet {o : Op} (h : OpWrites m db o locks writes) :
    ∀ w ∈ writes, w.observesMirror = false := by
  have hrevisions : ∀ rows : List Revision, ∀ w ∈ rows.map Write.insertRevision,
      w.observesMirror = false := by
    intro rows w hw
    obtain ⟨row, -, rfl⟩ := List.mem_map.mp hw
    rfl
  cases h with
  | retention h => cases h <;> simp [Write.observesMirror]
  | undiscovered => simp
  | wikiKnown => exact hrevisions _
  | wikiEnrolled =>
    intro w hw
    rcases List.mem_cons.mp hw with rfl | hw
    · rfl
    · exact hrevisions _ w hw
  | evaluated => simp [Write.observesMirror]

/-- The runs on one target follow one another. -/
def InSequence (s : State) : Label → Prop
  | .start _ (.mirror request) => ∀ j, (s.session j).loc.target? ≠ some request.targetId
  | _ => True

/-- A fetch into a mirror whose row reports a passed check succeeds once its process runs, the
check after it ends in a verdict, and the run is not stopped before the verdict is in the row. -/
def Concluded (settings : Settings) (s : State) : Label → Prop
  | .exec i input =>
    match (s.session i).loc with
    | .mirror (.fetch run) =>
      let call := runGit s.world (mirrorRelativePath settings.mirror run.request.targetId) input.git
      s.db.mirrorVerified run.request.targetId = true → call.started = true →
        call.isZeroExit = true
    | .mirror (.evidence run at_) =>
      let call := runGit s.world (mirrorRelativePath settings.mirror run.request.targetId) input.git
      s.db.mirrorVerified run.request.targetId = true → run.operation = .fetch →
        call.isConclusive at_ = true
    | _ => True
  | .abort i => ∀ t, (s.session i).loc.unsettled? = some t → s.db.mirrorVerified t = false
  | _ => True

/-- What holds of one session beside the database and the storage. -/
structure SessionOk (settings : Settings) (db : Db) (storage : MirrorStorage)
    (σ : Session Write Loc) : Prop where
  quiet : ∀ w ∈ σ.log, w.observesMirror = false
  records : ∀ at_, σ.loc = .mirror at_ → ∀ w ∈ σ.log, w.recordsRun = true
  consistent : ∀ at_, σ.loc = .mirror at_ → at_.Consistent settings.mirror db storage

/-- Every row that reports a passed check is right, or the run that will correct it is under way. -/
structure Checked (settings : Settings) (s : State) : Prop where
  places : ∀ mirror ∈ s.db.mirrors,
    mirror.storagePath = mirrorRelativePath settings.mirror mirror.targetId
  verified : ∀ t, s.db.mirrorVerified t = true →
    s.world.checked (mirrorRelativePath settings.mirror t) = true ∨
      ∃ i, (s.session i).loc.unsettled? = some t
  apart : ∀ i j t, (s.session i).loc.target? = some t → (s.session j).loc.target? = some t → i = j
  sessions : ∀ i, SessionOk settings s.db s.world (s.session i)

namespace Checked

variable {s s' : State} {i : ℕ} {σ : Session Write Loc}

/-- The run of session `i` is the only one on its target. -/
theorem alone (h : Checked settings s) {loc : Loc} (hloc : (s.session i).loc = loc) (t : Uuid)
    (ht : loc.target? = some t) (j : ℕ) (hj : (s.session j).loc.target? = some t) : j = i :=
  h.apart j i t hj (hloc.symm ▸ ht)

/-- Session `i` has moved, and no other session works on its target. -/
theorem moved (h : Checked settings s)
    (hsession : s'.session = (s.setSession i σ).session)
    (htarget : ∀ t, σ.loc.target? = some t → ∀ j, (s.session j).loc.target? = some t → j = i)
    (htargets : ∀ t, (s.db.target? t).isSome = true → (s'.db.target? t).isSome = true)
    (hothers : ∀ t, (s.session i).loc.target? ≠ some t →
      s.world.checked (mirrorRelativePath settings.mirror t) = true →
      s'.world.checked (mirrorRelativePath settings.mirror t) = true)
    (hplaces : ∀ mirror ∈ s'.db.mirrors,
      mirror.storagePath = mirrorRelativePath settings.mirror mirror.targetId)
    (hverified : ∀ t, s'.db.mirrorVerified t = true →
      s'.world.checked (mirrorRelativePath settings.mirror t) = true ∨
        σ.loc.unsettled? = some t ∨
        (s.db.mirrorVerified t = true ∧ (s.session i).loc.unsettled? ≠ some t ∧
          (s.world.checked (mirrorRelativePath settings.mirror t) = true →
            s'.world.checked (mirrorRelativePath settings.mirror t) = true)))
    (hσ : SessionOk settings s'.db s'.world σ) : Checked settings s' := by
  have hself : s'.session i = σ := by rw [hsession, State.setSession_session_self]
  have hother : ∀ j, j ≠ i → s'.session j = s.session j := fun j hji => by
    rw [hsession, State.setSession_session_of_ne hji]
  refine ⟨hplaces, fun t ht => ?_, fun j k t hj hk => ?_, fun j => ?_⟩
  · rcases hverified t ht with hchecked | hunsettled | ⟨hrow, hnot, hkeep⟩
    · exact Or.inl hchecked
    · exact Or.inr ⟨i, hself ▸ hunsettled⟩
    · rcases h.verified t hrow with hchecked | ⟨j, hj⟩
      · exact Or.inl (hkeep hchecked)
      · have hji : j ≠ i := fun hji => hnot (hji ▸ hj)
        exact Or.inr ⟨j, (hother j hji).symm ▸ hj⟩
  · by_cases hji : j = i
    · by_cases hki : k = i
      · exact hji.trans hki.symm
      · rw [hji, hself] at hj
        rw [hother k hki] at hk
        exact absurd (htarget t hj k hk) hki
    · rw [hother j hji] at hj
      by_cases hki : k = i
      · rw [hki, hself] at hk
        exact absurd (htarget t hk j hj) hji
      · rw [hother k hki] at hk
        exact h.apart j k t hj hk
  · by_cases hji : j = i
    · subst hji
      exact hself.symm ▸ hσ
    · rw [hother j hji]
      have hj := h.sessions j
      refine ⟨hj.quiet, hj.records, fun at_ hat => ?_⟩
      refine (hj.consistent at_ hat).mono htargets fun t ht hchecked => ?_
      refine hothers t (fun hi => hji (h.apart j i t ?_ hi)) hchecked
      rw [hat]
      exact ht

/-- A step that changes neither a mirror row nor the record of a check. -/
theorem kept (h : Checked settings s)
    (hsession : s'.session = (s.setSession i σ).session)
    (htarget : ∀ t, σ.loc.target? = some t → ∀ j, (s.session j).loc.target? = some t → j = i)
    (htargets : ∀ t, (s.db.target? t).isSome = true → (s'.db.target? t).isSome = true)
    (hmirrors : s'.db.mirrors = s.db.mirrors) (hchecked : s'.world.checked = s.world.checked)
    (hunsettled : ∀ t, (s.session i).loc.unsettled? = some t → s.db.mirrorVerified t = true →
      σ.loc.unsettled? = some t)
    (hσ : SessionOk settings s'.db s'.world σ) : Checked settings s' := by
  have hsame : ∀ t, s'.db.mirrorVerified t = s.db.mirrorVerified t := fun t => by
    simp only [Db.mirrorVerified, hmirrors]
  refine h.moved hsession htarget htargets (fun t _ ht => hchecked ▸ ht)
    (hmirrors ▸ h.places) (fun t ht => ?_) hσ
  rw [hsame] at ht
  by_cases hi : (s.session i).loc.unsettled? = some t
  · exact Or.inr (Or.inl (hunsettled t hi ht))
  · exact Or.inr (Or.inr ⟨ht, hi, fun hold => hchecked ▸ hold⟩)

/-- Sessions that are not mirror runs have nothing to keep. -/
theorem sessionOk_of_quiet {storage : MirrorStorage} (hquiet : ∀ w ∈ σ.log, w.observesMirror = false)
    (hloc : ∀ at_, σ.loc ≠ .mirror at_) : SessionOk settings db storage σ :=
  ⟨hquiet, fun at_ hat => absurd hat (hloc at_), fun at_ hat => absurd hat (hloc at_)⟩

theorem sessionOk_of_mirror {storage : MirrorStorage} {at_ : MirrorLoc} {log : List Write}
    {began : Option ℕ} (hquiet : ∀ w ∈ log, w.observesMirror = false)
    (hrecords : ∀ w ∈ log, w.recordsRun = true)
    (hconsistent : at_.Consistent settings.mirror db storage) :
    SessionOk settings db storage ⟨.mirror at_, log, began⟩ := by
  refine ⟨hquiet, fun at' hat => ?_, fun at' hat => ?_⟩
  · exact hrecords
  · cases hat
    exact hconsistent

theorem not_mem_nil {P : Write → Prop} : ∀ w ∈ ([] : List Write), P w :=
  fun _ hw => absurd hw List.not_mem_nil

theorem stmt {next : Loc} (h : Checked settings s)
    (hact : SessionStmt settings (s.moment i) ((machine settings).view s i) (s.session i).loc locks
      writes next) : Checked settings (Machine.afterStmt s i locks writes next) := by
  have hi := h.sessions i
  have hquiet : ∀ w ∈ (s.session i).log ++ writes, w.observesMirror = false := fun w hw =>
    (List.mem_append.mp hw).elim (hi.quiet w) (hact.quiet w)
  have hreads : Checked settings (Machine.afterStmt s i locks writes next) ∨
      ∃ at_ n, (s.session i).loc = .mirror at_ ∧ next = .mirror n ∧
        MirrorStmt settings.mirror ((machine settings).view s i) at_ locks writes n := by
    generalize hloc : (s.session i).loc = loc at hact
    cases hact with
    | mirror hmirror => exact Or.inr ⟨_, _, rfl, rfl, hmirror⟩
    | _ =>
      refine Or.inl (h.kept (i := i) (σ := ⟨_, _, _⟩) rfl (fun t ht => ?_) (fun _ => id) rfl rfl
        (fun t ht _ => ?_) (sessionOk_of_quiet hquiet (by simp)))
      · cases ht
      · rw [hloc] at ht
        cases ht
  rcases hreads with hdone | ⟨at_, n, hloc, rfl, hmirror⟩
  · exact hdone
  · have hrecords := hi.records at_ hloc
    have hconsistent := hmirror.consistent (hi.consistent at_ hloc)
      (Db.targets_of_records s.db hrecords)
    refine h.kept (i := i) (σ := ⟨_, _, _⟩) rfl (fun t ht => ?_) (fun _ => id) rfl rfl
      (fun t ht _ => ?_) (sessionOk_of_mirror hquiet (fun w hw => ?_) hconsistent)
    · exact h.alone hloc t (hmirror.within.1.symm.trans ht)
    · rw [hloc] at ht
      exact hmirror.within.2.trans ht
    · exact (List.mem_append.mp hw).elim (hrecords w) (hmirror.records w)

/-- A statement that commits by itself and observes no mirror. -/
theorem auto_quiet {next : Loc} (h : Checked settings s)
    (hquiet : ∀ w ∈ writes, w.observesMirror = false)
    (htarget : ∀ t, next.target? = some t → ∀ j, (s.session j).loc.target? = some t → j = i)
    (hunsettled : ∀ t, (s.session i).loc.unsettled? = some t → next.unsettled? = some t)
    (hnext : ∀ n, next = .mirror n →
      n.Consistent settings.mirror (writes.foldl Db.apply s.db) s.world) :
    Checked settings ((machine settings).afterAuto s i writes next) := by
  refine h.kept (i := i) (σ := ⟨next, [], none⟩) rfl htarget
    (fun t ht => Db.target?_isSome_foldl writes ht) (Db.mirrors_of_quiet _ hquiet) rfl
    (fun t ht _ => hunsettled t ht) ⟨not_mem_nil, fun _ _ => not_mem_nil, hnext⟩

/-- The target whose row a run writes has no other run. -/
theorem auto_observes {at_ n : MirrorLoc} {w : Write} (h : Checked settings s) (run : MirrorRun)
    (hloc : (s.session i).loc = .mirror at_) (hat : at_.target? = some run.request.targetId)
    (hn : n.target? = some run.request.targetId)
    (hplaces : ∀ mirror ∈ (s.db.apply w).mirrors,
      mirror.storagePath = mirrorRelativePath settings.mirror mirror.targetId)
    (hrow : (s.db.apply w).mirrorVerified run.request.targetId = true →
      s.world.checked (mirrorRelativePath settings.mirror run.request.targetId) = true)
    (hothers : ∀ t, t ≠ run.request.targetId → (s.db.apply w).mirrorVerified t = true →
      s.db.mirrorVerified t = true)
    (hconsistent : n.Consistent settings.mirror (s.db.apply w) s.world) :
    Checked settings ((machine settings).afterAuto s i [w] (.mirror n)) := by
  refine h.moved (i := i) (σ := ⟨.mirror n, [], none⟩) rfl (fun t ht => ?_) (fun t ht => ?_)
    (fun t _ ht => ht) hplaces (fun t ht => ?_)
    (sessionOk_of_mirror not_mem_nil not_mem_nil hconsistent)
  · exact h.alone hloc t (hat.trans (hn.symm.trans ht))
  · exact Db.target?_isSome_foldl [w] ht
  · by_cases hsame : t = run.request.targetId
    · exact Or.inl (hsame ▸ hrow (hsame ▸ ht))
    · refine Or.inr (Or.inr ⟨hothers t hsame ht, fun hunsettled => hsame ?_, id⟩)
      have hown := Loc.target?_of_unsettled? hunsettled
      rw [hloc] at hown
      exact Option.some.inj (hown.symm.trans hat)

theorem auto {next : Loc} (h : Checked settings s)
    (hact : SessionAuto settings (s.moment i) ((machine settings).view s i) s.world
      (s.session i).loc locks writes next) :
    Checked settings ((machine settings).afterAuto s i writes next) := by
  generalize hloc : (s.session i).loc = loc at hact
  have hsettled : ∀ n : Loc, loc.unsettled? = none →
      ∀ t, (s.session i).loc.unsettled? = some t → n.unsettled? = some t := by
    intro n hnone t ht
    rw [hloc, hnone] at ht
    cases ht
  cases hact with
  | command => exact h.auto_quiet not_mem_nil (fun t ht => nomatch ht) (hsettled _ rfl) (by simp)
  | cycle => exact h.auto_quiet not_mem_nil (fun t ht => nomatch ht) (hsettled _ rfl) (by simp)
  | retention hretention =>
    refine h.auto_quiet ?_ (fun t ht => nomatch ht) (hsettled _ rfl) (by simp)
    cases hretention with
    | worker hworker => exact hworker.quiet
    | capture => exact not_mem_nil
  | @mirror at_ n _ _ hmirror =>
    have hconsistent := (h.sessions i).consistent at_ hloc
    have hown : n.target? = at_.target? ∨ n.target? = none →
        ∀ t, Loc.target? (.mirror n) = some t → ∀ j, (s.session j).loc.target? = some t → j = i := by
      intro hn t ht
      rcases hn with hn | hn
      · exact h.alone hloc t (hn.symm.trans ht)
      · cases hn.symm.trans ht
    have hnext {db' : Db} {n : MirrorLoc} (hn : n.Consistent settings.mirror db' s.world) :
        ∀ n', Loc.mirror n = .mirror n' → n'.Consistent settings.mirror db' s.world := by
      intro n' hn'
      cases hn'
      exact hn
    cases hmirror with
    | toFetch => exact h.auto_quiet not_mem_nil (hown (Or.inl rfl)) (hsettled _ rfl) (hnext trivial)
    | toClone => exact h.auto_quiet not_mem_nil (hown (Or.inl rfl)) (hsettled _ rfl) (hnext trivial)
    | started hstatus =>
      exact h.auto_quiet hstatus.quiet (hown (Or.inl rfl)) (hsettled _ rfl) (hnext trivial)
    | setStatus hstatus =>
      exact h.auto_quiet hstatus.quiet (hown (Or.inl rfl)) (hsettled _ rfl) (hnext trivial)
    | persisted => exact h.auto_quiet not_mem_nil (hown (Or.inr rfl)) (hsettled _ rfl) (hnext trivial)
    | lfsMissing => exact h.auto_quiet not_mem_nil (hown (Or.inl rfl)) (hsettled _ rfl) (hnext trivial)
    | setLfsDegraded hstatus =>
      exact h.auto_quiet hstatus.quiet (hown (Or.inr rfl)) (hsettled _ rfl) (hnext trivial)
    | @mirrorKnown job =>
      exact h.auto_quiet not_mem_nil (hown (Or.inl rfl)) (hsettled _ rfl) (hnext hconsistent)
    | @insertMirror job =>
      refine h.auto_observes job.run hloc rfl rfl (fun mirror hmem => ?_) (fun _ => hconsistent)
        (fun t _ ht => ?_) hconsistent
      · rcases List.mem_append.mp hmem with hold | hnew
        · exact h.places mirror hold
        · rw [List.mem_singleton.mp hnew]
      · simpa [Db.mirrorVerified, Db.apply, List.any_append] using ht
    | @recordVerified job =>
      refine h.auto_observes job.run hloc rfl rfl ?_ (fun _ => hconsistent)
        (fun t hne ht => ?_) trivial
      · exact forall_updateWhere h.places fun _ _ hplace _ => hplace
      · rwa [Db.mirrorVerified_setMirror_of_ne hne] at ht
    | @markDegraded job =>
      refine h.auto_observes job.run hloc rfl rfl ?_ (fun hrow => ?_)
        (fun t hne ht => ?_) trivial
      · exact forall_updateWhere h.places fun _ _ hplace _ => hplace
      · rw [Db.mirrorVerified_setMirror_degraded] at hrow
        cases hrow
      · rwa [Db.mirrorVerified_setMirror_of_ne hne] at ht

theorem commit {next : Loc} (h : Checked settings s)
    (hact : SessionCommit (s.session i).loc next) :
    Checked settings ((machine settings).afterCommit s i next) := by
  have hi := h.sessions i
  have hmirrors := Db.mirrors_of_quiet s.db hi.quiet
  generalize hloc : (s.session i).loc = loc at hact
  have htargets : ∀ t, (s.db.target? t).isSome = true →
      ((((machine settings).afterCommit s i next).db).target? t).isSome = true := fun t ht =>
    Db.target?_isSome_foldl _ ht
  have hplain : (∀ n, next ≠ .mirror n) → loc.unsettled? = none →
      Checked settings ((machine settings).afterCommit s i next) := by
    intro hnext hsettled
    refine h.kept (i := i) (σ := ⟨next, [], none⟩) rfl (fun t ht => ?_) htargets hmirrors rfl
      (fun t ht _ => ?_) (sessionOk_of_quiet not_mem_nil hnext)
    · cases next with
      | mirror n => exact absurd rfl (hnext n)
      | _ => cases ht
    · rw [hloc, hsettled] at ht
      cases ht
  cases hact with
  | command => exact hplain (by simp) rfl
  | cycle => exact hplain (by simp) rfl
  | retention => exact hplain (by simp) rfl
  | @mirror at_ n hmirror =>
    have hconsistent : at_.Consistent settings.mirror
        ((machine settings).afterCommit s i (.mirror n)).db s.world :=
      (hi.consistent at_ hloc).mono htargets (fun _ _ => id)
    have hwithin : n.target? = at_.target? ∧
        (∀ t, at_.unsettled? = some t → n.unsettled? = some t) ∧
        n.Consistent settings.mirror ((machine settings).afterCommit s i (.mirror n)).db s.world := by
      cases hmirror with
      | reserved => exact ⟨rfl, fun _ ht => ht, hconsistent⟩
      | @recorded job =>
        unfold Finishing.observe
        cases hresult : job.result with
        | succeeded objectCount bytesOnDisk =>
          refine ⟨rfl, fun t ht => ?_, hconsistent (by rw [hresult]; rfl)⟩
          simp [MirrorLoc.unsettled?, MirrorLoc.unsettled?.ofResult, hresult] at ht
        | integrityFailed => exact ⟨rfl, fun _ ht => ht, trivial⟩
        | _ =>
          refine ⟨rfl, fun t ht => ?_, trivial⟩
          simp [MirrorLoc.unsettled?, MirrorLoc.unsettled?.ofResult, hresult] at ht
    refine h.kept (i := i) (σ := ⟨.mirror n, [], none⟩) rfl (fun t ht => ?_) htargets hmirrors rfl
      (fun t ht _ => ?_) (sessionOk_of_mirror not_mem_nil not_mem_nil hwithin.2.2)
    · exact h.alone hloc t (hwithin.1.symm.trans ht)
    · rw [hloc] at ht
      exact hwithin.2.1 t ht

theorem rollback {next : Loc} (h : Checked settings s)
    (hact : SessionRollback ((machine settings).view s i) (s.session i).loc next) :
    Checked settings (Machine.afterRollback s i next) := by
  generalize hloc : (s.session i).loc = loc at hact
  have hleft : ∀ n : Loc, (∀ t, n.target? = some t → ∀ j, (s.session j).loc.target? = some t → j = i) →
      (∀ t, loc.unsettled? = some t → n.unsettled? = some t) →
      (∀ at_, n = .mirror at_ → at_.Consistent settings.mirror s.db s.world) →
      Checked settings (Machine.afterRollback s i n) := by
    intro n htarget hunsettled hconsistent
    refine h.kept (i := i) (σ := ⟨n, [], none⟩) rfl htarget (fun _ => id) rfl rfl (fun t ht _ => ?_)
      ⟨not_mem_nil, fun _ _ => not_mem_nil, hconsistent⟩
    rw [hloc] at ht
    exact hunsettled t ht
  cases hact with
  | command => exact hleft _ (fun t ht => nomatch ht) (fun t ht => nomatch ht) (by simp)
  | cycle => exact hleft _ (fun t ht => nomatch ht) (fun t ht => nomatch ht) (by simp)
  | retention => exact hleft _ (fun t ht => nomatch ht) (fun t ht => nomatch ht) (by simp)
  | @mirror at_ n hmirror =>
    have hconsistent := (h.sessions i).consistent at_ hloc
    have hview := Db.targets_of_records s.db ((h.sessions i).records at_ hloc)
    cases hmirror with
    | quotaRefused =>
      refine hleft _ (fun t ht => h.alone hloc t ht) (fun t ht => nomatch ht) fun n hn => ?_
      cases hn
      exact ⟨fun hne => absurd rfl hne, fun hsuccess => nomatch hsuccess⟩
    | @unrecorded job e hwhy =>
      refine hleft _ (fun t ht => nomatch ht) (fun t ht => ?_) fun n hn => ?_
      · -- a broken mirror is always recorded
        simp only [Loc.unsettled?, MirrorLoc.unsettled?, MirrorLoc.unsettled?.ofResult] at ht
        split_ifs at ht with hbroken
        rcases hwhy with houtcome | hmissing
        · rw [hbroken.2] at houtcome
          cases houtcome
        · have htarget := hconsistent.1 (by rw [hbroken.2]; simp)
          have htargets : ((machine settings).view s i).targets = s.db.targets := hview
          unfold Db.target? at hmissing
          rw [htargets] at hmissing
          unfold MirrorLoc.HasTarget Db.target? at htarget
          rw [hmissing] at htarget
          cases htarget
      · cases hn
        trivial
    | refused hat =>
      have hsettled : at_.unsettled? = none := by
        obtain ⟨request, rfl⟩ | ⟨request, operation, rfl⟩ | ⟨run, rfl | rfl | rfl⟩ |
          ⟨run, reserved, rfl⟩ | ⟨job, ⟨status, rfl⟩ | rfl⟩ := hat <;> rfl
      refine hleft _ (fun t ht => nomatch ht) (fun t ht => ?_) fun n hn => ?_
      · cases hsettled.symm.trans ht
      · cases hn
        trivial

/-- A call that changes the record of the check of its own mirror only. -/
theorem call_changes {at_ n : MirrorLoc} {storage' : MirrorStorage} {b : Bool}
    (h : Checked settings s) (run : MirrorRun) (hloc : (s.session i).loc = .mirror at_)
    (hat : at_.target? = some run.request.targetId) (hn : n.target? = some run.request.targetId)
    (hchecked : storage'.checked = Function.update s.world.checked
      (mirrorRelativePath settings.mirror run.request.targetId) b)
    (hrow : b = true ∨ s.db.mirrorVerified run.request.targetId = false ∨
      n.unsettled? = some run.request.targetId)
    (hconsistent : n.Consistent settings.mirror s.db storage') :
    Checked settings (Machine.afterCall s i storage' (.mirror n)) := by
  have hother : ∀ t, t ≠ run.request.targetId →
      storage'.checked (mirrorRelativePath settings.mirror t)
        = s.world.checked (mirrorRelativePath settings.mirror t) := fun t hne => by
    rw [hchecked, Function.update_of_ne]
    exact fun heq => hne (mirrorRelativePath_injective _ heq)
  refine h.moved (i := i) (σ := ⟨.mirror n, [], none⟩) rfl (fun t ht => ?_) (fun _ => id)
    (fun t ht hold => ?_) h.places (fun t ht => ?_)
    (sessionOk_of_mirror not_mem_nil not_mem_nil hconsistent)
  · exact h.alone hloc t (hat.trans (hn.symm.trans ht))
  · rw [hloc] at ht
    have hne : t ≠ run.request.targetId := fun heq => ht (heq ▸ hat)
    exact (hother t hne).trans hold
  · by_cases hsame : t = run.request.targetId
    · rcases hrow with hb | hnot | hunsettled
      · refine Or.inl ?_
        show storage'.checked _ = true
        rw [hchecked, hsame, Function.update_self, hb]
      · rw [hsame] at ht
        exact absurd (hnot.symm.trans ht) (by simp)
      · exact Or.inr (Or.inl (hsame ▸ hunsettled))
    · refine Or.inr (Or.inr ⟨ht, fun hunsettled => hsame ?_, (hother t hsame).trans⟩)
      have hown := Loc.target?_of_unsettled? hunsettled
      rw [hloc] at hown
      exact Option.some.inj (hown.symm.trans hat)

theorem call {next : Loc} {input : MirrorInput} {storage' : MirrorStorage} (h : Checked settings s)
    (hok : Concluded settings s (.exec i input))
    (hact : SessionCall settings s.world input (s.session i).loc storage' next) :
    Checked settings (Machine.afterCall s i storage' next) := by
  dsimp only [Concluded] at hok
  generalize hloc : (s.session i).loc = loc at hact hok
  cases hact with
  | retention hretention =>
    refine h.kept (i := i) (σ := ⟨_, [], none⟩) rfl (fun t ht => nomatch ht) (fun _ => id) rfl rfl
      (fun t ht _ => ?_) (sessionOk_of_quiet not_mem_nil (by simp))
    rw [hloc] at ht
    cases ht
  | @mirror at_ n _ hmirror =>
    have hconsistent := (h.sessions i).consistent at_ hloc
    have hstays : n.target? = at_.target? → storage'.checked = s.world.checked →
        (∀ t, at_.unsettled? = some t → s.db.mirrorVerified t = true → n.unsettled? = some t) →
        n.Consistent settings.mirror s.db storage' →
        Checked settings (Machine.afterCall s i storage' (.mirror n)) := by
      intro htarget hchecked hunsettled hn
      refine h.kept (i := i) (σ := ⟨.mirror n, [], none⟩) rfl (fun t ht => ?_) (fun _ => id) rfl
        hchecked (fun t ht hrow => ?_) (sessionOk_of_mirror not_mem_nil not_mem_nil hn)
      · exact h.alone hloc t (htarget.symm.trans ht)
      · rw [hloc] at ht
        exact hunsettled t ht hrow
    cases hmirror with
    | interrupted =>
      exact hstays rfl rfl (fun t ht => nomatch ht) ⟨fun _ => hconsistent, fun hs => nomatch hs⟩
    | toClone => exact hstays rfl rfl (fun t ht => nomatch ht) hconsistent
    | toFetch hoperation => exact hstays rfl rfl (fun t ht => nomatch ht) ⟨hconsistent, hoperation⟩
    | cloneFailed hresult =>
      exact hstays rfl rfl (fun t ht => nomatch ht)
        ⟨hconsistent, fun hs => absurd (hresult.symm.trans hs) (by simp)⟩
    | cloned => exact hstays rfl rfl (fun t ht => nomatch ht) hconsistent
    | @fetchFailed run result call hcall hexit hresult hintact =>
      have hn : (MirrorLoc.collectLfs run result).Consistent settings.mirror s.db
          (if call.started then
            s.world.changed (mirrorRelativePath settings.mirror run.request.targetId)
           else s.world) :=
        ⟨hconsistent.1, fun hs => absurd (hresult.symm.trans hs) (by simp)⟩
      cases hstarted : call.started with
      | false =>
        rw [hstarted] at hn hstays
        exact hstays rfl rfl (fun t ht => nomatch ht) hn
      | true =>
        rw [hstarted] at hn
        refine h.call_changes run hloc rfl rfl rfl (Or.inr (Or.inl ?_)) hn
        -- a fetch into a verified mirror does not fail once it has started
        by_contra hrow
        have hzero := hok (by simpa using hrow) (hcall ▸ hstarted)
        rw [← hcall, hexit] at hzero
        cases hzero
    | @fetched run =>
      refine h.call_changes run hloc rfl rfl rfl (Or.inr (Or.inr ?_)) hconsistent.1
      simp [MirrorLoc.unsettled?, hconsistent.2]
    | checking => exact hstays rfl rfl (fun t ht _ => ht) hconsistent
    | @verdict run loc failure hverdict =>
      refine hstays rfl rfl (fun t ht hrow => ?_) ⟨hconsistent, fun hs => ?_⟩
      · simp only [MirrorLoc.unsettled?] at ht
        split_ifs at ht with hoperation
        obtain rfl := Option.some.inj ht
        have hcall : checkGit settings.mirror s.world run input.git
            = runGit s.world (mirrorRelativePath settings.mirror run.request.targetId) input.git := by
          simp only [checkGit, hoperation]
        obtain rfl := broken_of_isConclusive hverdict (hcall ▸ hok hrow hoperation)
        simp [MirrorLoc.unsettled?, MirrorLoc.unsettled?.ofResult, IntegrityFailure.result,
          hoperation]
      · cases failure <;> cases hs
    | toPublish hoperation =>
      refine hstays rfl rfl (fun t ht _ => ?_) hconsistent
      simp [MirrorLoc.unsettled?, hoperation] at ht
    | @verified run loc objectCount hoperation =>
      refine h.call_changes run hloc rfl rfl rfl (Or.inl rfl) ⟨hconsistent, ?_⟩
      exact Function.update_self ..
    | publishFailed =>
      exact hstays rfl rfl (fun t ht => nomatch ht) ⟨hconsistent, fun hs => nomatch hs⟩
    | @published run objectCount n hnext =>
      have hchecked : MirrorLoc.IsChecked settings.mirror
          (s.world.published (mirrorRelativePath settings.mirror run.request.targetId)) run :=
        Function.update_self ..
      rcases hnext with rfl | rfl
      · exact h.call_changes run hloc rfl rfl rfl (Or.inl rfl) ⟨hconsistent, hchecked⟩
      · exact h.call_changes run hloc rfl rfl rfl (Or.inl rfl)
          ⟨hconsistent, fun _ => hchecked⟩
    | unmeasured =>
      exact hstays rfl rfl (fun t ht => nomatch ht) ⟨hconsistent.1, fun hs => nomatch hs⟩
    | measured =>
      exact hstays rfl rfl (fun t ht => nomatch ht) ⟨hconsistent.1, fun _ => hconsistent.2⟩
    | collected hmirrors hchecked hlfs =>
      refine hstays rfl hchecked (fun t ht _ => ht) ⟨fun _ => hconsistent.1, fun hs => ?_⟩
      unfold MirrorLoc.IsChecked
      rw [hchecked]
      exact hconsistent.2 hs

theorem op {o : Op} (h : Checked settings s)
    (hop : OpWrites { now := s.clock, clock := s.clock, fresh := s.fresh } s.db o locks writes) :
    Checked settings ((machine settings).afterOp s writes) := by
  have hmirrors := Db.mirrors_of_quiet s.db hop.quiet
  refine h.kept (i := 0) (σ := s.session 0) ?_ (fun t ht => h.alone rfl t ht)
    (fun t ht => Db.target?_isSome_foldl writes ht) hmirrors rfl (fun t ht _ => ht) ?_
  · exact (Function.update_eq_self ..).symm
  · have hzero := h.sessions 0
    exact ⟨hzero.quiet, hzero.records, fun at_ hat =>
      (hzero.consistent at_ hat).mono (fun t ht => Db.target?_isSome_foldl writes ht)
        (fun _ _ => id)⟩

theorem start {proc : Proc} (h : Checked settings s) (hok : InSequence s (.start i proc))
    (hidle : (s.session i).loc.isIdle = true) :
    Checked settings ((machine settings).afterStart s i proc) := by
  have hsettled : ∀ t, (s.session i).loc.unsettled? ≠ some t := by
    intro t ht
    cases hloc : (s.session i).loc with
    | mirror at_ =>
      rw [hloc] at hidle ht
      cases at_ with
      | finished result => cases ht
      | _ => cases hidle
    | _ =>
      rw [hloc] at ht
      cases ht
  have hown : ∀ t, (Vault.start proc).target? = some t →
      ∀ j, (s.session j).loc.target? = some t → j = i := by
    intro t ht j hj
    cases proc with
    | mirror request =>
      cases ht
      exact absurd hj (hok j)
    | policy proc => cases ht
    | retention proc => cases ht
  refine h.kept (i := i) (σ := ⟨Vault.start proc, [], none⟩) rfl hown (fun _ => id) rfl rfl
    (fun t ht _ => absurd ht (hsettled t)) ⟨not_mem_nil, fun _ _ => not_mem_nil, fun at_ hat => ?_⟩
  cases proc with
  | mirror request => cases hat; trivial
  | policy proc => cases hat
  | retention proc => cases hat

theorem abort (h : Checked settings s) (hok : Concluded settings s (.abort i)) :
    Checked settings (Machine.afterRollback s i .idle) := by
  refine h.kept (i := i) (σ := ⟨.idle, [], none⟩) rfl (fun t ht => nomatch ht) (fun _ => id) rfl rfl
    (fun t ht hrow => ?_) (sessionOk_of_quiet not_mem_nil (by simp))
  rw [hok t ht] at hrow
  cases hrow

theorem step : ∀ s l s', Checked settings s → InSequence s l ∧ Concluded settings s l →
    (machine settings).step s l = some s' → Checked settings s' := by
  refine Machine.step_induction ?_ ?_ ?_ ?_ ?_ ?_ ?_ ?_ ?_
  · intro s i proc h hok hidle
    exact h.start hok.1 hidle
  · intro s i input locks writes next h _ hact _
    exact h.stmt (act_stmt hact)
  · intro s i input locks writes next h _ hact _
    exact h.auto (act_auto hact)
  · intro s i input next h _ hact
    exact h.commit (act_commit hact)
  · intro s i input next h _ hact
    exact h.rollback (act_rollback hact)
  · intro s i input world next h hok hact
    exact h.call hok.2 (act_call hact)
  · intro s i h hok
    exact h.abort hok.2
  · intro s o locks writes h _ hop _
    exact h.op (operate_writes hop)
  · intro s n h _
    exact ⟨h.places, h.verified, h.apart, h.sessions⟩

theorem initial {db : Db} {storage : MirrorStorage} {clock fresh : ℕ} (hmirrors : db.mirrors = []) :
    Checked settings (Vault.initial db storage clock fresh) := by
  refine ⟨fun mirror hmem => ?_, fun t ht => ?_, fun i j t ht => ?_,
    fun i => sessionOk_of_quiet not_mem_nil fun at_ hat => Loc.noConfusion hat⟩
  · simp [Vault.initial, hmirrors] at hmem
  · simp [Vault.initial, Db.mirrorVerified, hmirrors] at ht
  · cases ht

end Checked

/-- A row that reports a passed check is right about a directory no run has fetched into without
reporting, and so no capture is admitted from a mirror changed after its last passed check. -/
def VerifiedSinceChanged (settings : Settings) (s : State) : Prop :=
  (∀ mirror ∈ s.db.mirrors, mirror.status = .ready → mirror.fsckResult = .ok →
    (∀ i, (s.session i).loc.unsettled? ≠ some mirror.targetId) →
    s.world.checked mirror.storagePath = true) ∧
  ∀ source, s.db.healthySource source = true →
    (∀ i, (s.session i).loc.unsettled? ≠ some source.targetId) →
    s.world.checked (mirrorRelativePath settings.mirror source.targetId) = true

theorem Checked.verifiedSinceChanged {s : State} (h : Checked settings s) :
    VerifiedSinceChanged settings s := by
  have hrow : ∀ t, s.db.mirrorVerified t = true →
      (∀ i, (s.session i).loc.unsettled? ≠ some t) →
      s.world.checked (mirrorRelativePath settings.mirror t) = true := by
    intro t ht hsettled
    rcases h.verified t ht with hdone | ⟨i, hi⟩
    · exact hdone
    · exact absurd hi (hsettled i)
  refine ⟨fun mirror hmem hstatus hfsck hsettled => ?_, fun source hsource hsettled => ?_⟩
  · rw [h.places mirror hmem]
    refine hrow _ (List.any_eq_true.mpr ⟨mirror, hmem, ?_⟩) hsettled
    simp [hstatus, hfsck]
  · obtain ⟨mirror, hmem, hmirror⟩ := List.any_eq_true.mp hsource
    simp only [Bool.and_eq_true] at hmirror
    refine hrow _ (List.any_eq_true.mpr ⟨mirror, hmem, ?_⟩) hsettled
    simp only [Bool.and_eq_true]
    exact ⟨⟨hmirror.1.1.1.2, hmirror.1.1.2⟩, hmirror.1.2⟩

/-- The runs on one target follow one another, and every fetch that has started into a mirror whose
row reports a passed check succeeds, is checked to a verdict, and puts the verdict in the row. -/
theorem verified_since_changed {s : State} {clock fresh : ℕ} (hmirrors : db.mirrors = [])
    (h : Reach (machine settings).step (fun s l => InSequence s l ∧ Concluded settings s l)
      (initial db storage clock fresh) s) : VerifiedSinceChanged settings s :=
  (h.invariant (Checked.initial hmirrors) Checked.step).verifiedSinceChanged

/-- `Concluded`, as it can be evaluated. -/
def isConcluded (settings : Settings) (s : State) : Label → Bool
  | .exec i input =>
    match (s.session i).loc with
    | .mirror (.fetch run) =>
      let call := runGit s.world (mirrorRelativePath settings.mirror run.request.targetId) input.git
      !s.db.mirrorVerified run.request.targetId || !call.started || call.isZeroExit
    | .mirror (.evidence run at_) =>
      let call := runGit s.world (mirrorRelativePath settings.mirror run.request.targetId) input.git
      !s.db.mirrorVerified run.request.targetId || run.operation != .fetch || call.isConclusive at_
    | _ => true
  | .abort i => (s.session i).loc.unsettled?.all fun t => !s.db.mirrorVerified t
  | _ => true

theorem concluded_of_isConcluded {s : State} {l : Label} (h : isConcluded settings s l = true) :
    Concluded settings s l := by
  cases l with
  | exec i input =>
    dsimp only [isConcluded, Concluded] at h ⊢
    cases hloc : (s.session i).loc with
    | mirror at_ =>
      rw [hloc] at h
      cases at_ with
      | fetch run =>
        intro hrow hstarted
        simpa [hrow, hstarted] using h
      | evidence run loc =>
        intro hrow hoperation
        simpa [hrow, hoperation] using h
      | _ => trivial
    | _ => trivial
  | abort i =>
    intro t ht
    simpa [isConcluded, ht] using h
  | _ => trivial

end

namespace Sample

/-- A run from its start to its end when every call succeeds. -/
def mirrorRun : List Label := .start 0 (.mirror request) :: List.replicate 22 (.exec 0 answered)

/-- A run whose fetch Git gives up with an error. -/
def failingFetch : List Label :=
  .start 0 (.mirror request) :: List.replicate 8 (.exec 0 answered) ++
    .exec 0 { answered with git := .exited { exitCode := 1, lines := none } } ::
    List.replicate 6 (.exec 0 answered)

/-- All is done, and a row reports a passed check of a directory that has changed since. -/
def isWronglyVerified (s : State) : Bool :=
  (s.session 0).loc.unsettled?.isNone &&
    s.db.mirrors.any fun mirror => mirror.status == .ready && mirror.fsckResult == .ok &&
      !s.world.checked mirror.storagePath

/-- `InSequence`, for runs of the first session. -/
def isInSequence (s : State) : Label → Bool
  | .start _ (.mirror request) => (s.session 0).loc.target? != some request.targetId
  | _ => true

theorem inSequence_of_check {s : State} {l : Label}
    (hrest : ∀ j, 1 ≤ j → (s.session j).loc = .idle) (h : isInSequence s l = true) :
    InSequence s l := by
  cases l with
  | start i proc =>
    cases proc with
    | mirror request =>
      intro j hj
      cases j with
      | zero => simp [isInSequence, hj] at h
      | succ j =>
        rw [hrest (j + 1) (Nat.le_add_left 1 j)] at hj
        cases hj
    | _ => trivial
  | _ => trivial

theorem unsettled?_of_rest {s : State} (hrest : ∀ j, 1 ≤ j → (s.session j).loc = .idle)
    (hzero : (s.session 0).loc.unsettled? = none) (i : ℕ) (t : Uuid) :
    (s.session i).loc.unsettled? ≠ some t := by
  intro hi
  cases i with
  | zero => cases hzero.symm.trans hi
  | succ i =>
    rw [hrest (i + 1) (Nat.le_add_left 1 i)] at hi
    cases hi

/-- The sessions the run of one session leaves alone. -/
theorem rest_of_run {s : State} {ls : List Label}
    (hrun : run (machine settings).step (initial oneTarget storage 0 100) ls = some s)
    (hls : (ls.all fun l => l.session?.all fun i => decide (i < 1)) = true) (j : ℕ) (hj : 1 ≤ j) :
    (s.session j).loc = .idle := by
  rw [Machine.run_session_of_le hrun hls hj]
  rfl

end Sample

/-- A fetch that fails leaves the row of the check before it. -/
theorem verified_after_failed_fetch :
    ¬ ∀ s, Reach (machine Sample.settings).step InSequence
      (initial Sample.oneTarget Sample.storage 0 100) s → VerifiedSinceChanged Sample.settings s := by
  intro h
  obtain ⟨s, hrun, hs⟩ : ∃ s, run (machine Sample.settings).step
      (initial Sample.oneTarget Sample.storage 0 100) (Sample.mirrorRun ++ Sample.failingFetch)
        = some s ∧ Sample.isWronglyVerified s = true :=
    exists_of_run_any (by decide +kernel)
  have halong : Along (machine Sample.settings).step InSequence
      (initial Sample.oneTarget Sample.storage 0 100) (Sample.mirrorRun ++ Sample.failingFetch) :=
    Machine.along_of_check
      (fun s' l hrest => Sample.inSequence_of_check fun j hj => by rw [hrest j hj]; rfl)
      (by decide +kernel) (by decide +kernel)
  have hrest := Sample.rest_of_run hrun (by decide +kernel)
  simp only [Sample.isWronglyVerified, Bool.and_eq_true, List.any_eq_true, Bool.not_eq_true',
    beq_iff_eq, Option.isNone_iff_eq_none] at hs
  obtain ⟨hzero, mirror, hmem, ⟨hstatus, hfsck⟩, hchanged⟩ := hs
  have hverified := (h s (Reach.of_run hrun halong)).1 mirror hmem hstatus hfsck fun i =>
    Sample.unsettled?_of_rest hrest hzero i _
  rw [hchanged] at hverified
  cases hverified

/-- A clone and a fetch, both checked; the row reports a passed check at the end. -/
theorem verified_since_changed_fetch :
    ∃ s, s.db.mirrorVerified 1 = true ∧ VerifiedSinceChanged Sample.settings s ∧
      Reach (machine Sample.settings).step (fun s l => InSequence s l ∧ Concluded Sample.settings s l)
        (initial Sample.oneTarget Sample.storage 0 100) s := by
  obtain ⟨s, hrun, hs⟩ : ∃ s, run (machine Sample.settings).step
      (initial Sample.oneTarget Sample.storage 0 100) (Sample.mirrorRun ++ Sample.mirrorRun.dropLast)
        = some s ∧ s.db.mirrorVerified 1 = true :=
    exists_of_run_any (by decide +kernel)
  have hmeets : meets (machine Sample.settings).step
      (fun s l => Sample.isInSequence s l && isConcluded Sample.settings s l)
      (initial Sample.oneTarget Sample.storage 0 100)
      (Sample.mirrorRun ++ Sample.mirrorRun.dropLast) = true := by decide +kernel
  have halong : Along (machine Sample.settings).step
      (fun s l => InSequence s l ∧ Concluded Sample.settings s l) _ _ :=
    Machine.along_of_check (n := 1) (fun s' l hrest hcheck => by
        rw [Bool.and_eq_true] at hcheck
        exact ⟨Sample.inSequence_of_check (fun j hj => by rw [hrest j hj]; rfl) hcheck.1,
          concluded_of_isConcluded hcheck.2⟩)
      (by decide +kernel) hmeets
  have hreach := Reach.of_run hrun halong
  exact ⟨s, hs, verified_since_changed rfl hreach, hreach⟩

end Vault

end RatatoskrVault
