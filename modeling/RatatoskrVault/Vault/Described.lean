import RatatoskrVault.Lib.Bounded
import RatatoskrVault.Retention.CaptureSteps
import RatatoskrVault.Vault.Serial
import RatatoskrVault.Verification.Drill

/-! Captures beside the Git processes of mirror runs: the bundle and the list of refs of a capture
come from two processes over one live mirror. -/
namespace RatatoskrVault

open Lib

/-- A built snapshot names a bundle and the refs that were listed, in order of name, under the digest
of its manifest. -/
structure BuiltSnapshot.Carries (cx : Crypto) (refs : List RefEvidence) (bundle : Bytes)
    (built : BuiltSnapshot) : Prop where
  refs : built.evidence.refs = RestoreDrill.byName refs
  named : built.evidence.bundles.map (·.sha256) = [cx.sha256 bundle]
  stored : built.manifest.sha256 = cx.sha256 (cx.encode built.evidence)

/-- The published mirror that a capture reads. -/
def CaptureRequest.mirrorPath (settings : MirrorLifecycleSettings) (request : CaptureRequest) :
    String :=
  mirrorRelativePath settings request.source.targetId

namespace CaptureLoc

/-- The places from the first Git process of a capture to its record. -/
def inspects : CaptureLoc → Bool
  | publishBundle _ _ _ => true
  | publishManifest _ _ _ _ => true
  | recordSource _ => true
  | recordParent _ => true
  | insertSnapshot _ => true
  | artifactStart _ _ _ => true
  | artifactLock _ _ _ _ _ _ => true
  | insertManifest _ _ => true
  | commit _ _ => true
  | _ => false

/-- What a capture carries of a bundle and of the refs it has listed. -/
def Carries (cx : Crypto) (refs : List RefEvidence) (bundle : Bytes) : CaptureLoc → Prop
  | publishBundle request _ _ => request.refs = refs ∧ request.bundle = bundle
  | publishManifest request _ _ reference =>
    request.refs = refs ∧ reference.sha256 = cx.sha256 bundle
  | recordSource built => built.Carries cx refs bundle
  | recordParent built => built.Carries cx refs bundle
  | insertSnapshot built => built.Carries cx refs bundle
  | artifactStart built _ _ => built.Carries cx refs bundle
  | artifactLock built _ _ _ _ _ => built.Carries cx refs bundle
  | insertManifest built _ => built.Carries cx refs bundle
  | commit built _ => built.Carries cx refs bundle
  | _ => False

end CaptureLoc

section

variable {cx : Crypto} {settings : SnapshotSettings} {m : Moment} {db : Db} {storage : Storage}
  {io : IoResult} {at_ : CaptureLoc} {a : Action Storage Lock Write CaptureLoc}
  {refs : List RefEvidence} {bundle : Bytes}

theorem CapturePublish.carries {reference : BlobRef} {bytes : Bytes} {next : CaptureLoc}
    (h : CapturePublish cx settings storage at_ reference bytes next)
    (hat : at_.Carries cx refs bundle) : next.Carries cx refs bundle := by
  cases h with
  | lfs => exact hat.elim
  | bundle href =>
    obtain ⟨hrefs, hbundle⟩ := hat
    refine ⟨hrefs, ?_⟩
    unfold LocalBlobStore.referenceForFile at href
    split_ifs at href
    cases href
    rw [hbundle]
  | manifest hevidence href =>
    obtain ⟨hrefs, hdigest⟩ := hat
    obtain ⟨hlisted, hbundles, -⟩ := SnapshotManifest.new_spec hevidence
    refine ⟨?_, ?_, ?_⟩
    · rw [hlisted, hrefs]
      rfl
    · rw [hbundles, List.map_singleton, hdigest]
    · unfold LocalBlobStore.referenceForFile at href
      split_ifs at href
      cases href
      rfl

/-- A capture carries its bundle and its refs on to the record. -/
theorem captureSnapshot_carries (h : captureSnapshot cx settings m db storage io at_ = some a)
    (hat : at_.Carries cx refs bundle) (hnext : a.next.inspects = true) :
    a.next.Carries cx refs bundle := by
  cases a with
  | stmt locks writes next =>
    cases captureSnapshot_stmt h <;> exact hat
  | auto locks writes next =>
    cases (captureSnapshot_auto h).2.2 <;> exact hat.elim
  | commit next =>
    obtain ⟨built, snapshotId, -, rfl⟩ := captureSnapshot_commit h
    cases hnext
  | rollback next =>
    obtain rfl := captureSnapshot_rollback h
    cases hnext
  | call world next =>
    obtain ⟨reference, bytes, n, hpublish, -, rfl⟩ := captureSnapshot_call h
    unfold Action.next at hnext ⊢
    simp only at hnext ⊢
    split_ifs at hnext ⊢
    · exact hpublish.carries hat
    · cases hnext

end

namespace Vault

/-- The refs that a bundle holds, from the tool that reads it. -/
structure BundleFormat where
  refs : Bytes → List GitRef

/-- How far the Git processes of a capture have come. -/
inductive GitPhase
  | waiting
  | bundled
  | listed (bundle : Bytes)
  deriving DecidableEq

/-- A snapshot as it was recorded, with the bytes of its bundle. -/
structure RecordedSnapshot where
  snapshotId : Uuid
  manifest : BlobRef
  evidence : SnapshotManifest
  bundle : Bytes
  deriving DecidableEq

/-- The vault with the refs of its published mirrors. -/
structure Repositories where
  vault : State
  refs : String → List GitRef
  git : ℕ → GitPhase
  recorded : List RecordedSnapshot

inductive RepositoriesLabel
  | vault (l : Label)
  /-- `git bundle create --all` of the capture of session `i` is done. -/
  | bundleCreate (i : ℕ)
  /-- `git show-ref` of the capture of session `i` is done. -/
  | showRef (i : ℕ)
  /-- The Git process of a mirror run moves refs, or brings those of a new clone. -/
  | update (i : ℕ) (refs : List GitRef)

/-- The capture whose Git processes are to run. -/
def Loc.bundling : Loc → Option CaptureRequest
  | .retention (.capture (.publishBundle request _ _)) => some request
  | _ => none

def Loc.inspects : Loc → Bool
  | .retention (.capture at_) => at_.inspects
  | _ => false

/-- The published mirror whose refs a run may write: Git fetches in it, or a clone takes its place. -/
def Loc.updates (settings : MirrorLifecycleSettings) (storage : MirrorStorage) :
    Loc → Option String
  | .mirror (.fetch run) =>
    let path := mirrorRelativePath settings run.request.targetId
    if storage.mirrors path then some path else none
  | .mirror (.publishStaging run _) =>
    let path := mirrorRelativePath settings run.request.targetId
    if storage.mirrors path then none else some path
  | _ => none

namespace Repositories

variable (settings : Settings) (format : BundleFormat) (r : Repositories)

/-- A capture publishes nothing before its Git processes are done. -/
def awaitsGit : Label → Bool
  | .exec i _ =>
    (r.vault.session i).loc.bundling.isSome &&
      match r.git i with
      | .listed _ => false
      | _ => true
  | _ => false

/-- The processes of a session that has left its capture are forgotten. -/
def phases (s : State) (l : Label) : ℕ → GitPhase :=
  match l.session? with
  | none => r.git
  | some i => if (s.session i).loc.inspects then r.git else Function.update r.git i .waiting

/-- The snapshot that a step records. -/
def records : Label → List RecordedSnapshot
  | .exec i _ =>
    match (r.vault.session i).loc, r.git i with
    | .retention (.capture (.commit built snapshotId)), .listed bundle =>
      [{ snapshotId, manifest := built.manifest, evidence := built.evidence, bundle }]
    | _, _ => []
  | _ => []

def step : RepositoriesLabel → Option Repositories
  | .vault l =>
    if r.awaitsGit l then none
    else
      ((machine settings).step r.vault l).map fun s =>
        { r with vault := s, git := r.phases s l, recorded := r.recorded ++ r.records l }
  | .bundleCreate i =>
    match (r.vault.session i).loc.bundling, r.git i with
    | some request, .waiting =>
      if format.refs request.bundle = r.refs (request.mirrorPath settings.mirror) then
        some { r with git := Function.update r.git i .bundled }
      else none
    | _, _ => none
  | .showRef i =>
    match (r.vault.session i).loc.bundling, r.git i with
    | some request, .bundled =>
      let outcome := showRef (r.refs (request.mirrorPath settings.mirror))
      if outcome.exitCode = 0 ∧ outcome.lines.map parseRefs = some (.ok request.refs) then
        some { r with git := Function.update r.git i (.listed request.bundle) }
      else none
    | _, _ => none
  | .update i refs =>
    ((r.vault.session i).loc.updates settings.mirror r.vault.world).map fun path =>
      { r with refs := Function.update r.refs path refs }

end Repositories

/-- A store that holds a snapshot as it was recorded, and reads its manifest back. -/
structure Intact (cx : Crypto) (store : LocalBlobStore) (snapshot : RecordedSnapshot) : Prop where
  manifest : store.files snapshot.manifest.sha256 = some (cx.encode snapshot.evidence)
  bundle : store.files (cx.sha256 snapshot.bundle) = some snapshot.bundle
  decodes : cx.decode (cx.encode snapshot.evidence) = some snapshot.evidence

/-- In the restored repository `show-ref` lists what the bundle held. -/
def Restores (format : BundleFormat) (store : LocalBlobStore) (evidence : SnapshotManifest)
    (input : DrillInput) : Prop :=
  ∀ bundle bytes outcome, evidence.bundles.head? = some bundle →
    store.files bundle.sha256 = some bytes → input.showRef = .exited outcome →
    outcome = showRef (format.refs bytes)

/-- The manifest describes its bundle: the refs are the same, and no drill of the intact snapshot
fails on them. -/
structure Describes (cx : Crypto) (format : BundleFormat) (snapshot : RecordedSnapshot) : Prop where
  refs : ∀ reference, reference ∈ snapshot.evidence.refs ↔
    reference ∈ (format.refs snapshot.bundle).map (·.toRefEvidence)
  drill : ∀ store verification input e, Intact cx store snapshot →
    verification.manifest = snapshot.manifest →
    Restores format store snapshot.evidence input →
    RestoreDrill.execute cx store verification input = .error e → e.failure ≠ .refMismatch

/-- No mirror run moves the refs of a mirror while a capture of it is between its two processes. -/
def Steady (settings : Settings) (r : Repositories) : RepositoriesLabel → Prop
  | .update i refs => ∀ j request path, r.git j = .bundled →
      (r.vault.session j).loc.bundling = some request →
      (r.vault.session i).loc.updates settings.mirror r.vault.world = some path →
      request.mirrorPath settings.mirror = path → refs = r.refs path
  | _ => True

section

variable {settings : Settings} {cx : Crypto} {format : BundleFormat} {r r' : Repositories}
  {snapshot : RecordedSnapshot}

/-- A snapshot whose manifest lists the refs of its bundle. -/
theorem describes_of_carries {built : BuiltSnapshot} {bundle : Bytes} {snapshotId : Uuid}
    (h : built.Carries cx ((format.refs bundle).map (·.toRefEvidence)) bundle) :
    Describes cx format
      { snapshotId, manifest := built.manifest, evidence := built.evidence, bundle } where
  refs reference := by
    show reference ∈ built.evidence.refs ↔ _
    rw [h.refs]
    exact List.mem_mergeSort
  drill := by
    intro store verification input e hintact hmanifest hrestores hfails hmismatch
    obtain ⟨evidence, reference, outcome, observed, hload, hhead, -, hshow, hparse, hdiffers⟩ :=
      RestoreDrill.execute_refMismatch hfails hmismatch
    have hevidence : evidence = built.evidence := by
      unfold RestoreDrill.loadManifest at hload
      rw [hmanifest, hintact.manifest] at hload
      split at hload
      · cases hload
      · rename_i hnone
        cases hnone
      · rename_i bytes _ hfile
        obtain rfl := Option.some.inj hfile
        rw [hintact.decodes] at hload
        exact (Except.ok.inj hload).symm
    subst hevidence
    have hdigest : reference.sha256 = cx.sha256 bundle := by
      have hmem := List.mem_map_of_mem (f := (·.sha256)) (List.mem_of_mem_head? hhead)
      rw [h.named] at hmem
      exact List.mem_singleton.mp hmem
    have hlisted := hrestores reference bundle outcome hhead (hdigest ▸ hintact.bundle) hshow
    rw [hlisted, RestoreDrill.parseRefOutput_showRef] at hparse
    obtain rfl := Except.ok.inj hparse
    exact hdiffers h.refs.symm

/-- What a session has of the refs of its mirror, by how far its Git processes have come. -/
def Follows (settings : Settings) (format : BundleFormat) (r : Repositories) (i : ℕ) : Prop :=
  match r.git i with
  | .waiting => True
  | .bundled => ∃ request, (r.vault.session i).loc.bundling = some request ∧
      format.refs request.bundle = r.refs (request.mirrorPath settings.mirror)
  | .listed bundle => ∃ at_, (r.vault.session i).loc = .retention (.capture at_) ∧
      at_.Carries settings.retention.worker.crypto
        ((format.refs bundle).map (·.toRefEvidence)) bundle

structure Following (settings : Settings) (format : BundleFormat) (r : Repositories) : Prop where
  follows : ∀ i, Follows settings format r i
  describes : ∀ snapshot ∈ r.recorded, Describes settings.retention.worker.crypto format snapshot

/-- A step of the vault that the session does not take. -/
theorem Follows.beside {s : State} {git : ℕ → GitPhase} {recorded : List RecordedSnapshot} {i : ℕ}
    (h : Follows settings format r i) (hsession : s.session i = r.vault.session i)
    (hgit : git i = r.git i) :
    Follows settings format { r with vault := s, git, recorded } i := by
  unfold Follows at h ⊢
  simp only [hgit, hsession]
  exact h

theorem follows_waiting {s : State} {git : ℕ → GitPhase} {recorded : List RecordedSnapshot} {i : ℕ}
    (hgit : git i = .waiting) : Follows settings format { r with vault := s, git, recorded } i := by
  unfold Follows
  simp only [hgit]

/-- A capture that goes on carries what it had. -/
theorem Follows.own {s : State} {input : MirrorInput} {recorded : List RecordedSnapshot} {i : ℕ}
    (h : Follows settings format r i) (hready : r.awaitsGit (.exec i input) = false)
    (hstep : (machine settings).step r.vault (.exec i input) = some s)
    (hinspects : (s.session i).loc.inspects = true) :
    Follows settings format { r with vault := s, recorded } i := by
  unfold Follows at h ⊢
  cases hgit : r.git i with
  | waiting => trivial
  | bundled =>
    simp only [hgit] at h
    obtain ⟨request, hbundling, -⟩ := h
    simp only [Repositories.awaitsGit, hbundling, hgit] at hready
    cases hready
  | listed bundle =>
    simp only [hgit] at h ⊢
    obtain ⟨at_, hloc, hcarries⟩ := h
    obtain ⟨b, hb, -, hnext⟩ := Machine.step_exec hstep
    rw [hloc] at hb
    obtain ⟨c, hc, rfl⟩ := Option.map_eq_some_iff.mp hb
    obtain ⟨a, ha, rfl⟩ := Option.map_eq_some_iff.mp hc
    have hloc' : (s.session i).loc = .retention (.capture a.next) := by
      rw [hnext]
      cases a <;> rfl
    rw [hloc'] at hinspects
    exact ⟨a.next, hloc', captureSnapshot_carries ha hcarries hinspects⟩

theorem phases_of_ne {s : State} {l : Label} {i : ℕ} (h : l.session? ≠ some i) :
    r.phases s l i = r.git i := by
  unfold Repositories.phases
  cases hl : l.session? with
  | none => rfl
  | some j =>
    have hij : i ≠ j := fun hij => h (hij ▸ hl)
    simp only
    split_ifs
    · rfl
    · exact Function.update_of_ne hij _ _

theorem loc_of_start {s s' : State} {i : ℕ} {proc : Proc}
    (h : (machine settings).step s (.start i proc) = some s') : (s'.session i).loc = start proc := by
  simp only [Machine.step] at h
  split_ifs at h
  obtain rfl := Option.some.inj h
  exact congrArg Session.loc State.setSession_session_self

theorem loc_of_abort {s s' : State} {i : ℕ} (h : (machine settings).step s (.abort i) = some s') :
    (s'.session i).loc = .idle := by
  obtain rfl := Option.some.inj h
  exact congrArg Session.loc State.setSession_session_self

theorem not_inspects_start (proc : Proc) : (start proc).inspects = false := by
  cases proc with
  | retention proc => cases proc <;> rfl
  | _ => rfl

theorem loc_of_bundling {loc : Loc} {request : CaptureRequest} (h : loc.bundling = some request) :
    ∃ objects parent, loc = .retention (.capture (.publishBundle request objects parent)) := by
  unfold Loc.bundling at h
  split at h
  · cases h
    exact ⟨_, _, rfl⟩
  · cases h

/-- What a step records is described by what the session carries. -/
theorem Following.records {l : Label} (h : Following settings format r) :
    ∀ snapshot ∈ r.records l, Describes settings.retention.worker.crypto format snapshot := by
  intro snapshot hmem
  unfold Repositories.records at hmem
  split at hmem
  · rename_i i input
    split at hmem
    · rename_i built snapshotId bundle hloc hgit
      obtain rfl := List.mem_singleton.mp hmem
      have hfollows := h.follows i
      unfold Follows at hfollows
      simp only [hgit] at hfollows
      obtain ⟨at_, hat, hcarries⟩ := hfollows
      rw [hloc] at hat
      cases hat
      exact describes_of_carries hcarries
    · cases hmem
  · cases hmem

theorem following_step (r : Repositories) (l : RepositoriesLabel) (r' : Repositories)
    (h : Following settings format r) (hsteady : Steady settings r l)
    (hstep : Repositories.step settings format r l = some r') : Following settings format r' := by
  cases l with
  | vault l =>
    simp only [Repositories.step] at hstep
    split_ifs at hstep with hready
    obtain ⟨s, hs, rfl⟩ := Option.map_eq_some_iff.mp hstep
    refine ⟨fun j => ?_, List.forall_mem_append.mpr ⟨h.describes, h.records⟩⟩
    by_cases hown : l.session? = some j
    · unfold Repositories.phases
      simp only [hown]
      split_ifs with hinspects
      · cases l with
        | exec i input =>
          obtain rfl := Option.some.inj hown
          exact (h.follows i).own (by simpa using hready) hs hinspects
        | start i proc =>
          obtain rfl := Option.some.inj hown
          rw [loc_of_start hs] at hinspects
          rw [not_inspects_start proc] at hinspects
          cases hinspects
        | abort i =>
          obtain rfl := Option.some.inj hown
          rw [loc_of_abort hs] at hinspects
          cases hinspects
        | op o => cases hown
        | tick n => cases hown
      · exact follows_waiting (Function.update_self ..)
    · exact (h.follows j).beside (Machine.step_session_of_ne hs hown) (phases_of_ne hown)
  | bundleCreate i =>
    simp only [Repositories.step] at hstep
    split at hstep
    · rename_i request hbundling hgit
      split_ifs at hstep with hwritten
      obtain rfl := Option.some.inj hstep
      refine ⟨fun j => ?_, h.describes⟩
      by_cases hji : j = i
      · subst hji
        unfold Follows
        simp only [Function.update_self]
        exact ⟨request, hbundling, hwritten⟩
      · exact (h.follows j).beside rfl (Function.update_of_ne hji _ _)
    · cases hstep
  | showRef i =>
    simp only [Repositories.step] at hstep
    split at hstep
    · rename_i request hbundling hgit
      split_ifs at hstep with hlisted
      obtain rfl := Option.some.inj hstep
      refine ⟨fun j => ?_, h.describes⟩
      by_cases hji : j = i
      · subst hji
        have hfollows := h.follows j
        unfold Follows at hfollows ⊢
        simp only [hgit, Function.update_self] at hfollows ⊢
        obtain ⟨other, hother, hwritten⟩ := hfollows
        obtain rfl := Option.some.inj (hbundling.symm.trans hother)
        obtain ⟨objects, parent, hloc⟩ := loc_of_bundling hbundling
        refine ⟨_, hloc, ?_, rfl⟩
        rw [hwritten]
        exact parseRefsFrom_lines (Option.some.inj hlisted.2)
      · exact (h.follows j).beside rfl (Function.update_of_ne hji _ _)
    · cases hstep
  | update i refs =>
    obtain ⟨path, hpath, rfl⟩ := Option.map_eq_some_iff.mp hstep
    refine ⟨fun j => ?_, h.describes⟩
    have hfollows := h.follows j
    unfold Follows at hfollows ⊢
    cases hgit : r.git j with
    | waiting => trivial
    | bundled =>
      simp only [hgit] at hfollows ⊢
      obtain ⟨request, hbundling, hwritten⟩ := hfollows
      refine ⟨request, hbundling, ?_⟩
      by_cases hsame : request.mirrorPath settings.mirror = path
      · rw [hsame, Function.update_self, hsteady j request path hgit hbundling hpath hsame, ← hsame]
        exact hwritten
      · rw [Function.update_of_ne hsame]
        exact hwritten
    | listed bundle =>
      simp only [hgit] at hfollows ⊢
      exact hfollows

/-- In every run in which the mirrors stand still between the two processes of their captures, each
recorded manifest describes its bundle. -/
theorem manifests_describe_bundles {db : Db} {storage : MirrorStorage} {clock fresh : ℕ}
    {refs : String → List GitRef}
    (h : Reach (Repositories.step settings format) (Steady settings)
      { vault := initial db storage clock fresh, refs, git := fun _ => .waiting, recorded := [] } r) :
    ∀ snapshot ∈ r.recorded, Describes settings.retention.worker.crypto format snapshot := by
  have hfollowing : Following settings format r :=
    h.invariant ⟨fun _ => (by unfold Follows; trivial), fun _ hmem => absurd hmem List.not_mem_nil⟩
      following_step
  exact hfollowing.describes

end

namespace Sample

def mainAt (c : Char) (h : ' ' ∉ (String.ofList (List.replicate 40 c)).toList) : GitRef :=
  { name := "refs/heads/main", oid := String.ofList (List.replicate 40 c), oneWord := h }

def mainA : GitRef := mainAt 'a' (by decide)

def mainB : GitRef := mainAt 'b' (by decide)

/-- The bundles `[10]` and `[20]` hold the two positions of one branch. -/
def format : BundleFormat :=
  { refs := fun bytes =>
      if bytes = [10] then [mainA] else if bytes = [20] then [mainB] else [] }

/-- A mirrored target whose first run is the source of a capture. -/
def captured : Db :=
  { twoMirrors with
    mirrors := [{ mirrorId := 2, targetId := 1, status := .ready, storagePath := "m", fsckResult := .ok }]
    mirrorRuns := [{ runId := 3, targetId := 1, outcome := .succeeded }] }

def repositories : Repositories :=
  { vault := initial captured mirrored 0 10
    refs := fun _ => [mainA]
    git := fun _ => .waiting
    recorded := [] }

def captureOf (listed : GitRef) : CaptureRequest :=
  { source := { targetId := 1, mirrorId := 2, mirrorLifecycleRunId := 3 }
    bundle := [10]
    refs := [listed.toRefEvidence]
    createdAt := "t"
    lfs := none }

/-- A capture and a fetch of one mirror: the fetch brings `fetched` between the two processes of the
capture, which lists it. -/
def capturing (fetched : GitRef) : List RepositoriesLabel :=
  .vault (.start 0 (.retention (.capture (captureOf fetched)))) ::
    List.replicate 3 (.vault (.exec 0 answered)) ++ (fetching 1 1).map .vault ++
    [.bundleCreate 0, .update 1 [fetched], .showRef 0] ++
    List.replicate 12 (.vault (.exec 0 answered))

def isSteady (r : Repositories) : RepositoriesLabel → Bool
  | .update i refs =>
    ((r.vault.session i).loc.updates settings.mirror r.vault.world).all fun path =>
      decide (refs = r.refs path)
  | _ => true

theorem steady_of_isSteady {r : Repositories} {l : RepositoriesLabel} (h : isSteady r l = true) :
    Steady settings r l := by
  cases l with
  | update i refs =>
    intro j request path _ _ hpath _
    unfold isSteady at h
    simp only [hpath, Option.all_some, decide_eq_true_eq] at h
    exact h
  | _ => trivial

end Sample

theorem manifests_describe_bundles_unmoved : ∃ r,
    run (Repositories.step Sample.settings Sample.format) Sample.repositories
        (Sample.capturing Sample.mainA) = some r ∧
      r.recorded.length = 1 ∧
      ∀ snapshot ∈ r.recorded,
        Describes Sample.settings.retention.worker.crypto Sample.format snapshot := by
  obtain ⟨r, hrun, hrecorded⟩ : ∃ r, run (Repositories.step Sample.settings Sample.format)
      Sample.repositories (Sample.capturing Sample.mainA) = some r ∧
      decide (r.recorded.length = 1) = true :=
    exists_of_run_any (by decide +kernel)
  have hmeets : meets (Repositories.step Sample.settings Sample.format) Sample.isSteady
      Sample.repositories (Sample.capturing Sample.mainA) = true := by decide +kernel
  have hsteady : Along (Repositories.step Sample.settings Sample.format) (Steady Sample.settings)
      Sample.repositories (Sample.capturing Sample.mainA) :=
    along_of_meets (fun _ _ => Sample.steady_of_isSteady) hmeets
  exact ⟨r, hrun, of_decide_eq_true hrecorded,
    manifests_describe_bundles (Reach.of_run hrun hsteady)⟩

/-- A fetch between the two processes: the bundle holds the old position, the manifest the new. -/
theorem fetch_between_bundle_and_refs : ∃ r,
    run (Repositories.step Sample.settings Sample.format) Sample.repositories
        (Sample.capturing Sample.mainB) = some r ∧
      ∃ snapshot ∈ r.recorded,
        ¬ Describes Sample.settings.retention.worker.crypto Sample.format snapshot := by
  obtain ⟨r, hrun, hrecorded⟩ : ∃ r, run (Repositories.step Sample.settings Sample.format)
      Sample.repositories (Sample.capturing Sample.mainB) = some r ∧
      (r.recorded.any fun snapshot =>
        decide (snapshot.evidence.refs = [Sample.mainB.toRefEvidence] ∧
          Sample.format.refs snapshot.bundle = [Sample.mainA])) = true :=
    exists_of_run_any (by decide +kernel)
  obtain ⟨snapshot, hmem, hrefs⟩ := List.any_eq_true.mp hrecorded
  obtain ⟨hlisted, hheld⟩ := of_decide_eq_true hrefs
  refine ⟨r, hrun, snapshot, hmem, fun hdescribes => ?_⟩
  have hfound := (hdescribes.refs Sample.mainB.toRefEvidence).mp (by
    rw [hlisted]
    exact List.mem_singleton_self _)
  rw [hheld] at hfound
  exact absurd (List.mem_singleton.mp hfound) (by decide)

end Vault

end RatatoskrVault
