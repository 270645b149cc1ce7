import RatatoskrVault.Gitrunner.Runner
import RatatoskrVault.Lib.Bounded
import RatatoskrVault.Mirror.Steps

/-! What a mirror run nobody cancels makes of the Git tools: the verdict it records against what
the tools wrote and how they ended. -/
namespace RatatoskrVault

open Lib

/-- `MirrorLifecycle::runner`. -/
def mirrorRunner : RunConfig :=
  { allowed := [.cloneMirror, .fetch, .fsck, .showRef, .revList]
    deadline := 60
    stdoutCapBytes := 64 * 1024
    stderrCapBytes := 64 * 1024 }

def Captured.outcome (captured : Captured) : RunOutcome :=
  { exitCode := captured.exitCode, lines := (fromUtf8 captured.stdout).map strLines }

/-- `run_git` of a process that nobody cancels. -/
def GitCall.ofProcess (subcommand : Subcommand) (process : GitProcess) : GitCall :=
  match GitRunner.run mirrorRunner subcommand process with
  | .ok captured => .exited captured.outcome
  | .error _ => .runner (process != .notSpawned)

/-- The processes of one run: the clone or the fetch, and the tools of the check. -/
structure GitTools where
  acquire : GitProcess
  fsck : GitProcess
  showRef : GitProcess
  revList : GitProcess

/-- The Git call made at a location. -/
def GitTools.call (tools : GitTools) : MirrorLoc → GitCall
  | .clone _ => .ofProcess .cloneMirror tools.acquire
  | .fetch _ => .ofProcess .fetch tools.acquire
  | .evidence _ .fsck => .ofProcess .fsck tools.fsck
  | .evidence _ .showRef => .ofProcess .showRef tools.showRef
  | .evidence _ (.revList _) => .ofProcess .revList tools.revList
  | _ => .runner false

namespace GitProcess

variable (process : GitProcess)

/-- The runner has an outcome of the process: it ended by itself in time, within its caps. -/
def Returned : Prop := process.exit?.isSome ∧ process.Fits mirrorRunner

def Passes : Prop := process.exit? = some (some 0) ∧ process.Fits mirrorRunner

/-- The process completed with an exit code that reports a failure. -/
def ReportsDefect : Prop :=
  process.Fits mirrorRunner ∧ ∃ code, code ≠ 0 ∧ process.exit? = some (some code)

/-- `show-ref` completed and named no ref. -/
def NamesNoRef : Prop := process.Passes ∧ byteLines process.stdout.text = []

/-- `rev-list` completed and named no object. -/
def NamesNoObject : Prop := process.Passes ∧ nonEmptyLines process.stdout.text = 0

end GitProcess

namespace GitTools

variable (tools : GitTools)

/-- Every tool completes with exit 0 and they report a ref and an object, however much they
write. -/
def Complete : Prop :=
  tools.acquire.exit? = some (some 0) ∧ tools.fsck.exit? = some (some 0) ∧
    tools.showRef.exit? = some (some 0) ∧ tools.revList.exit? = some (some 0) ∧
    byteLines tools.showRef.stdout.text ≠ [] ∧ nonEmptyLines tools.revList.stdout.text ≠ 0

/-- A tool of the check completed and reported a defect or an empty count. -/
def Reported : Prop :=
  tools.fsck.ReportsDefect ∨
    tools.fsck.Passes ∧
      (tools.showRef.ReportsDefect ∨ tools.revList.ReportsDefect ∨ tools.showRef.NamesNoRef ∨
        tools.revList.NamesNoObject)

/-- What the runner returns of the two listings says what they wrote: it is UTF-8 and names as
much. -/
def Legible : Prop :=
  (fromUtf8 tools.showRef.stdout.received).isSome ∧
    (fromUtf8 tools.revList.stdout.received).isSome ∧
    byteLines tools.showRef.stdout.received ≠ [] ∧
    nonEmptyLines tools.revList.stdout.received = nonEmptyLines tools.revList.stdout.text

/-- The runner stays out of the way of the verdict: tools that complete stay within their caps and
are legible, `fsck` ends with an exit code within its caps, and a listing that a signal ends is
beside one that reports a failure. -/
structure Heard : Prop where
  complete : tools.Complete →
    tools.acquire.Fits mirrorRunner ∧ tools.fsck.Fits mirrorRunner ∧
      tools.showRef.Fits mirrorRunner ∧ tools.revList.Fits mirrorRunner ∧ tools.Legible
  fsck : tools.acquire.Passes →
    tools.fsck.Fits mirrorRunner ∧ ∃ code, tools.fsck.exit? = some (some code)
  showRef : tools.acquire.Passes → tools.fsck.Passes → tools.revList.Returned →
    tools.showRef.exit? = some none → tools.showRef.Fits mirrorRunner →
      tools.revList.ReportsDefect ∨ tools.revList.NamesNoObject
  revList : tools.acquire.Passes → tools.fsck.Passes → tools.showRef.Returned →
    tools.revList.exit? = some none → tools.revList.Fits mirrorRunner →
      tools.showRef.ReportsDefect ∨ tools.showRef.NamesNoRef

end GitTools

section Calls

variable {process : GitProcess} {subcommand : Subcommand} {code : Option ℤ}

theorem ofProcess_of_returned (hallowed : subcommand ∈ mirrorRunner.allowed)
    (hexit : process.exit? = some code) (hfits : process.Fits mirrorRunner)
    (hcode : subcommand = .fsck → code.any (· ≠ 0) = false) :
    GitCall.ofProcess subcommand process = .exited (process.captured code).outcome := by
  have hpasses : ¬ (code.any (· ≠ 0) = true ∧ subcommand = .fsck) := fun h => by
    rw [hcode h.2] at h
    exact absurd h.1 Bool.false_ne_true
  have hrun := GitProcess.run_of_exit? hallowed hexit
  rw [if_pos hfits, if_neg hpasses] at hrun
  rw [GitCall.ofProcess, hrun]

theorem ofProcess_of_not_returned (hallowed : subcommand ∈ mirrorRunner.allowed)
    (h : ¬ process.Returned) :
    GitCall.ofProcess subcommand process = .runner (process != .notSpawned) := by
  have herror : ∃ e, GitRunner.run mirrorRunner subcommand process = .error e := by
    cases hexit : process.exit? with
    | none => exact GitProcess.run_of_exit?_none hexit
    | some code =>
      have hfits : ¬ process.Fits mirrorRunner := fun hfits => h ⟨by simp [hexit], hfits⟩
      rw [GitProcess.run_of_exit? hallowed hexit, if_neg hfits]
      split_ifs <;> exact ⟨_, rfl⟩
  obtain ⟨e, he⟩ := herror
  rw [GitCall.ofProcess, he]

/-- A tool passes when it ends with exit 0 within its caps. -/
theorem isZeroExit_ofProcess (hallowed : subcommand ∈ mirrorRunner.allowed) :
    (GitCall.ofProcess subcommand process).isZeroExit = true ↔ process.Passes := by
  by_cases hreturned : process.Returned
  · obtain ⟨hsome, hfits⟩ := hreturned
    obtain ⟨code, hexit⟩ := Option.isSome_iff_exists.mp hsome
    have hrun := GitProcess.run_of_exit? hallowed hexit
    rw [if_pos hfits] at hrun
    unfold GitCall.ofProcess
    rw [hrun]
    unfold GitProcess.Passes
    rw [hexit]
    cases code with
    | none => simp [GitCall.isZeroExit, GitProcess.captured, Captured.outcome]
    | some code =>
      by_cases hcode : code = 0
      · simp [GitCall.isZeroExit, GitProcess.captured, Captured.outcome, hcode, hfits]
      · split_ifs <;> simp [GitCall.isZeroExit, GitProcess.captured, Captured.outcome, hcode]
  · rw [ofProcess_of_not_returned hallowed hreturned]
    refine iff_of_false (by simp [GitCall.isZeroExit]) fun h => hreturned ⟨?_, h.2⟩
    rw [h.1]
    rfl

/-- A listing has an outcome when its process returned. -/
theorem exited_ofProcess {outcome : RunOutcome} (hallowed : subcommand ∈ mirrorRunner.allowed)
    (hlisting : subcommand ≠ .fsck)
    (h : GitCall.ofProcess subcommand process = .exited outcome) :
    ∃ code, process.exit? = some code ∧ process.Fits mirrorRunner ∧
      outcome = (process.captured code).outcome := by
  by_cases hreturned : process.Returned
  · obtain ⟨hsome, hfits⟩ := hreturned
    obtain ⟨code, hexit⟩ := Option.isSome_iff_exists.mp hsome
    rw [ofProcess_of_returned hallowed hexit hfits (fun h => absurd h hlisting)] at h
    cases h
    exact ⟨code, hexit, hfits, rfl⟩
  · rw [ofProcess_of_not_returned hallowed hreturned] at h
    cases h

end Calls

/-- The results the tools lead to where nothing else decides. -/
inductive GitTools.Judged (tools : GitTools) : MirrorResult → Prop
  | unacquired (hacquire : ¬ tools.acquire.Passes) : Judged tools (.failed .remoteUnavailable)
  | unsound (hacquire : tools.acquire.Passes) (hfsck : ¬ tools.fsck.Passes) :
      Judged tools .integrityFailed
  | unlisted (hacquire : tools.acquire.Passes) (hfsck : tools.fsck.Passes)
      (hlisted : ¬ (tools.showRef.Returned ∧ tools.revList.Returned)) :
      Judged tools (.failed .dependencyUnavailable)
  | listed {refs objects : Option ℤ} {verdict : Except IntegrityFailure ℕ} {result : MirrorResult}
      (hacquire : tools.acquire.Passes) (hfsck : tools.fsck.Passes)
      (hrefs : tools.showRef.exit? = some refs) (hrefsFit : tools.showRef.Fits mirrorRunner)
      (hobjects : tools.revList.exit? = some objects)
      (hobjectsFit : tools.revList.Fits mirrorRunner)
      (hverdict : integrityEvidence (.exited (tools.revList.captured objects).outcome)
        (.revList (tools.showRef.captured refs).outcome) = .inr verdict)
      (hresult : match verdict with
        | .error _ => result = .integrityFailed
        | .ok objectCount => ∃ bytes, result = .succeeded objectCount bytes) :
      Judged tools result

/-- The verdict is that of the tools: what they complete with is the result, and a broken mirror is
recorded only on what they report. -/
structure GitTools.Decides (tools : GitTools) (result : MirrorResult) : Prop where
  complete : tools.Complete →
    ∃ bytes, result = .succeeded (nonEmptyLines tools.revList.stdout.text) bytes
  broken : result = .integrityFailed → tools.Reported

section Listing

variable {process showRef revList : GitProcess} {refs objects code : Option ℤ}

/-- What the runner returned of the listings names a ref and an object. -/
structure ListingsNamed (showRef revList : GitProcess) : Prop where
  refsUtf8 : (fromUtf8 showRef.stdout.received).isSome
  objectsUtf8 : (fromUtf8 revList.stdout.received).isSome
  ref : byteLines showRef.stdout.received ≠ []
  object : nonEmptyLines revList.stdout.received ≠ 0

theorem exitCode_captured : (process.captured code).outcome.exitCode = 0 ↔ code = some 0 := by
  cases code with
  | none => simp [GitProcess.captured, Captured.outcome]
  | some code => simp [GitProcess.captured, Captured.outcome]

theorem lines_captured :
    (process.captured code).outcome.lines = (fromUtf8 process.stdout.received).map strLines := rfl

/-- The verdict on two listings. -/
theorem integrityEvidence_listed :
    integrityEvidence (.exited (revList.captured objects).outcome)
        (.revList (showRef.captured refs).outcome)
      = .inr (.ok (nonEmptyLines revList.stdout.received)) ∧
        refs = some 0 ∧ objects = some 0 ∧ ListingsNamed showRef revList ∨
    integrityEvidence (.exited (revList.captured objects).outcome)
        (.revList (showRef.captured refs).outcome) = .inr (.error .broken) ∧
      ¬ (refs = some 0 ∧ objects = some 0 ∧ ListingsNamed showRef revList) := by
  unfold integrityEvidence
  by_cases hcodes : refs = some 0 ∧ objects = some 0
  · have hzero : ¬ ((showRef.captured refs).outcome.exitCode ≠ 0 ∨
        (revList.captured objects).outcome.exitCode ≠ 0) := by
      rw [not_or, not_not, not_not]
      exact ⟨exitCode_captured.mpr hcodes.1, exitCode_captured.mpr hcodes.2⟩
    simp only [if_neg hzero, lines_captured]
    cases hrefs : fromUtf8 showRef.stdout.received with
    | none =>
      exact Or.inr ⟨rfl, fun h => by simpa [hrefs] using h.2.2.refsUtf8⟩
    | some refsText =>
      cases hobjects : fromUtf8 revList.stdout.received with
      | none => exact Or.inr ⟨rfl, fun h => by simpa [hobjects] using h.2.2.objectsUtf8⟩
      | some objectsText =>
        have hcount := nonEmptyLines_of_fromUtf8 hobjects
        have hlines := strLines_eq_nil hrefs
        simp only [Option.map_some, hcount, hlines]
        by_cases hnames : byteLines showRef.stdout.received = [] ∨
            nonEmptyLines revList.stdout.received = 0
        · rw [if_pos hnames]
          refine Or.inr ⟨rfl, fun h => ?_⟩
          rcases hnames with hnone | hnone
          · exact h.2.2.ref hnone
          · exact h.2.2.object hnone
        · rw [if_neg hnames]
          obtain ⟨href, hobject⟩ := not_or.mp hnames
          exact Or.inl ⟨rfl, hcodes.1, hcodes.2,
            ⟨by rw [hrefs]; rfl, by rw [hobjects]; rfl, href, hobject⟩⟩
  · have hnonzero : (showRef.captured refs).outcome.exitCode ≠ 0 ∨
        (revList.captured objects).outcome.exitCode ≠ 0 := by
      rw [Ne, Ne, exitCode_captured, exitCode_captured, ← not_and_or]
      exact hcodes
    simp only [if_pos hnonzero]
    exact Or.inr ⟨trivial, fun h => hcodes ⟨h.1, h.2.1⟩⟩

end Listing

namespace GitTools

variable {tools : GitTools} {result : MirrorResult}

/-- A tool that passes and one that reports a defect are different tools. -/
theorem not_reportsDefect_of_passes {process : GitProcess} (h : process.Passes) :
    ¬ process.ReportsDefect := by
  rintro ⟨-, code, hcode, hexit⟩
  rw [h.1] at hexit
  exact hcode (Option.some.inj (Option.some.inj hexit)).symm

theorem returned_of_passes {process : GitProcess} (h : process.Passes) : process.Returned :=
  ⟨by rw [h.1]; rfl, h.2⟩

/-- Tools that complete and stay within their caps pass. -/
theorem Complete.passes (h : tools.Complete) (hfits : tools.acquire.Fits mirrorRunner ∧
      tools.fsck.Fits mirrorRunner ∧ tools.showRef.Fits mirrorRunner ∧
      tools.revList.Fits mirrorRunner ∧ tools.Legible) :
    tools.acquire.Passes ∧ tools.fsck.Passes ∧ tools.showRef.Passes ∧ tools.revList.Passes :=
  ⟨⟨h.1, hfits.1⟩, ⟨h.2.1, hfits.2.1⟩, ⟨h.2.2.1, hfits.2.2.1⟩, h.2.2.2.1, hfits.2.2.2.1⟩

/-- Runners that stay out of the way let the tools decide. -/
theorem Heard.decides (h : tools.Heard) (hjudged : tools.Judged result) : tools.Decides result where
  complete := by
    intro hcomplete
    have hfits := h.complete hcomplete
    obtain ⟨hacquire, hfsck, hrefs, hobjects⟩ := hcomplete.passes hfits
    obtain ⟨hrefsUtf8, hobjectsUtf8, href, hcount⟩ := hfits.2.2.2.2
    cases hjudged with
    | unacquired hnot => exact absurd hacquire hnot
    | unsound _ hnot => exact absurd hfsck hnot
    | unlisted _ _ hnot =>
      exact absurd ⟨returned_of_passes hrefs, returned_of_passes hobjects⟩ hnot
    | listed _ _ hrefsExit _ hobjectsExit _ hverdict hresult =>
      rw [hrefs.1] at hrefsExit
      rw [hobjects.1] at hobjectsExit
      obtain rfl := Option.some.inj hrefsExit
      obtain rfl := Option.some.inj hobjectsExit
      have hnamed : ListingsNamed tools.showRef tools.revList :=
        ⟨hrefsUtf8, hobjectsUtf8, href, hcount ▸ hcomplete.2.2.2.2.2⟩
      rcases integrityEvidence_listed with ⟨hok, -⟩ | ⟨-, hnot⟩
      · rw [hok] at hverdict
        obtain rfl := Sum.inr.inj hverdict
        rw [← hcount]
        exact hresult
      · exact absurd ⟨rfl, rfl, hnamed⟩ hnot
  broken := by
    intro hbroken
    cases hjudged with
    | unacquired => cases hbroken
    | unsound hacquire hfsck =>
      obtain ⟨hfits, code, hexit⟩ := h.fsck hacquire
      refine Or.inl ⟨hfits, code, fun hcode => hfsck ⟨?_, hfits⟩, hexit⟩
      rw [hexit, hcode]
    | unlisted => cases hbroken
    | @listed refs objects _ _ hacquire hfsck hrefs hrefsFit hobjects hobjectsFit hverdict hresult =>
      refine Or.inr ⟨hfsck, ?_⟩
      cases refs with
      | none =>
        have hother := h.showRef hacquire hfsck ⟨by rw [hobjects]; rfl, hobjectsFit⟩ hrefs hrefsFit
        rcases hother with hdefect | hnone
        · exact Or.inr (Or.inl hdefect)
        · exact Or.inr (Or.inr (Or.inr hnone))
      | some refsCode =>
        by_cases hrefsCode : refsCode = 0
        · obtain rfl := hrefsCode
          cases objects with
          | none =>
            have hother := h.revList hacquire hfsck ⟨by rw [hrefs]; rfl, hrefsFit⟩ hobjects
              hobjectsFit
            rcases hother with hdefect | hnone
            · exact Or.inl hdefect
            · exact Or.inr (Or.inr (Or.inl hnone))
          | some objectsCode =>
            by_cases hobjectsCode : objectsCode = 0
            · obtain rfl := hobjectsCode
              by_cases hcomplete : tools.Complete
              · have hlegible := (h.complete hcomplete).2.2.2.2
                obtain ⟨hrefsUtf8, hobjectsUtf8, href, hcount⟩ := hlegible
                have hnamed : ListingsNamed tools.showRef tools.revList :=
                  ⟨hrefsUtf8, hobjectsUtf8, href, hcount ▸ hcomplete.2.2.2.2.2⟩
                rcases integrityEvidence_listed with ⟨hok, -⟩ | ⟨-, hnot⟩
                · rw [hok] at hverdict
                  obtain rfl := Sum.inr.inj hverdict
                  obtain ⟨bytes, hbytes⟩ := hresult
                  rw [hbytes] at hbroken
                  cases hbroken
                · exact absurd ⟨rfl, rfl, hnamed⟩ hnot
              · by_cases href : byteLines tools.showRef.stdout.text = []
                · exact Or.inr (Or.inr (Or.inl ⟨⟨hrefs, hrefsFit⟩, href⟩))
                · by_cases hobject : nonEmptyLines tools.revList.stdout.text = 0
                  · exact Or.inr (Or.inr (Or.inr ⟨⟨hobjects, hobjectsFit⟩, hobject⟩))
                  · exact absurd ⟨hacquire.1, hfsck.1, hrefs, hobjects, href, hobject⟩ hcomplete
            · exact Or.inr (Or.inl ⟨hobjectsFit, objectsCode, hobjectsCode, hobjects⟩)
        · exact Or.inl ⟨hrefsFit, refsCode, hrefsCode, hrefs⟩

/-- The verdict on listings of which one was ended by a signal is that the mirror is broken. -/
theorem Judged.broken_of_killed (hjudged : tools.Judged result) (hacquire : tools.acquire.Passes)
    (hrefs : tools.showRef.Returned) (hobjects : tools.revList.Returned)
    (hkilled : tools.showRef.exit? = some none ∨ tools.revList.exit? = some none) :
    result = .integrityFailed := by
  cases hjudged with
  | unacquired hnot => exact absurd hacquire hnot
  | unsound => rfl
  | unlisted _ _ hnot => exact absurd ⟨hrefs, hobjects⟩ hnot
  | @listed refs objects _ _ _ _ hrefsExit _ hobjectsExit _ hverdict hresult =>
    rcases @integrityEvidence_listed tools.showRef tools.revList refs objects with
      ⟨-, hrefsZero, hobjectsZero, -⟩ | ⟨hbroken, -⟩
    · rw [hrefsExit, hobjectsExit, hrefsZero, hobjectsZero] at hkilled
      rcases hkilled with hkilled | hkilled <;> cases hkilled
    · rw [hbroken] at hverdict
      obtain rfl := Sum.inr.inj hverdict
      exact hresult

/-- Tools decide a verdict only where the runner stays out of the way. -/
theorem Decides.heard (h : tools.Decides result) (hjudged : tools.Judged result) : tools.Heard where
  complete := by
    intro hcomplete
    obtain ⟨bytes, hresult⟩ := h.complete hcomplete
    cases hjudged with
    | unacquired => cases hresult
    | unsound => cases hresult
    | unlisted => cases hresult
    | listed hacquire hfsck _ hrefsFit _ hobjectsFit hverdict hlisted =>
      refine ⟨hacquire.2, hfsck.2, hrefsFit, hobjectsFit, ?_⟩
      rcases integrityEvidence_listed with ⟨hok, -, -, hnamed⟩ | ⟨hbroken, -⟩
      · rw [hok] at hverdict
        obtain rfl := Sum.inr.inj hverdict
        obtain ⟨bytes', hbytes⟩ := hlisted
        rw [hresult] at hbytes
        have hcount : nonEmptyLines tools.revList.stdout.received
            = nonEmptyLines tools.revList.stdout.text := by
          injection hbytes with hcount
          exact hcount.symm
        exact ⟨hnamed.refsUtf8, hnamed.objectsUtf8, hnamed.ref, hcount⟩
      · rw [hbroken] at hverdict
        obtain rfl := Sum.inr.inj hverdict
        have hfailed : result = .integrityFailed := hlisted
        rw [hfailed] at hresult
        cases hresult
  fsck := by
    intro hacquire
    by_cases hpasses : tools.fsck.Passes
    · exact ⟨hpasses.2, 0, hpasses.1⟩
    · have hbroken : result = .integrityFailed := by
        cases hjudged with
        | unacquired hnot => exact absurd hacquire hnot
        | unsound => rfl
        | unlisted _ hfsck => exact absurd hfsck hpasses
        | listed _ hfsck => exact absurd hfsck hpasses
      rcases h.broken hbroken with ⟨hfits, code, -, hexit⟩ | ⟨hfsck, -⟩
      · exact ⟨hfits, code, hexit⟩
      · exact absurd hfsck hpasses
  showRef := by
    intro hacquire hfsck hobjects hkilled hfits
    have hrefs : tools.showRef.Returned := ⟨by rw [hkilled]; rfl, hfits⟩
    have hbroken := hjudged.broken_of_killed hacquire hrefs hobjects (Or.inl hkilled)
    rcases h.broken hbroken with hdefect | ⟨-, ⟨-, code, -, hexit⟩ | hdefect | hnone | hnone⟩
    · exact absurd hdefect (not_reportsDefect_of_passes hfsck)
    · rw [hkilled] at hexit
      cases hexit
    · exact Or.inl hdefect
    · have hexit := hnone.1.1
      rw [hkilled] at hexit
      cases hexit
    · exact Or.inr hnone
  revList := by
    intro hacquire hfsck hrefs hkilled hfits
    have hobjects : tools.revList.Returned := ⟨by rw [hkilled]; rfl, hfits⟩
    have hbroken := hjudged.broken_of_killed hacquire hrefs hobjects (Or.inr hkilled)
    rcases h.broken hbroken with hdefect | ⟨-, hdefect | ⟨-, code, -, hexit⟩ | hnone | hnone⟩
    · exact absurd hdefect (not_reportsDefect_of_passes hfsck)
    · exact Or.inl hdefect
    · rw [hkilled] at hexit
      cases hexit
    · exact Or.inr hnone
    · have hexit := hnone.1.1
      rw [hkilled] at hexit
      cases hexit

end GitTools

section Steps

variable (settings : MirrorLifecycleSettings) (tools : GitTools)

namespace MirrorLoc

/-- No process starts in a directory that is gone. -/
def Grounded (storage : MirrorStorage) : MirrorLoc → Prop
  | fetch run =>
    storage.mirrors (mirrorRelativePath settings run.request.targetId) = false →
      tools.acquire = .notSpawned
  | evidence run at_ =>
    run.operation = .fetch →
      storage.mirrors (mirrorRelativePath settings run.request.targetId) = false →
        tools.call (.evidence run at_) = .runner false
  | _ => True

/-- A budget or a file operation stands in the way of the run here. -/
def hindered (db : Db) (storage : MirrorStorage) (input : MirrorInput) : MirrorLoc → Bool
  | globalReserved run reserved =>
    let requested := admittedReservation settings run.request
    settings.perMirrorMaxBytes < min i64Max (reserved + requested) ||
      settings.globalMaxBytes < min i64Max (reservedBytes db.reservations + requested)
  | clone _ => input.io != .ok
  | publishStaging run _ =>
    input.io != .ok || storage.mirrors (mirrorRelativePath settings run.request.targetId)
  | directorySize run _ =>
    !storage.mirrors (mirrorRelativePath settings run.request.targetId) || input.size.isNone
  | _ => false

/-- What a run knows of its tools at each location. -/
def Recalls : MirrorLoc → Prop
  | evidence _ .fsck => tools.acquire.Passes
  | evidence _ .showRef => tools.acquire.Passes ∧ tools.fsck.Passes
  | evidence _ (.revList refs) =>
    tools.acquire.Passes ∧ tools.fsck.Passes ∧
      GitCall.ofProcess .showRef tools.showRef = .exited refs
  | publishStaging _ objectCount => ∀ bytes, tools.Judged (.succeeded objectCount bytes)
  | directorySize _ objectCount => ∀ bytes, tools.Judged (.succeeded objectCount bytes)
  | collectLfs _ result => tools.Judged result
  | insertRun job => tools.Judged job.result
  | _ => True

/-- A run that something else ended says nothing against the mirror. -/
def Spared : MirrorLoc → Prop
  | collectLfs _ result => result ≠ .integrityFailed
  | insertRun job => job.result ≠ .integrityFailed
  | releaseReservation _ => True
  | commitRun _ => True
  | ensureMirror _ => True
  | recordVerified _ => True
  | markDegraded _ => True
  | setStatus _ _ => True
  | persistLfs _ => True
  | setLfsDegraded _ => True
  | finished _ => True
  | _ => False

end MirrorLoc

/-- A step is told what the tools make of its Git call, and that nobody cancels the run. -/
structure GitTools.Tells (storage : MirrorStorage) (input : MirrorInput) (at_ : MirrorLoc) :
    Prop where
  call : input.git = tools.call at_
  running : input.cancelled = false
  grounded : at_.Grounded settings tools storage

instance (storage : MirrorStorage) (at_ : MirrorLoc) :
    Decidable (at_.Grounded settings tools storage) := by
  cases at_ <;> unfold MirrorLoc.Grounded <;> infer_instance

instance (storage : MirrorStorage) (input : MirrorInput) (at_ : MirrorLoc) :
    Decidable (tools.Tells settings storage input at_) :=
  decidable_of_iff (input.git = tools.call at_ ∧ input.cancelled = false ∧
      at_.Grounded settings tools storage)
    ⟨fun h => ⟨h.1, h.2.1, h.2.2⟩, fun h => ⟨h.call, h.running, h.grounded⟩⟩

variable {settings tools} {m : Moment} {db : Db} {storage : MirrorStorage} {input : MirrorInput}
  {at_ : MirrorLoc} {run : MirrorRun} {a : Action MirrorStorage Lock Write MirrorLoc}

theorem runGit_call {at_ : MirrorLoc} {path : String}
    (h : storage.mirrors path = false → tools.call at_ = .runner false) :
    runGit storage path (tools.call at_) = tools.call at_ := by
  unfold runGit
  cases hmirrors : storage.mirrors path with
  | true => rfl
  | false =>
    rw [h hmirrors]
    rfl

/-- The check works on the tool of the call. -/
theorem checkGit_call {at_ : EvidenceLoc}
    (h : (MirrorLoc.evidence run at_).Grounded settings tools storage) :
    checkGit settings storage run (tools.call (.evidence run at_))
      = tools.call (.evidence run at_) := by
  unfold checkGit
  cases hoperation : run.operation with
  | initialClone => rfl
  | fetch => exact runGit_call (h hoperation)

/-- Nobody cancels a call of a process. -/
theorem ofProcess_ne_cancelled {subcommand : Subcommand} {process : GitProcess} {started : Bool} :
    GitCall.ofProcess subcommand process ≠ .cancelled started := by
  unfold GitCall.ofProcess
  split <;> exact GitCall.noConfusion

theorem knows_clone (htells : tools.Tells settings storage input (.clone run))
    (hfree : input.io = .ok)
    (hstep : runMirror settings m db storage input (.clone run) = some a) :
    a.next.Recalls tools := by
  have hcall : input.git = .ofProcess .cloneMirror tools.acquire := htells.call
  have hpasses : (GitCall.ofProcess .cloneMirror tools.acquire).isZeroExit = true ↔ tools.acquire.Passes :=
    isZeroExit_ofProcess (by decide)
  have hne := @ofProcess_ne_cancelled .cloneMirror tools.acquire
  rw [← hcall] at hpasses hne
  simp only [runMirror, hfree] at hstep
  cases hgit : input.git with
  | cancelled started => exact absurd hgit hne
  | runner started =>
    rw [hgit] at hstep hpasses
    cases hstep
    exact .unacquired fun h => Bool.false_ne_true (hpasses.mpr h)
  | exited outcome =>
    rw [hgit] at hstep hpasses
    split_ifs at hstep with hexit
    · cases hstep
      exact hpasses.mp hexit
    · cases hstep
      exact .unacquired fun h => hexit (hpasses.mpr h)

theorem knows_fetch (htells : tools.Tells settings storage input (.fetch run))
    (hstep : runMirror settings m db storage input (.fetch run) = some a) :
    a.next.Recalls tools := by
  have hcall : input.git = .ofProcess .fetch tools.acquire := htells.call
  have hrunGit : runGit storage (mirrorRelativePath settings run.request.targetId) input.git
      = input.git := by
    rw [htells.call]
    refine runGit_call fun hgone => ?_
    show GitCall.ofProcess .fetch tools.acquire = .runner false
    rw [htells.grounded hgone]
    rfl
  have hpasses : (GitCall.ofProcess .fetch tools.acquire).isZeroExit = true ↔ tools.acquire.Passes :=
    isZeroExit_ofProcess (by decide)
  have hne := @ofProcess_ne_cancelled .fetch tools.acquire
  rw [← hcall] at hpasses hne
  simp only [runMirror, hrunGit] at hstep
  cases hgit : input.git with
  | cancelled started => exact absurd hgit hne
  | runner started =>
    rw [hgit] at hstep hpasses
    cases hstep
    exact .unacquired fun h => Bool.false_ne_true (hpasses.mpr h)
  | exited outcome =>
    rw [hgit] at hstep hpasses
    split_ifs at hstep with hstarted hexit hexit
    · cases hstep
      exact hpasses.mp hexit
    · cases hstep
      exact .unacquired fun h => hexit (hpasses.mpr h)
    · exact absurd rfl hstarted
    · exact absurd rfl hstarted

/-- One call of the check, and what the run knows after it. -/
theorem knows_evidence {at_ : EvidenceLoc}
    (hrecalls : (MirrorLoc.evidence run at_).Recalls tools)
    (htells : tools.Tells settings storage input (.evidence run at_))
    (hstep : runMirror settings m db storage input (.evidence run at_) = some a) :
    a.next.Recalls tools := by
  have hcheck : checkGit settings storage run input.git = tools.call (.evidence run at_) := by
    rw [htells.call]
    exact checkGit_call htells.grounded
  simp only [runMirror, hcheck] at hstep
  cases at_ with
  | fsck =>
    have hpasses : (GitCall.ofProcess .fsck tools.fsck).isZeroExit = true ↔ tools.fsck.Passes :=
      isZeroExit_ofProcess (by decide)
    have hne := @ofProcess_ne_cancelled .fsck tools.fsck
    simp only [GitTools.call] at hstep
    have hevidence : integrityEvidence (.ofProcess .fsck tools.fsck) .fsck
        = if (GitCall.ofProcess .fsck tools.fsck).isZeroExit then .inl .showRef
          else .inr (.error .broken) := by
      cases hgit : GitCall.ofProcess .fsck tools.fsck with
      | cancelled started => exact absurd hgit hne
      | runner started => rfl
      | exited outcome => rfl
    rw [hevidence] at hstep
    by_cases hexit : (GitCall.ofProcess .fsck tools.fsck).isZeroExit = true
    · rw [if_pos hexit] at hstep
      cases hstep
      exact ⟨hrecalls, hpasses.mp hexit⟩
    · rw [if_neg hexit] at hstep
      cases hstep
      exact .unsound hrecalls fun h => hexit (hpasses.mpr h)
  | showRef =>
    obtain ⟨hacquire, hfsck⟩ := hrecalls
    simp only [GitTools.call] at hstep
    cases hgit : GitCall.ofProcess .showRef tools.showRef with
    | cancelled started => exact absurd hgit ofProcess_ne_cancelled
    | runner started =>
      rw [hgit] at hstep
      cases hstep
      refine .unlisted hacquire hfsck fun hlisted => ?_
      obtain ⟨code, hcode⟩ := Option.isSome_iff_exists.mp hlisted.1.1
      rw [ofProcess_of_returned (by decide) hcode hlisted.1.2 (fun h => by cases h)] at hgit
      cases hgit
    | exited refs =>
      rw [hgit] at hstep
      cases hstep
      exact ⟨hacquire, hfsck, hgit⟩
  | revList refs =>
    obtain ⟨hacquire, hfsck, hrefs⟩ := hrecalls
    obtain ⟨refsCode, hrefsExit, hrefsFit, rfl⟩ := exited_ofProcess (by decide) (by decide) hrefs
    simp only [GitTools.call] at hstep
    cases hgit : GitCall.ofProcess .revList tools.revList with
    | cancelled started => exact absurd hgit ofProcess_ne_cancelled
    | runner started =>
      rw [hgit] at hstep
      cases hstep
      refine .unlisted hacquire hfsck fun hlisted => ?_
      obtain ⟨code, hcode⟩ := Option.isSome_iff_exists.mp hlisted.2.1
      rw [ofProcess_of_returned (by decide) hcode hlisted.2.2 (fun h => by cases h)] at hgit
      cases hgit
    | exited objects =>
      obtain ⟨objectsCode, hobjectsExit, hobjectsFit, rfl⟩ :=
        exited_ofProcess (by decide) (by decide) hgit
      have hlisted := @integrityEvidence_listed tools.showRef tools.revList refsCode objectsCode
      rw [hgit] at hstep
      rcases hlisted with ⟨hok, -⟩ | ⟨hbroken, -⟩
      · rw [hok] at hstep
        have hjudged : ∀ bytes, tools.Judged
            (.succeeded (nonEmptyLines tools.revList.stdout.received) bytes) := fun bytes =>
          .listed hacquire hfsck hrefsExit hrefsFit hobjectsExit hobjectsFit hok ⟨bytes, rfl⟩
        simp only at hstep
        split at hstep
        · cases hstep
          exact hjudged
        · cases hstep
          exact hjudged
      · rw [hbroken] at hstep
        cases hstep
        exact .listed hacquire hfsck hrefsExit hrefsFit hobjectsExit hobjectsFit hbroken rfl

/-- What a run knows of its tools goes with it while nothing else is in its way. -/
theorem MirrorLoc.Recalls.step (h : at_.Recalls tools) (htells : tools.Tells settings storage input at_)
    (hfree : at_.hindered settings db storage input = false)
    (hstep : runMirror settings m db storage input at_ = some a) : a.next.Recalls tools := by
  cases at_ with
  | clone run => exact knows_clone htells (by simpa [MirrorLoc.hindered] using hfree) hstep
  | fetch run => exact knows_fetch htells hstep
  | evidence run loc => exact knows_evidence h htells hstep
  | globalReserved run reserved =>
    simp only [MirrorLoc.hindered, Bool.or_eq_false_iff, decide_eq_false_iff_not] at hfree
    simp only [runMirror, failRun] at hstep
    rw [if_neg (not_or.mpr hfree)] at hstep
    split_ifs at hstep <;> cases hstep <;> trivial
  | admitted run =>
    simp only [runMirror, htells.running] at hstep
    cases hstep
    cases hoperation : run.operation <;> simp [Action.next, MirrorLoc.Recalls]
  | publishStaging run objectCount =>
    obtain ⟨hio, habsent⟩ : input.io = .ok ∧
        storage.mirrors (mirrorRelativePath settings run.request.targetId) = false := by
      simpa [MirrorLoc.hindered] using hfree
    simp only [runMirror, hio, habsent] at hstep
    cases hstep
    exact h
  | directorySize run objectCount =>
    obtain ⟨hpresent, hsize⟩ :
        storage.mirrors (mirrorRelativePath settings run.request.targetId) = true ∧
          input.size.isSome = true := by
      simpa [MirrorLoc.hindered] using hfree
    obtain ⟨bytes, hbytes⟩ := Option.isSome_iff_exists.mp hsize
    simp only [runMirror, hpresent, hbytes] at hstep
    cases hstep
    exact h bytes
  | collectLfs run result =>
    simp only [runMirror, MirrorRun.finish] at hstep
    split_ifs at hstep <;> cases hstep <;> exact h
  | transitionStarted request operation =>
    rcases setTargetStatus_next hstep with hnext | ⟨e, rfl⟩
    · rw [hnext]
      trivial
    · trivial
  | setStatus job status =>
    rcases setTargetStatus_next hstep with hnext | ⟨e, rfl⟩
    · rw [hnext]
      trivial
    · trivial
  | setLfsDegraded job =>
    rcases setTargetStatus_next hstep with hnext | ⟨e, rfl⟩
    · rw [hnext]
      trivial
    · trivial
  | persistLfs job =>
    simp only [runMirror] at hstep
    cases hstep
    simp only [Action.next]
    split <;> trivial
  | begin request =>
    simp only [runMirror, failRun] at hstep
    split_ifs at hstep <;> cases hstep <;> trivial
  | commitRun job =>
    cases hstep
    simp only [Action.next, Finishing.observe]
    split <;> trivial
  | _ =>
    simp only [runMirror, failRun] at hstep
    (repeat' split at hstep) <;> cases hstep <;> trivial

/-- What is in the way of a run ends it without a word against the mirror. -/
theorem spared_of_hindered (hhindered : at_.hindered settings db storage input = true)
    (hstep : runMirror settings m db storage input at_ = some a) : a.next.Spared := by
  cases at_ with
  | globalReserved run reserved =>
    simp only [MirrorLoc.hindered, Bool.or_eq_true, decide_eq_true_eq] at hhindered
    simp only [runMirror, failRun] at hstep
    rw [if_pos hhindered] at hstep
    split_ifs at hstep <;> cases hstep
    · trivial
    · exact MirrorResult.noConfusion
  | clone run =>
    cases hio : input.io with
    | ok => simp [MirrorLoc.hindered, hio] at hhindered
    | failedBefore =>
      simp only [runMirror, hio] at hstep
      cases hstep
      exact MirrorResult.noConfusion
    | failedAfter =>
      simp only [runMirror, hio] at hstep
      cases hstep
      exact MirrorResult.noConfusion
  | publishStaging run objectCount =>
    simp only [MirrorLoc.hindered, Bool.or_eq_true, bne_iff_ne] at hhindered
    simp only [runMirror] at hstep
    split at hstep
    · cases hstep
      exact MirrorResult.noConfusion
    · split_ifs at hstep with hpresent hio
      · cases hstep
        exact MirrorResult.noConfusion
      · rcases hhindered with hnot | hnot
        · exact absurd hio hnot
        · exact absurd hnot hpresent
      · cases hstep
        exact MirrorResult.noConfusion
  | directorySize run objectCount =>
    simp only [runMirror] at hstep
    cases hstep
    simp only [Action.next, MirrorLoc.Spared]
    split <;> exact MirrorResult.noConfusion
  | _ => simp [MirrorLoc.hindered] at hhindered

/-- A run spared once stays so. -/
theorem MirrorLoc.Spared.step (h : at_.Spared)
    (hstep : runMirror settings m db storage input at_ = some a) : a.next.Spared := by
  cases at_ with
  | collectLfs run result =>
    simp only [runMirror, MirrorRun.finish] at hstep
    split_ifs at hstep <;> cases hstep <;> exact h
  | setStatus job status =>
    rcases setTargetStatus_next hstep with hnext | ⟨e, rfl⟩
    · rw [hnext]
      trivial
    · trivial
  | setLfsDegraded job =>
    rcases setTargetStatus_next hstep with hnext | ⟨e, rfl⟩
    · rw [hnext]
      trivial
    · trivial
  | persistLfs job =>
    simp only [runMirror] at hstep
    cases hstep
    simp only [Action.next]
    split <;> trivial
  | commitRun job =>
    cases hstep
    simp only [Action.next, Finishing.observe]
    split <;> trivial
  | insertRun job =>
    simp only [runMirror, failRun] at hstep
    (repeat' split at hstep) <;> cases hstep <;> trivial
  | ensureMirror job =>
    simp only [runMirror] at hstep
    split_ifs at hstep <;> cases hstep <;> trivial
  | releaseReservation job => cases hstep; trivial
  | recordVerified job => cases hstep; trivial
  | markDegraded job => cases hstep; trivial
  | finished result => cases hstep
  | _ => exact h.elim

/-- From its record on, a run keeps its result and returns it. -/
def MirrorLoc.Returns (result : MirrorResult) : MirrorLoc → Prop
  | insertRun job => job.result = result
  | releaseReservation job => job.result = result
  | commitRun job => job.result = result
  | ensureMirror job => job.result = result
  | recordVerified job => job.result = result
  | markDegraded job => job.result = result
  | setStatus job _ => job.result = result
  | persistLfs job => job.result = result
  | setLfsDegraded job => job.result = result
  | finished (.ok outcome) => outcome.mirror = result
  | finished (.error _) => True
  | _ => False

theorem MirrorLoc.Returns.step {result : MirrorResult} (h : at_.Returns result)
    (hstep : runMirror settings m db storage input at_ = some a) : a.next.Returns result := by
  cases at_ with
  | setStatus job status =>
    rcases setTargetStatus_next hstep with hnext | ⟨e, rfl⟩
    · rw [hnext]
      exact h
    · trivial
  | setLfsDegraded job =>
    rcases setTargetStatus_next hstep with hnext | ⟨e, rfl⟩
    · rw [hnext]
      exact h
    · trivial
  | persistLfs job =>
    simp only [runMirror] at hstep
    cases hstep
    simp only [Action.next]
    split <;> exact h
  | commitRun job =>
    cases hstep
    simp only [Action.next, Finishing.observe]
    split <;> exact h
  | insertRun job =>
    simp only [runMirror, failRun] at hstep
    (repeat' split at hstep) <;> cases hstep <;> first | exact h | trivial
  | ensureMirror job =>
    simp only [runMirror] at hstep
    split_ifs at hstep <;> cases hstep <;> exact h
  | releaseReservation job => cases hstep; exact h
  | recordVerified job => cases hstep; exact h
  | markDegraded job => cases hstep; exact h
  | finished result => cases hstep
  | _ => exact h.elim

end Steps

end RatatoskrVault
