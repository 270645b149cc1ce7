import RatatoskrVault.Mirror.Verdict
import RatatoskrVault.Vault.System

/-! The verdict a mirror run records, in every interleaving: exactly when it is the one the Git
tools report of the repository. -/
namespace RatatoskrVault.Vault

open Lib

section

variable (settings : Settings) (tools : GitTools) (i : ℕ)

/-- Session `i` goes on with its mirror run, and its Git calls end as the tools do. -/
def Told (s : State) (l : Label) : Prop :=
  l.Continues i ∧ ∀ input at_, l = .exec i input → (s.session i).loc = .mirror at_ →
    tools.Tells settings.mirror s.world input at_

/-- Neither a budget nor a file operation stops the run of session `i` here. -/
def Unhindered (s : State) (l : Label) : Prop :=
  ∀ input at_, l = .exec i input → (s.session i).loc = .mirror at_ →
    at_.hindered settings.mirror ((machine settings).view s i) s.world input = false

/-- `Told`, for labels of session `i`. -/
def isTold (s : State) : Label → Bool
  | .exec j input =>
    j == i &&
      match (s.session i).loc with
      | .mirror at_ => decide (tools.Tells settings.mirror s.world input at_)
      | _ => true
  | _ => false

/-- `Unhindered`, for labels of session `i`. -/
def isUnhindered (s : State) : Label → Bool
  | .exec _ input =>
    match (s.session i).loc with
    | .mirror at_ =>
      !at_.hindered settings.mirror ((machine settings).view s i) s.world input
    | _ => true
  | _ => true

end

section

variable {settings : Settings} {tools : GitTools} {i : ℕ} {s s' : State} {l : Label}
  {ls : List Label} {at_ : MirrorLoc}

/-- A step of a run that goes on: of another session, or the next of the mirror run. -/
theorem mirror_step (hloc : (s.session i).loc = .mirror at_) (hcontinues : l.Continues i)
    (h : (machine settings).step s l = some s') :
    (s'.session i).loc = .mirror at_ ∨
      ∃ input a, l = .exec i input ∧
        runMirror settings.mirror (s.moment i) ((machine settings).view s i) s.world input at_
          = some a ∧ (s'.session i).loc = .mirror a.next := by
  by_cases hl : l.session? = some i
  · obtain ⟨input, rfl⟩ := Label.eq_exec hcontinues hl
    obtain ⟨a, hact, -, hnext⟩ := Machine.step_exec h
    rw [hloc] at hact
    obtain ⟨b, hb, rfl⟩ := Option.map_eq_some_iff.mp hact
    rw [Action.next_map] at hnext
    exact Or.inr ⟨input, b, rfl, hb, hnext⟩
  · left
    rw [Machine.step_session_of_ne h hl]
    exact hloc

/-- What every step of a mirror run keeps holds at the end of the run. -/
theorem mirror_run {I : MirrorLoc → Prop}
    (hstep : ∀ {m db storage input loc a}, I loc →
      runMirror settings.mirror m db storage input loc = some a → I a.next)
    (hloc : (s.session i).loc = .mirror at_) (hI : I at_)
    (hcontinues : ∀ l ∈ ls, l.Continues i) (hrun : run (machine settings).step s ls = some s') :
    ∃ at', (s'.session i).loc = .mirror at' ∧ I at' := by
  induction ls generalizing s at_ with
  | nil =>
    cases hrun
    exact ⟨at_, hloc, hI⟩
  | cons l ls ih =>
    obtain ⟨s₁, hs, hrest⟩ := Option.bind_eq_some_iff.mp hrun
    have hlater : ∀ l ∈ ls, l.Continues i := fun l hl => hcontinues l (List.mem_cons_of_mem _ hl)
    rcases mirror_step hloc (hcontinues l (List.mem_cons_self ..)) hs with
      hsame | ⟨input, a, -, hact, hnext⟩
    · exact ih hsame hI hlater hrest
    · exact ih hnext (hstep hI hact) hlater hrest

theorem continues_of_told (htold : Along (machine settings).step (Told settings tools i) s ls)
    (hrun : run (machine settings).step s ls = some s') : ∀ l ∈ ls, l.Continues i := by
  induction ls generalizing s with
  | nil => simp
  | cons l ls ih =>
    obtain ⟨s₁, hs, hrest⟩ := Option.bind_eq_some_iff.mp hrun
    intro l' hl'
    rcases List.mem_cons.mp hl' with rfl | hl'
    · exact htold.1.1
    · exact ih (htold.2 s₁ hs) hrest l' hl'

theorem recalls_of_run (hloc : (s.session i).loc = .mirror at_) (hrecalls : at_.Recalls tools)
    (htold : Along (machine settings).step (Told settings tools i) s ls)
    (hfree : Along (machine settings).step (Unhindered settings i) s ls)
    (hrun : run (machine settings).step s ls = some s') :
    ∃ at', (s'.session i).loc = .mirror at' ∧ at'.Recalls tools := by
  induction ls generalizing s at_ with
  | nil =>
    cases hrun
    exact ⟨at_, hloc, hrecalls⟩
  | cons l ls ih =>
    obtain ⟨s₁, hs, hrest⟩ := Option.bind_eq_some_iff.mp hrun
    rcases mirror_step hloc htold.1.1 hs with hsame | ⟨input, a, hl, hact, hnext⟩
    · exact ih hsame hrecalls (htold.2 s₁ hs) (hfree.2 s₁ hs) hrest
    · have hstep := hrecalls.step (htold.1.2 input at_ hl hloc) (hfree.1 input at_ hl hloc) hact
      exact ih hnext hstep (htold.2 s₁ hs) (hfree.2 s₁ hs) hrest

/-- A run that something stopped says nothing against the mirror. -/
theorem spared_of_run (hloc : (s.session i).loc = .mirror at_)
    (htold : Along (machine settings).step (Told settings tools i) s ls)
    (hhindered : ¬ Along (machine settings).step (Unhindered settings i) s ls)
    (hrun : run (machine settings).step s ls = some s') :
    ∃ at', (s'.session i).loc = .mirror at' ∧ at'.Spared := by
  induction ls generalizing s at_ with
  | nil => exact absurd trivial hhindered
  | cons l ls ih =>
    obtain ⟨s₁, hs, hrest⟩ := Option.bind_eq_some_iff.mp hrun
    have hlater := continues_of_told (htold.2 s₁ hs) hrest
    by_cases hfree : Unhindered settings i s l
    · have hafter : ¬ Along (machine settings).step (Unhindered settings i) s₁ ls := fun h =>
        hhindered ⟨hfree, fun s₂ hs₂ => by
          rw [hs] at hs₂
          exact Option.some.inj hs₂ ▸ h⟩
      rcases mirror_step hloc htold.1.1 hs with hsame | ⟨input, a, -, -, hnext⟩
      · exact ih hsame (htold.2 s₁ hs) hafter hrest
      · exact ih hnext (htold.2 s₁ hs) hafter hrest
    · simp only [Unhindered, not_forall, Bool.not_eq_false] at hfree
      obtain ⟨input, loc, rfl, hat, hstops⟩ := hfree
      obtain ⟨a, hact, -, hnext⟩ := Machine.step_exec hs
      rw [hat] at hact
      obtain ⟨b, hb, rfl⟩ := Option.map_eq_some_iff.mp hact
      rw [Action.next_map] at hnext
      exact mirror_run (fun hspared => hspared.step) hnext (spared_of_hindered hstops hb) hlater
        hrest

/-- What a run has recorded is what it returns. -/
theorem returned_of_recorded {job : Finishing} {outcome : LifecycleOutcome}
    (hrecorded : (s.session i).loc = .mirror (.insertRun job))
    (hcontinues : ∀ l ∈ ls, l.Continues i) (hrun : run (machine settings).step s ls = some s')
    (hreturned : (s'.session i).loc = .mirror (.finished (.ok outcome))) :
    outcome.mirror = job.result := by
  have hstart : (MirrorLoc.insertRun job).Returns job.result := rfl
  obtain ⟨at', hat, hreturns⟩ :=
    mirror_run (fun h => h.step) hrecorded hstart hcontinues hrun
  rw [hreturned] at hat
  cases hat
  exact hreturns

/-- The verdict a run records and returns is that of the tools, exactly when the runner stays out
of the way of one that nothing else stopped. -/
theorem verdict_of_repository {request : MirrorRequest} {job : Finishing}
    (hbegin : (s.session i).loc = .mirror (.begin request))
    (hrun : run (machine settings).step s ls = some s')
    (htold : Along (machine settings).step (Told settings tools i) s ls)
    (hrecorded : (s'.session i).loc = .mirror (.insertRun job)) :
    ((Along (machine settings).step (Unhindered settings i) s ls → tools.Complete →
        (∃ bytes, job.result = .succeeded (nonEmptyLines tools.revList.stdout.text) bytes) ∧
          ∀ rest s'' outcome, (∀ l ∈ rest, l.Continues i) →
            run (machine settings).step s' rest = some s'' →
            (s''.session i).loc = .mirror (.finished (.ok outcome)) →
            outcome.mirror = job.result) ∧
      (job.result = .integrityFailed → tools.Reported)) ↔
    (Along (machine settings).step (Unhindered settings i) s ls → tools.Heard) := by
  by_cases hfree : Along (machine settings).step (Unhindered settings i) s ls
  · have hjudged : tools.Judged job.result := by
      have hstart : (MirrorLoc.begin request).Recalls tools := trivial
      obtain ⟨at', hat, hrecalls⟩ := recalls_of_run hbegin hstart htold hfree hrun
      rw [hrecorded] at hat
      cases hat
      exact hrecalls
    constructor
    · rintro ⟨hcomplete, hbroken⟩ -
      have hdecides : tools.Decides job.result := ⟨fun h => (hcomplete hfree h).1, hbroken⟩
      exact hdecides.heard hjudged
    · intro hheard
      have hdecides := (hheard hfree).decides hjudged
      exact ⟨fun _ h => ⟨hdecides.complete h, fun rest s'' outcome hcontinues hrest hreturned =>
        returned_of_recorded hrecorded hcontinues hrest hreturned⟩, hdecides.broken⟩
  · refine iff_of_true ⟨fun h => absurd h hfree, fun hbroken => ?_⟩ fun h => absurd h hfree
    obtain ⟨at', hat, hspared⟩ := spared_of_run hbegin htold hfree hrun
    rw [hrecorded] at hat
    cases hat
    exact absurd hbroken hspared

theorem told_of_isTold (h : isTold settings tools i s l = true) : Told settings tools i s l := by
  cases l with
  | exec j input =>
    simp only [isTold, Bool.and_eq_true, beq_iff_eq] at h
    obtain ⟨rfl, htells⟩ := h
    refine ⟨trivial, fun input' at_ hl hloc => ?_⟩
    cases hl
    rw [hloc] at htells
    exact of_decide_eq_true htells
  | _ => cases h

theorem unhindered_of_isUnhindered (h : isUnhindered settings i s l = true) :
    Unhindered settings i s l := by
  intro input at_ hl hloc
  rw [hl] at h
  simp only [isUnhindered, hloc, Bool.not_eq_true'] at h
  exact h

/-- Tools that come to the same calls tell the same. -/
theorem Told.congr {tools' : GitTools} (hacquire : tools'.acquire = tools.acquire)
    (hcall : ∀ at_, tools'.call at_ = tools.call at_) (h : Told settings tools i s l) :
    Told settings tools' i s l := by
  refine ⟨h.1, fun input at_ hl hloc => ?_⟩
  obtain ⟨hgit, hrunning, hgrounded⟩ := h.2 input at_ hl hloc
  refine ⟨hgit.trans (hcall at_).symm, hrunning, ?_⟩
  cases at_ with
  | fetch run => exact fun hgone => hacquire.trans (hgrounded hgone)
  | evidence run loc => exact fun hfetch hgone => (hcall _).trans (hgrounded hfetch hgone)
  | _ => trivial

end

namespace Sample

/-- A process that exits with 0 and writes these chunks. -/
def printing (chunks : List Chunk) : GitProcess :=
  .spawned (.exited (some 0)) { chunks, lost := [] } { chunks := [], lost := [] } true

def line : Chunk := ⟨[97, 10], by decide⟩

/-- The lines of `n` objects. -/
def objectLines (n : ℕ) : Bytes := (List.replicate n (List.replicate 40 97 ++ [10])).flatten

theorem length_objectLines (n : ℕ) : (objectLines n).length = n * 41 := by
  rw [objectLines, List.length_flatten, List.map_replicate, List.sum_replicate_nat,
    List.length_append, List.length_replicate, List.length_singleton]

theorem mem_objectLines {n : ℕ} (h : n ≠ 0) : (97 : UInt8) ∈ objectLines n := by
  have hline : (97 : UInt8) ∈ List.replicate 40 (97 : UInt8) ++ [10] :=
    List.mem_append_left _ (List.mem_replicate.mpr ⟨by decide, rfl⟩)
  exact List.mem_flatten.mpr ⟨_, List.mem_replicate.mpr ⟨h, rfl⟩, hline⟩

def page : Chunk := ⟨objectLines 199, by rw [length_objectLines]; decide⟩

def tools : GitTools :=
  { acquire := printing []
    fsck := printing []
    showRef := printing [line]
    revList := printing [line] }

/-- A repository of 1791 objects. -/
def largeTools : GitTools := { tools with revList := printing (List.replicate 9 page) }

/-- The same tools where the deadline ends the last. -/
def lateTools : GitTools :=
  { tools with
    revList := .spawned .elapsed { chunks := [], lost := [] } { chunks := [], lost := [] } true }

theorem largeTools_call (at_ : MirrorLoc) : largeTools.call at_ = lateTools.call at_ := by
  have hlarge : ¬ largeTools.revList.Returned := by
    rintro ⟨-, hfits, -⟩
    have hlength : largeTools.revList.stdout.received.length = 9 * (199 * 41) := by
      show ((List.replicate 9 page).map (·.1)).flatten.length = 9 * (199 * 41)
      rw [List.length_flatten, List.map_replicate, List.map_replicate, List.sum_replicate_nat]
      exact congrArg (9 * ·) (length_objectLines 199)
    rw [hlength] at hfits
    exact absurd hfits (by decide)
  have hcut : GitCall.ofProcess .revList largeTools.revList = .runner true :=
    (ofProcess_of_not_returned (by decide) hlarge).trans rfl
  have hlate : GitCall.ofProcess .revList lateTools.revList = .runner true := rfl
  cases at_ with
  | evidence run loc =>
    cases loc with
    | revList refs => exact hcut.trans hlate.symm
    | _ => rfl
  | _ => rfl

theorem told_largeTools {s : State} {l : Label} (h : Told settings lateTools 0 s l) :
    Told settings largeTools 0 s l := by
  have hacquire : largeTools.acquire = lateTools.acquire := rfl
  exact h.congr hacquire largeTools_call

theorem largeTools_complete : largeTools.Complete := by
  refine ⟨rfl, rfl, rfl, rfl, by decide, fun hnone => ?_⟩
  have hempty : ∀ line ∈ byteLines largeTools.revList.stdout.text, line = [] := by
    simpa [nonEmptyLines, List.countP_eq_zero] using hnone
  have hmem : (97 : UInt8) ∈ largeTools.revList.stdout.text := by
    have hpage : (97 : UInt8) ∈ page.1 := mem_objectLines (by decide)
    have hreceived : (97 : UInt8) ∈ ((List.replicate 9 page).map (·.1)).flatten :=
      List.mem_flatten.mpr
        ⟨page.1, List.mem_map_of_mem (List.mem_replicate.mpr ⟨by decide, rfl⟩), hpage⟩
    exact List.mem_append_left _ hreceived
  rcases eq_of_mem_of_lines_empty hempty 97 hmem with h | h <;> cases h

/-- The steps of a clone up to the call of `rev-list`, and `n` more. -/
def cloneRun (tools : GitTools) (n : ℕ) : List Label :=
  List.replicate 8 (.exec 0 { git := .runner false }) ++
    [.exec 0 { git := .ofProcess .cloneMirror tools.acquire },
      .exec 0 { git := .ofProcess .fsck tools.fsck },
      .exec 0 { git := .ofProcess .showRef tools.showRef },
      .exec 0 { git := .ofProcess .revList tools.revList }] ++
    List.replicate n (.exec 0 { git := .runner false, size := some 1 })

/-- The run of a request is about to begin. -/
def asked : State := (machine settings).afterStart (initial oneTarget storage 0 100) 0 (.mirror request)

/-- The run of session 0 is about to record this result. -/
def records (result : MirrorResult) (s : State) : Bool :=
  match (s.session 0).loc with
  | .mirror (.insertRun job) => job.result == result
  | _ => false

theorem loc_of_records {result : MirrorResult} {s : State} (h : records result s = true) :
    ∃ job, (s.session 0).loc = .mirror (.insertRun job) ∧ job.result = result := by
  unfold records at h
  split at h
  · rename_i job hloc
    exact ⟨job, hloc, by simpa using h⟩
  · cases h

end Sample

/-- A repository of 1791 objects passes every tool and is recorded as unavailable. -/
theorem unavailable_for_its_size :
    ¬ ∀ (tools : GitTools) (s s' : State) (ls : List Label) (job : Finishing),
      (∃ request, (s.session 0).loc = .mirror (.begin request)) →
      run (machine Sample.settings).step s ls = some s' →
      Along (machine Sample.settings).step (Told Sample.settings tools 0) s ls →
      Along (machine Sample.settings).step (Unhindered Sample.settings 0) s ls →
      (s'.session 0).loc = .mirror (.insertRun job) → tools.Complete →
        ∃ bytes, job.result = .succeeded (nonEmptyLines tools.revList.stdout.text) bytes := by
  intro h
  obtain ⟨s', hrun, hrecords⟩ : ∃ s', run (machine Sample.settings).step Sample.asked
      (Sample.cloneRun Sample.lateTools 1) = some s' ∧
        Sample.records (.failed .dependencyUnavailable) s' = true :=
    exists_of_run_any (by decide +kernel)
  have hlate : Along (machine Sample.settings).step (Told Sample.settings Sample.lateTools 0)
      Sample.asked (Sample.cloneRun Sample.lateTools 1) :=
    along_of_meets (fun _ _ => told_of_isTold) (by decide +kernel)
  have hfree : Along (machine Sample.settings).step (Unhindered Sample.settings 0)
      Sample.asked (Sample.cloneRun Sample.lateTools 1) :=
    along_of_meets (fun _ _ => unhindered_of_isUnhindered) (by decide +kernel)
  have htold : Along (machine Sample.settings).step (Told Sample.settings Sample.largeTools 0)
      Sample.asked (Sample.cloneRun Sample.lateTools 1) :=
    Along.mono (fun _ _ => Sample.told_largeTools) hlate
  obtain ⟨job, hjob, hresult⟩ := Sample.loc_of_records hrecords
  obtain ⟨bytes, hbytes⟩ := h Sample.largeTools Sample.asked s' _ job ⟨Sample.request, rfl⟩ hrun
    htold hfree hjob Sample.largeTools_complete
  rw [hresult] at hbytes
  cases hbytes

/-- A clone of a small repository records and returns what its tools report. -/
theorem verdict_of_repository_clone :
    ∃ s' job, (s'.session 0).loc = .mirror (.insertRun job) ∧ job.result = .succeeded 1 1 ∧
      ((Along (machine Sample.settings).step (Unhindered Sample.settings 0) Sample.asked
            (Sample.cloneRun Sample.tools 3) → Sample.tools.Complete →
          (∃ bytes, job.result
            = .succeeded (nonEmptyLines Sample.tools.revList.stdout.text) bytes) ∧
            ∀ rest s'' outcome, (∀ l ∈ rest, l.Continues 0) →
              run (machine Sample.settings).step s' rest = some s'' →
              (s''.session 0).loc = .mirror (.finished (.ok outcome)) →
              outcome.mirror = job.result) ∧
        (job.result = .integrityFailed → Sample.tools.Reported) ↔
      (Along (machine Sample.settings).step (Unhindered Sample.settings 0) Sample.asked
        (Sample.cloneRun Sample.tools 3) → Sample.tools.Heard)) := by
  obtain ⟨s', hrun, hrecords⟩ : ∃ s', run (machine Sample.settings).step Sample.asked
      (Sample.cloneRun Sample.tools 3) = some s' ∧ Sample.records (.succeeded 1 1) s' = true :=
    exists_of_run_any (by decide +kernel)
  have htold : Along (machine Sample.settings).step (Told Sample.settings Sample.tools 0)
      Sample.asked (Sample.cloneRun Sample.tools 3) :=
    along_of_meets (fun _ _ => told_of_isTold) (by decide +kernel)
  have hbegin : (Sample.asked.session 0).loc = .mirror (.begin Sample.request) := rfl
  obtain ⟨job, hjob, hresult⟩ := Sample.loc_of_records hrecords
  exact ⟨s', job, hjob, hresult, verdict_of_repository hbegin hrun htold hjob⟩

end RatatoskrVault.Vault
