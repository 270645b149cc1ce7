import RatatoskrVault.Lib.Rely
import RatatoskrVault.Vault.Convergence
import RatatoskrVault.Vault.Workable

/-! The wiki target of a repository: one for each, found again by every discovery, and under an
active policy only where its repository is. -/
namespace RatatoskrVault

open Lib

/-- The policy keeps the repository and asks for its wiki. -/
def Revision.PreservesWiki (policy : Revision) : Prop :=
  policy.preservationLevel ≠ .none ∧ policy.includeWiki = true

/-- The cycle is about to commit a transaction. -/
def CycleLoc.isCommit : CycleLoc → Bool
  | .commit _ _ => true
  | .transition _ .commit _ _ => true
  | _ => false

/-- The targets a cycle names. -/
def CycleLoc.mentions : CycleLoc → List Uuid
  | .ingest _ touched => touched
  | .claimInbox job => job.touched
  | .insertTarget job => job.touched
  | .enrollEvent job targetId => targetId :: job.touched
  | .selectTarget job => job.touched
  | .insertRevision job targetId => targetId :: job.touched
  | .commit job targetId => targetId :: job.touched
  | .findTarget _ _ touched => touched
  | .readGoverning targetId rest => targetId :: rest.todo
  | .readObserved targetId _ rest => targetId :: rest.todo
  | .items targetId _ _ rest => targetId :: rest.todo
  | .transition request _ _ rest => request.targetId :: rest.todo
  | .finished _ => []

namespace Db

/-- The wiki target of the repository target. -/
def IsWikiOf (db : Db) (child : Target) (parentTargetId : Uuid) : Prop :=
  child ∈ db.targets ∧ child.targetKind = .wiki ∧ child.parentTargetId = some parentTargetId

/-- `child_target_id` of a discovery that finds the wiki. -/
def discoveredChild (db : Db) (fresh parentTargetId : Uuid) : Uuid :=
  ((db.wikiTarget? parentTargetId).map (·.targetId)).getD fresh

/-- A wiki target is governed by an active revision only while its repository is, and by one that
asks for the wiki. -/
def WikiFollows (db : Db) : Prop :=
  ∀ child parentTargetId, db.IsWikiOf child parentTargetId →
    ∀ policy, db.governing? child.targetId = some policy → policy.preservationLevel ≠ .none →
      ∃ parent, db.governing? parentTargetId = some parent ∧ parent.PreservesWiki

/-- Every active revision of a wiki target is that of an active revision of its repository. -/
def WikisDerived (db : Db) : Prop :=
  ∀ child parentTargetId, db.IsWikiOf child parentTargetId →
    ∀ r ∈ db.revisions, r.targetId = child.targetId → r.preservationLevel ≠ .none →
      ∃ p ∈ db.revisions, p.targetId = parentTargetId ∧ p.policyRevision = r.policyRevision ∧
        p.preservationLevel ≠ .none

/-- The wiki targets, each with the target it is the wiki of. -/
def wikis (db : Db) : List (Uuid × Option Uuid) :=
  db.targets.filterMap fun t =>
    if t.targetKind = .wiki then some (t.targetId, t.parentTargetId) else none

end Db

namespace Vault

/-- Deliveries and cycles, and discoveries with any result. -/
def IsWikiWork : Label → Prop
  | .start _ (.policy (.cycle _)) => True
  | .start _ _ => False
  | .op (.recordWikiDiscovery _ _) => True
  | .op _ => False
  | _ => True

/-- What holds of the wikis in a state that is reached. -/
structure WikisFollow (settings : Settings) (s : State) : Prop where
  single : ∀ parentTargetId, (s.db.targets.filter fun t =>
    t.targetKind == .wiki && t.parentTargetId == some parentTargetId).length ≤ 1
  repeated : ∀ parentTargetId s₁ s₂,
    (machine settings).step s (.op (.recordWikiDiscovery parentTargetId .present)) = some s₁ →
      Reach (machine settings).step (fun _ _ => True) s₁ s₂ →
        s₂.db.discoveredChild s₂.fresh parentTargetId = s.db.discoveredChild s.fresh parentTargetId
  follows : s.db.WikiFollows
  derived : s.db.WikisDerived

/-- A discovery adds a revision only under a policy that asks for the wiki, and no revision that
does not is committed as the highest of its repository while the wiki is under an active one. -/
def KeepsWikis (s : State) : Label → Prop
  | .exec i _ => ∀ at_, (s.session i).loc = .policy (.cycle at_) → at_.isCommit = true →
      ∀ row, .insertRevision row ∈ (s.session i).log → ¬ row.PreservesWiki →
        (∀ r ∈ s.db.revisionsOf row.targetId, r.policyRevision < row.policyRevision) →
          ∀ child, s.db.IsWikiOf child row.targetId →
            ∀ policy, s.db.governing? child.targetId = some policy →
              policy.preservationLevel = .none
  | .op (.recordWikiDiscovery parentTargetId .present) =>
    s.db.wikiRevisions (s.db.discoveredChild s.fresh parentTargetId) parentTargetId ≠ [] →
      ∀ policy, s.db.governing? parentTargetId = some policy → policy.PreservesWiki
  | _ => True

end Vault

section

variable {db db' : Db} {child parentTargetId targetId fresh : Uuid} {parent : Option Uuid}
  {writes : List Write} {policy : Revision} {rows : List Revision}

namespace Db

theorem mem_wikis : (child, parent) ∈ db.wikis ↔
    ∃ t ∈ db.targets, t.targetKind = .wiki ∧ t.targetId = child ∧ t.parentTargetId = parent := by
  unfold wikis
  rw [List.mem_filterMap]
  constructor
  · rintro ⟨t, hmem, ht⟩
    split_ifs at ht with hkind
    have hpair := Option.some.inj ht
    exact ⟨t, hmem, hkind, congrArg Prod.fst hpair, congrArg Prod.snd hpair⟩
  · rintro ⟨t, hmem, hkind, rfl, rfl⟩
    exact ⟨t, hmem, if_pos hkind⟩

theorem IsWikiOf.mem_wikis {t : Target} (h : db.IsWikiOf t parentTargetId) :
    (t.targetId, some parentTargetId) ∈ db.wikis :=
  Db.mem_wikis.mpr ⟨t, h.1, h.2.1, rfl, h.2.2⟩

theorem length_wikis (parentTargetId : Uuid) :
    (db.targets.filter fun t =>
        t.targetKind == .wiki && t.parentTargetId == some parentTargetId).length
      = (db.wikis.map Prod.snd).count (some parentTargetId) := by
  unfold wikis
  induction db.targets with
  | nil => rfl
  | cons t targets ih =>
    by_cases hkind : t.targetKind = .wiki
    · by_cases hparent : t.parentTargetId = some parentTargetId
      · simp [hkind, hparent, ih]
      · simp [hkind, hparent, ih]
    · simp [hkind, ih]

theorem wikiTarget?_eq_none (h : db.wikiTarget? parentTargetId = none) :
    ∀ w ∈ db.wikis, w.2 ≠ some parentTargetId := by
  rintro ⟨child, parent⟩ hmem rfl
  obtain ⟨t, ht, hkind, -, hparent⟩ := mem_wikis.mp hmem
  have hnot := List.find?_eq_none.mp h t ht
  simp [hkind, hparent] at hnot

/-- Only the enrolment of a wiki adds to the wikis. -/
theorem wikis_apply {w : Write} (h : ∀ row, w = .insertTarget row → row.targetKind = .repository) :
    (db.apply w).wikis = db.wikis := by
  cases w with
  | insertTarget row =>
    have hkind := h row rfl
    simp [wikis, Db.apply, List.filterMap_append, hkind]
  | setTargetStatus id fromStatus toStatus =>
    unfold wikis
    simp only [Db.apply, updateWhere, List.filterMap_map]
    congr 1
    funext t
    simp only [Function.comp_apply]
    split_ifs <;> simp_all
  | _ => rfl

theorem wikis_foldl (h : ∀ w ∈ writes, ∀ row, w = .insertTarget row →
    row.targetKind = .repository) : (writes.foldl Db.apply db).wikis = db.wikis :=
  foldl_invariant (I := fun d : Db => d.wikis = db.wikis)
    (fun _ w hw hd => (wikis_apply (h w hw)).trans hd) rfl

/-- The revisions a list of writes adds. -/
theorem revisions_foldl (writes : List Write) (db : Db) :
    ∃ rows, (writes.foldl Db.apply db).revisions = db.revisions ++ rows ∧
      ∀ r ∈ rows, .insertRevision r ∈ writes := by
  induction writes generalizing db with
  | nil => exact ⟨[], by simp, by simp⟩
  | cons w writes ih =>
    obtain ⟨rows, hrows, hmem⟩ := ih (db.apply w)
    have hlater : ∀ r ∈ rows, .insertRevision r ∈ w :: writes := fun r hr =>
      List.mem_cons_of_mem _ (hmem r hr)
    cases w with
    | insertRevision row =>
      refine ⟨row :: rows, ?_, ?_⟩
      · show ((writes.foldl Db.apply (db.apply (.insertRevision row)))).revisions = _
        rw [hrows]
        simp [Db.apply]
      · intro r hr
        rcases List.mem_cons.mp hr with rfl | hr
        · exact List.mem_cons_self ..
        · exact hlater r hr
    | _ => exact ⟨rows, hrows, hlater⟩

/-- What governs after more revisions: what did before, or a new one above all the others. -/
theorem governing?_append (h : db'.revisions = db.revisions ++ rows)
    (hpolicy : db'.governing? targetId = some policy) :
    db.governing? targetId = some policy ∨
      policy ∈ rows ∧ policy.targetId = targetId ∧
        ∀ r ∈ db.revisionsOf targetId, r.policyRevision < policy.policyRevision := by
  unfold governing? revisionsOf at hpolicy
  rw [h, List.filter_append] at hpolicy
  rcases argmax_append hpolicy with hold | ⟨hnew, hhighest⟩
  · exact Or.inl hold
  · obtain ⟨hmem, htarget⟩ := List.mem_filter.mp hnew
    exact Or.inr ⟨hmem, beq_iff_eq.mp htarget, hhighest⟩

/-- A target that was governed still is. -/
theorem exists_governing?_append (h : db'.revisions = db.revisions ++ rows)
    (hpolicy : db.governing? targetId = some policy) :
    ∃ policy', db'.governing? targetId = some policy' := by
  have hmem : policy ∈ db'.revisionsOf targetId := by
    unfold revisionsOf
    rw [h, List.filter_append]
    exact List.mem_append_left _ (List.argmax_mem hpolicy)
  cases hgoverning : db'.governing? targetId with
  | none =>
    rw [List.argmax_eq_none.mp hgoverning] at hmem
    cases hmem
  | some policy' => exact ⟨policy', rfl⟩

theorem governing?_append_of_ne (h : db'.revisions = db.revisions ++ rows)
    (hrows : ∀ r ∈ rows, r.targetId ≠ targetId) :
    db'.governing? targetId = db.governing? targetId := by
  have hnone : rows.filter (fun r => r.targetId == targetId) = [] := by
    rw [List.filter_eq_nil_iff]
    intro r hr
    simpa using hrows r hr
  unfold governing? revisionsOf
  rw [h, List.filter_append, hnone, List.append_nil]

end Db

end

namespace Vault

abbrev WikiShared := Shared Db MirrorStorage

/-- A target that exists, or is about to, and is no wiki. -/
structure Apart (e : WikiShared) (targetId : Uuid) : Prop where
  below : targetId < e.fresh
  noWiki : ∀ w ∈ e.db.wikis, w.1 ≠ targetId

/-- A cycle only enrolls repositories and only adds revisions of repositories. -/
def Write.LeavesWikis (e : WikiShared) : Write → Prop
  | .insertTarget row => row.targetKind = .repository ∧ Apart e row.targetId
  | .insertRevision row => Apart e row.targetId
  | _ => True

/-- The wikis and their revisions beside those of the repositories. -/
structure WikisSound (e : WikiShared) : Prop where
  apart : ∀ t ∈ e.db.targets, t.targetKind = .repository → Apart e t.targetId
  below : ∀ w ∈ e.db.wikis, w.1 < e.fresh
  revised : ∀ r ∈ e.db.revisions, r.targetId < e.fresh
  parents : ∀ w ∈ e.db.wikis, ∃ t ∈ e.db.targets, t.targetKind = .repository ∧
    w.2 = some t.targetId
  ids : (e.db.wikis.map Prod.fst).Nodup
  single : (e.db.wikis.map Prod.snd).Nodup
  follows : ∀ child parentTargetId, (child, some parentTargetId) ∈ e.db.wikis →
    ∀ policy, e.db.governing? child = some policy → policy.preservationLevel ≠ .none →
      ∃ parent, e.db.governing? parentTargetId = some parent ∧ parent.PreservesWiki
  derived : ∀ child parentTargetId, (child, some parentTargetId) ∈ e.db.wikis →
    ∀ r ∈ e.db.revisions, r.targetId = child → r.preservationLevel ≠ .none →
      ∃ p ∈ e.db.revisions, p.targetId = parentTargetId ∧ p.policyRevision = r.policyRevision ∧
        p.preservationLevel ≠ .none

/-- An idle session, or a cycle that works on repositories. -/
inductive WorksApart (e : WikiShared) : Session Write Loc → Prop
  | idle {began : Option ℕ} : WorksApart e ⟨.idle, [], began⟩
  | cycle {at_ : CycleLoc} {log : List Write} {began : Option ℕ}
      (hmentions : ∀ t ∈ at_.mentions, Apart e t) (hlog : ∀ w ∈ log, Write.LeavesWikis e w) :
      WorksApart e ⟨.policy (.cycle at_), log, began⟩

/-- What is no wiki to begin with does not become one. -/
def KeepsApart (e e' : WikiShared) : Prop := ∀ t, Apart e t → Apart e' t

section

variable {e e' : WikiShared} {settings : Settings} {m : Moment} {at_ next : CycleLoc}
  {targetId : Uuid} {locks : List Lock} {writes log : List Write}

theorem LeavesWikis.mono {w : Write} (h : KeepsApart e e') (hw : Write.LeavesWikis e w) :
    Write.LeavesWikis e' w := by
  cases w with
  | insertTarget row => exact ⟨hw.1, h _ hw.2⟩
  | insertRevision row => exact h _ hw
  | _ => trivial

theorem WorksApart.stable {σ : Session Write Loc} (h : KeepsApart e e') (hσ : WorksApart e σ) :
    WorksApart e' σ := by
  cases hσ with
  | idle => exact .idle
  | cycle hmentions hlog =>
    exact .cycle (fun t ht => h t (hmentions t ht)) fun w hw => LeavesWikis.mono h (hlog w hw)

theorem keepsApart_used (e : WikiShared) : KeepsApart e e.used :=
  fun _ h => ⟨Nat.lt_succ_of_lt h.below, h.noWiki⟩

theorem WikisSound.fresh (h : WikisSound e) : Apart e.used e.fresh :=
  ⟨Nat.lt_succ_self _, fun w hw => Nat.ne_of_lt (h.below w hw)⟩

/-- Every write of a cycle is one that leaves the wikis alone. -/
theorem wikis_of_leavesWikis {db : Db} (h : ∀ w ∈ writes, Write.LeavesWikis e w) :
    (writes.foldl Db.apply db).wikis = db.wikis :=
  Db.wikis_foldl fun w hw row hrow => by
    subst hrow
    exact (h _ hw).1

/-- The repositories a cycle sees are apart from the wikis. -/
theorem apart_of_view {db : Db} (h : ∀ w ∈ log, Write.LeavesWikis e w)
    (hdb : ∀ t ∈ db.targets, t.targetKind = .repository → Apart e t.targetId) :
    ∀ t ∈ (log.foldl Db.apply db).targets, t.targetKind = .repository → Apart e t.targetId := by
  refine foldl_invariant (I := fun d : Db =>
    ∀ t ∈ d.targets, t.targetKind = .repository → Apart e t.targetId) (fun d w hw hd => ?_) hdb
  cases w with
  | insertTarget row =>
    intro t ht hkind
    rcases List.mem_append.mp ht with ht | ht
    · exact hd t ht hkind
    · rw [List.mem_singleton.mp ht]
      exact (h _ hw).2
  | setTargetStatus id fromStatus toStatus => exact forall_updateWhere hd fun _ _ ht _ => ht
  | _ => exact hd

theorem apart_of_repositoryTarget? {db : Db} {provider externalRepositoryId : String}
    {target : Target} (hdb : ∀ t ∈ db.targets, t.targetKind = .repository → Apart e t.targetId)
    (h : db.repositoryTarget? provider externalRepositoryId = some target) :
    Apart e target.targetId := by
  have hkey := List.find?_some h
  simp only [Bool.and_eq_true, beq_iff_eq] at hkey
  exact hdb target (List.mem_of_find?_eq_some h) hkey.2

/-- A transition only adds a revision of its own target. -/
theorem leavesWikis_of_transitionStmt {request : TransitionRequest} {db : Db}
    {at_ next : TransitionLoc} (h : TransitionStmt request m db at_ locks writes next)
    (hrequest : Apart e request.targetId) : ∀ w ∈ writes, Write.LeavesWikis e w := by
  intro w hw
  cases h with
  | insertRevision => rw [List.mem_singleton.mp hw]; exact hrequest
  | cancelPlans =>
    obtain ⟨p, -, rfl⟩ := List.mem_map.mp hw
    trivial
  | _ =>
    first
      | exact absurd hw List.not_mem_nil
      | (rw [List.mem_singleton.mp hw]; trivial)

theorem mentions_next {rest : Converging} : ∀ t ∈ rest.next.mentions, t ∈ rest.todo := by
  intro t ht
  unfold Converging.next at ht
  split at ht
  · cases ht
  · rename_i hd tl htodo
    rw [htodo]
    exact ht

theorem mentions_resumeTransition {request : TransitionRequest} {items : List WorkItem}
    {rest : Converging} {at_ : TransitionLoc} :
    ∀ t ∈ (resumeTransition request items rest at_).mentions, t ∈ request.targetId :: rest.todo := by
  intro t ht
  cases at_ with
  | finished result =>
    cases result with
    | ok => exact ht
    | error => cases ht
  | _ => exact ht

theorem mentions_remember {touched : List Uuid} :
    ∀ t ∈ remember touched targetId, t ∈ targetId :: touched := by
  intro t ht
  unfold remember at ht
  split_ifs at ht
  · exact List.mem_cons_of_mem _ ht
  · rcases List.mem_append.mp ht with ht | ht
    · exact List.mem_cons_of_mem _ ht
    · exact List.mem_singleton.mp ht ▸ List.mem_cons_self ..

/-- A statement of a cycle. -/
theorem worksApart_stmt (h : WikisSound e) (hlog : ∀ w ∈ log, Write.LeavesWikis e w)
    (hmentions : ∀ t ∈ at_.mentions, Apart e t) (hfresh : m.fresh = e.fresh)
    (hstmt : CycleStmt m (log.foldl Db.apply e.db) at_ locks writes next) :
    (∀ t ∈ next.mentions, Apart e.used t) ∧ ∀ w ∈ writes, Write.LeavesWikis e.used w := by
  have hview := apart_of_view hlog h.apart
  have hused := keepsApart_used e
  have hcons : ∀ {t : Uuid} {ts : List Uuid}, Apart e.used t → (∀ t ∈ ts, Apart e t) →
      ∀ x ∈ t :: ts, Apart e.used x := fun ht hts =>
    List.forall_mem_cons.mpr ⟨ht, fun x hx => hused x (hts x hx)⟩
  have hkept : ∀ {ts : List Uuid}, (∀ t ∈ ts, Apart e t) → ∀ t ∈ ts, Apart e.used t :=
    fun hts t ht => hused t (hts t ht)
  cases hstmt with
  | claimInbox => exact ⟨hkept hmentions, by simp [Write.LeavesWikis]⟩
  | targetKnown => exact ⟨hkept hmentions, by simp⟩
  | insertTarget =>
    have hnew : Apart e.used m.fresh := hfresh ▸ h.fresh
    exact ⟨hcons hnew hmentions, by simpa [Write.LeavesWikis] using hnew⟩
  | enrollEvent => exact ⟨hkept hmentions, by simp [Write.LeavesWikis]⟩
  | selectTarget htarget =>
    exact ⟨hcons (hused _ (apart_of_repositoryTarget? hview htarget)) hmentions, by simp⟩
  | revisionKnown => exact ⟨hkept hmentions, by simp⟩
  | insertRevision =>
    have htarget := hused _ (List.forall_mem_cons.mp hmentions).1
    exact ⟨hkept hmentions, by simpa [Write.LeavesWikis, revisionRow] using htarget⟩
  | transition hstmt =>
    have hrequest := (List.forall_mem_cons.mp hmentions).1
    refine ⟨fun t ht => hkept hmentions t (mentions_resumeTransition t ht), fun w hw => ?_⟩
    exact LeavesWikis.mono hused (leavesWikis_of_transitionStmt hstmt hrequest w hw)

/-- A read of a cycle, with nothing written before it. -/
theorem mentions_read {db : Db}
    (hdb : ∀ t ∈ db.targets, t.targetKind = .repository → Apart e t.targetId)
    (hmentions : ∀ t ∈ at_.mentions, Apart e t) (hread : CycleRead db at_ next) :
    ∀ t ∈ next.mentions, Apart e t := by
  have htail : ∀ {t : Uuid} {ts : List Uuid}, (∀ x ∈ t :: ts, Apart e x) → ∀ x ∈ ts, Apart e x :=
    fun h => (List.forall_mem_cons.mp h).2
  cases hread with
  | ingested => exact fun t ht => hmentions t (mentions_next t ht)
  | findTarget htarget =>
    intro t ht
    rcases List.mem_cons.mp (mentions_remember t ht) with rfl | ht
    · exact apart_of_repositoryTarget? hdb htarget
    · exact hmentions t ht
  | ungoverned => exact fun t ht => htail hmentions t (mentions_next t ht)
  | converged => exact fun t ht => htail hmentions t (mentions_next t ht)
  | _ => exact hmentions

theorem mentions_commit (hmentions : ∀ t ∈ at_.mentions, Apart e t)
    (hcommit : CycleCommit at_ next) : ∀ t ∈ next.mentions, Apart e t := by
  cases hcommit with
  | ingested => exact fun t ht => hmentions t (mentions_remember t ht)
  | transition => exact hmentions

theorem mentions_rollback {db : Db} (hmentions : ∀ t ∈ at_.mentions, Apart e t)
    (hrollback : CycleRollback db at_ next) : ∀ t ∈ next.mentions, Apart e t := by
  cases hrollback with
  | duplicate => exact hmentions
  | failed => exact fun t ht => absurd ht List.not_mem_nil

end

section

variable {e e' : WikiShared} {writes log : List Write} {rows : List Revision}

theorem WikisSound.used (h : WikisSound e) : WikisSound e.used where
  apart t ht hkind := keepsApart_used e _ (h.apart t ht hkind)
  below w hw := Nat.lt_succ_of_lt (h.below w hw)
  revised r hr := Nat.lt_succ_of_lt (h.revised r hr)
  parents := h.parents
  ids := h.ids
  single := h.single
  follows := h.follows
  derived := h.derived

theorem WikisSound.elapsed (h : WikisSound e) (n : ℕ) :
    WikisSound { e with clock := e.clock + n } where
  apart t ht hkind := ⟨(h.apart t ht hkind).below, (h.apart t ht hkind).noWiki⟩
  below := h.below
  revised := h.revised
  parents := h.parents
  ids := h.ids
  single := h.single
  follows := h.follows
  derived := h.derived

/-- No write takes a repository away. -/
theorem repository_foldl {db : Db} {x : Option Uuid}
    (h : ∃ t ∈ db.targets, t.targetKind = .repository ∧ x = some t.targetId) :
    ∃ t ∈ (writes.foldl Db.apply db).targets, t.targetKind = .repository ∧
      x = some t.targetId := by
  refine foldl_invariant (I := fun d : Db =>
    ∃ t ∈ d.targets, t.targetKind = .repository ∧ x = some t.targetId) (fun d w _ hd => ?_) h
  obtain ⟨t, ht, hkind, hx⟩ := hd
  cases w with
  | insertTarget row => exact ⟨t, List.mem_append_left _ ht, hkind, hx⟩
  | setTargetStatus id fromStatus toStatus =>
    refine ⟨_, mem_updateWhere_of_mem ht, ?_⟩
    split_ifs
    · exact ⟨hkind, hx⟩
    · exact ⟨hkind, hx⟩
  | _ => exact ⟨t, ht, hkind, hx⟩

/-- A cycle commits: only repositories have new revisions, and none of them strands a wiki. -/
theorem WikisSound.commit (h : WikisSound e) (hlog : ∀ w ∈ log, Write.LeavesWikis e w)
    (hkeeps : ∀ row, .insertRevision row ∈ log → ¬ row.PreservesWiki →
      (∀ r ∈ e.db.revisionsOf row.targetId, r.policyRevision < row.policyRevision) →
        ∀ child, e.db.IsWikiOf child row.targetId →
          ∀ policy, e.db.governing? child.targetId = some policy →
            policy.preservationLevel = .none) :
    WikisSound { e with db := log.foldl Db.apply e.db } := by
  have hwikis : (log.foldl Db.apply e.db).wikis = e.db.wikis := wikis_of_leavesWikis hlog
  have hapart : KeepsApart e { e with db := log.foldl Db.apply e.db } := fun t ht =>
    ⟨ht.below, fun w hw => ht.noWiki w (hwikis ▸ hw)⟩
  obtain ⟨rows, hrows, hmem⟩ := Db.revisions_foldl log e.db
  have hrowApart : ∀ r ∈ rows, Apart e r.targetId := fun r hr => hlog _ (hmem r hr)
  have hchild : ∀ child parent, (child, parent) ∈ e.db.wikis →
      (log.foldl Db.apply e.db).governing? child = e.db.governing? child := fun child parent hw =>
    Db.governing?_append_of_ne hrows fun r hr heq => (hrowApart r hr).noWiki _ hw heq.symm
  refine ⟨?_, ?_, ?_, ?_, ?_, ?_, ?_, ?_⟩
  · exact fun t ht hkind => hapart _ (apart_of_view hlog h.apart t ht hkind)
  · exact fun w hw => h.below w (hwikis ▸ hw)
  · intro r hr
    have hr' : r ∈ e.db.revisions ++ rows := hrows ▸ hr
    rcases List.mem_append.mp hr' with hr | hr
    · exact h.revised r hr
    · exact (hrowApart r hr).below
  · intro w hw
    exact repository_foldl (h.parents w (hwikis ▸ hw))
  · show ((log.foldl Db.apply e.db).wikis.map Prod.fst).Nodup
    rw [hwikis]
    exact h.ids
  · show ((log.foldl Db.apply e.db).wikis.map Prod.snd).Nodup
    rw [hwikis]
    exact h.single
  · intro child parentTargetId hw policy hpolicy hactive
    have hw' : (child, some parentTargetId) ∈ e.db.wikis := hwikis ▸ hw
    have hpolicy' : e.db.governing? child = some policy := (hchild _ _ hw').symm.trans hpolicy
    obtain ⟨parent, hparent, hpreserves⟩ := h.follows child parentTargetId hw' policy hpolicy' hactive
    obtain ⟨parent', hparent'⟩ := Db.exists_governing?_append hrows hparent
    refine ⟨parent', hparent', ?_⟩
    rcases Db.governing?_append hrows hparent' with hold | ⟨hnew, htarget, hhighest⟩
    · obtain rfl := Option.some.inj (hparent.symm.trans hold)
      exact hpreserves
    · -- the new highest revision keeps the wiki, or the wiki was not active
      by_contra hbad
      obtain ⟨t, ht, hkind, rfl, hof⟩ := Db.mem_wikis.mp hw'
      have hnone := hkeeps parent' (hmem parent' hnew) hbad (htarget.symm ▸ hhighest) t
        ⟨ht, hkind, htarget.symm ▸ hof⟩ policy hpolicy'
      exact hactive hnone
  · intro child parentTargetId hw r hr hid hactive
    have hw' : (child, some parentTargetId) ∈ e.db.wikis := hwikis ▸ hw
    have hr' : r ∈ e.db.revisions ++ rows := hrows ▸ hr
    rcases List.mem_append.mp hr' with hr | hr
    · obtain ⟨p, hp, hderived⟩ := h.derived child parentTargetId hw' r hr hid hactive
      have hp' : p ∈ (log.foldl Db.apply e.db).revisions := by
        rw [hrows]
        exact List.mem_append_left _ hp
      exact ⟨p, hp', hderived⟩
    · exact absurd hid.symm ((hrowApart r hr).noWiki _ hw')

end

/-- What a discovery that finds the wiki does to the database. -/
structure Discovers (db db' : Db) (fresh parentTargetId : Uuid) : Prop where
  parent : ∃ t ∈ db.targets, t.targetKind = .repository ∧ some parentTargetId = some t.targetId
  revisions : db'.revisions
    = db.revisions ++ db.wikiRevisions (db.discoveredChild fresh parentTargetId) parentTargetId
  repositories : ∀ t, t.targetKind = .repository → (t ∈ db'.targets ↔ t ∈ db.targets)
  wikis : (db'.wikis = db.wikis ∧
      (db.discoveredChild fresh parentTargetId, some parentTargetId) ∈ db.wikis) ∨
    (db'.wikis = db.wikis ++ [(fresh, some parentTargetId)] ∧
      db.discoveredChild fresh parentTargetId = fresh ∧
      ∀ w ∈ db.wikis, w.2 ≠ some parentTargetId)
  found : (db'.wikiTarget? parentTargetId).map (·.targetId)
    = some (db.discoveredChild fresh parentTargetId)

section

variable {e e' : WikiShared} {db : Db} {fresh parentTargetId : Uuid} {locks : List Lock}
  {writes : List Write} {policy : Revision}

theorem foldl_insertRevision (rows : List Revision) (db : Db) :
    (rows.map Write.insertRevision).foldl Db.apply db
      = { db with revisions := db.revisions ++ rows } := by
  induction rows generalizing db with
  | nil => simp
  | cons row rows ih =>
    rw [List.map_cons, List.foldl_cons, ih]
    simp [Db.apply]

theorem discovers_of_record
    (h : recordWikiDiscovery db fresh parentTargetId .present = some (locks, writes)) :
    Discovers db (writes.foldl Db.apply db) fresh parentTargetId := by
  obtain ⟨parent, hparent, hrecord⟩ := Option.bind_eq_some_iff.mp h
  have hid : parent.targetId = parentTargetId := by simpa using List.find?_some hparent
  have hmem : parent ∈ db.targets := List.mem_of_find?_eq_some hparent
  split at hrecord
  · rename_i hkind
    split at hrecord
    · rename_i child hchild
      obtain ⟨-, rfl⟩ := Prod.mk.inj (Option.some.inj hrecord)
      have hdiscovered : db.discoveredChild fresh parentTargetId = child.targetId := by
        simp [Db.discoveredChild, hchild]
      have hwiki := List.find?_some hchild
      simp only [Bool.and_eq_true, beq_iff_eq] at hwiki
      refine ⟨⟨parent, hmem, hkind, hid ▸ rfl⟩, ?_, ?_, Or.inl ⟨?_, ?_⟩, ?_⟩
      · rw [foldl_insertRevision, hdiscovered]
      · intro t _
        rw [foldl_insertRevision]
      · rw [foldl_insertRevision]
        rfl
      · rw [hdiscovered]
        exact Db.mem_wikis.mpr ⟨child, List.mem_of_find?_eq_some hchild, hwiki.1, rfl, hwiki.2⟩
      · rw [foldl_insertRevision, hdiscovered]
        exact congrArg (Option.map _) hchild
    · rename_i hnone
      obtain ⟨-, rfl⟩ := Prod.mk.inj (Option.some.inj hrecord)
      have hdiscovered : db.discoveredChild fresh parentTargetId = fresh := by
        simp [Db.discoveredChild, hnone]
      refine ⟨⟨parent, hmem, hkind, hid ▸ rfl⟩, ?_, ?_, Or.inr ⟨?_, hdiscovered, ?_⟩, ?_⟩
      · rw [List.foldl_cons, foldl_insertRevision, hdiscovered]
        rfl
      · intro t ht
        rw [List.foldl_cons, foldl_insertRevision]
        show t ∈ db.targets ++ [_] ↔ _
        rw [List.mem_append, List.mem_singleton]
        refine ⟨fun hor => hor.resolve_right ?_, Or.inl⟩
        rintro rfl
        cases ht
      · rw [List.foldl_cons, foldl_insertRevision]
        simp [Db.wikis, Db.apply, List.filterMap_append]
      · exact Db.wikiTarget?_eq_none hnone
      · rw [List.foldl_cons, foldl_insertRevision, hdiscovered]
        show (List.find? _ (db.targets ++ [_])).map _ = _
        unfold Db.wikiTarget? at hnone
        rw [List.find?_append, hnone]
        simp
  · cases hrecord

/-- A discovery adds at most a revision of the wiki, like the one that governs its repository. -/
theorem mem_wikiRevisions {child : Uuid} {r : Revision}
    (h : r ∈ db.wikiRevisions child parentTargetId) :
    ∃ parent, db.governing? parentTargetId = some parent ∧ r = wikiRevision child parent := by
  obtain ⟨hmem, -⟩ := List.mem_filter.mp h
  obtain ⟨parent, hparent, rfl⟩ := List.mem_map.mp hmem
  exact ⟨parent, Option.mem_toList.mp hparent, rfl⟩

theorem Discovers.keepsApart {db' : Db} (hd : Discovers e.db db' e.fresh parentTargetId) :
    KeepsApart e { e.used with db := db' } := by
  intro t ht
  refine ⟨Nat.lt_succ_of_lt ht.below, ?_⟩
  rcases hd.wikis with ⟨hsame, -⟩ | ⟨hmore, -, -⟩
  · exact fun w hw => ht.noWiki w (hsame ▸ hw)
  · intro w hw
    have hw' : w ∈ e.db.wikis ++ [(e.fresh, some parentTargetId)] := hmore ▸ hw
    rcases List.mem_append.mp hw' with hw | hw
    · exact ht.noWiki w hw
    · rw [List.mem_singleton.mp hw]
      exact Nat.ne_of_gt ht.below

namespace Discovers

variable {db' : Db} (hd : Discovers e.db db' e.fresh parentTargetId)

include hd

theorem wiki_of_lt {w : Uuid × Option Uuid} (hw : w ∈ db'.wikis) (hlt : w.1 < e.fresh) :
    w ∈ e.db.wikis := by
  rcases hd.wikis with ⟨hsame, -⟩ | ⟨hmore, -, -⟩
  · exact hsame ▸ hw
  · rw [hmore] at hw
    refine (List.mem_append.mp hw).resolve_right fun hnew => ?_
    rw [List.mem_singleton.mp hnew] at hlt
    exact Nat.lt_irrefl _ hlt

theorem wiki_cases (h : WikisSound e) {child q : Uuid} (hw : (child, some q) ∈ db'.wikis) :
    (child = e.db.discoveredChild e.fresh parentTargetId ∧ q = parentTargetId) ∨
      (child ≠ e.db.discoveredChild e.fresh parentTargetId ∧ (child, some q) ∈ e.db.wikis) := by
  rcases hd.wikis with ⟨hsame, hmem⟩ | ⟨hmore, hchild, -⟩
  · rw [hsame] at hw
    by_cases hc : child = e.db.discoveredChild e.fresh parentTargetId
    · have hpair := List.inj_on_of_nodup_map h.ids hw hmem hc
      exact Or.inl ⟨hc, Option.some.inj (congrArg Prod.snd hpair)⟩
    · exact Or.inr ⟨hc, hw⟩
  · rw [hmore] at hw
    rcases List.mem_append.mp hw with hw | hw
    · exact Or.inr ⟨hchild.symm ▸ Nat.ne_of_lt (h.below _ hw), hw⟩
    · obtain ⟨rfl, hq⟩ := Prod.mk.inj (List.mem_singleton.mp hw)
      exact Or.inl ⟨hchild.symm, Option.some.inj hq⟩

theorem child_ne_repository (h : WikisSound e) {t : Target} (ht : t ∈ e.db.targets)
    (hkind : t.targetKind = .repository) :
    e.db.discoveredChild e.fresh parentTargetId ≠ t.targetId := by
  rcases hd.wikis with ⟨-, hmem⟩ | ⟨-, hchild, -⟩
  · exact (h.apart t ht hkind).noWiki _ hmem
  · rw [hchild]
    exact Nat.ne_of_gt (h.apart t ht hkind).below

theorem child_le : WikisSound e → e.db.discoveredChild e.fresh parentTargetId < e.fresh + 1 := by
  intro h
  rcases hd.wikis with ⟨-, hmem⟩ | ⟨-, hchild, -⟩
  · exact Nat.lt_succ_of_lt (h.below _ hmem)
  · rw [hchild]
    exact Nat.lt_succ_self _

/-- Nothing but the wiki is governed otherwise. -/
theorem governing_of_ne {targetId : Uuid}
    (hne : targetId ≠ e.db.discoveredChild e.fresh parentTargetId) :
    db'.governing? targetId = e.db.governing? targetId := by
  refine Db.governing?_append_of_ne hd.revisions fun r hr heq => hne ?_
  obtain ⟨parent, -, rfl⟩ := mem_wikiRevisions hr
  exact heq.symm

theorem governing_parent (h : WikisSound e) :
    db'.governing? parentTargetId = e.db.governing? parentTargetId := by
  obtain ⟨t, ht, hkind, hparent⟩ := hd.parent
  refine hd.governing_of_ne fun heq => ?_
  have hne := hd.child_ne_repository h ht hkind
  rw [← Option.some.inj hparent] at hne
  exact hne heq.symm

/-- A discovery under a policy that asks for the wiki. -/
theorem sound (h : WikisSound e)
    (hkeeps : e.db.wikiRevisions (e.db.discoveredChild e.fresh parentTargetId) parentTargetId ≠ [] →
      ∀ policy, e.db.governing? parentTargetId = some policy → policy.PreservesWiki) :
    WikisSound { e.used with db := db' } := by
  have hnew : ∀ r ∈ e.db.wikiRevisions (e.db.discoveredChild e.fresh parentTargetId) parentTargetId,
      ∃ parent, e.db.governing? parentTargetId = some parent ∧ parent.PreservesWiki ∧
        r = wikiRevision (e.db.discoveredChild e.fresh parentTargetId) parent := by
    intro r hr
    obtain ⟨parent, hparent, rfl⟩ := mem_wikiRevisions hr
    exact ⟨parent, hparent, hkeeps (List.ne_nil_of_mem hr) parent hparent, rfl⟩
  have hold : ∀ r ∈ e.db.revisions, ∀ q, (r.targetId, q) ∈ db'.wikis → (r.targetId, q) ∈ e.db.wikis :=
    fun r hr q hw => hd.wiki_of_lt hw (h.revised r hr)
  refine ⟨?_, ?_, ?_, ?_, ?_, ?_, ?_, ?_⟩
  · exact fun t ht hkind => hd.keepsApart _ (h.apart t ((hd.repositories t hkind).mp ht) hkind)
  · rintro w hw
    rcases hd.wikis with ⟨hsame, -⟩ | ⟨hmore, -, -⟩
    · exact Nat.lt_succ_of_lt (h.below w (hsame ▸ hw))
    · have hw' : w ∈ e.db.wikis ++ [(e.fresh, some parentTargetId)] := hmore ▸ hw
      rcases List.mem_append.mp hw' with hw | hw
      · exact Nat.lt_succ_of_lt (h.below w hw)
      · rw [List.mem_singleton.mp hw]
        exact Nat.lt_succ_self _
  · intro r hr
    have hr' := hd.revisions ▸ hr
    rcases List.mem_append.mp hr' with hr | hr
    · exact Nat.lt_succ_of_lt (h.revised r hr)
    · obtain ⟨parent, -, -, rfl⟩ := hnew r hr
      exact hd.child_le h
  · intro w hw
    have hkept : ∀ {x : Option Uuid}, (∃ t ∈ e.db.targets, t.targetKind = .repository ∧
        x = some t.targetId) → ∃ t ∈ db'.targets, t.targetKind = .repository ∧ x = some t.targetId :=
      fun ⟨t, ht, hkind, hx⟩ => ⟨t, (hd.repositories t hkind).mpr ht, hkind, hx⟩
    rcases hd.wikis with ⟨hsame, -⟩ | ⟨hmore, -, -⟩
    · exact hkept (h.parents w (hsame ▸ hw))
    · have hw' : w ∈ e.db.wikis ++ [(e.fresh, some parentTargetId)] := hmore ▸ hw
      rcases List.mem_append.mp hw' with hw | hw
      · exact hkept (h.parents w hw)
      · rw [List.mem_singleton.mp hw]
        exact hkept hd.parent
  · show (db'.wikis.map Prod.fst).Nodup
    rcases hd.wikis with ⟨hsame, -⟩ | ⟨hmore, -, -⟩
    · exact hsame ▸ h.ids
    · rw [hmore, List.map_append]
      refine h.ids.append (List.nodup_singleton _) fun x hx hfresh => ?_
      obtain ⟨w, hw, rfl⟩ := List.mem_map.mp hx
      exact Nat.ne_of_lt (h.below w hw) (List.mem_singleton.mp hfresh)
  · show (db'.wikis.map Prod.snd).Nodup
    rcases hd.wikis with ⟨hsame, -⟩ | ⟨hmore, -, hnone⟩
    · exact hsame ▸ h.single
    · rw [hmore, List.map_append]
      refine h.single.append (List.nodup_singleton _) fun x hx hparent => ?_
      obtain ⟨w, hw, rfl⟩ := List.mem_map.mp hx
      exact hnone w hw (List.mem_singleton.mp hparent)
  · intro child q hw policy hpolicy hactive
    rcases hd.wiki_cases h hw with ⟨rfl, rfl⟩ | ⟨hne, hmem⟩
    · rcases Db.governing?_append hd.revisions hpolicy with hbefore | ⟨hmem, -, -⟩
      · have hrow := List.mem_filter.mp (List.argmax_mem hbefore)
        have hid : policy.targetId = e.db.discoveredChild e.fresh q := by simpa using hrow.2
        have hmem := hold policy hrow.1 _ (hid.symm ▸ hw)
        rw [hid] at hmem
        obtain ⟨parent, hparent, hpreserves⟩ := h.follows _ _ hmem policy hbefore hactive
        exact ⟨parent, (hd.governing_parent h).trans hparent, hpreserves⟩
      · obtain ⟨parent, hparent, hpreserves, -⟩ := hnew policy hmem
        exact ⟨parent, (hd.governing_parent h).trans hparent, hpreserves⟩
    · have hpolicy' := (hd.governing_of_ne hne).symm.trans hpolicy
      obtain ⟨parent, hparent, hpreserves⟩ := h.follows child q hmem policy hpolicy' hactive
      obtain ⟨t, ht, hkind, hq⟩ := h.parents _ hmem
      have hne' := hd.child_ne_repository h ht hkind
      rw [← Option.some.inj hq] at hne'
      exact ⟨parent, (hd.governing_of_ne hne'.symm).trans hparent, hpreserves⟩
  · intro child q hw r hr hid hactive
    have hr' : r ∈ e.db.revisions ++ _ := hd.revisions ▸ hr
    have hkept : ∀ p ∈ e.db.revisions, p ∈ db'.revisions := fun p hp => by
      rw [hd.revisions]
      exact List.mem_append_left _ hp
    rcases List.mem_append.mp hr' with hr | hr
    · subst hid
      obtain ⟨p, hp, hderived⟩ := h.derived _ q (hold r hr _ hw) r hr rfl hactive
      exact ⟨p, hkept p hp, hderived⟩
    · obtain ⟨parent, hparent, hpreserves, rfl⟩ := hnew r hr
      rcases hd.wiki_cases h hw with ⟨-, rfl⟩ | ⟨hne, -⟩
      · obtain ⟨hmem, htarget⟩ := List.mem_filter.mp (List.argmax_mem hparent)
        exact ⟨parent, hkept parent hmem, by simpa using htarget, rfl, hpreserves.1⟩
      · exact absurd hid.symm hne

end Discovers

end

section

variable {settings : Settings} {s s' s₁ s₂ : State}

/-- What the sessions rely on and what they keep. -/
abbrev WikisBeside (s : State) : Prop :=
  Machine.Beside WikisSound (fun e _ σ => WorksApart e σ) s

theorem wikisBeside_initial (storage : MirrorStorage) (clock fresh : ℕ) :
    WikisBeside (initial {} storage clock fresh) where
  shared := by constructor <;> simp [initial, State.shared, Db.wikis]
  sessions _ := .idle
  exclusive _ _ _ h := absurd h List.not_mem_nil

theorem operate_discovers {o : Op} {m : Moment} {db : Db} {locks : List Lock}
    {writes : List Write} (hwork : IsWikiWork (.op o))
    (h : operate settings m db o = some (locks, writes)) :
    writes = [] ∨ ∃ parentTargetId, o = .recordWikiDiscovery parentTargetId .present ∧
      Discovers db (writes.foldl Db.apply db) m.fresh parentTargetId := by
  cases o with
  | retention o => exact hwork.elim
  | recordRetentionEvaluation request => exact hwork.elim
  | recordWikiDiscovery parentTargetId discovery =>
    cases discovery with
    | present => exact Or.inr ⟨parentTargetId, rfl, discovers_of_record h⟩
    | _ =>
      have hwrites := operate_writes h
      cases hwrites
      exact Or.inl rfl

theorem wikisBeside_step : ∀ s l s', WikisBeside s → IsWikiWork l ∧ KeepsWikis s l →
    (machine settings).step s l = some s' → WikisBeside s' := by
  have hidle : ∀ {e : WikiShared} {i : ℕ} {s : State} {input : MirrorInput} {a},
      WorksApart e (s.session i) → act settings (s.session i).loc (s.moment i)
        ((machine settings).view s i) s.world input = some a →
      ∃ at_, (s.session i).loc = .policy (.cycle at_) ∧ (∀ t ∈ at_.mentions, Apart e t) ∧
        ∀ w ∈ (s.session i).log, Write.LeavesWikis e w := by
    intro e i s input a hworks hact
    generalize s.session i = σ at hworks hact
    cases hworks with
    | idle => cases hact
    | cycle hmentions hlog => exact ⟨_, rfl, hmentions, hlog⟩
  refine Machine.Beside.step (R := fun e e' _ _ => KeepsApart e e') (fun _ _ _ _ _ h => h)
    (fun _ _ _ _ hR h => WorksApart.stable hR h) (fun e _ _ => keepsApart_used e)
    (fun _ _ _ _ _ h => ⟨h.below, h.noWiki⟩) (fun _ h => h.used) (fun _ n h => h.elapsed n)
    (fun _ => .idle) ?_ ?_ ?_ ?_ ?_ ?_ ?_
  · intro s i proc _ hok
    obtain ⟨hwork, -⟩ := hok
    cases proc with
    | policy proc =>
      cases proc with
      | command command => exact hwork.elim
      | cycle deliveries =>
        exact .cycle (fun t ht => absurd ht List.not_mem_nil) fun w hw => absurd hw List.not_mem_nil
    | mirror request => exact hwork.elim
    | retention proc => exact hwork.elim
  · intro s i input locks writes next h _ hact _
    obtain ⟨at_, hloc, hmentions, hlog⟩ := hidle (h.sessions i) hact
    have hstmt := act_stmt hact
    rw [hloc] at hstmt
    cases hstmt with
    | cycle hstmt =>
      obtain ⟨hnext, hwrites⟩ := worksApart_stmt h.shared hlog hmentions rfl hstmt
      refine .cycle hnext fun w hw => ?_
      rcases List.mem_append.mp hw with hw | hw
      · exact LeavesWikis.mono (keepsApart_used _) (hlog w hw)
      · exact hwrites w hw
  · intro s i input locks writes next h _ hact _
    obtain ⟨at_, hloc, hmentions, hlog⟩ := hidle (h.sessions i) hact
    have hauto := act_auto hact
    rw [hloc] at hauto
    cases hauto with
    | cycle hread =>
      refine ⟨h.shared.used, fun j _ => keepsApart_used _, ?_⟩
      have hnext := mentions_read (apart_of_view hlog h.shared.apart) hmentions hread
      exact .cycle (fun t ht => keepsApart_used _ t (hnext t ht)) fun w hw => absurd hw List.not_mem_nil
  · intro s i input next h hok hact
    obtain ⟨at_, hloc, hmentions, hlog⟩ := hidle (h.sessions i) hact
    have hcommit := act_commit hact
    rw [hloc] at hcommit
    cases hcommit with
    | cycle hcommit =>
      have hat : at_.isCommit = true := by
        cases hcommit with
        | ingested => rfl
        | transition => rfl
      have hG := h.shared.commit hlog (hok.2 at_ hloc hat)
      have hkept : KeepsApart s.shared { s.shared with db := (machine settings).view s i } := by
        intro t ht
        refine ⟨ht.below, fun w hw => ht.noWiki w ?_⟩
        exact (wikis_of_leavesWikis hlog : _ = s.db.wikis) ▸ hw
      refine ⟨hG, fun j _ => hkept, ?_⟩
      exact .cycle (fun t ht => hkept t (mentions_commit hmentions hcommit t ht))
        fun w hw => absurd hw List.not_mem_nil
  · intro s i input next h _ hact
    obtain ⟨at_, hloc, hmentions, -⟩ := hidle (h.sessions i) hact
    have hrollback := act_rollback hact
    rw [hloc] at hrollback
    cases hrollback with
    | cycle hrollback =>
      exact .cycle (mentions_rollback hmentions hrollback) fun w hw => absurd hw List.not_mem_nil
  · intro s i input world next h _ hact
    obtain ⟨at_, hloc, -, -⟩ := hidle (h.sessions i) hact
    have hcall := act_call hact
    rw [hloc] at hcall
    cases hcall
  · intro s o locks writes h hok hop _
    rcases operate_discovers hok.1 hop with rfl | ⟨parentTargetId, rfl, hd⟩
    · exact ⟨h.shared.used, fun _ => keepsApart_used _⟩
    · exact ⟨hd.sound h.shared hok.2, fun _ => hd.keepsApart⟩

/-- A wiki target is found again in every later state. -/
theorem wikiTarget?_reach {targetId parentTargetId : Uuid}
    (hreach : Reach (machine settings).step (fun _ _ => True) s₁ s₂)
    (h : (s₁.db.wikiTarget? parentTargetId).map (·.targetId) = some targetId) :
    (s₂.db.wikiTarget? parentTargetId).map (·.targetId) = some targetId := by
  have hwrites : ∀ {db : Db} {writes : List Write},
      (db.wikiTarget? parentTargetId).map (·.targetId) = some targetId →
      ((writes.foldl Db.apply db).wikiTarget? parentTargetId).map (·.targetId) = some targetId := by
    intro db writes hdb
    refine foldl_invariant (I := fun d : Db =>
      (d.wikiTarget? parentTargetId).map (·.targetId) = some targetId) (fun d w _ hd => ?_) hdb
    exact foundTarget_apply (fun t status => rfl) hd w
  refine hreach.invariant (I := fun s : State =>
    (s.db.wikiTarget? parentTargetId).map (·.targetId) = some targetId) h
    fun s l s' hs _ hstep => ?_
  rcases Machine.step_db hstep with hdb | ⟨_, _, _, _, _, -, -, hdb⟩ | ⟨_, _, _, -, -, hdb⟩ |
    ⟨_, _, _, -, -, hdb⟩
  · rw [hdb]
    exact hs
  · rw [hdb]
    exact hwrites hs
  · rw [hdb]
    exact hwrites hs
  · rw [hdb]
    exact hwrites hs

theorem discoveredChild_of_found {db : Db} {targetId parentTargetId fresh : Uuid}
    (h : (db.wikiTarget? parentTargetId).map (·.targetId) = some targetId) :
    db.discoveredChild fresh parentTargetId = targetId := by
  unfold Db.discoveredChild
  rw [h]
  rfl

/-- A repository has one wiki and every discovery finds it again; where no discovery and no
revision of the repository leaves it behind, the wiki is active only with its repository. -/
theorem wikis_follow {storage : MirrorStorage} {clock fresh : ℕ}
    (h : Reach (machine settings).step (fun s l => IsWikiWork l ∧ KeepsWikis s l)
      (initial {} storage clock fresh) s) : WikisFollow settings s := by
  have hbeside : WikisBeside s :=
    h.invariant (wikisBeside_initial storage clock fresh) wikisBeside_step
  refine ⟨fun parentTargetId => ?_, ?_, ?_, ?_⟩
  · rw [Db.length_wikis]
    exact List.nodup_iff_count_le_one.mp hbeside.shared.single _
  · intro parentTargetId s₁ s₂ hstep hreach
    obtain ⟨⟨locks, writes⟩, hop, hdone⟩ := Option.bind_eq_some_iff.mp hstep
    split at hdone
    · obtain rfl := Option.some.inj hdone
      have hfound := (discovers_of_record hop).found
      exact discoveredChild_of_found (wikiTarget?_reach hreach hfound)
    · cases hdone
  · exact fun child parentTargetId hwiki => hbeside.shared.follows _ _ hwiki.mem_wikis
  · exact fun child parentTargetId hwiki => hbeside.shared.derived _ _ hwiki.mem_wikis

end

namespace Sample

/-- The first revision of the repository asks for the wiki. -/
def wikiDelivery : IncomingDelivery :=
  { delivery "git_mirror" 1 with
    delivery := { (delivery "git_mirror" 1).delivery with includeWiki := some true } }

/-- The repository is enrolled, and its wiki is discovered. -/
def discoveredRun : List Label :=
  .start 0 (.policy (.cycle [wikiDelivery])) :: List.replicate 10 (.exec 0 answered) ++
    [.op (.recordWikiDiscovery 2 .present)]

/-- The wiki the discovery enrolled. -/
def wiki : Target :=
  { targetId := 9
    provider
    externalRepositoryId := "r"
    targetKind := .wiki
    parentTargetId := some 2
    status := .requested }

/-- A later revision withdraws the repository. -/
def withdrawing (s : State) : State :=
  (machine settings).afterStart s 0 (.policy (.cycle [delivery "none" 2]))

/-- The cycle has withdrawn the repository, and the wiki is still to be mirrored. -/
def isStranded (s : State) : Bool :=
  (s.session 0).loc == cycling (.finished (.ok { proposed := 1, executable := 1 })) &&
    s.db.named? (delivery "none" 2) == some 2 && s.db.targets.contains wiki &&
    (s.db.governing? 9).any (fun policy => policy.preservationLevel == .gitMirror) &&
    (s.db.governing? 2).any fun policy => policy.preservationLevel == .none

def isWikiWork : Label → Bool
  | .start _ (.policy (.cycle _)) => true
  | .start _ _ => false
  | .op (.recordWikiDiscovery _ _) => true
  | .op _ => false
  | _ => true

theorem isWikiWork_of_check {l : Label} (h : isWikiWork l = true) : IsWikiWork l := by
  cases l with
  | start i proc =>
    cases proc with
    | policy proc =>
      cases proc with
      | command command => cases h
      | cycle deliveries => trivial
    | _ => cases h
  | op o =>
    cases o with
    | recordWikiDiscovery parentTargetId discovery => trivial
    | _ => cases h
  | _ => trivial

/-- Work on wikis that withdraws no revision and asks for every wiki it finds. -/
def keepsWikis (s : State) (l : Label) : Bool :=
  isWikiWork l && match l with
  | .exec i _ => (s.session i).log.all fun
    | .insertRevision row => row.preservationLevel != .none && row.includeWiki
    | _ => true
  | .op (.recordWikiDiscovery parentTargetId .present) =>
    (s.db.governing? parentTargetId).all fun policy =>
      policy.preservationLevel != .none && policy.includeWiki
  | _ => true

theorem keepsWikis_of_check (s : State) (l : Label) (h : keepsWikis s l = true) :
    IsWikiWork l ∧ KeepsWikis s l := by
  obtain ⟨hwork, hcheck⟩ := Bool.and_eq_true_iff.mp h
  refine ⟨isWikiWork_of_check hwork, ?_⟩
  cases l with
  | exec i input =>
    intro at_ _ _ row hrow hbad
    have hgood := List.all_eq_true.mp hcheck _ hrow
    simp only [Bool.and_eq_true, bne_iff_ne] at hgood
    exact absurd hgood hbad
  | op o =>
    cases o with
    | recordWikiDiscovery parentTargetId discovery =>
      cases discovery with
      | present =>
        intro _ policy hpolicy
        have hgood : (s.db.governing? parentTargetId).all _ = true := hcheck
        rw [hpolicy] at hgood
        simpa [Revision.PreservesWiki] using hgood
      | _ => trivial
    | _ => trivial
  | _ => trivial

end Sample

open Vault.Sample in
/-- The repository is withdrawn, and its wiki stays under the active revision it was given. -/
theorem wiki_outlives_withdrawal :
    ¬ ∀ (s s₁ s₂ : State) (i : ℕ) (messages : List IncomingDelivery) (report : CycleReport),
      Reach (machine settings).step (fun _ l => IsWikiWork l) (initial {} storage 0 0) s →
      (machine settings).step s (.start i (.policy (.cycle messages))) = some s₁ →
      Reach (machine settings).step (Machine.Only i) s₁ s₂ →
      (s₂.session i).loc = cycling (.finished (.ok report)) →
      ∀ message ∈ messages, ∀ child parentTargetId,
        s₂.db.named? message = some parentTargetId → s₂.db.IsWikiOf child parentTargetId →
          ∀ policy, s₂.db.governing? child.targetId = some policy →
            policy.preservationLevel ≠ .none →
              ∃ parent, s₂.db.governing? parentTargetId = some parent ∧ parent.PreservesWiki := by
  intro h
  obtain ⟨s, hrun, hs⟩ : ∃ s, run (machine settings).step (initial {} storage 0 0)
      discoveredRun = some s ∧
      ((s.session 0).loc.isIdle && (run (machine settings).step (withdrawing s)
        (List.replicate 18 (.exec 0 answered))).any isStranded) = true :=
    exists_of_run_any (by decide +kernel)
  obtain ⟨hidle, hrest⟩ := Bool.and_eq_true_iff.mp hs
  obtain ⟨s₂, hrun₂, hs₂⟩ := exists_of_run_any hrest
  simp only [isStranded, Bool.and_eq_true, beq_iff_eq, List.contains_iff_mem, Option.any_eq_true]
    at hs₂
  obtain ⟨⟨⟨⟨hdone, hnamed⟩, hwiki⟩, policy, hpolicy, hmirrored⟩, withdrawn, hwithdrawn, hnone⟩ := hs₂
  have hstart : (machine settings).step s (.start 0 (.policy (.cycle [delivery "none" 2])))
      = some (withdrawing s) := by
    simp only [Machine.step, hidle, if_true]
    rfl
  have hbefore : Reach (machine settings).step (fun _ l => IsWikiWork l)
      (initial {} storage 0 0) s := by
    refine Reach.of_run hrun (along_of_forall (fun l hl _ => isWikiWork_of_check ?_) _)
    revert l
    decide +kernel
  have hcycle : Reach (machine settings).step (Machine.Only 0) (withdrawing s) s₂ :=
    Reach.of_run hrun₂ (along_of_forall (fun l hl _ => by rw [List.eq_of_mem_replicate hl]; rfl) _)
  obtain ⟨parent, hparent, hpreserves⟩ := h s (withdrawing s) s₂ 0 _ _ hbefore hstart hcycle hdone
    _ (List.mem_singleton_self _) wiki 2 hnamed ⟨hwiki, rfl, rfl⟩ policy hpolicy
    (by rw [hmirrored]; decide)
  obtain rfl := Option.some.inj (hwithdrawn.symm.trans hparent)
  exact hpreserves.1 hnone

open Sample in
/-- A repository whose policy asks for its wiki, and the wiki it is found to have. -/
theorem wikis_follow_discovered :
    ∃ s : State, s.db.IsWikiOf wiki 2 ∧ WikisFollow settings s := by
  obtain ⟨s, hrun, hs⟩ : ∃ s, run (machine settings).step (initial {} storage 0 0)
      discoveredRun = some s ∧ s.db.targets.contains wiki = true :=
    exists_of_run_any (by decide +kernel)
  have hreach : Reach (machine settings).step (fun s l => IsWikiWork l ∧ KeepsWikis s l)
      (initial {} storage 0 0) s :=
    Reach.of_run hrun (along_of_meets keepsWikis_of_check (by decide +kernel))
  exact ⟨s, ⟨List.contains_iff_mem.mp hs, rfl, rfl⟩, wikis_follow hreach⟩

end Vault

end RatatoskrVault
