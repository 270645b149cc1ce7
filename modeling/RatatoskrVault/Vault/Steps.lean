import RatatoskrVault.Mirror.Steps
import RatatoskrVault.Policy.Steps
import RatatoskrVault.Retention.Locks
import RatatoskrVault.Vault.System

/-! Everything one step of a session of the vault can do, by what the session executes. -/
namespace RatatoskrVault.Vault

open Lib

section

variable (settings : Settings) (m : Moment) (db : Db) (storage : MirrorStorage)
  (input : MirrorInput)

/-- The statements of a session. -/
inductive SessionStmt : Loc → List Lock → List Write → Loc → Prop
  | command {at_ n : CommandLoc} {locks : List Lock} {writes : List Write}
      (h : CommandStmt m db at_ locks writes n) :
      SessionStmt (.policy (.command at_)) locks writes (.policy (.command n))
  | cycle {at_ n : CycleLoc} {locks : List Lock} {writes : List Write}
      (h : CycleStmt m db at_ locks writes n) :
      SessionStmt (.policy (.cycle at_)) locks writes (.policy (.cycle n))
  | mirror {at_ n : MirrorLoc} {locks : List Lock} {writes : List Write}
      (h : MirrorStmt settings.mirror db at_ locks writes n) :
      SessionStmt (.mirror at_) locks writes (.mirror n)
  | retention {at_ n : Retention.Loc} {locks : List Lock} {writes : List Write}
      (h : Retention.SessionStmt m db at_ locks writes n) :
      SessionStmt (.retention at_) locks writes (.retention n)

/-- The statements a session commits by themselves. -/
inductive SessionAuto : Loc → List Lock → List Write → Loc → Prop
  | command {at_ n : CommandLoc} (h : CommandRead settings.contracts db at_ n) :
      SessionAuto (.policy (.command at_)) [] [] (.policy (.command n))
  | cycle {at_ n : CycleLoc} (h : CycleRead db at_ n) :
      SessionAuto (.policy (.cycle at_)) [] [] (.policy (.cycle n))
  | mirror {at_ n : MirrorLoc} {locks : List Lock} {writes : List Write}
      (h : MirrorAuto settings.mirror m db storage at_ locks writes n) :
      SessionAuto (.mirror at_) locks writes (.mirror n)
  | retention {at_ n : Retention.Loc} {locks : List Lock} {writes : List Write}
      (h : Retention.SessionAuto m db at_ locks writes n) :
      SessionAuto (.retention at_) locks writes (.retention n)

inductive SessionCommit : Loc → Loc → Prop
  | command {at_ n : CommandLoc} (h : CommandCommit at_ n) :
      SessionCommit (.policy (.command at_)) (.policy (.command n))
  | cycle {at_ n : CycleLoc} (h : CycleCommit at_ n) :
      SessionCommit (.policy (.cycle at_)) (.policy (.cycle n))
  | mirror {at_ n : MirrorLoc} (h : MirrorCommit at_ n) : SessionCommit (.mirror at_) (.mirror n)
  | retention {at_ n : Retention.Loc} (h : Retention.SessionCommit at_ n) :
      SessionCommit (.retention at_) (.retention n)

inductive SessionRollback : Loc → Loc → Prop
  | command {at_ n : CommandLoc} (h : CommandRollback db at_ n) :
      SessionRollback (.policy (.command at_)) (.policy (.command n))
  | cycle {at_ n : CycleLoc} (h : CycleRollback db at_ n) :
      SessionRollback (.policy (.cycle at_)) (.policy (.cycle n))
  | mirror {at_ n : MirrorLoc} (h : MirrorRollback db at_ n) :
      SessionRollback (.mirror at_) (.mirror n)
  | retention {at_ n : Retention.Loc} (hidle : n.isIdle = true) :
      SessionRollback (.retention at_) (.retention n)

/-- The calls outside the database. -/
inductive SessionCall : Loc → MirrorStorage → Loc → Prop
  | mirror {at_ n : MirrorLoc} {storage' : MirrorStorage}
      (h : MirrorCall settings.mirror storage input.git at_ storage' n) :
      SessionCall (.mirror at_) storage' (.mirror n)
  | retention {at_ n : Retention.Loc} {world : Storage}
      (h : Retention.SessionCall settings.retention storage.toStorage input.io at_ world n) :
      SessionCall (.retention at_) { storage with toStorage := world } (.retention n)

/-- What the operations write. -/
inductive OpWrites : Op → List Lock → List Write → Prop
  | retention {o : Retention.Op} {locks : List Lock} {writes : List Write}
      (h : Retention.OpWrites db m o locks writes) : OpWrites (.retention o) locks writes
  | undiscovered {parentTargetId : Uuid} {discovery : WikiDiscovery} :
      OpWrites (.recordWikiDiscovery parentTargetId discovery) [.target parentTargetId] []
  | wikiKnown {parentTargetId : Uuid} {child : Target}
      (hchild : db.wikiTarget? parentTargetId = some child) :
      OpWrites (.recordWikiDiscovery parentTargetId .present)
        [.target parentTargetId, .target child.targetId]
        ((db.wikiRevisions child.targetId parentTargetId).map .insertRevision)
  | wikiEnrolled {parentTargetId : Uuid} {row : Target} (hid : row.targetId = m.fresh)
      (hnone : db.wikiTarget? parentTargetId = none) (hkind : row.targetKind = .wiki)
      (hstatus : row.status = .requested) :
      OpWrites (.recordWikiDiscovery parentTargetId .present) [.target parentTargetId]
        (.insertTarget row :: (db.wikiRevisions m.fresh parentTargetId).map .insertRevision)
  | evaluated {request : RetentionEvaluationRequest} {row : RetentionEvaluation} :
      OpWrites (.recordRetentionEvaluation request) [] [.insertEvaluation row]

end

variable {settings : Settings} {m : Moment} {db : Db} {storage storage' : MirrorStorage}
  {input : MirrorInput} {loc next : Loc} {locks : List Lock} {writes : List Write}

theorem act_stmt (h : act settings loc m db storage input = some (.stmt locks writes next)) :
    SessionStmt settings m db loc locks writes next := by
  cases loc with
  | idle => cases h
  | policy at_ =>
    obtain ⟨n, hn, rfl⟩ := embed_eq_stmt h
    cases at_ with
    | idle => cases hn
    | aborted => cases hn
    | command at_ =>
      obtain ⟨n, hrun, rfl⟩ := map_eq_stmt hn
      exact .command (handleCommand_stmt hrun)
    | cycle at_ =>
      obtain ⟨n, hrun, rfl⟩ := map_eq_stmt hn
      exact .cycle (runCycle_stmt hrun)
  | mirror at_ =>
    obtain ⟨n, hn, rfl⟩ := map_eq_stmt h
    exact .mirror (runMirror_stmt hn)
  | retention at_ =>
    obtain ⟨n, hn, rfl⟩ := embed_eq_stmt h
    exact .retention (Retention.act_stmt hn)

theorem act_auto (h : act settings loc m db storage input = some (.auto locks writes next)) :
    SessionAuto settings m db storage loc locks writes next := by
  cases loc with
  | idle => cases h
  | policy at_ =>
    obtain ⟨n, hn, rfl⟩ := embed_eq_auto h
    cases at_ with
    | idle => cases hn
    | aborted => cases hn
    | command at_ =>
      obtain ⟨n, hrun, rfl⟩ := map_eq_auto hn
      obtain ⟨rfl, rfl, hread⟩ := handleCommand_auto hrun
      exact .command hread
    | cycle at_ =>
      obtain ⟨n, hrun, rfl⟩ := map_eq_auto hn
      obtain ⟨rfl, rfl, hread⟩ := runCycle_auto hrun
      exact .cycle hread
  | mirror at_ =>
    obtain ⟨n, hn, rfl⟩ := map_eq_auto h
    exact .mirror (runMirror_auto hn)
  | retention at_ =>
    obtain ⟨n, hn, rfl⟩ := embed_eq_auto h
    exact .retention (Retention.act_auto hn)

theorem act_commit (h : act settings loc m db storage input = some (.commit next)) :
    SessionCommit loc next := by
  cases loc with
  | idle => cases h
  | policy at_ =>
    obtain ⟨n, hn, rfl⟩ := embed_eq_commit h
    cases at_ with
    | idle => cases hn
    | aborted => cases hn
    | command at_ =>
      obtain ⟨n, hrun, rfl⟩ := map_eq_commit hn
      exact .command (handleCommand_commit hrun)
    | cycle at_ =>
      obtain ⟨n, hrun, rfl⟩ := map_eq_commit hn
      exact .cycle (runCycle_commit hrun)
  | mirror at_ =>
    obtain ⟨n, hn, rfl⟩ := map_eq_commit h
    exact .mirror (runMirror_commit hn)
  | retention at_ =>
    obtain ⟨n, hn, rfl⟩ := embed_eq_commit h
    exact .retention (Retention.act_commit hn)

theorem act_rollback (h : act settings loc m db storage input = some (.rollback next)) :
    SessionRollback db loc next := by
  cases loc with
  | idle => cases h
  | policy at_ =>
    obtain ⟨n, hn, rfl⟩ := embed_eq_rollback h
    cases at_ with
    | idle => cases hn
    | aborted => cases hn
    | command at_ =>
      obtain ⟨n, hrun, rfl⟩ := map_eq_rollback hn
      exact .command (handleCommand_rollback hrun)
    | cycle at_ =>
      obtain ⟨n, hrun, rfl⟩ := map_eq_rollback hn
      exact .cycle (runCycle_rollback hrun)
  | mirror at_ =>
    obtain ⟨n, hn, rfl⟩ := map_eq_rollback h
    exact .mirror (runMirror_rollback hn)
  | retention at_ =>
    obtain ⟨n, hn, rfl⟩ := embed_eq_rollback h
    exact .retention (Retention.isIdle_of_rollback hn)

theorem act_call (h : act settings loc m db storage input = some (.call storage' next)) :
    SessionCall settings storage input loc storage' next := by
  cases loc with
  | idle => cases h
  | policy at_ =>
    obtain ⟨world, n, hn, -, -⟩ := embed_eq_call h
    cases at_ with
    | idle => cases hn
    | aborted => cases hn
    | command at_ =>
      obtain ⟨n, hrun, -⟩ := map_eq_call hn
      exact absurd hrun handleCommand_ne_call
    | cycle at_ =>
      obtain ⟨n, hrun, -⟩ := map_eq_call hn
      exact absurd hrun runCycle_ne_call
  | mirror at_ =>
    obtain ⟨n, hn, rfl⟩ := map_eq_call h
    exact .mirror (runMirror_call hn)
  | retention at_ =>
    obtain ⟨world, n, hn, rfl, rfl⟩ := embed_eq_call h
    exact .retention (Retention.act_call hn)

theorem operate_writes {o : Op} (h : operate settings m db o = some (locks, writes)) :
    OpWrites m db o locks writes := by
  cases o with
  | retention o => exact .retention (Retention.operate_writes h)
  | recordWikiDiscovery parentTargetId discovery =>
    cases discovery with
    | failed failureClass =>
      simp only [operate, recordWikiDiscovery] at h
      split_ifs at h
      obtain ⟨parent, -, hparent⟩ := Option.bind_eq_some_iff.mp h
      split_ifs at hparent
      cases hparent
      exact .undiscovered
    | absent =>
      obtain ⟨parent, -, hparent⟩ := Option.bind_eq_some_iff.mp h
      split_ifs at hparent
      cases hparent
      exact .undiscovered
    | present =>
      obtain ⟨parent, -, hparent⟩ := Option.bind_eq_some_iff.mp h
      split_ifs at hparent
      split at hparent
      · rename_i child hchild
        cases hparent
        exact .wikiKnown hchild
      · rename_i hnone
        cases hparent
        exact .wikiEnrolled rfl hnone rfl rfl
  | recordRetentionEvaluation request =>
    simp only [operate] at h
    split at h
    · cases h
    · cases h
      exact .evaluated

end RatatoskrVault.Vault
