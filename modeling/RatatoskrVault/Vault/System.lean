import RatatoskrVault.Mirror.Lifecycle
import RatatoskrVault.Persistence.Wiki
import RatatoskrVault.Policy.System
import RatatoskrVault.Retention.Evaluation
import RatatoskrVault.Retention.System

/-! The whole vault: policy work, mirror runs, captures and retention as concurrent sessions over
one database and one storage. -/
namespace RatatoskrVault.Vault

open Lib

structure Settings where
  contracts : Contracts
  retention : Retention.Settings
  mirror : MirrorLifecycleSettings
  /-- The rows of `retention_policies`, which no code of the vault writes. -/
  policies : List RetentionPolicyRow

inductive Proc
  | policy (proc : Policy.Proc)
  | mirror (request : MirrorRequest)
  | retention (proc : Retention.Proc)
  deriving DecidableEq

inductive Loc
  | idle
  | policy (at_ : Policy.Loc)
  | mirror (at_ : MirrorLoc)
  | retention (at_ : Retention.Loc)
  deriving DecidableEq

/-- The session has nothing left to do. -/
def Loc.isIdle : Loc → Bool
  | .idle => true
  | .policy at_ => at_.isIdle
  | .mirror (.finished _) => true
  | .mirror _ => false
  | .retention at_ => at_.isIdle

def start : Proc → Loc
  | .policy proc => .policy (Policy.start proc)
  | .mirror request => .mirror (.begin request)
  | .retention proc => .retention (Retention.start proc)

inductive Op
  | retention (o : Retention.Op)
  | recordWikiDiscovery (parentTargetId : Uuid) (discovery : WikiDiscovery)
  | recordRetentionEvaluation (request : RetentionEvaluationRequest)
  deriving DecidableEq

def operate (settings : Settings) (m : Moment) (db : Db) : Op → Option (List Lock × List Write)
  | .retention o => Retention.operate db m o
  | .recordWikiDiscovery parentTargetId discovery =>
    recordWikiDiscovery db m.fresh parentTargetId discovery
  | .recordRetentionEvaluation request =>
    match recordRetentionEvaluation settings.policies db m.fresh request with
    | .error _ => none
    | .ok row => some ([], [.insertEvaluation row])

def act (settings : Settings) (loc : Loc) (m : Moment) (db : Db) (storage : MirrorStorage)
    (input : MirrorInput) : Option (Action MirrorStorage Lock Write Loc) :=
  match loc with
  | .idle => none
  | .policy at_ =>
    (Policy.act settings.contracts at_ m db).map (Action.embed (fun _ => storage) .policy)
  | .mirror at_ => (runMirror settings.mirror m db storage input at_).map (Action.map .mirror)
  | .retention at_ =>
    (Retention.act settings.retention at_ m db storage.toStorage input.io).map
      (Action.embed (fun world => { storage with toStorage := world }) .retention)

abbrev machine (settings : Settings) :
    Machine Db MirrorStorage Lock Write Loc MirrorInput Proc Op :=
  { apply := Db.apply
    act := act settings
    start
    isIdle := Loc.isIdle
    aborted := .idle
    op := fun o m db _ => operate settings m db o }

abbrev State := Lib.State Db MirrorStorage Lock Write Loc
abbrev Label := Lib.Label MirrorInput Proc Op

/-- All sessions idle, with no lock held. -/
def initial (db : Db) (storage : MirrorStorage) (clock fresh : ℕ) : State :=
  { db, world := storage, clock, fresh, held := []
    session := fun _ => { loc := .idle, log := [], began := none } }

namespace Sample

/-! A small configuration for concrete runs. -/

def contracts : Contracts :=
  { newV5 := fun commandId _ => commandId
    entityRef := fun _ => true
    producerName := fun _ => true
    validate := fun _ => true }

/-- Identifiers written in unary. -/
def uuid : UuidFormat :=
  { asSimple := fun id => String.ofList (List.replicate (id + 2) 'a')
    asHyphenated := fun id => String.ofList (List.replicate id 'a')
    two_le_asSimple := fun id => by simp
    asHyphenated_injective := fun a b h => by
      simpa using congrArg List.length (String.ofList_injective h) }

def settings : Settings :=
  { contracts
    retention := Retention.Sample.settings
    mirror :=
      { crypto := Retention.Sample.crypto, uuid, perMirrorMaxBytes := 10, globalMaxBytes := 10
        lfsStageMaxBytes := none }
    policies :=
      [{ policyId := 0, minimumAgeSeconds := 0, graceSeconds := 1, keepLastRestorable := 1 }] }

def storage : MirrorStorage :=
  { blobs := { maxBytes := 1000, files := fun _ => none }
    mirrors := fun _ => false
    remote := fun _ _ => none
    checked := fun _ => false }

def oneTarget : Db :=
  { targets :=
      [{ targetId := 1, provider := "github", externalRepositoryId := "r", status := .requested }] }

def request : MirrorRequest :=
  { targetId := 1, source := "https://h/r.git", reservationBytes := 1, lfsEnabled := false }

/-- Everything outside the database answers, and Git succeeds. -/
def answered : MirrorInput :=
  { git := .exited { exitCode := 0, lines := some ["a"] }, size := some 1 }

end Sample

end RatatoskrVault.Vault
