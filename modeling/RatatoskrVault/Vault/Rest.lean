import RatatoskrVault.Lib.Outline
import RatatoskrVault.Vault.Steps

/-! Where a session of the vault has no transaction open, and what an outline of its procedures
has to show, one obligation for each kind of step. -/
namespace RatatoskrVault

open Lib

/-- No transaction is open. -/
def CycleLoc.atRest : CycleLoc → Bool
  | .insertTarget _ => false
  | .enrollEvent _ _ => false
  | .selectTarget _ => false
  | .insertRevision _ _ => false
  | .commit _ _ => false
  | .transition _ at_ _ _ => at_.atRest
  | _ => true

def CommandLoc.atRest : CommandLoc → Bool
  | .apply _ _ at_ => at_.atRest
  | .insertAcknowledgement _ _ _ => false
  | .insertCommand _ _ _ => false
  | .commit _ _ => false
  | _ => true

def MirrorLoc.atRest : MirrorLoc → Bool
  | .targetReserved _ => false
  | .globalReserved _ _ => false
  | .insertReservation _ => false
  | .commitReservation _ => false
  | .releaseReservation _ => false
  | .commitRun _ => false
  | _ => true

section

variable {m : Moment} {db : Db} {locks : List Lock} {writes : List Write}

/-- A transition that goes on is the step the cycle takes next. -/
theorem resumeTransition_of_not_atRest {request : TransitionRequest} {items : List WorkItem}
    {rest : Converging} {next : TransitionLoc} (h : next.atRest = false) :
    resumeTransition request items rest next = .transition request next items rest := by
  cases next with
  | finished result => cases h
  | _ => rfl

theorem CycleStmt.not_atRest {at_ next : CycleLoc} (h : CycleStmt m db at_ locks writes next) :
    next.atRest = false := by
  cases h with
  | transition h =>
    rw [resumeTransition_of_not_atRest h.not_atRest]
    exact h.not_atRest
  | _ => rfl

/-- A cycle that goes on is the step the handler takes next. -/
theorem resumeCycle_of_not_atRest {command : CommandEnvelope} {decision : PolicyDecision}
    {next : CycleLoc} (h : next.atRest = false) :
    resumeCycle command decision next = .apply command decision next := by
  cases next with
  | finished result => cases h
  | _ => rfl

theorem CommandStmt.not_atRest {at_ next : CommandLoc} (h : CommandStmt m db at_ locks writes next) :
    next.atRest = false := by
  cases h with
  | apply h =>
    rw [resumeCycle_of_not_atRest h.not_atRest]
    exact h.not_atRest
  | _ => rfl

theorem Converging.next_atRest {rest : Converging} : rest.next.atRest = true := by
  unfold Converging.next
  split <;> rfl

theorem CycleRead.atRest {at_ next : CycleLoc} (h : CycleRead db at_ next) :
    at_.atRest = true ∧ next.atRest = true := by
  cases h with
  | ingested => exact ⟨rfl, Converging.next_atRest⟩
  | ungoverned => exact ⟨rfl, Converging.next_atRest⟩
  | converged => exact ⟨rfl, Converging.next_atRest⟩
  | _ => exact ⟨rfl, rfl⟩

theorem CycleCommit.next_atRest {at_ next : CycleLoc} (h : CycleCommit at_ next) :
    next.atRest = true := by
  cases h <;> rfl

theorem CycleRollback.next_atRest {at_ next : CycleLoc} (h : CycleRollback db at_ next) :
    next.atRest = true := by
  cases h <;> rfl

/-- A cycle without a transaction hands the handler none. -/
theorem resumeCycle_atRest {command : CommandEnvelope} {decision : PolicyDecision}
    {next : CycleLoc} (h : next.atRest = true) :
    (resumeCycle command decision next).atRest = true := by
  cases next with
  | finished result => cases result <;> rfl
  | _ => exact h

theorem CommandRead.atRest {contracts : Contracts} {at_ next : CommandLoc}
    (h : CommandRead contracts db at_ next) : at_.atRest = true ∧ next.atRest = true := by
  cases h with
  | apply h => exact ⟨h.atRest.1, resumeCycle_atRest h.atRest.2⟩
  | _ => exact ⟨rfl, rfl⟩

theorem CommandCommit.next_atRest {at_ next : CommandLoc} (h : CommandCommit at_ next) :
    next.atRest = true := by
  cases h with
  | apply h => exact resumeCycle_atRest h.next_atRest
  | recorded => rfl

theorem CommandRollback.next_atRest {at_ next : CommandLoc} (h : CommandRollback db at_ next) :
    next.atRest = true := by
  cases h with
  | apply h => exact resumeCycle_atRest h.next_atRest
  | _ => rfl

theorem MirrorStmt.not_atRest {settings : MirrorLifecycleSettings} {at_ next : MirrorLoc}
    (h : MirrorStmt settings db at_ locks writes next) : next.atRest = false := by
  cases h <;> rfl

theorem MirrorAuto.atRest {settings : MirrorLifecycleSettings} {storage : MirrorStorage}
    {at_ next : MirrorLoc} (h : MirrorAuto settings m db storage at_ locks writes next) :
    at_.atRest = true ∧ next.atRest = true := by
  cases h <;> exact ⟨rfl, rfl⟩

theorem MirrorCommit.next_atRest {at_ next : MirrorLoc} (h : MirrorCommit at_ next) :
    next.atRest = true := by
  cases h with
  | reserved => rfl
  | recorded =>
    unfold Finishing.observe
    split <;> rfl

theorem MirrorRollback.next_atRest {at_ next : MirrorLoc} (h : MirrorRollback db at_ next) :
    next.atRest = true := by
  cases h <;> rfl

theorem MirrorCall.atRest {settings : MirrorLifecycleSettings} {storage storage' : MirrorStorage}
    {git : GitCall} {at_ next : MirrorLoc}
    (h : MirrorCall settings storage git at_ storage' next) :
    at_.atRest = true ∧ next.atRest = true := by
  cases h with
  | published hnext => rcases hnext with rfl | rfl <;> exact ⟨rfl, rfl⟩
  | _ => exact ⟨rfl, rfl⟩

namespace Retention

theorem workerNext_atRest {plan : DeletionExecutionPlan} {tasks : List Task} :
    (WorkerLoc.next plan tasks).atRest = true := by
  match tasks with
  | [] => rfl
  | .stage unit :: rest => rfl
  | .advance :: rest => rfl
  | .complete :: rest => rfl

theorem SessionAuto.next_atRest {at_ next : Loc} (h : SessionAuto m db at_ locks writes next) :
    next.atRest = true := by
  cases h with
  | worker h => cases h <;> first | rfl | exact workerNext_atRest
  | capture h => cases h <;> rfl

theorem SessionCommit.next_atRest {at_ next : Loc} (h : SessionCommit at_ next) :
    next.atRest = true := by
  cases h with
  | worker h => cases h <;> first | rfl | exact workerNext_atRest
  | capture => rfl
  | transition => rfl

theorem atRest_of_isIdle {at_ : Loc} (h : at_.isIdle = true) : at_.atRest = true := by
  cases at_ with
  | idle => rfl
  | worker at_ => cases at_ <;> first | rfl | cases h
  | capture at_ => cases at_ <;> first | rfl | cases h
  | transition request at_ => cases at_ <;> first | rfl | cases h

theorem SessionCall.atRest {settings : Settings} {storage world : Storage} {io : IoResult}
    {at_ next : Loc} (h : SessionCall settings storage io at_ world next) :
    at_.atRest = true ∧ next.atRest = true := by
  cases h with
  | worker => exact ⟨rfl, rfl⟩
  | capture h hn =>
    rw [hn]
    cases h <;> refine ⟨rfl, ?_⟩ <;> split_ifs <;> rfl

end Retention

end

namespace Vault

variable {settings : Settings}

def Loc.atRest : Loc → Bool
  | .policy (.command at_) => at_.atRest
  | .policy (.cycle at_) => at_.atRest
  | .mirror at_ => at_.atRest
  | .retention at_ => at_.atRest
  | _ => true

/-- A session that is not busy takes no step. -/
theorem act_of_isIdle {loc : Loc} {m : Moment} {db : Db} {storage : MirrorStorage}
    {input : MirrorInput} (h : loc.isIdle = true) : act settings loc m db storage input = none := by
  cases loc with
  | idle => rfl
  | policy at_ =>
    cases at_ with
    | idle => rfl
    | aborted => rfl
    | command at_ => cases at_ <;> first | rfl | cases h
    | cycle at_ => cases at_ <;> first | rfl | cases h
  | mirror at_ => cases at_ <;> first | rfl | cases h
  | retention at_ =>
    cases at_ with
    | idle => rfl
    | worker at_ => cases at_ <;> first | rfl | cases h
    | capture at_ => cases at_ <;> first | rfl | cases h
    | transition request at_ => cases at_ <;> first | rfl | cases h

theorem rests : (machine settings).Rests Loc.atRest where
  aborted := rfl
  idle h := act_of_isIdle h
  start proc := by
    cases proc with
    | policy proc => cases proc <;> rfl
    | mirror request => rfl
    | retention proc => cases proc <;> rfl
  stmt hact := by
    cases act_stmt hact with
    | command h => exact h.not_atRest
    | cycle h => exact h.not_atRest
    | mirror h => exact h.not_atRest
    | retention h =>
      cases h with
      | worker h => exact h.not_atRest
      | capture h => exact h.not_atRest
      | transition h => exact h.not_atRest
  auto hact := by
    cases act_auto hact with
    | command h => exact h.atRest
    | cycle h => exact h.atRest
    | mirror h => exact h.atRest
    | retention h => exact ⟨h.atRest, h.next_atRest⟩
  commit hact := by
    cases act_commit hact with
    | command h => exact h.next_atRest
    | cycle h => exact h.next_atRest
    | mirror h => exact h.next_atRest
    | retention h => exact h.next_atRest
  rollback hact := by
    cases act_rollback hact with
    | command h => exact h.next_atRest
    | cycle h => exact h.next_atRest
    | mirror h => exact h.next_atRest
    | retention hidle => exact Retention.atRest_of_isIdle hidle
  call hact := by
    cases act_call hact with
    | mirror h => exact h.atRest
    | retention h => exact h.atRest

end Vault

end RatatoskrVault
