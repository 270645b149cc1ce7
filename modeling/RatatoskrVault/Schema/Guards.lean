import RatatoskrVault.Schema.Tables

/-! The triggers of the schema, as checks of a row write against the database its statement
sees. -/
namespace RatatoskrVault

/-- The SQLSTATE of a refused statement. -/
inductive SqlError
  | vlt01 (fromStatus toStatus : TargetStatus)
  | vlt02 | vlt03 | vlt04 | vlt05 | vlt06
  | other
  deriving DecidableEq

namespace Db

variable (db : Db)

def target? (targetId : Uuid) : Option Target :=
  db.targets.find? fun t => t.targetId == targetId

def snapshot? (snapshotId : Uuid) : Option Snapshot :=
  db.snapshots.find? fun s => s.snapshotId == snapshotId

def plan? (planId : Uuid) : Option DeletionPlan :=
  db.plans.find? fun p => p.planId == planId

def tombstone? (tombstoneId : Uuid) : Option Tombstone :=
  db.tombstones.find? fun t => t.tombstoneId == tombstoneId

def plansUnder (tombstoneId : Uuid) : List DeletionPlan :=
  db.plans.filter fun p => p.tombstoneId == some tombstoneId

def snapshotIsPinned (snapshotId : Uuid) : Bool :=
  db.pins.any fun pin => pin.snapshotId == snapshotId && pin.revokedAt.isNone

/-- An active tombstone past its grace window, with open plans none of which is pinned. -/
def hasExecutableTombstone (clock : Time) (targetId : Uuid) : Bool :=
  db.tombstones.any fun tombstone =>
    tombstone.targetId == targetId && tombstone.isActive && decide (tombstone.notBefore ≤ clock) &&
      (db.plansUnder tombstone.tombstoneId).any (fun p => p.status.isOpen) &&
      (db.plansUnder tombstone.tombstoneId).all fun p =>
        !p.status.isOpen || !db.snapshotIsPinned p.snapshotId

/-- A completed tombstone all of whose plans, at least one, completed. -/
def hasTerminalTombstone (targetId : Uuid) : Bool :=
  db.tombstones.any fun tombstone =>
    tombstone.targetId == targetId && tombstone.completedAt.isSome &&
      !(db.plansUnder tombstone.tombstoneId).isEmpty &&
      (db.plansUnder tombstone.tombstoneId).all fun p => p.status == .completed

def targetGuardStatusTransition (clock : Time) (old : Target) (new : TargetStatus) :
    Except SqlError Unit :=
  if new = old.status then .ok ()
  else if old.status = .excluded ∧ new = .deleting ∧
      (old.pinned ∨ ¬ db.hasExecutableTombstone clock old.targetId) then .error .vlt05
  else if old.status = .deleting ∧ new = .deleted ∧ ¬ db.hasTerminalTombstone old.targetId then
    .error .vlt06
  else if Transition.isLegal old.status new then .ok ()
  else .error (.vlt01 old.status new)

/-- The plan has an attempt with terminal evidence for a stage `unit` selects. -/
def hasTerminalStage (planId : Uuid) (unit : Stage → Bool) : Bool :=
  db.attempts.any fun stage => stage.planId == planId && unit stage.stage && stage.outcome.isTerminal

def hasTerminalArtifact (planId artifactId : Uuid) : Bool :=
  db.hasTerminalStage planId fun stage => stage == .artifact artifactId

def hasTerminalPlacement (planId placementId : Uuid) : Bool :=
  db.hasTerminalStage planId fun
    | .replica _ _ id => id == placementId
    | _ => false

def mirrorSucceeded (planId : Uuid) : Bool :=
  db.attempts.any fun stage =>
    stage.planId == planId && stage.stage == .mirror && stage.outcome == .succeeded

def artifactsOf (snapshotId : Uuid) : List SnapshotArtifact :=
  db.artifacts.filter fun a => a.snapshotId == snapshotId

def placementsOf (snapshotId : Uuid) : List ReplicaPlacement :=
  db.placements.filter fun placement =>
    (db.artifactsOf snapshotId).any fun a => a.artifactId == placement.artifactId

def localStagesTerminal (plan : DeletionPlan) : Bool :=
  (db.artifactsOf plan.snapshotId).all fun a => db.hasTerminalArtifact plan.planId a.artifactId

def guardDeletionPlanUpdate (old : DeletionPlan) (new : PlanStatus) : Except SqlError Unit :=
  if ¬ PlanStatus.isLegal old.status new then .error .other
  else if new = .completed ∧
      ¬ (db.localStagesTerminal old ∧
        (db.placementsOf old.snapshotId).all
          (fun placement => db.hasTerminalPlacement old.planId placement.placementId) ∧
        (old.tombstoneId = none ∨ db.mirrorSucceeded old.planId)) then .error .other
  else .ok ()

def guardDeletionPlanInsert (new : DeletionPlan) : Except SqlError Unit :=
  if new.automatic && db.snapshotIsPinned new.snapshotId then .error .vlt02 else .ok ()

def guardDeletionStageInsert (clock : Time) (new : StageAttempt) : Except SqlError Unit :=
  match db.plan? new.planId with
  | none => .error .vlt03
  | some plan =>
    if clock < plan.notBefore then .error .vlt03
    else
      match new.stage with
      | .artifact _ => .ok ()
      | .mirror =>
        if plan.tombstoneId = none ∨ ¬ db.localStagesTerminal plan then .error .vlt04 else .ok ()
      | .replica artifactId _ _ =>
        if ¬ db.hasTerminalArtifact plan.planId artifactId then .error .vlt04
        else if plan.tombstoneId ≠ none ∧ ¬ db.mirrorSucceeded plan.planId then .error .vlt04
        else .ok ()

/-- Closure is one-way and its time respects the tombstone's own window. -/
def guardTombstoneClose (tombstone : Tombstone) (cancelledAt completedAt : Option Time) :
    Except SqlError Unit :=
  if tombstone.isActive ∧ (cancelledAt.all fun at_ => decide (tombstone.recordedAt ≤ at_)) ∧
      (completedAt.all fun at_ => decide (tombstone.notBefore ≤ at_)) then .ok ()
  else .error .other

end Db

end RatatoskrVault
