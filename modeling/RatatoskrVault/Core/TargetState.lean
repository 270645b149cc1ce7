import Mathlib.Data.List.Basic

/-! The closed vocabulary of target statuses and the legal moves between them. -/
namespace RatatoskrVault

inductive TargetStatus
  | requested | cloning | ready | fetching | snapshotting | verifying
  | healthy | degraded | paused | excluded | deleting | deleted
  deriving DecidableEq

namespace TargetStatus

/-- The name of the status as persisted in the schema. -/
def asStr : TargetStatus → String
  | requested => "requested"
  | cloning => "cloning"
  | ready => "ready"
  | fetching => "fetching"
  | snapshotting => "snapshotting"
  | verifying => "verifying"
  | healthy => "healthy"
  | degraded => "degraded"
  | paused => "paused"
  | excluded => "excluded"
  | deleting => "deleting"
  | deleted => "deleted"

end TargetStatus

namespace Transition

open TargetStatus

/-- Every legal move of the design matrix. -/
def transitions : List (TargetStatus × TargetStatus) :=
  [(requested, cloning), (requested, excluded), (cloning, ready), (cloning, degraded),
   (cloning, excluded), (ready, fetching), (ready, degraded), (ready, paused),
   (ready, excluded), (fetching, snapshotting), (fetching, ready), (fetching, degraded),
   (fetching, paused), (fetching, excluded), (snapshotting, verifying),
   (snapshotting, degraded), (verifying, healthy), (verifying, degraded),
   (healthy, fetching), (healthy, degraded), (healthy, paused), (healthy, excluded),
   (degraded, fetching), (degraded, cloning), (degraded, paused), (degraded, excluded),
   (paused, ready), (paused, excluded), (excluded, requested), (excluded, deleting),
   (deleting, deleted)]

def isLegal (fromStatus toStatus : TargetStatus) : Bool :=
  transitions.any fun pair => pair.1 == fromStatus && pair.2 == toStatus

/-- Nothing leaves `deleted`, and only staged deletion leaves `deleting`. -/
theorem isLegal_deleting {toStatus : TargetStatus} (h : isLegal deleting toStatus = true) :
    toStatus = deleted := by
  cases toStatus <;> revert h <;> decide

theorem isLegal_deleted {toStatus : TargetStatus} : isLegal deleted toStatus = false := by
  cases toStatus <;> decide

theorem isLegal_to_requested {fromStatus : TargetStatus}
    (h : isLegal fromStatus requested = true) : fromStatus = excluded := by
  cases fromStatus <;> revert h <;> decide

end Transition

end RatatoskrVault
