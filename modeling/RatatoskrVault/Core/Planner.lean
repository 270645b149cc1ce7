import RatatoskrVault.Core.Delivery

/-! The reconciliation planner: the work items a governing record asks for, given the status that
was observed. -/
namespace RatatoskrVault

inductive WorkItem
  | enroll | exclude | reactivate | recordRevisionOnly | cloneAndFetch | snapshot
  deriving DecidableEq

/-- What the executor can perform today. -/
def WorkItem.isExecutable : WorkItem → Bool
  | enroll | exclude | reactivate | recordRevisionOnly => true
  | _ => false

structure PlanCounters where
  proposed : ℕ
  executable : ℕ
  deriving DecidableEq

inductive UnsupportedCollector
  | releases | issues
  deriving DecidableEq

inductive DivergenceKind
  | pinnedWithdrawal
  | unsupportedCollector (collector : UnsupportedCollector)
  deriving DecidableEq

structure ReconciliationPlan where
  items : List WorkItem
  divergences : List DivergenceKind
  counters : PlanCounters
  deriving DecidableEq

section

variable (desired : ValidatedDelivery) (observed : Option TargetStatus)

def ValidatedDelivery.withdrawn : Bool := desired.preservationLevel == .none

def planItems : List WorkItem :=
  match observed with
  | none => if desired.withdrawn then [] else [.enroll]
  | some .excluded => if desired.withdrawn then [] else [.reactivate]
  | some status =>
    if desired.withdrawn then if desired.pinned = some true then [] else [.exclude]
    else if status = .ready then
      if desired.preservationLevel = .gitMirrorWithLfs then [.cloneAndFetch, .snapshot]
      else [.recordRevisionOnly]
    else []

def planDivergences : List DivergenceKind :=
  (if desired.includeReleases = some true then [.unsupportedCollector .releases] else []) ++
    (if desired.includeIssues = some true then [.unsupportedCollector .issues] else []) ++
    match observed with
    | none => []
    | some status =>
      if desired.withdrawn ∧ status ≠ .excluded ∧ desired.pinned = some true then
        [.pinnedWithdrawal]
      else []

def plan : ReconciliationPlan :=
  let items := planItems desired observed
  { items
    divergences := planDivergences desired observed
    counters :=
      { proposed := items.length, executable := (items.filter (·.isExecutable)).length } }

end

variable {desired : ValidatedDelivery} {status : TargetStatus}

/-- A withdrawn record excludes every target that is not excluded, unless a pin protects it. -/
theorem exclude_mem_planItems_iff :
    WorkItem.exclude ∈ planItems desired (some status) ↔
      desired.withdrawn = true ∧ status ≠ .excluded ∧ desired.pinned ≠ some true := by
  unfold planItems
  by_cases hwithdrawn : desired.withdrawn = true
  · by_cases hpinned : desired.pinned = some true
    · cases status <;> simp [hwithdrawn, hpinned]
    · cases status <;> simp [hwithdrawn, hpinned]
  · cases status <;> simp [hwithdrawn]
    -- an active record: only the `ready` branch proposes runner work
    split_ifs <;> simp

/-- An active record reactivates an excluded target. -/
theorem reactivate_mem_planItems_iff :
    WorkItem.reactivate ∈ planItems desired (some status) ↔
      desired.withdrawn = false ∧ status = .excluded := by
  unfold planItems
  by_cases hwithdrawn : desired.withdrawn = true
  · by_cases hpinned : desired.pinned = some true
    · cases status <;> simp [hwithdrawn, hpinned]
    · cases status <;> simp [hwithdrawn, hpinned]
  · cases status <;> simp [hwithdrawn]
    split_ifs <;> simp

end RatatoskrVault
