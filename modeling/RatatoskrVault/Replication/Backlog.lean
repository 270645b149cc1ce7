import Mathlib.Algebra.Order.Ring.WithTop
import Mathlib.Data.Nat.Cast.Order.Basic
import Mathlib.Data.Nat.Cast.WithTop
import RatatoskrVault.Core.Delivery
import RatatoskrVault.Core.Snapshot
import RatatoskrVault.Lib.Greedy
import RatatoskrVault.Lib.Sorting

/-! The window of replication work one scheduler pass admits, and what it leaves for later. -/
namespace RatatoskrVault.Replication

open Lib

structure ReplicationCandidate where
  snapshotId : Uuid
  artifactId : Uuid
  replicaTargetId : Uuid
  sizeBytes : ℕ
  lastVerifiedAt : Option ℕ
  deriving DecidableEq

/-- The byte ceiling is a `u64`. -/
structure ReplicationBacklogLimits where
  maxItems : ℕ
  maxBytes : ℕ
  maxConcurrent : ℕ
  maxBytes_le : maxBytes ≤ u64Max := by decide
  deriving DecidableEq

structure ReplicationPlan where
  admitted : List ReplicationCandidate
  deferred : List ReplicationCandidate
  maxConcurrent : ℕ
  deriving DecidableEq

namespace ReplicationCandidate

/-- The key of the backlog. -/
def position (candidate : ReplicationCandidate) : Bool ×ₗ ℕ ×ₗ Uuid ×ₗ Uuid ×ₗ Uuid :=
  toLex (candidate.lastVerifiedAt.isSome, toLex (candidate.lastVerifiedAt.getD 0,
    toLex (candidate.snapshotId, toLex (candidate.artifactId, candidate.replicaTargetId))))

/-- What is replicated, and where to. -/
def identity (candidate : ReplicationCandidate) : Uuid × Uuid × Uuid :=
  (candidate.snapshotId, candidate.artifactId, candidate.replicaTargetId)

end ReplicationCandidate

/-- The loop's variables. -/
structure BacklogPass where
  admitted : List ReplicationCandidate
  deferred : List ReplicationCandidate
  admittedBytes : ℕ
  deriving DecidableEq

section

variable (candidates : List ReplicationCandidate) (limits : ReplicationBacklogLimits)

/-- One round of the loop. -/
def admitCandidate (pass : BacklogPass) (candidate : ReplicationCandidate) : BacklogPass :=
  let nextBytes := checkedAdd pass.admittedBytes candidate.sizeBytes
  let fits := decide (pass.admitted.length < limits.maxItems) &&
    nextBytes.any fun bytes => decide (bytes ≤ limits.maxBytes)
  if fits then
    { pass with
      admitted := pass.admitted ++ [candidate]
      admittedBytes := nextBytes.getD pass.admittedBytes }
  else { pass with deferred := pass.deferred ++ [candidate] }

/-- The candidates in the order the loop meets them. -/
def backlog : List ReplicationCandidate := sortBy ReplicationCandidate.position candidates

def planReplicationBacklog : ReplicationPlan :=
  let pass := (backlog candidates).foldl (admitCandidate limits)
    { admitted := [], deferred := [], admittedBytes := 0 }
  { admitted := pass.admitted, deferred := pass.deferred, maxConcurrent := limits.maxConcurrent }

end

section

variable {candidates candidates' : List ReplicationCandidate} {limits : ReplicationBacklogLimits}
  {candidate a b : ReplicationCandidate}

/-- Below every time when there is none. -/
def asBot (time : Option ℕ) : WithBot ℕ := time.elim ⊥ fun seconds => (seconds : WithBot ℕ)

/-- Never verified first, then the oldest verification, then the ids. -/
def ReplicationCandidate.urgency (candidate : ReplicationCandidate) :
    WithBot ℕ ×ₗ Uuid ×ₗ Uuid ×ₗ Uuid :=
  toLex (asBot candidate.lastVerifiedAt, toLex (candidate.snapshotId,
    toLex (candidate.artifactId, candidate.replicaTargetId)))

/-- The plan is a bounded partition of the backlog. -/
structure Partitions (candidates : List ReplicationCandidate) (limits : ReplicationBacklogLimits)
    (plan : ReplicationPlan) : Prop where
  perm : (plan.admitted ++ plan.deferred).Perm candidates
  admittedOrder : plan.admitted.Pairwise fun a b => a.urgency < b.urgency
  deferredOrder : plan.deferred.Pairwise fun a b => a.urgency < b.urgency
  items : plan.admitted.length ≤ limits.maxItems
  bytes : (plan.admitted.map (·.sizeBytes)).sum ≤ limits.maxBytes
  /-- `front` is what the pass has met before the candidate. -/
  reasons : ∃ order : List ReplicationCandidate, order.Perm candidates ∧
    order.Pairwise (fun a b => a.urgency < b.urgency) ∧
    ∀ front candidate back, order = front ++ candidate :: back → candidate ∈ plan.deferred →
      let taken := front.filter (· ∈ plan.admitted)
      limits.maxItems ≤ taken.length ∨
        limits.maxBytes < (taken.map (·.sizeBytes)).sum + candidate.sizeBytes
  concurrent : plan.maxConcurrent = limits.maxConcurrent

section Order

/-- An optional time ordered below every time is its presence and then the time. -/
theorem absent_first_lex {β : Type} [LinearOrder β] (v w : Option ℕ) (r s : β) :
    toLex (asBot v, r) < toLex (asBot w, s) ↔
      toLex (v.isSome, toLex (v.getD 0, r)) < toLex (w.isSome, toLex (w.getD 0, s)) := by
  rw [Prod.Lex.toLex_lt_toLex, Prod.Lex.toLex_lt_toLex, Prod.Lex.toLex_lt_toLex]
  unfold asBot
  cases v with
  | none => cases w <;> simp
  | some m => cases w <;> simp

theorem urgency_lt_iff : a.urgency < b.urgency ↔ a.position < b.position :=
  absent_first_lex a.lastVerifiedAt b.lastVerifiedAt _ _

theorem nodup_position (hids : (candidates.map ReplicationCandidate.identity).Nodup) :
    (candidates.map ReplicationCandidate.position).Nodup := by
  refine List.Nodup.of_map (fun position : Bool ×ₗ ℕ ×ₗ Uuid ×ₗ Uuid ×ₗ Uuid =>
    let ids := ofLex (ofLex (ofLex position).2).2
    (ids.1, (ofLex ids.2).1, (ofLex ids.2).2)) ?_
  rw [List.map_map]
  exact hids

end Order

section Loop

abbrev ReplicationBacklogLimits.refuses (limits : ReplicationBacklogLimits) :
    List ReplicationCandidate → ReplicationCandidate → Option Limit :=
  Caps.refuses { items := limits.maxItems, bytes := limits.maxBytes } (·.sizeBytes)

/-- The loop's variables after a greedy pass. -/
def BacklogPass.ofGreedy (out : List ReplicationCandidate × List (ReplicationCandidate × Limit)) :
    BacklogPass :=
  { admitted := out.1
    deferred := out.2.map Prod.fst
    admittedBytes := (out.1.map (·.sizeBytes)).sum }

/-- One round takes or defers the candidate as the caps ask. -/
theorem admitCandidate_ofGreedy
    {out : List ReplicationCandidate × List (ReplicationCandidate × Limit)} :
    admitCandidate limits (.ofGreedy out) candidate =
      .ofGreedy (match limits.refuses out.1 candidate with
        | none => (out.1 ++ [candidate], out.2)
        | some reason => (out.1, out.2 ++ [(candidate, reason)])) := by
  have hbudget := limits.maxBytes_le
  by_cases hfits : out.1.length < limits.maxItems ∧
      (out.1.map (·.sizeBytes)).sum + candidate.sizeBytes ≤ limits.maxBytes
  · have hrule : limits.refuses out.1 candidate = none := (Caps.refuses_eq_none _ _).mpr hfits
    have hsum : checkedAdd (BacklogPass.ofGreedy out).admittedBytes candidate.sizeBytes =
        some ((out.1.map (·.sizeBytes)).sum + candidate.sizeBytes) :=
      checkedAdd_eq_some.mpr ⟨hfits.2.trans hbudget, rfl⟩
    have hlength : (BacklogPass.ofGreedy out).admitted.length < limits.maxItems := hfits.1
    unfold admitCandidate
    rw [hrule, hsum]
    simp only [hlength, hfits.2, decide_true, Option.any_some, Bool.and_self, if_true,
      Option.getD_some]
    simp [BacklogPass.ofGreedy]
  · obtain ⟨reason, hrule⟩ := Option.ne_none_iff_exists'.mp
      (mt (Caps.refuses_eq_none _ _).mp hfits : limits.refuses out.1 candidate ≠ none)
    have hrefused : ¬(decide ((BacklogPass.ofGreedy out).admitted.length < limits.maxItems) &&
        (checkedAdd (BacklogPass.ofGreedy out).admittedBytes candidate.sizeBytes).any fun bytes =>
          decide (bytes ≤ limits.maxBytes)) = true := by
      rw [Bool.and_eq_true, decide_eq_true_eq, Option.any_eq_true]
      rintro ⟨hlength, bytes, hsum, hbytes⟩
      obtain ⟨-, rfl⟩ := checkedAdd_eq_some.mp hsum
      exact hfits ⟨hlength, of_decide_eq_true hbytes⟩
    unfold admitCandidate
    rw [hrule, if_neg hrefused]
    simp [BacklogPass.ofGreedy]

theorem foldl_admitCandidate (order : List ReplicationCandidate) :
    order.foldl (admitCandidate limits) (.ofGreedy ([], [])) =
      .ofGreedy (greedy limits.refuses order) := by
  induction order using List.reverseRecOn with
  | nil => rfl
  | append_singleton order candidate ih =>
    rw [List.foldl_append, List.foldl_cons, List.foldl_nil, ih, admitCandidate_ofGreedy]
    cases hrule : limits.refuses (greedy limits.refuses order).1 candidate with
    | none => rw [greedy_concat_of_taken hrule]
    | some reason => rw [greedy_concat_of_left hrule]

end Loop

section Plan

theorem planReplicationBacklog_eq : planReplicationBacklog candidates limits =
    { admitted := (greedy limits.refuses (backlog candidates)).1
      deferred := (greedy limits.refuses (backlog candidates)).2.map Prod.fst
      maxConcurrent := limits.maxConcurrent } := by
  unfold planReplicationBacklog
  have hpass : (backlog candidates).foldl (admitCandidate limits) _ = _ :=
    foldl_admitCandidate (backlog candidates)
  unfold BacklogPass.ofGreedy at hpass
  simp only [List.map_nil, List.sum_nil] at hpass
  rw [hpass]

theorem pairwise_backlog (hids : (candidates.map ReplicationCandidate.identity).Nodup) :
    (backlog candidates).Pairwise fun a b => a.urgency < b.urgency :=
  (pairwise_lt_sortBy (nodup_position hids)).imp urgency_lt_iff.mpr

theorem backlog_of_perm (hids : (candidates.map ReplicationCandidate.identity).Nodup)
    (h : candidates.Perm candidates') : backlog candidates = backlog candidates' := by
  have hkey : IsKey ReplicationCandidate.position candidates :=
    List.inj_on_of_nodup_map (nodup_position hids)
  exact sortBy_eq_of_perm hkey h

/-- Each pass partitions its backlog within both ceilings, most urgent first, whatever the order of
its input. -/
theorem plan_replication_backlog_partitions (candidates : List ReplicationCandidate)
    (limits : ReplicationBacklogLimits)
    (hids : (candidates.map ReplicationCandidate.identity).Nodup) :
    Partitions candidates limits (planReplicationBacklog candidates limits) ∧
      ∀ candidates', candidates.Perm candidates' →
        planReplicationBacklog candidates' limits = planReplicationBacklog candidates limits := by
  have hpairwise := pairwise_backlog hids
  have hnodup : (backlog candidates).Nodup := perm_sortBy.nodup_iff.mpr hids.of_map
  obtain ⟨hitems, hbytes⟩ :=
    Caps.within { items := limits.maxItems, bytes := limits.maxBytes }
      (fun a : ReplicationCandidate => a.sizeBytes) (backlog candidates)
  constructor
  · rw [planReplicationBacklog_eq]
    constructor
    case perm => exact perm_greedy.trans perm_sortBy
    case admittedOrder => exact hpairwise.sublist sublist_taken
    case deferredOrder => exact hpairwise.sublist sublist_left
    case items => exact hitems
    case bytes => exact hbytes
    case reasons =>
      refine ⟨backlog candidates, perm_sortBy, hpairwise, ?_⟩
      intro front candidate back hsplit hdeferred
      obtain ⟨⟨_, limit⟩, hleft, rfl⟩ := List.mem_map.mp hdeferred
      rw [hsplit] at hleft hnodup ⊢
      have hrule := (mem_left_iff hnodup).mp hleft
      cases limit with
      | items => exact .inl ((Caps.refuses_eq_items _ _).mp hrule)
      | bytes => exact .inr ((Caps.refuses_eq_bytes _ _).mp hrule).2
    case concurrent => rfl
  · intro candidates' h
    rw [planReplicationBacklog_eq, planReplicationBacklog_eq, backlog_of_perm hids h]

end Plan

end

namespace Sample

/-- A unit that was never verified, and one that was. -/
def queued : List ReplicationCandidate :=
  [{ snapshotId := 1, artifactId := 10, replicaTargetId := 7, sizeBytes := u64Max
     lastVerifiedAt := some 40 },
   { snapshotId := 2, artifactId := 20, replicaTargetId := 7, sizeBytes := 5
     lastVerifiedAt := none }]

def limits : ReplicationBacklogLimits :=
  { maxItems := 2, maxBytes := u64Max, maxConcurrent := 1 }

end Sample

theorem plan_replication_backlog_partitions_two :
    Partitions Sample.queued Sample.limits (planReplicationBacklog Sample.queued Sample.limits) :=
  (plan_replication_backlog_partitions Sample.queued Sample.limits (by decide)).1

end RatatoskrVault.Replication
