import RatatoskrVault.Lib.Greedy
import RatatoskrVault.Lib.Sorting
import RatatoskrVault.Verification.Schedule

/-! What a schedule pass admits: a bounded part of what is due, and a reason for each of the
rest. -/
namespace RatatoskrVault

open Lib

variable {now : ℕ} {policy : VerificationPolicy} {candidates candidates' : List ScheduleCandidate}
  {candidate : ScheduleCandidate} {plan : SchedulePlan}

/-- The capacity of a pass. -/
def VerificationPolicy.capacity (policy : VerificationPolicy) : ℕ :=
  min policy.sampleSize policy.maxConcurrent

def VerificationPolicy.caps (policy : VerificationPolicy) : Caps :=
  { items := policy.capacity, bytes := policy.scratchByteBudget }

/-- The key of the schedule. -/
def ScheduleCandidate.turn (candidate : ScheduleCandidate) : ℕ ×ₗ Uuid :=
  toLex (candidate.oldestSuccess, candidate.snapshotId)

/-- The due candidates in the order the loop meets them. -/
def dueCandidates (now : ℕ) (policy : VerificationPolicy) (candidates : List ScheduleCandidate) :
    List ScheduleCandidate :=
  (candidates.filter fun candidate => candidate.isDue now policy).mergeSort fun x y =>
    decide (x.turn ≤ y.turn)

/-- The plan is a bounded partition of what is due. -/
structure Partitions (now : ℕ) (policy : VerificationPolicy) (candidates : List ScheduleCandidate)
    (plan : SchedulePlan) : Prop where
  disjoint : ∀ deferred ∈ plan.deferred, deferred.1 ∉ plan.selected
  covers : (plan.selected ++ plan.deferred.map Prod.fst).Perm
    ((candidates.filter (·.isDue now policy)).map (·.snapshotId))
  capacity : plan.selected.length ≤ policy.capacity
  scratch : ((candidates.filter (·.snapshotId ∈ plan.selected)).map (·.bundleSizeBytes)).sum
    ≤ policy.scratchByteBudget
  drills : plan.drillSelected = plan.selected.filter fun snapshotId =>
    candidates.any fun candidate =>
      candidate.snapshotId == snapshotId && candidate.drillIsDue now policy
  /-- `front` is what the pass has met before the candidate. -/
  reasons : ∀ front candidate back, dueCandidates now policy candidates = front ++ candidate :: back →
    let taken := front.filter (·.snapshotId ∈ plan.selected)
    ((candidate.snapshotId, .capacity) ∈ plan.deferred ↔ policy.capacity ≤ taken.length) ∧
      ((candidate.snapshotId, .scratchBudget) ∈ plan.deferred ↔
        taken.length < policy.capacity ∧
          policy.scratchByteBudget < (taken.map (·.bundleSizeBytes)).sum + candidate.bundleSizeBytes)

section Loop

def DeferralReason.ofLimit : Limit → DeferralReason
  | .items => .capacity
  | .bytes => .scratchBudget

theorem DeferralReason.ofLimit_injective : DeferralReason.ofLimit.Injective := by
  intro a b h
  cases a <;> cases b <;> trivial

abbrev VerificationPolicy.refuses (policy : VerificationPolicy) :
    List ScheduleCandidate → ScheduleCandidate → Option Limit :=
  policy.caps.refuses (·.bundleSizeBytes)

/-- The plan after a greedy pass. -/
def SchedulePlan.ofGreedy (now : ℕ) (policy : VerificationPolicy)
    (out : List ScheduleCandidate × List (ScheduleCandidate × Limit)) : SchedulePlan :=
  { selected := out.1.map (·.snapshotId)
    drillSelected := (out.1.filter (·.drillIsDue now policy)).map (·.snapshotId)
    deferred := out.2.map fun left => (left.1.snapshotId, .ofLimit left.2) }

/-- The loop goes on from a greedy pass over what it has met as the greedy pass does. -/
theorem admitDue_ofGreedy (hbudget : policy.scratchByteBudget ≤ u64Max)
    (front rest : List ScheduleCandidate) :
    admitDue now policy rest
        (((greedy policy.refuses front).1.map (·.bundleSizeBytes)).sum)
        (.ofGreedy now policy (greedy policy.refuses front)) =
      .ofGreedy now policy (greedy policy.refuses (front ++ rest)) := by
  induction rest generalizing front with
  | nil => rw [List.append_nil, admitDue]
  | cons candidate rest ih =>
    have hnext := ih (front ++ [candidate])
    rw [List.append_assoc, List.singleton_append] at hnext
    have hselected : (SchedulePlan.ofGreedy now policy (greedy policy.refuses front)).selected.length =
        (greedy policy.refuses front).1.length := List.length_map ..
    unfold admitDue
    simp only [hselected]
    by_cases hfull :
        min policy.sampleSize policy.maxConcurrent ≤ (greedy policy.refuses front).1.length
    · have hrule : policy.refuses (greedy policy.refuses front).1 candidate = some .items :=
        (Caps.refuses_eq_items _ _).mpr hfull
      rw [greedy_concat_of_left hrule] at hnext
      rw [if_pos hfull, ← hnext]
      simp [SchedulePlan.ofGreedy, DeferralReason.ofLimit]
    · rw [if_neg hfull]
      by_cases hfits : ((greedy policy.refuses front).1.map (·.bundleSizeBytes)).sum +
          candidate.bundleSizeBytes ≤ policy.scratchByteBudget
      · have hrule : policy.refuses (greedy policy.refuses front).1 candidate = none :=
          (Caps.refuses_eq_none _ _).mpr ⟨Nat.not_le.mp hfull, hfits⟩
        rw [greedy_concat_of_taken hrule] at hnext
        rw [if_neg (by omega), ← hnext]
        cases hdrill : candidate.drillIsDue now policy <;> simp [SchedulePlan.ofGreedy, hdrill]
      · have hrule : policy.refuses (greedy policy.refuses front).1 candidate = some .bytes :=
          (Caps.refuses_eq_bytes _ _).mpr ⟨Nat.not_le.mp hfull, Nat.not_le.mp hfits⟩
        rw [greedy_concat_of_left hrule] at hnext
        rw [if_pos (by omega), ← hnext]
        simp [SchedulePlan.ofGreedy, DeferralReason.ofLimit]

end Loop

section Plan

theorem perm_dueCandidates :
    (dueCandidates now policy candidates).Perm (candidates.filter (·.isDue now policy)) :=
  List.mergeSort_perm _ _

theorem mem_dueCandidates :
    candidate ∈ dueCandidates now policy candidates ↔
      candidate ∈ candidates ∧ candidate.isDue now policy = true :=
  perm_dueCandidates.mem_iff.trans List.mem_filter

theorem nodup_turn (hids : (candidates.map (·.snapshotId)).Nodup) :
    (candidates.map ScheduleCandidate.turn).Nodup := by
  refine List.Nodup.of_map (fun turn : ℕ ×ₗ Uuid => (ofLex turn).2) ?_
  rw [List.map_map]
  exact hids

theorem nodup_dueCandidates (hids : (candidates.map (·.snapshotId)).Nodup) :
    ((dueCandidates now policy candidates).map (·.snapshotId)).Nodup :=
  (perm_dueCandidates.map _).nodup_iff.mpr (hids.sublist (List.filter_sublist.map _))

theorem isKey_turn (hids : (candidates.map (·.snapshotId)).Nodup) :
    IsKey ScheduleCandidate.turn (candidates.filter (·.isDue now policy)) :=
  List.inj_on_of_nodup_map ((nodup_turn hids).sublist (List.filter_sublist.map _))

theorem dueCandidates_eq_sortBy (hids : (candidates.map (·.snapshotId)).Nodup) :
    dueCandidates now policy candidates =
      sortBy ScheduleCandidate.turn (candidates.filter (·.isDue now policy)) :=
  mergeSort_eq_sortBy (isKey_turn hids)

theorem dueCandidates_of_perm (hids : (candidates.map (·.snapshotId)).Nodup)
    (h : candidates.Perm candidates') :
    dueCandidates now policy candidates = dueCandidates now policy candidates' := by
  have hids' : (candidates'.map (·.snapshotId)).Nodup := (h.map _).nodup_iff.mp hids
  rw [dueCandidates_eq_sortBy hids, dueCandidates_eq_sortBy hids']
  exact sortBy_eq_of_perm (isKey_turn hids) (h.filter _)

theorem planDueSnapshots_eq (hpolicy : policy.validate = true)
    (hbudget : policy.scratchByteBudget ≤ u64Max) :
    planDueSnapshots now policy candidates = some (.ofGreedy now policy
      (greedy policy.refuses (dueCandidates now policy candidates))) := by
  have hloop := @admitDue_ofGreedy now policy hbudget [] (dueCandidates now policy candidates)
  unfold planDueSnapshots
  rw [if_pos hpolicy]
  exact congrArg some hloop

/-- Ids stand for their candidates. -/
theorem mem_of_snapshotId (hids : (candidates.map (·.snapshotId)).Nodup)
    {part : List ScheduleCandidate} (hpart : ∀ a ∈ part, a ∈ candidates)
    (hcandidate : candidate ∈ candidates) :
    candidate.snapshotId ∈ part.map (·.snapshotId) ↔ candidate ∈ part := by
  constructor
  · intro h
    obtain ⟨other, hother, hid⟩ := List.mem_map.mp h
    have hsame : other = candidate :=
      List.inj_on_of_nodup_map hids (hpart other hother) hcandidate hid
    rwa [← hsame]
  · exact fun h => List.mem_map_of_mem h

/-- A greedy pass over what is due partitions it. -/
theorem partitions_ofGreedy (hids : (candidates.map (·.snapshotId)).Nodup) :
    Partitions now policy candidates (.ofGreedy now policy
      (greedy policy.refuses (dueCandidates now policy candidates))) := by
  have hdue : ((dueCandidates now policy candidates).map (·.snapshotId)).Nodup :=
    nodup_dueCandidates hids
  have hperm : ((greedy policy.refuses (dueCandidates now policy candidates)).1 ++
      (greedy policy.refuses (dueCandidates now policy candidates)).2.map Prod.fst).Perm
        (dueCandidates now policy candidates) := perm_greedy
  obtain ⟨hlength, hsum⟩ := policy.caps.within (fun a : ScheduleCandidate => a.bundleSizeBytes)
    (dueCandidates now policy candidates)
  have hmem : ∀ a ∈ (greedy policy.refuses (dueCandidates now policy candidates)).1,
      a ∈ candidates := fun a ha => (mem_dueCandidates.mp (sublist_taken.subset ha)).1
  have hleft : ∀ left ∈ (greedy policy.refuses (dueCandidates now policy candidates)).2,
      left.1 ∈ candidates := fun left hleft =>
    (mem_dueCandidates.mp (sublist_left.subset (List.mem_map_of_mem hleft))).1
  have hnodup : ((greedy policy.refuses (dueCandidates now policy candidates)).1.map
      (·.snapshotId)).Nodup := hdue.sublist (sublist_taken.map _)
  have hreasons : ∀ front candidate back,
      dueCandidates now policy candidates = front ++ candidate :: back → ∀ limit,
        (candidate, limit) ∈ (greedy policy.refuses (dueCandidates now policy candidates)).2 ↔
          policy.refuses (front.filter (· ∈
            (greedy policy.refuses (dueCandidates now policy candidates)).1)) candidate =
              some limit := by
    intro front candidate back hsplit limit
    rw [hsplit] at hdue ⊢
    exact mem_left_iff hdue.of_map
  generalize greedy policy.refuses (dueCandidates now policy candidates) = out at *
  obtain ⟨taken, left⟩ := out
  have htaken {a : ScheduleCandidate} (ha : a ∈ candidates) :
      a.snapshotId ∈ taken.map (·.snapshotId) ↔ a ∈ taken := mem_of_snapshotId hids hmem ha
  constructor
  case disjoint =>
    intro deferred hdeferred hselected
    obtain ⟨item, hitem, rfl⟩ := List.mem_map.mp hdeferred
    have hids' : (taken ++ left.map Prod.fst).map (·.snapshotId) |>.Nodup :=
      (hperm.map _).nodup_iff.mpr hdue
    have htwice : item.1 ∈ taken := (htaken (hleft item hitem)).mp hselected
    exact (List.nodup_append'.mp hids'.of_map).2.2 htwice (List.mem_map_of_mem hitem)
  case covers =>
    have hids' := (hperm.trans perm_dueCandidates).map (·.snapshotId)
    rw [List.map_append, List.map_map] at hids'
    show (taken.map _ ++ (left.map _).map _).Perm _
    rw [List.map_map]
    exact hids'
  case capacity =>
    show (taken.map _).length ≤ _
    rw [List.length_map]
    exact hlength
  case scratch =>
    have hsame : (candidates.filter (·.snapshotId ∈ taken.map (·.snapshotId))).Perm taken := by
      refine (List.perm_ext_iff_of_nodup (hids.of_map.filter _) hnodup.of_map).mpr fun a => ?_
      rw [List.mem_filter, decide_eq_true_eq]
      constructor
      · rintro ⟨ha, hid⟩
        exact (htaken ha).mp hid
      · intro ha
        exact ⟨hmem a ha, List.mem_map_of_mem ha⟩
    have hsizes := (hsame.map (·.bundleSizeBytes)).sum_eq
    exact hsizes.trans_le hsum
  case drills =>
    show (taken.filter _).map _ = (taken.map _).filter _
    rw [List.filter_map]
    refine congrArg _ (List.filter_congr fun a ha => ?_)
    rw [Function.comp_apply, Bool.eq_iff_iff, List.any_eq_true]
    constructor
    · intro hdrill
      exact ⟨a, hmem a ha, by simp [hdrill]⟩
    · rintro ⟨other, hother, hdrill⟩
      rw [Bool.and_eq_true, beq_iff_eq] at hdrill
      obtain rfl : other = a := List.inj_on_of_nodup_map hids hother (hmem a ha) hdrill.1
      exact hdrill.2
  case reasons =>
    intro front candidate back hsplit taken'
    have hmet : ∀ a ∈ front ++ candidate :: back, a ∈ candidates := by
      intro a ha
      rw [← hsplit] at ha
      exact (mem_dueCandidates.mp ha).1
    have hin : candidate ∈ candidates := hmet candidate (by simp)
    have hfront : taken' = front.filter (· ∈ taken) := by
      refine List.filter_congr fun a ha => ?_
      have ha' : a ∈ candidates := hmet a (by simp [ha])
      exact decide_eq_decide.mpr (htaken ha')
    have hdeferred : ∀ limit : Limit,
        (candidate.snapshotId, DeferralReason.ofLimit limit) ∈
          (SchedulePlan.ofGreedy now policy (taken, left)).deferred ↔
        policy.refuses taken' candidate = some limit := by
      intro limit
      rw [hfront, ← hreasons front candidate back hsplit limit]
      constructor
      · intro hmem
        obtain ⟨⟨other, limit'⟩, hother, hsame⟩ := List.mem_map.mp hmem
        obtain ⟨hid, hreason'⟩ := Prod.mk.inj hsame
        have hreason : limit' = limit := DeferralReason.ofLimit_injective hreason'
        obtain rfl : other = candidate := List.inj_on_of_nodup_map hids (hleft _ hother) hin hid
        rwa [← hreason]
      · intro hmem
        exact List.mem_map.mpr ⟨_, hmem, rfl⟩
    constructor
    · exact (hdeferred .items).trans (Caps.refuses_eq_items _ _)
    · exact (hdeferred .bytes).trans (Caps.refuses_eq_bytes _ _)

/-- Every pass of a valid policy partitions what is due, within its capacity and its scratch
budget, and does not depend on the order of the candidates. -/
theorem plan_due_snapshots_partitions (now : ℕ) (policy : VerificationPolicy)
    (hpolicy : policy.validate = true) (hbudget : policy.scratchByteBudget ≤ u64Max)
    (candidates : List ScheduleCandidate) (hids : (candidates.map (·.snapshotId)).Nodup) :
    ∃ plan, planDueSnapshots now policy candidates = some plan ∧
      Partitions now policy candidates plan ∧
      ∀ candidates', candidates.Perm candidates' →
        planDueSnapshots now policy candidates' = some plan := by
  refine ⟨_, planDueSnapshots_eq hpolicy hbudget, partitions_ofGreedy hids, fun candidates' h => ?_⟩
  rw [planDueSnapshots_eq hpolicy hbudget, dueCandidates_of_perm hids h]

end Plan

namespace Sample

def verificationPolicy : VerificationPolicy :=
  { verificationFrequencySeconds := 60
    drillFrequencySeconds := 3600
    sampleSize := 1
    scratchByteBudget := 100
    maxConcurrent := 2
    perDrillTimeoutSeconds := 30 }

def evidenced : ScheduleCandidate :=
  { snapshotId := 1
    bundleSizeBytes := 10
    lastVerifiedAt := some 100
    lastDrilledAt := some 50 }

def neverDrilled : ScheduleCandidate :=
  { snapshotId := 2
    bundleSizeBytes := 10
    lastVerifiedAt := some 80
    lastDrilledAt := none }

end Sample

theorem plan_due_snapshots_partitions_two :
    ∃ plan, planDueSnapshots 5000 Sample.verificationPolicy
        [Sample.evidenced, Sample.neverDrilled] = some plan ∧
      Partitions 5000 Sample.verificationPolicy [Sample.evidenced, Sample.neverDrilled] plan := by
  obtain ⟨plan, hplan, hpartitions, -⟩ := plan_due_snapshots_partitions 5000
    Sample.verificationPolicy (by decide) (by decide) [Sample.evidenced, Sample.neverDrilled]
    (by decide)
  exact ⟨plan, hplan, hpartitions⟩

end RatatoskrVault
