import RatatoskrVault.Verification.Partition

/-! Whether a schedule pass meets the snapshots without evidence first. -/
namespace RatatoskrVault

open Lib

variable {now : ℕ} {policy : VerificationPolicy} {candidates : List ScheduleCandidate}
  {a b : ScheduleCandidate} {plan : SchedulePlan}

/-- The snapshot has been verified and it has been drilled. -/
def ScheduleCandidate.Evidenced (candidate : ScheduleCandidate) : Prop :=
  candidate.lastVerifiedAt.isSome = true ∧ candidate.lastDrilledAt.isSome = true

instance : DecidablePred ScheduleCandidate.Evidenced := fun candidate => by
  unfold ScheduleCandidate.Evidenced
  infer_instance

/-- A candidate without evidence comes before every candidate with both kinds, and of those the one
whose older success is older comes first. -/
structure AbsentFirst (now : ℕ) (policy : VerificationPolicy)
    (candidates : List ScheduleCandidate) : Prop where
  absent : ∀ a ∈ dueCandidates now policy candidates, ∀ b ∈ dueCandidates now policy candidates,
    ¬a.Evidenced → b.Evidenced → [a, b].Sublist (dueCandidates now policy candidates)
  older : ∀ a ∈ dueCandidates now policy candidates, ∀ b ∈ dueCandidates now policy candidates,
    ∀ verified drilled verified' drilled', a.lastVerifiedAt = some verified →
      a.lastDrilledAt = some drilled → b.lastVerifiedAt = some verified' →
        b.lastDrilledAt = some drilled' → min verified drilled < min verified' drilled' →
          [a, b].Sublist (dueCandidates now policy candidates)
  deferred : ∀ plan, planDueSnapshots now policy candidates = some plan →
    ∀ a ∈ candidates, a.lastDrilledAt = none → (a.snapshotId, .capacity) ∈ plan.deferred →
      ∀ b ∈ candidates, b.Evidenced → b.snapshotId ∉ plan.selected

/-- The one success the first candidate has, or zero, is older than the older success of the second;
or it is as old, and the first has the smaller id. -/
def Outdates (a b : ScheduleCandidate) : Prop :=
  ∃ verified drilled, b.lastVerifiedAt = some verified ∧ b.lastDrilledAt = some drilled ∧
    ((a.lastVerifiedAt.or a.lastDrilledAt).getD 0 < min verified drilled ∨
      (a.lastVerifiedAt.or a.lastDrilledAt).getD 0 = min verified drilled ∧
        a.snapshotId < b.snapshotId)

theorem oldestSuccess_of_both {verified drilled : ℕ} (hverified : a.lastVerifiedAt = some verified)
    (hdrilled : a.lastDrilledAt = some drilled) : a.oldestSuccess = min verified drilled := by
  unfold ScheduleCandidate.oldestSuccess
  rw [hverified, hdrilled]

theorem oldestSuccess_of_absent (h : ¬a.Evidenced) :
    a.oldestSuccess = (a.lastVerifiedAt.or a.lastDrilledAt).getD 0 := by
  unfold ScheduleCandidate.Evidenced at h
  unfold ScheduleCandidate.oldestSuccess
  cases hverified : a.lastVerifiedAt with
  | none => cases a.lastDrilledAt <;> rfl
  | some verified =>
    cases hdrilled : a.lastDrilledAt with
    | none => rfl
    | some drilled => exact absurd ⟨by simp [hverified], by simp [hdrilled]⟩ h

theorem turn_lt_iff : a.turn < b.turn ↔ a.oldestSuccess < b.oldestSuccess ∨
    a.oldestSuccess = b.oldestSuccess ∧ a.snapshotId < b.snapshotId := by
  unfold ScheduleCandidate.turn
  exact Prod.Lex.toLex_lt_toLex

theorem turn_lt_iff_outdates (ha : ¬a.Evidenced) (hb : b.Evidenced) :
    a.turn < b.turn ↔ Outdates a b := by
  obtain ⟨verified, hverified⟩ := Option.isSome_iff_exists.mp hb.1
  obtain ⟨drilled, hdrilled⟩ := Option.isSome_iff_exists.mp hb.2
  rw [turn_lt_iff, oldestSuccess_of_absent ha, oldestSuccess_of_both hverified hdrilled]
  unfold Outdates
  simp [hverified, hdrilled]

theorem pairwise_dueCandidates (hids : (candidates.map (·.snapshotId)).Nodup) :
    (dueCandidates now policy candidates).Pairwise fun a b => a.turn < b.turn := by
  rw [dueCandidates_eq_sortBy hids]
  exact pairwise_lt_sortBy ((nodup_turn hids).sublist (List.filter_sublist.map _))

/-- Once the selection is full, nothing that comes later is selected. -/
theorem not_selected_of_later (hpartitions : Partitions now policy candidates plan)
    (hsub : [a, b].Sublist (dueCandidates now policy candidates))
    (hfull : (a.snapshotId, .capacity) ∈ plan.deferred) :
    b.snapshotId ∉ plan.selected := by
  obtain ⟨start, rest, hdue, ha, hb⟩ := List.cons_sublist_iff.mp hsub
  obtain ⟨front, between, rfl⟩ := List.append_of_mem ha
  obtain ⟨between', back, rfl⟩ := List.append_of_mem (List.singleton_sublist.mp hb)
  have hfirst : dueCandidates now policy candidates =
      front ++ a :: (between ++ between' ++ b :: back) := by
    rw [hdue]
    simp
  have hsecond : dueCandidates now policy candidates =
      (front ++ a :: (between ++ between')) ++ b :: back := by
    rw [hdue]
    simp
  have hcapacity := (hpartitions.reasons _ _ _ hfirst).1.mp hfull
  have hlater : (b.snapshotId, .capacity) ∈ plan.deferred := by
    refine (hpartitions.reasons _ _ _ hsecond).1.mpr ?_
    rw [List.filter_append, List.length_append]
    omega
  exact hpartitions.disjoint _ hlater

theorem mem_due_of_deferred (hids : (candidates.map (·.snapshotId)).Nodup)
    (hpartitions : Partitions now policy candidates plan) (ha : a ∈ candidates)
    (h : a.snapshotId ∈ plan.selected ++ plan.deferred.map Prod.fst) :
    a ∈ dueCandidates now policy candidates := by
  have hid := hpartitions.covers.mem_iff.mp h
  obtain ⟨other, hother, hsame⟩ := List.mem_map.mp hid
  obtain rfl : other = a :=
    List.inj_on_of_nodup_map hids (List.mem_filter.mp hother).1 ha hsame
  exact mem_dueCandidates.mpr (List.mem_filter.mp hother)

/-- The pass meets what lacks evidence first exactly if every due candidate that lacks it outdates
every due candidate that has both kinds. -/
theorem absent_first_iff (now : ℕ) (policy : VerificationPolicy)
    (hbudget : policy.scratchByteBudget ≤ u64Max) (candidates : List ScheduleCandidate) (hids : (candidates.map (·.snapshotId)).Nodup) :
    AbsentFirst now policy candidates ↔ ∀ a ∈ candidates, ∀ b ∈ candidates,
      a.isDue now policy = true → b.isDue now policy = true → ¬a.Evidenced → b.Evidenced →
        Outdates a b := by
  have hpairwise : (dueCandidates now policy candidates).Pairwise fun a b => a.turn < b.turn :=
    pairwise_dueCandidates hids
  constructor
  · intro h a ha b hb hdue hdue' habsent hboth
    have hmem := mem_dueCandidates.mpr ⟨ha, hdue⟩
    have hmem' := mem_dueCandidates.mpr ⟨hb, hdue'⟩
    have hsub := h.absent a hmem b hmem' habsent hboth
    exact (turn_lt_iff_outdates habsent hboth).mp ((pair_sublist_iff hpairwise hmem hmem').mp hsub)
  · intro h
    have habsent : ∀ a ∈ dueCandidates now policy candidates,
        ∀ b ∈ dueCandidates now policy candidates, ¬a.Evidenced → b.Evidenced →
          [a, b].Sublist (dueCandidates now policy candidates) := by
      intro a hmem b hmem' habsent hboth
      obtain ⟨ha, hdue⟩ := mem_dueCandidates.mp hmem
      obtain ⟨hb, hdue'⟩ := mem_dueCandidates.mp hmem'
      refine (pair_sublist_iff hpairwise hmem hmem').mpr ?_
      exact (turn_lt_iff_outdates habsent hboth).mpr (h a ha b hb hdue hdue' habsent hboth)
    refine ⟨habsent, ?_, ?_⟩
    · intro a ha b hb verified drilled verified' drilled' hverified hdrilled hverified' hdrilled' hlt
      refine (pair_sublist_iff hpairwise ha hb).mpr (turn_lt_iff.mpr (.inl ?_))
      rw [oldestSuccess_of_both hverified hdrilled, oldestSuccess_of_both hverified' hdrilled']
      exact hlt
    · intro plan hplan a ha hundrilled hfull b hb hboth hselected
      have hpolicy : policy.validate = true := by
        by_contra hinvalid
        simp [planDueSnapshots, hinvalid] at hplan
      have hpartitions : Partitions now policy candidates plan := by
        rw [planDueSnapshots_eq hpolicy hbudget] at hplan
        rw [← Option.some.inj hplan]
        exact partitions_ofGreedy hids
      have hdue := mem_due_of_deferred hids hpartitions ha
        (List.mem_append_right _ (List.mem_map_of_mem hfull))
      have hdue' := mem_due_of_deferred hids hpartitions hb (List.mem_append_left _ hselected)
      have hlacks : ¬a.Evidenced := by
        intro hevidenced
        have hdrilled := hevidenced.2
        simp [hundrilled] at hdrilled
      exact not_selected_of_later hpartitions (habsent a hdue b hdue' hlacks hboth) hfull hselected

namespace Sample

def untouched : ScheduleCandidate :=
  { snapshotId := 2
    bundleSizeBytes := 10
    lastVerifiedAt := none
    lastDrilledAt := none }

end Sample

theorem absent_first_iff_untouched :
    AbsentFirst 5000 Sample.verificationPolicy [Sample.evidenced, Sample.untouched] := by
  refine (absent_first_iff 5000 Sample.verificationPolicy (by decide) _ (by decide)).mpr ?_
  intro a ha b hb _ _ habsent hboth
  have hfirst : a = Sample.untouched := by
    rcases List.mem_pair.mp ha with rfl | rfl
    · exact absurd (by decide) habsent
    · rfl
  have hsecond : b = Sample.evidenced := by
    rcases List.mem_pair.mp hb with rfl | rfl
    · rfl
    · exact absurd hboth (by decide)
  rw [hfirst, hsecond]
  exact ⟨100, 50, rfl, rfl, .inl (by decide)⟩

/-- A snapshot that was verified later than the other was drilled waits behind it, though it has
never been drilled itself. -/
theorem verified_but_never_drilled_waits :
    ¬AbsentFirst 5000 Sample.verificationPolicy [Sample.evidenced, Sample.neverDrilled] := by
  intro h
  have hplan : planDueSnapshots 5000 Sample.verificationPolicy
      [Sample.evidenced, Sample.neverDrilled] =
        some { selected := [1], drillSelected := [1], deferred := [(2, .capacity)] } := by
    rw [planDueSnapshots_eq (by decide) (by decide), dueCandidates_eq_sortBy (by decide)]
    decide
  have hnot := h.deferred _ hplan Sample.neverDrilled (by decide) rfl (by decide)
    Sample.evidenced (by decide) (by decide)
  exact hnot (by decide)

end RatatoskrVault
