import RatatoskrVault.Lib.Tags
import RatatoskrVault.Replication.Deletion

/-! Placement rows: an artifact has at most one at a target, which keeps its identity when the unit
is recorded again, and no other row ever has that identity. -/
namespace RatatoskrVault

open Lib

/-- What a placement is of. -/
def ReplicaPlacement.place (p : ReplicaPlacement) : Uuid × Uuid := (p.artifactId, p.replicaTargetId)

namespace Replication

section Replay

variable {c : Catalog} {row p p' : ReplicaPlacement} {attemptId : Uuid} {at_ : Time}
  {log : List Write}

theorem isKey_placeReplica (h : IsKey ReplicaPlacement.place c.vault.placements) :
    IsKey ReplicaPlacement.place (c.placeReplica row attemptId at_).vault.placements := by
  unfold Catalog.placeReplica
  split
  · rename_i hnone
    refine h.append_singleton fun p hp hplace => ?_
    have hne := List.find?_eq_none.mp hnone p hp
    have hpair := Prod.mk.inj hplace
    simp [hpair.1, hpair.2] at hne
  · exact h.updateWhere fun _ => rfl

/-- Only the record of a unit changes placements. -/
theorem placements_apply {w : Write} (h : ∀ row attemptId at_, w ≠ .placeReplica row attemptId at_) :
    (c.apply w).vault.placements = c.vault.placements := by
  cases w with
  | placeReplica row attemptId at_ => exact absurd rfl (h row attemptId at_)
  | vault w => exact @Db.applyAll_placements c.vault [w]
  | observeTarget row =>
    change (c.observeTarget row).vault.placements = _
    unfold Catalog.observeTarget
    split_ifs <;> rfl
  | _ => rfl

theorem placements_applyAll (h : ∀ row attemptId at_, .placeReplica row attemptId at_ ∉ log) :
    (c.applyAll log).vault.placements = c.vault.placements := by
  refine foldl_invariant (I := fun d : Catalog => d.vault.placements = c.vault.placements)
    (fun d w hw hd => ?_) rfl
  rw [placements_apply fun row attemptId at_ heq => h row attemptId at_ (heq ▸ hw)]
  exact hd

theorem isKey_applyAll (h : IsKey ReplicaPlacement.place c.vault.placements) :
    IsKey ReplicaPlacement.place (c.applyAll log).vault.placements := by
  refine foldl_invariant (I := fun d : Catalog => IsKey ReplicaPlacement.place d.vault.placements)
    (fun d w hw hd => ?_) h
  by_cases hplace : ∃ row attemptId at_, w = .placeReplica row attemptId at_
  · obtain ⟨row, attemptId, at_, rfl⟩ := hplace
    exact isKey_placeReplica hd
  · push Not at hplace
    rw [placements_apply hplace]
    exact hd

end Replay

/-- A placement id stands for its artifact and target. -/
def placementTags : Tags Catalog Write (Uuid × Uuid) where
  tagged c n t := ∃ p ∈ c.vault.placements, p.placementId = n ∧ p.place = t
  gives w n t := ∃ row attemptId at_, w = .placeReplica row attemptId at_ ∧
    row.placementId = n ∧ row.place = t

section Tagging

variable {settings : Settings} {m : Moment} {c : Catalog} {loc next : Loc} {locks : List Lock}
  {writes : List Write}

theorem no_record_map {writes : List RatatoskrVault.Write} (row : ReplicaPlacement)
    (attemptId : Uuid) (at_ : Time) :
    .placeReplica row attemptId at_ ∉ writes.map Write.vault := by
  intro h
  obtain ⟨w, -, hw⟩ := List.mem_map.mp h
  cases hw

end Tagging

end Replication

end RatatoskrVault
