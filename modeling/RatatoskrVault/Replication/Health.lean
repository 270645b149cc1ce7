import RatatoskrVault.Replication.Queues
import RatatoskrVault.Replication.Truthful

/-! The off-host part of a snapshot's health: what a complete one says of the objects at the targets,
and what a degraded one says of the queue. -/
namespace RatatoskrVault

open Lib

/-- How a configured target takes part in the health of a snapshot. -/
structure ReplicaRequirement where
  replicaTargetId : Uuid
  required : Bool
  enabled : Bool
  deriving DecidableEq

structure VerifiedPlacement where
  artifactId : Uuid
  replicaTargetId : Uuid
  deriving DecidableEq

inductive ReplicaHealth
  | complete | degraded | noRequiredTarget
  deriving DecidableEq

structure SnapshotHealth where
  localVerified : Bool
  replicaHealth : ReplicaHealth
  overallHealthy : Bool
  deriving DecidableEq

def projectSnapshotHealth (localVerified : Bool) (artifactIds : List Uuid)
    (targets : List ReplicaRequirement) (placements : List VerifiedPlacement) : SnapshotHealth :=
  let required := targets.filter fun target => target.enabled && target.required
  let hasRequired := !required.isEmpty
  let allComplete := required.all fun target =>
    artifactIds.all fun artifactId =>
      placements.any fun placement =>
        placement.artifactId == artifactId && placement.replicaTargetId == target.replicaTargetId
  let replicaHealth :=
    if !hasRequired then ReplicaHealth.noRequiredTarget
    else if allComplete then .complete
    else .degraded
  { localVerified
    replicaHealth
    overallHealthy := localVerified && replicaHealth == .complete }

/-- The configuration of a target that counts. -/
def ReplicaTarget.requirement (target : ReplicaTarget) : ReplicaRequirement :=
  { replicaTargetId := target.replicaTargetId, required := target.required,
    enabled := target.enabled }

namespace Replication

/-- The arguments of the projection, read from the rows of a snapshot in any order. -/
structure DrawnFrom (c : Catalog) (snapshotId : Uuid) (artifactIds : List Uuid)
    (targets : List ReplicaRequirement) (placements : List VerifiedPlacement) : Prop where
  artifacts : ∀ artifactId, artifactId ∈ artifactIds ↔
    ∃ a ∈ c.vault.artifacts, a.snapshotId = snapshotId ∧ a.artifactId = artifactId
  targets : ∀ target, target ∈ targets ↔ ∃ row ∈ c.replicaTargets, row.requirement = target
  placements : ∀ placement, placement ∈ placements ↔ ∃ row ∈ c.vault.placements,
    row.artifactId = placement.artifactId ∧ row.replicaTargetId = placement.replicaTargetId

/-- Targets every artifact has to be at. -/
def Required (c : Catalog) (target : ReplicaTarget) : Prop :=
  target ∈ c.replicaTargets ∧ target.enabled = true ∧ target.required = true

section

variable {c : Catalog} {snapshotId : Uuid} {artifactIds : List Uuid} {localVerified : Bool}
  {targets : List ReplicaRequirement} {placements : List VerifiedPlacement}

theorem mem_required (h : DrawnFrom c snapshotId artifactIds targets placements)
    {requirement : ReplicaRequirement} :
    requirement ∈ targets.filter (fun target => target.enabled && target.required) ↔
      ∃ target, Required c target ∧ target.requirement = requirement := by
  rw [List.mem_filter, h.targets, Bool.and_eq_true]
  constructor
  · rintro ⟨⟨row, hrow, rfl⟩, henabled, hrequired⟩
    exact ⟨row, ⟨hrow, henabled, hrequired⟩, rfl⟩
  · rintro ⟨row, ⟨hrow, henabled, hrequired⟩, rfl⟩
    exact ⟨⟨row, hrow, rfl⟩, henabled, hrequired⟩

/-- An artifact and a target that no placement joins. -/
def Missing (c : Catalog) (snapshotId : Uuid) (target : ReplicaTarget) (a : SnapshotArtifact) : Prop :=
  Required c target ∧ a ∈ c.vault.artifacts ∧ a.snapshotId = snapshotId ∧
    ∀ p ∈ c.vault.placements, p.artifactId = a.artifactId →
      p.replicaTargetId ≠ target.replicaTargetId

/-- The three values, by what the rows hold. -/
theorem projected_iff (h : DrawnFrom c snapshotId artifactIds targets placements) :
    ((projectSnapshotHealth localVerified artifactIds targets placements).replicaHealth =
        .noRequiredTarget ↔ ¬ ∃ target, Required c target) ∧
      ((projectSnapshotHealth localVerified artifactIds targets placements).replicaHealth =
        .degraded ↔ ∃ target a, Missing c snapshotId target a) := by
  have hempty : (targets.filter fun target => target.enabled && target.required).isEmpty = true ↔
      ¬ ∃ target, Required c target := by
    rw [List.isEmpty_iff, List.eq_nil_iff_forall_not_mem, not_exists]
    constructor
    · exact fun hnone target htarget => hnone _ ((mem_required h).mpr ⟨target, htarget, rfl⟩)
    · intro hnone requirement hmem
      obtain ⟨target, htarget, -⟩ := (mem_required h).mp hmem
      exact hnone target htarget
  have hall : ((targets.filter fun target => target.enabled && target.required).all fun target =>
      artifactIds.all fun artifactId => placements.any fun placement =>
        placement.artifactId == artifactId &&
          placement.replicaTargetId == target.replicaTargetId) = false ↔
        ∃ target a, Missing c snapshotId target a := by
    rw [List.all_eq_false]
    constructor
    · rintro ⟨requirement, hmem, hnot⟩
      obtain ⟨target, htarget, rfl⟩ := (mem_required h).mp hmem
      rw [Bool.not_eq_true, List.all_eq_false] at hnot
      obtain ⟨artifactId, hartifact, hnone⟩ := hnot
      obtain ⟨a, ha, hid, rfl⟩ := (h.artifacts _).mp hartifact
      refine ⟨target, a, htarget, ha, hid, fun p hp hsame hsame' => hnone ?_⟩
      refine List.any_eq_true.mpr ⟨{ artifactId := a.artifactId
                                     replicaTargetId := target.replicaTargetId },
        (h.placements _).mpr ⟨p, hp, hsame, hsame'⟩, ?_⟩
      rw [Bool.and_eq_true]
      exact ⟨beq_self_eq_true _, beq_self_eq_true _⟩
    · rintro ⟨target, a, htarget, ha, hid, hnone⟩
      refine ⟨target.requirement, (mem_required h).mpr ⟨target, htarget, rfl⟩, ?_⟩
      rw [Bool.not_eq_true, List.all_eq_false]
      refine ⟨a.artifactId, (h.artifacts _).mpr ⟨a, ha, hid, rfl⟩, fun hany => ?_⟩
      obtain ⟨placement, hmem, hsame⟩ := List.any_eq_true.mp hany
      rw [Bool.and_eq_true, beq_iff_eq, beq_iff_eq] at hsame
      obtain ⟨p, hp, hartifact, htarget'⟩ := (h.placements _).mp hmem
      exact hnone p hp (hartifact.trans hsame.1) (htarget'.trans hsame.2)
  have hrequired : (∃ target a, Missing c snapshotId target a) → ∃ target, Required c target := by
    rintro ⟨target, a, htarget, -⟩
    exact ⟨target, htarget⟩
  rw [← hall]
  rw [← hall] at hrequired
  unfold projectSnapshotHealth
  simp only [Bool.not_not]
  split_ifs with hnone hcomplete
  · refine ⟨by simpa using hempty.mp hnone, ?_⟩
    constructor
    · exact fun heq => nomatch heq
    · exact fun hfalse => absurd (hrequired hfalse) (hempty.mp hnone)
  · rw [hcomplete]
    refine ⟨?_, by simp⟩
    constructor
    · exact fun heq => nomatch heq
    · exact fun hfalse => absurd (hempty.mpr hfalse) hnone
  · refine ⟨?_, by simpa using hcomplete⟩
    constructor
    · exact fun heq => nomatch heq
    · exact fun hfalse => absurd (hempty.mpr hfalse) hnone

/-- What an unlimited window of the queue holds, before it is put in order. -/
theorem mem_due {replicaTargetId : Uuid} {verifiedBefore : Time} {unit : DueReplicationUnit} :
    (∃ limit units, c.dueReplicationUnits replicaTargetId verifiedBefore limit = some units ∧
        unit ∈ units) ↔
      verifiedBefore ≤ i64Max ∧ (c.replicaTarget? replicaTargetId).any (·.enabled) = true ∧
        ∃ a ∈ c.vault.artifacts, ∃ t ∈ c.vault.snapshots, t.snapshotId = a.snapshotId ∧
          c.isStale verifiedBefore (c.placement? a.artifactId replicaTargetId) = true ∧
          c.isDeleting a.snapshotId = false ∧ (c.replicationUnit replicaTargetId t a).2 = unit := by
  constructor
  · rintro ⟨limit, units, hunits, hmem⟩
    unfold Catalog.dueReplicationUnits at hunits
    split_ifs at hunits with hrefused
    obtain rfl := Option.some.inj hunits
    obtain ⟨entry, hentry, rfl⟩ := List.mem_map.mp hmem
    have hdue := List.mem_mergeSort.mp (List.mem_of_mem_take hentry)
    simp only [List.mem_flatMap, List.mem_map, List.mem_filter, Bool.and_eq_true,
      Bool.not_eq_true', beq_iff_eq] at hdue
    obtain ⟨a, ha, t, ⟨⟨ht, hid⟩, ⟨henabled, hstale⟩, hdeleting⟩, rfl⟩ := hdue
    exact ⟨not_lt.mp (not_or.mp hrefused).2, henabled, a, ha, t, ht, hid, hstale, hdeleting, rfl⟩
  · rintro ⟨hcutoff, henabled, a, ha, t, ht, hid, hstale, hdeleting, rfl⟩
    let due := c.vault.artifacts.flatMap fun a =>
      ((c.vault.snapshots.filter fun s => s.snapshotId == a.snapshotId).filter fun _ =>
        (c.replicaTarget? replicaTargetId).any (·.enabled) &&
          c.isStale verifiedBefore (c.placement? a.artifactId replicaTargetId) &&
            !c.isDeleting a.snapshotId).map fun s => c.replicationUnit replicaTargetId s a
    have hmem : c.replicationUnit replicaTargetId t a ∈ due := by
      simp only [due, List.mem_flatMap, List.mem_map, List.mem_filter, Bool.and_eq_true,
        Bool.not_eq_true', beq_iff_eq]
      exact ⟨a, ha, t, ⟨⟨ht, hid⟩, ⟨henabled, hstale⟩, hdeleting⟩, rfl⟩
    refine ⟨due.length + 1, ((due.mergeSort Catalog.dueBefore).take (due.length + 1)).map (·.2), ?_, ?_⟩
    · unfold Catalog.dueReplicationUnits
      rw [if_neg (not_or.mpr ⟨Nat.succ_ne_zero _, not_lt.mpr hcutoff⟩)]
    · rw [List.take_of_length_le (by rw [List.length_mergeSort]; omega)]
      exact List.mem_map_of_mem (List.mem_mergeSort.mpr hmem)

/-- A snapshot that no plan is deleting is degraded exactly if an artifact of it waits in the queue
of a required target for its first transfer. -/
theorem degraded_iff_due (c : Catalog) (htargets : IsKey (·.replicaTargetId) c.replicaTargets)
    (hsnapshots : ∀ a ∈ c.vault.artifacts, ∃ t ∈ c.vault.snapshots, t.snapshotId = a.snapshotId)
    (snapshotId : Uuid) (hopen : c.isDeleting snapshotId = false) (verifiedBefore : Time)
    (hcutoff : verifiedBefore ≤ i64Max) (localVerified : Bool) (artifactIds : List Uuid)
    (targets : List ReplicaRequirement) (placements : List VerifiedPlacement)
    (hdrawn : DrawnFrom c snapshotId artifactIds targets placements) :
    (projectSnapshotHealth localVerified artifactIds targets placements).replicaHealth = .degraded ↔
      ∃ target, Required c target ∧ ∃ limit units,
        c.dueReplicationUnits target.replicaTargetId verifiedBefore limit = some units ∧
          ∃ unit ∈ units, unit.snapshotId = snapshotId ∧ unit.objectKey = none := by
  have hplaced : ∀ (target : ReplicaTarget) (a : SnapshotArtifact),
      c.placement? a.artifactId target.replicaTargetId = none ↔
        ∀ p ∈ c.vault.placements, p.artifactId = a.artifactId →
          p.replicaTargetId ≠ target.replicaTargetId := by
    intro target a
    unfold Catalog.placement?
    simp only [List.find?_eq_none, Bool.and_eq_true, beq_iff_eq, not_and, ne_eq]
  rw [(projected_iff hdrawn).2]
  constructor
  · rintro ⟨target, a, htarget, ha, hid, hnone⟩
    refine ⟨target, htarget, ?_⟩
    have habsent := (hplaced target a).mpr hnone
    have henabled : (c.replicaTarget? target.replicaTargetId).any (·.enabled) = true := by
      have hfind : c.replicaTarget? target.replicaTargetId = some target :=
        find?_of_mem htarget.1 (beq_self_eq_true _) fun row hrow hsame =>
          htargets row hrow target htarget.1 (beq_iff_eq.mp hsame)
      rw [hfind]
      exact htarget.2.1
    obtain ⟨t, ht, hsnapshot⟩ := hsnapshots a ha
    obtain ⟨limit, units, hunits, hmem⟩ := mem_due.mpr
      ⟨hcutoff, henabled, a, ha, t, ht, hsnapshot, by rw [habsent]; rfl, hid ▸ hopen, rfl⟩
    refine ⟨limit, units, hunits, _, hmem, hsnapshot.trans hid, ?_⟩
    unfold Catalog.replicationUnit
    simp only [habsent]
    rfl
  · rintro ⟨target, htarget, limit, units, hunits, unit, hmem, hid, hkey⟩
    obtain ⟨-, -, a, ha, t, -, hsnapshot, -, -, rfl⟩ := mem_due.mp ⟨limit, units, hunits, hmem⟩
    refine ⟨target, a, htarget, ha, hsnapshot.symm.trans hid, (hplaced target a).mp ?_⟩
    unfold Catalog.replicationUnit at hkey
    simpa using hkey

end

namespace Sample

/-- The bundle of the first snapshot is placed at a required target, that of the second is not. -/
def required : Catalog :=
  { shared with replicaTargets := [{ target with required := true }] }

def requirement : ReplicaRequirement :=
  { replicaTargetId := 20, required := true, enabled := true }

def placement : VerifiedPlacement := { artifactId := 6, replicaTargetId := 20 }

theorem drawnFrom_required (snapshotId artifactId : Uuid)
    (h : ∀ id, id ∈ [artifactId] ↔ ∃ a ∈ required.vault.artifacts, a.snapshotId = snapshotId ∧
      a.artifactId = id) :
    DrawnFrom required snapshotId [artifactId] [requirement] [placement] := by
  refine ⟨h, fun requirement' => ?_, fun placement' => ?_⟩
  · simp [required, ReplicaTarget.requirement, requirement, target, eq_comm]
  · obtain ⟨artifactId', replicaTargetId'⟩ := placement'
    simp [required, shared, placement, eq_comm]

end Sample

theorem degraded_iff_due_second :
    ∃ limit units, Sample.required.dueReplicationUnits 20 0 limit = some units ∧
      ∃ unit ∈ units, unit.snapshotId = 5 ∧ unit.objectKey = none := by
  have hdrawn := Sample.drawnFrom_required 5 7 fun id => by
    simp [Sample.required, Sample.shared, Sample.bundle, eq_comm]
  obtain ⟨target, htarget, hdue⟩ := (degraded_iff_due Sample.required (by decide) (by decide) 5
    (by decide) 0 (by decide) true [7] [Sample.requirement] [Sample.placement] hdrawn).mp (by decide)
  obtain rfl := List.mem_singleton.mp htarget.1
  exact hdue

end Replication

end RatatoskrVault
