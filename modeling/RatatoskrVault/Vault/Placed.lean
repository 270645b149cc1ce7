import RatatoskrVault.Retention.Exclusion
import RatatoskrVault.Vault.Checked

/-! Which targets have a published mirror: none that is to be cloned, every one that is ready, and
a mirror is only removed under a plan of a target in deletion. -/
namespace RatatoskrVault

open Lib Retention.Exclusion

/-- What the targets, mirrors, snapshots and plans say of the mirrors that are published. -/
structure Placed (settings : MirrorLifecycleSettings) (db : Db) (storage : MirrorStorage)
    (fresh : ℕ) : Prop where
  targetIds : ∀ row ∈ db.targets, row.targetId < fresh
  targetKeys : IsKey (·.targetId) db.targets
  published : ∀ t, storage.mirrors (mirrorRelativePath settings t) = true → t < fresh
  requested : ∀ row ∈ db.targets, row.status = .requested →
    storage.mirrors (mirrorRelativePath settings row.targetId) = false
  held : ∀ row ∈ db.targets, row.status = .ready ∨ row.status = .healthy →
    storage.mirrors (mirrorRelativePath settings row.targetId) = true
  mirrorIds : ∀ mirror ∈ db.mirrors, mirror.mirrorId < fresh
  mirrorKeys : IsKey (·.mirrorId) db.mirrors
  places : ∀ mirror ∈ db.mirrors,
    mirror.storagePath = mirrorRelativePath settings mirror.targetId
  snapshotIds : ∀ snapshot ∈ db.snapshots, snapshot.snapshotId < fresh
  snapshotKeys : IsKey (·.snapshotId) db.snapshots
  sources : ∀ snapshot ∈ db.snapshots, ∃ mirror ∈ db.mirrors,
    mirror.mirrorId = snapshot.mirrorId ∧ mirror.targetId = snapshot.targetId
  planIds : ∀ plan ∈ db.plans, plan.planId < fresh
  planKeys : IsKey (·.planId) db.plans
  planTargets : ∀ plan ∈ db.plans, plan.targetId < fresh
  planSnapshots : ∀ plan ∈ db.plans, ∃ snapshot ∈ db.snapshots,
    snapshot.snapshotId = plan.snapshotId ∧ snapshot.targetId = plan.targetId
  started : ∀ plan ∈ db.plans, plan.tombstoneId.isSome = true → plan.status.hasStarted = true →
    InDeletion db plan.targetId

/-- Writes that name no mirror, start no plan and move no target. -/
def Write.movesNothing : Write → Bool
  | .insertTarget _ => false
  | .setTargetStatus _ _ _ => false
  | .insertMirror _ => false
  | .insertSnapshot _ => false
  | .insertPlan _ => false
  | .setPlanStatus _ fromStatus toStatus => fromStatus.hasStarted || !toStatus.hasStarted
  | _ => true

namespace Placed

variable {settings : MirrorLifecycleSettings} {db : Db} {storage : MirrorStorage} {fresh : ℕ}

theorem succ (h : Placed settings db storage fresh) : Placed settings db storage (fresh + 1) :=
  { h with
    targetIds := fun row hrow => Nat.lt_succ_of_lt (h.targetIds row hrow)
    published := fun t ht => Nat.lt_succ_of_lt (h.published t ht)
    mirrorIds := fun mirror hmem => Nat.lt_succ_of_lt (h.mirrorIds mirror hmem)
    snapshotIds := fun snapshot hmem => Nat.lt_succ_of_lt (h.snapshotIds snapshot hmem)
    planIds := fun plan hmem => Nat.lt_succ_of_lt (h.planIds plan hmem)
    planTargets := fun plan hmem => Nat.lt_succ_of_lt (h.planTargets plan hmem) }

/-- A plan that has started keeps its target in deletion, whatever it moves to. -/
theorem setPlanStatus (h : Placed settings db storage fresh) {planId : Uuid}
    {fromStatus toStatus : PlanStatus}
    (hstart : fromStatus.hasStarted = false → toStatus.hasStarted = true →
      ∀ plan ∈ db.plans, plan.planId = planId → plan.tombstoneId.isSome = true →
        InDeletion db plan.targetId) :
    Placed settings (db.apply (.setPlanStatus planId fromStatus toStatus)) storage fresh :=
  { h with
    planIds := forall_updateWhere h.planIds fun _ _ hplan _ => hplan
    planKeys := h.planKeys.updateWhere fun _ => rfl
    planTargets := forall_updateWhere h.planTargets fun _ _ hplan _ => hplan
    planSnapshots := forall_updateWhere h.planSnapshots fun _ _ hplan _ => hplan
    started := by
      refine forall_updateWhere h.started fun plan hmem hplan hsel htombstone hto => ?_
      simp only [Bool.and_eq_true, beq_iff_eq] at hsel
      cases hfrom : fromStatus.hasStarted with
      | false => exact hstart hfrom hto plan hmem hsel.1 htombstone
      | true => exact hplan htombstone (hsel.2.symm ▸ hfrom) }

theorem quiet {writes : List Write} (h : Placed settings db storage fresh)
    (hquiet : ∀ w ∈ writes, w.movesNothing = true) :
    Placed settings (writes.foldl Db.apply db) storage fresh := by
  refine foldl_invariant (I := fun d => Placed settings d storage fresh) (fun d w hw hd => ?_) h
  have hmoves := hquiet w hw
  cases w with
  | insertTarget row => cases hmoves
  | setTargetStatus targetId fromStatus toStatus => cases hmoves
  | insertMirror row => cases hmoves
  | insertSnapshot row => cases hmoves
  | insertPlan row => cases hmoves
  | setPlanStatus planId fromStatus toStatus =>
    refine hd.setPlanStatus fun hfrom hto => ?_
    simp [Write.movesNothing, hfrom, hto] at hmoves
  | setMirror targetId status fsckResult =>
    exact
      { hd with
        mirrorIds := forall_updateWhere hd.mirrorIds fun _ _ hmirror _ => hmirror
        mirrorKeys := hd.mirrorKeys.updateWhere fun _ => rfl
        places := forall_updateWhere hd.places fun _ _ hmirror _ => hmirror
        sources := fun snapshot hmem => by
          obtain ⟨mirror, hmirror, hid, htarget⟩ := hd.sources snapshot hmem
          refine ⟨_, mem_updateWhere_of_mem hmirror, ?_⟩
          split_ifs
          · exact ⟨hid, htarget⟩
          · exact ⟨hid, htarget⟩ }
  | setSnapshotDeleted snapshotId =>
    exact
      { hd with
        snapshotIds := forall_updateWhere hd.snapshotIds fun _ _ hsnapshot _ => hsnapshot
        snapshotKeys := hd.snapshotKeys.updateWhere fun _ => rfl
        sources := forall_updateWhere hd.sources fun _ _ hsnapshot _ => hsnapshot
        planSnapshots := fun plan hmem => by
          obtain ⟨snapshot, hsnapshot, hid, htarget⟩ := hd.planSnapshots plan hmem
          refine ⟨_, mem_updateWhere_of_mem hsnapshot, ?_⟩
          split_ifs
          · exact ⟨hid, htarget⟩
          · exact ⟨hid, htarget⟩ }
  | _ => exact { hd with }

/-- A new target has nothing published. -/
theorem insertTarget (h : Placed settings db storage fresh) {row : Target}
    (hid : row.targetId = fresh) (hstatus : row.status = .requested) :
    Placed settings (db.apply (.insertTarget row)) storage (fresh + 1) :=
  { h.succ with
    targetIds := List.forall_mem_append.mpr
      ⟨h.succ.targetIds, List.forall_mem_singleton.mpr (hid ▸ Nat.lt_succ_self _)⟩
    targetKeys := h.targetKeys.append_singleton fun a ha hkey =>
      (h.targetIds a ha).ne (hkey.trans hid)
    requested := by
      refine List.forall_mem_append.mpr ⟨h.requested, List.forall_mem_singleton.mpr fun _ => ?_⟩
      by_contra hpublished
      exact (h.published row.targetId (by simpa using hpublished)).ne hid
    held := by
      refine List.forall_mem_append.mpr ⟨h.held, List.forall_mem_singleton.mpr fun hheld => ?_⟩
      simp [hstatus] at hheld
    started := fun plan hmem htombstone hstarted => by
      refine List.forall_mem_append.mpr ⟨h.started plan hmem htombstone hstarted,
        List.forall_mem_singleton.mpr fun hsame => ?_⟩
      exact absurd (hsame.symm.trans hid) (h.planTargets plan hmem).ne }

/-- A target only goes back to be cloned when nothing is published, and is only ready when
something is. -/
theorem setTargetStatus (h : Placed settings db storage fresh) {targetId : Uuid}
    {fromStatus toStatus : TargetStatus}
    (hmove : fromStatus = toStatus ∨ Transition.isLegal fromStatus toStatus = true)
    (hrequested : toStatus = .requested →
      storage.mirrors (mirrorRelativePath settings targetId) = false)
    (hheld : toStatus = .ready ∨ toStatus = .healthy →
      storage.mirrors (mirrorRelativePath settings targetId) = true) :
    Placed settings (db.apply (.setTargetStatus targetId fromStatus toStatus)) storage fresh := by
  have hdeletion : ∀ t, InDeletion db t →
      InDeletion (db.apply (.setTargetStatus targetId fromStatus toStatus)) t := by
    intro t ht
    show InDeletion (db.applyAll [.setTargetStatus targetId fromStatus toStatus]) t
    refine ht.applyAll (by simp) fun id f t hw => ?_
    cases List.mem_singleton.mp hw
    exact hmove
  exact
    { h with
      targetIds := forall_updateWhere h.targetIds fun _ _ hrow _ => hrow
      targetKeys := h.targetKeys.updateWhere fun _ => rfl
      requested := by
        refine forall_updateWhere h.requested fun row _ _ hsel hstatus => ?_
        simp only [Bool.and_eq_true, beq_iff_eq] at hsel
        exact hsel.1.symm ▸ hrequested hstatus
      held := by
        refine forall_updateWhere h.held fun row _ _ hsel hstatus => ?_
        simp only [Bool.and_eq_true, beq_iff_eq] at hsel
        exact hsel.1.symm ▸ hheld hstatus
      started := fun plan hmem htombstone hstarted =>
        hdeletion _ (h.started plan hmem htombstone hstarted) }

theorem insertMirror (h : Placed settings db storage fresh) {row : Mirror}
    (hid : row.mirrorId = fresh)
    (hplace : row.storagePath = mirrorRelativePath settings row.targetId) :
    Placed settings (db.apply (.insertMirror row)) storage (fresh + 1) :=
  { h.succ with
    mirrorIds := List.forall_mem_append.mpr
      ⟨h.succ.mirrorIds, List.forall_mem_singleton.mpr (hid ▸ Nat.lt_succ_self _)⟩
    mirrorKeys := h.mirrorKeys.append_singleton fun a ha hkey =>
      (h.mirrorIds a ha).ne (hkey.trans hid)
    places := List.forall_mem_append.mpr ⟨h.places, List.forall_mem_singleton.mpr hplace⟩
    sources := fun snapshot hmem => by
      obtain ⟨mirror, hmirror, hsource⟩ := h.sources snapshot hmem
      exact ⟨mirror, List.mem_append_left _ hmirror, hsource⟩ }

theorem insertSnapshot (h : Placed settings db storage fresh) {row : Snapshot}
    (hid : row.snapshotId = fresh)
    (hsource : ∃ mirror ∈ db.mirrors,
      mirror.mirrorId = row.mirrorId ∧ mirror.targetId = row.targetId) :
    Placed settings (db.apply (.insertSnapshot row)) storage (fresh + 1) :=
  { h.succ with
    snapshotIds := List.forall_mem_append.mpr
      ⟨h.succ.snapshotIds, List.forall_mem_singleton.mpr (hid ▸ Nat.lt_succ_self _)⟩
    snapshotKeys := h.snapshotKeys.append_singleton fun a ha hkey =>
      (h.snapshotIds a ha).ne (hkey.trans hid)
    sources := List.forall_mem_append.mpr ⟨h.sources, List.forall_mem_singleton.mpr hsource⟩
    planSnapshots := fun plan hmem => by
      obtain ⟨snapshot, hsnapshot, hplan⟩ := h.planSnapshots plan hmem
      exact ⟨snapshot, List.mem_append_left _ hsnapshot, hplan⟩ }

theorem insertPlan (h : Placed settings db storage fresh) {row : DeletionPlan}
    (hid : row.planId = fresh) (hstatus : row.status = .planned)
    (htarget : (db.target? row.targetId).isSome = true)
    (hsnapshot : ∃ snapshot ∈ db.snapshots,
      snapshot.snapshotId = row.snapshotId ∧ snapshot.targetId = row.targetId) :
    Placed settings (db.apply (.insertPlan row)) storage (fresh + 1) := by
  have hlt : row.targetId < fresh := by
    obtain ⟨target, hfind⟩ := Option.isSome_iff_exists.mp htarget
    have hkey : target.targetId = row.targetId := by simpa using List.find?_some hfind
    exact hkey ▸ h.targetIds target (List.mem_of_find?_eq_some hfind)
  exact
    { h.succ with
      planIds := List.forall_mem_append.mpr
        ⟨h.succ.planIds, List.forall_mem_singleton.mpr (hid ▸ Nat.lt_succ_self _)⟩
      planKeys := h.planKeys.append_singleton fun a ha hkey =>
        (h.planIds a ha).ne (hkey.trans hid)
      planTargets := List.forall_mem_append.mpr
        ⟨h.succ.planTargets, List.forall_mem_singleton.mpr (Nat.lt_succ_of_lt hlt)⟩
      planSnapshots := List.forall_mem_append.mpr
        ⟨h.planSnapshots, List.forall_mem_singleton.mpr hsnapshot⟩
      started := by
        refine List.forall_mem_append.mpr ⟨h.started, List.forall_mem_singleton.mpr ?_⟩
        intro _ hstarted
        rw [hstatus] at hstarted
        cases hstarted }

/-- Changes of the storage that publish and remove no mirror. -/
theorem same (h : Placed settings db storage fresh) {storage' : MirrorStorage}
    (hmirrors : storage'.mirrors = storage.mirrors) : Placed settings db storage' fresh :=
  { h with
    published := hmirrors ▸ h.published
    requested := hmirrors ▸ h.requested
    held := hmirrors ▸ h.held }

/-- A mirror is published for a target that is not waiting to be cloned. -/
theorem publish (h : Placed settings db storage fresh) {targetId : Uuid} (hid : targetId < fresh)
    (hstatus : ∀ row ∈ db.targets, row.targetId = targetId → row.status ≠ .requested) :
    Placed settings db (storage.published (mirrorRelativePath settings targetId)) fresh := by
  have hother : ∀ t, t ≠ targetId →
      (storage.published (mirrorRelativePath settings targetId)).mirrors
        (mirrorRelativePath settings t) = storage.mirrors (mirrorRelativePath settings t) :=
    fun t ht => Function.update_of_ne (fun hpath =>
      ht (mirrorRelativePath_injective settings hpath)) ..
  exact
    { h with
      published := fun t ht => by
        by_cases hsame : t = targetId
        · rw [hsame]
          exact hid
        · rw [hother t hsame] at ht
          exact h.published t ht
      requested := fun row hrow hrequested => by
        have hne : row.targetId ≠ targetId := fun hsame => hstatus row hrow hsame hrequested
        rw [hother _ hne]
        exact h.requested row hrow hrequested
      held := fun row hrow hheld => by
        by_cases hsame : row.targetId = targetId
        · rw [hsame]
          exact Function.update_self ..
        · rw [hother _ hsame]
          exact h.held row hrow hheld }

/-- A mirror is removed under a plan of a target in deletion. -/
theorem remove (h : Placed settings db storage fresh) {targetId : Uuid} {storage' : MirrorStorage}
    (hdeletion : InDeletion db targetId)
    (hmirrors : storage'.mirrors
      = Function.update storage.mirrors (mirrorRelativePath settings targetId) false) :
    Placed settings db storage' fresh := by
  have hother : ∀ t, t ≠ targetId →
      storage'.mirrors (mirrorRelativePath settings t)
        = storage.mirrors (mirrorRelativePath settings t) := by
    intro t ht
    rw [hmirrors]
    exact Function.update_of_ne (fun hpath =>
      ht (mirrorRelativePath_injective settings hpath)) ..
  have hself : storage'.mirrors (mirrorRelativePath settings targetId) = false := by
    rw [hmirrors]
    exact Function.update_self ..
  exact
    { h with
      published := fun t ht => by
        by_cases hsame : t = targetId
        · rw [hsame, hself] at ht
          cases ht
        · rw [hother t hsame] at ht
          exact h.published t ht
      requested := fun row hrow hrequested => by
        by_cases hsame : row.targetId = targetId
        · rw [hsame]
          exact hself
        · rw [hother _ hsame]
          exact h.requested row hrow hrequested
      held := fun row hrow hheld => by
        have hne : row.targetId ≠ targetId := by
          intro hsame
          rcases hdeletion row hrow hsame with hstatus | hstatus
          · simp [hstatus] at hheld
          · simp [hstatus] at hheld
        rw [hother _ hne]
        exact h.held row hrow hheld }

end Placed

end RatatoskrVault
