import RatatoskrVault.Lib.Rely
import RatatoskrVault.Replication.Steps
import RatatoskrVault.Retention.Started

/-! Deletions beside replication: whatever the sessions do, a deletion that has started is not taken
back, and a snapshot is marked deleted only after its plan has started. -/
namespace RatatoskrVault.Replication

open Lib

/-- The part of a place that the retention system knows. -/
def Loc.inner : Loc → Retention.Loc
  | .retention at_ => at_
  | .unit _ => .idle

/-- Snapshots marked deleted have been under deletion. -/
def MarkedAfterStart (db : Db) : Prop :=
  ∀ snapshotId, MarkedDeleted db snapshotId → DeletionStarted db snapshotId

/-- What a session does to plans and snapshots with its commit. -/
structure Deleting (db : Db) (σ : Session Write Loc) : Prop where
  moves : ∀ w ∈ vaultWrites σ.log, w.MovesPlans
  completing : Retention.Completing db (vaultWrites σ.log) σ.loc.inner
  unit : ∀ at_, σ.loc = .unit at_ → vaultWrites σ.log = []

/-- The order of every run between starting a plan and marking its snapshot. -/
abbrev Ordered (s : State) : Prop :=
  Machine.Beside (fun e => MarkedAfterStart e.db.vault) (fun e _ σ => Deleting e.db.vault σ) s

section

variable {settings : Settings} {m : Moment} {c c' : Catalog} {db db' : Db} {loc next : Loc}
  {locks : List Lock} {writes log : List Write} {σ : Session Write Loc} {world world' : World}
  {io : IoResult}

theorem Deleting.mono (h : Deleting db σ) (hgrown : db.Grown db') : Deleting db' σ where
  moves := h.moves
  completing := h.completing.mono hgrown.started hgrown.plan
  unit := h.unit

theorem grown_refl : db.Grown db :=
  ⟨fun _ h => h, fun _ h => h, fun _ p h => ⟨p, h, rfl⟩, fun _ _ h => h⟩

theorem Deleting.of_empty {began : Option ℕ} (h : Retention.Completing db [] loc.inner) :
    Deleting db ⟨loc, [], began⟩ :=
  ⟨fun _ hw => absurd hw List.not_mem_nil, h, fun _ _ => rfl⟩

theorem completing_idle : Retention.Completing db [] .idle := .at_rest (by simp) (by simp)

theorem plans_applyAll (log : List Write) (c : Catalog) :
    (c.applyAll log).vault.plans = (c.vault.applyAll (vaultWrites log)).plans := by
  rw [vault_applyAll]

theorem snapshots_applyAll (log : List Write) (c : Catalog) :
    (c.applyAll log).vault.snapshots = (c.vault.applyAll (vaultWrites log)).snapshots := by
  rw [vault_applyAll]

theorem grown_applyAll (hlog : ∀ w ∈ vaultWrites log, w.MovesPlans) :
    c.vault.Grown (c.applyAll log).vault := by
  have hgrown : c.vault.Grown (c.vault.applyAll (vaultWrites log)) := Db.grown_applyAll hlog
  rw [vault_applyAll]
  exact ⟨hgrown.started, hgrown.completed, hgrown.plan, hgrown.artifact⟩

theorem movesPlans_stmt (h : SessionStmt settings m c loc locks writes next) :
    ∀ w ∈ vaultWrites writes, w.MovesPlans := by
  cases h with
  | retention h =>
    rw [vaultWrites_map]
    exact Retention.movesPlans_stmt h
  | unit h =>
    cases h with
    | abandonExpired =>
      intro w hw
      obtain ⟨a, -, ha⟩ := List.mem_map.mp (mem_vaultWrites.mp hw)
      cases ha
    | _ => intro w hw; cases hw

theorem movesPlans_auto (h : SessionAuto m c loc locks writes next) :
    ∀ w ∈ vaultWrites writes, w.MovesPlans := by
  cases h with
  | retention h =>
    rw [vaultWrites_map]
    exact Retention.movesPlans_auto h
  | unit => intro w hw; cases hw

theorem movesPlans_operate {o : Op} (h : OpWrites m c o locks writes) :
    ∀ w ∈ vaultWrites writes, w.MovesPlans := by
  cases h with
  | retention h =>
    rw [vaultWrites_map]
    exact Retention.movesPlans_operate h
  | _ => intro w hw; cases hw

/-- A unit writes to no table of the retention system but placements. -/
theorem vaultWrites_unit {at_ n : UnitLoc}
    (h : UnitStmt settings.replication m c at_ locks writes n) : vaultWrites writes = [] := by
  cases h with
  | abandonExpired =>
    refine List.filterMap_eq_nil_iff.mpr fun w hw => ?_
    obtain ⟨a, -, rfl⟩ := List.mem_map.mp hw
    rfl
  | _ => rfl

theorem Deleting.stmt (h : Deleting c.vault σ)
    (hstmt : SessionStmt settings m (c.applyAll σ.log) σ.loc locks writes next) :
    Deleting c.vault ⟨next, σ.log ++ writes, some m.now⟩ := by
  have hmoves : ∀ w ∈ vaultWrites (σ.log ++ writes), w.MovesPlans := by
    rw [vaultWrites_append]
    exact List.forall_mem_append.mpr ⟨h.moves, movesPlans_stmt hstmt⟩
  obtain ⟨loc, log, began⟩ := σ
  cases hstmt with
  | @retention at_ n ls ws hret =>
    refine ⟨hmoves, ?_, fun _ hloc => by cases hloc⟩
    have hview : vaultWrites log = [] → (c.applyAll log).vault.plans = c.vault.plans := by
      intro hempty
      rw [plans_applyAll, hempty]
      rfl
    change Retention.Completing c.vault (vaultWrites (log ++ ws.map .vault)) n
    rw [vaultWrites_append, vaultWrites_map]
    exact h.completing.stmt hview hret
  | @unit at_ n _ _ hunit =>
    have hempty : vaultWrites (log ++ writes) = [] := by
      rw [vaultWrites_append, h.unit at_ rfl, vaultWrites_unit hunit]
      rfl
    refine ⟨hmoves, ?_, fun _ _ => hempty⟩
    rw [hempty]
    exact completing_idle

theorem completing_auto (h : SessionAuto m c loc locks writes next) :
    Retention.Completing db [] next.inner := by
  cases h with
  | retention h => exact Retention.completing_auto h
  | unit => exact completing_idle

theorem completing_commit (h : SessionCommit loc next) :
    Retention.Completing db [] next.inner := by
  cases h with
  | retention h => exact Retention.completing_commit h
  | unit => exact completing_idle

theorem completing_call (h : SessionCall settings c world io loc world' next) :
    Retention.Completing db [] next.inner := by
  cases h with
  | retention h => exact Retention.completing_call h
  | unit => exact completing_idle

theorem completing_rollback (h : SessionRollback settings m c world io loc next) :
    Retention.Completing db [] next.inner := by
  cases h with
  | retention h => exact Retention.completing_rollback h
  | unit => exact completing_idle

theorem completing_start (proc : Proc) : Retention.Completing db [] (start proc).inner := by
  cases proc with
  | retention proc => exact Retention.completing_start proc
  | runUnit unit => exact completing_idle

/-- A commit leaves the mark to snapshots whose deletion has started. -/
theorem MarkedAfterStart.commit (h : MarkedAfterStart c.vault) (hσ : Deleting c.vault σ) :
    MarkedAfterStart (c.applyAll σ.log).vault := by
  intro snapshotId hmarked
  unfold MarkedDeleted at hmarked
  rw [snapshots_applyAll] at hmarked
  unfold DeletionStarted
  rw [plans_applyAll]
  exact Retention.marked_of_applyAll h hσ.completing hσ.moves snapshotId hmarked

theorem deletes_nothing_auto (h : SessionAuto m c loc locks writes next) :
    ∀ w ∈ vaultWrites writes, (∀ id, w ≠ .setSnapshotDeleted id) ∧
      ∀ row, w ≠ .insertSnapshot row := by
  cases h with
  | retention h =>
    rw [vaultWrites_map]
    cases h with
    | worker h => cases h <;> simp
    | capture h => simp
  | unit => intro w hw; cases hw

theorem deletes_nothing_operate {o : Op} (h : OpWrites m c o locks writes) :
    ∀ w ∈ vaultWrites writes, (∀ id, w ≠ .setSnapshotDeleted id) ∧
      ∀ row, w ≠ .insertSnapshot row := by
  cases h with
  | retention h =>
    rw [vaultWrites_map]
    cases h <;> simp
  | _ => intro w hw; cases hw

theorem MarkedAfterStart.written (h : MarkedAfterStart c.vault)
    (hmoves : ∀ w ∈ vaultWrites writes, w.MovesPlans)
    (hkeeps : ∀ w ∈ vaultWrites writes, (∀ id, w ≠ .setSnapshotDeleted id) ∧
      ∀ row, w ≠ .insertSnapshot row) :
    MarkedAfterStart (c.applyAll writes).vault := by
  intro snapshotId hmarked
  unfold MarkedDeleted at hmarked
  rw [snapshots_applyAll] at hmarked
  refine (grown_applyAll hmoves).started snapshotId ?_
  rcases markedDeleted_of_applyAll hmarked fun row hrow => absurd rfl ((hkeeps _ hrow).2 row) with
    hmarked | hw
  · exact h snapshotId hmarked
  · exact absurd rfl ((hkeeps _ hw).1 snapshotId)

/-- Every step keeps the order. -/
theorem ordered_step (ok : State → Label → Prop) :
    ∀ s l s', Ordered s → ok s l → (machine settings).step s l = some s' → Ordered s' := by
  refine Machine.Beside.step (R := fun e e' _ _ => e.db.vault.Grown e'.db.vault)
    (fun e H H' σ _ hS => hS) (fun e e' H σ hgrown hS => hS.mono hgrown) (fun e H σ => ?_)
    (fun e n H σ => ?_) (fun e h => h) (fun e n h => h) (fun e => .of_empty completing_idle)
    (fun s i proc h hok => .of_empty (completing_start proc)) ?_ ?_ ?_ ?_ ?_ ?_
  · exact grown_refl
  · exact grown_refl
  · intro s i input locks writes next h hok hact hfree
    exact (h.sessions i).stmt (act_stmt hact)
  · intro s i input locks writes next h hok hact hfree
    have hauto := act_auto hact
    have hgrown : s.db.vault.Grown (s.db.applyAll writes).vault :=
      grown_applyAll (movesPlans_auto hauto)
    refine ⟨MarkedAfterStart.written h.shared (movesPlans_auto hauto)
      (deletes_nothing_auto hauto), fun j _ => hgrown, .of_empty (completing_auto hauto)⟩
  · intro s i input next h hok hact
    have hgrown : s.db.vault.Grown (s.db.applyAll (s.session i).log).vault :=
      grown_applyAll (h.sessions i).moves
    exact ⟨MarkedAfterStart.commit h.shared (h.sessions i), fun j _ => hgrown,
      .of_empty (completing_commit (act_commit hact))⟩
  · intro s i input next h hok hact
    exact .of_empty (completing_rollback (act_rollback hact))
  · intro s i input world next h hok hact
    exact ⟨h.shared, fun j _ => grown_refl, .of_empty (completing_call (act_call hact))⟩
  · intro s o locks writes h hok hop hfree
    have hwrites := operate_writes hop
    have hgrown : s.db.vault.Grown (s.db.applyAll writes).vault :=
      grown_applyAll (movesPlans_operate hwrites)
    exact ⟨MarkedAfterStart.written h.shared (movesPlans_operate hwrites)
      (deletes_nothing_operate hwrites), fun j => hgrown⟩

theorem ordered_initial (h : MarkedAfterStart c.vault) (world : World) (clock fresh : ℕ) :
    Ordered (initial c world clock fresh) :=
  ⟨h, fun _ => .of_empty completing_idle, fun _ _ _ hl => absurd hl List.not_mem_nil⟩

end

end RatatoskrVault.Replication
