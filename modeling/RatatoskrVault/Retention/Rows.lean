import RatatoskrVault.Lib.Keys
import RatatoskrVault.Retention.Locks
import RatatoskrVault.Schema.Evolution

/-! The rows sessions insert: their primary keys are fresh, and a row that is inserted stays. -/
namespace RatatoskrVault

open Lib

/-- The tables whose rows are inserted under a generated identifier. -/
inductive KeyedTable
  | artifacts | plans | claims | attempts
  deriving DecidableEq

def KeyedTable.keys : KeyedTable → Keys Db Write
  | .artifacts =>
    { table := fun db => db.artifacts.map (·.artifactId)
      added := fun
        | .insertArtifact row => some row.artifactId
        | _ => none }
  | .plans =>
    { table := fun db => db.plans.map (·.planId)
      added := fun
        | .insertPlan row => some row.planId
        | _ => none }
  | .claims =>
    { table := fun db => db.claims.map (·.claimId)
      added := fun
        | .insertClaim row => some row.claimId
        | _ => none }
  | .attempts =>
    { table := fun db => db.attempts.map (·.attemptId)
      added := fun
        | .insertAttempt row => some row.attemptId
        | _ => none }

namespace KeyedTable

variable {T : KeyedTable}

theorem table_apply (db : Db) (w : Write) :
    T.keys.table (db.apply w) = T.keys.table db ++ (T.keys.added w).toList := by
  cases T with
  | artifacts => cases w <;> simp [keys, Db.apply]
  | plans =>
    cases w with
    | setPlanStatus id fromStatus toStatus =>
      simpa [keys, Db.apply] using map_updateWhere (t := db.plans)
        (p := fun p : DeletionPlan => p.planId == id && p.status == fromStatus)
        (f := fun p => { p with status := toStatus }) (g := fun p => p.planId) fun _ => rfl
    | _ => simp [keys, Db.apply]
  | claims =>
    cases w with
    | finishClaim id outcome =>
      simpa [keys, Db.apply] using map_updateWhere (t := db.claims)
        (p := fun c : PhysicalObjectClaim => c.claimId == id && c.outcome == .running)
        (f := fun c => { c with outcome }) (g := fun c => c.claimId) fun _ => rfl
    | _ => simp [keys, Db.apply]
  | attempts =>
    cases w with
    | finishAttempt id outcome =>
      simpa [keys, Db.apply] using map_updateWhere (t := db.attempts)
        (p := fun a : StageAttempt => a.attemptId == id && a.outcome == .running)
        (f := fun a => { a with outcome }) (g := fun a => a.attemptId) fun _ => rfl
    | _ => simp [keys, Db.apply]

theorem table_applyAll (log : List Write) (db : Db) :
    T.keys.table (db.applyAll log) = T.keys.table db ++ T.keys.addedBy log :=
  Keys.table_foldl table_apply log db

theorem drawn_nil {fresh : ℕ} : T.keys.Drawn fresh [] := Or.inl rfl

theorem drawn_of_added_none {fresh : ℕ} {writes : List Write}
    (h : ∀ w ∈ writes, T.keys.added w = none) : T.keys.Drawn fresh writes :=
  Or.inl (List.filterMap_eq_nil_iff.mpr h)

theorem drawn_singleton {fresh : ℕ} {w : Write} (h : ∀ k, T.keys.added w = some k → k = fresh) :
    T.keys.Drawn fresh [w] := by
  cases hw : T.keys.added w with
  | none => exact drawn_of_added_none fun w' hw' => List.mem_singleton.mp hw' ▸ hw
  | some k =>
    refine Or.inr ?_
    rw [← h k hw]
    simp [Keys.addedBy, hw]

end KeyedTable

namespace Retention

variable {settings : Settings} {T : KeyedTable} {m : Moment} {db : Db} {locks : List Lock}
  {writes : List Write} {loc next : Loc}

theorem drawn_stmt (h : SessionStmt m db loc locks writes next) : T.keys.Drawn m.fresh writes := by
  cases h with
  | worker h =>
    cases h with
    | abandonStage =>
      refine KeyedTable.drawn_of_added_none fun w hw => ?_
      obtain ⟨a, -, rfl⟩ := List.mem_map.mp hw
      cases T <;> rfl
    | abandonClaims =>
      refine KeyedTable.drawn_of_added_none fun w hw => ?_
      obtain ⟨c, -, rfl⟩ := List.mem_map.mp hw
      cases T <;> rfl
    | insertShared hid =>
      refine KeyedTable.drawn_singleton fun k hk => ?_
      cases T <;> cases hk
      exact hid
    | insertClaim hid =>
      refine KeyedTable.drawn_singleton fun k hk => ?_
      cases T <;> cases hk
      exact hid
    | insertAttempt hid =>
      refine KeyedTable.drawn_singleton fun k hk => ?_
      cases T <;> cases hk
      exact hid
    | _ => first
      | exact KeyedTable.drawn_nil
      | exact KeyedTable.drawn_singleton fun k hk => by cases T <;> cases hk
  | capture h =>
    cases h with
    | artifactLock =>
      refine KeyedTable.drawn_singleton fun k hk => ?_
      cases T <;> cases hk
      rfl
    | _ => first
      | exact KeyedTable.drawn_nil
      | exact KeyedTable.drawn_singleton fun k hk => by cases T <;> cases hk
  | transition h =>
    cases h with
    | cancelPlans =>
      refine KeyedTable.drawn_of_added_none fun w hw => ?_
      obtain ⟨p, -, rfl⟩ := List.mem_map.mp hw
      cases T <;> rfl
    | _ => first
      | exact KeyedTable.drawn_nil
      | exact KeyedTable.drawn_singleton fun k hk => by cases T <;> cases hk

theorem drawn_auto (h : SessionAuto m db loc locks writes next) : T.keys.Drawn m.fresh writes := by
  cases h with
  | worker h =>
    cases h <;> first
      | exact KeyedTable.drawn_nil
      | exact KeyedTable.drawn_singleton fun k hk => by cases T <;> cases hk
  | capture h => exact KeyedTable.drawn_nil

theorem drawn_operate {o : Op} (h : OpWrites db m o locks writes) :
    T.keys.Drawn m.fresh writes := by
  cases h with
  | planned hsnapshot hpin hallowed hrow =>
    refine KeyedTable.drawn_singleton fun k hk => ?_
    cases T <;> cases hk
    exact hrow.planId
  | _ => first
    | exact KeyedTable.drawn_nil
    | exact KeyedTable.drawn_singleton fun k hk => by cases T <;> cases hk

theorem draws (T : KeyedTable) : (machine settings).Draws T.keys where
  apply := KeyedTable.table_apply
  stmt h := drawn_stmt (act_stmt h)
  auto h := drawn_auto (act_auto h)
  op h := drawn_operate (operate_writes h)

/-- The tables start with distinct keys, none of which is still to be generated. -/
def FreshKeys (db : Db) (fresh : ℕ) : Prop :=
  ∀ T : KeyedTable, (T.keys.table db).Nodup ∧ ∀ k ∈ T.keys.table db, k < fresh

theorem keyed_initial {db : Db} {fresh : ℕ} (h : FreshKeys db fresh) (storage : Storage)
    (clock : ℕ) (T : KeyedTable) : Keyed T.keys (initial db storage clock fresh) :=
  ⟨(h T).2, (h T).1, fun _ _ hk => absurd hk List.not_mem_nil, fun _ => List.nodup_nil,
    fun _ _ hk => absurd hk List.not_mem_nil, fun _ _ _ hk => absurd hk List.not_mem_nil⟩

end Retention

end RatatoskrVault
