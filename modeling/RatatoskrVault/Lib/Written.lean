import RatatoskrVault.Lib.ReadCommitted

/-! Invariants of what is committed that follow from the kind of rows the sessions write. -/
namespace RatatoskrVault.Lib

variable {Db World Lock Write Loc Input Proc Op : Type}

/-- Sessions write rows of one kind only. -/
structure Machine.WritesOnly (M : Machine Db World Lock Write Loc Input Proc Op)
    (kind : Write → Prop) : Prop where
  stmt : ∀ {loc m db world input locks writes next},
    M.act loc m db world input = some (.stmt locks writes next) → ∀ w ∈ writes, kind w
  auto : ∀ {loc m db world input locks writes next},
    M.act loc m db world input = some (.auto locks writes next) → ∀ w ∈ writes, kind w

/-- `I` holds of what is committed, and what is to be committed is of the kind. -/
structure Written (kind : Write → Prop) (I : Db → Prop) (s : State Db World Lock Write Loc) :
    Prop where
  committed : I s.db
  pending : ∀ i, ∀ w ∈ (s.session i).log, kind w

namespace Written

variable {M : Machine Db World Lock Write Loc Input Proc Op} {kind : Write → Prop}
  {I : Db → Prop} {s s' : State Db World Lock Write Loc}

/-- One session has moved. -/
theorem moved {i : ℕ} {σ : Session Write Loc} (h : Written kind I s)
    (hsession : s'.session = (s.setSession i σ).session) (hdb : I s'.db)
    (hσ : ∀ w ∈ σ.log, kind w) : Written kind I s' := by
  refine ⟨hdb, fun j => ?_⟩
  rw [hsession]
  by_cases hji : j = i
  · rw [hji, State.setSession_session_self]
    exact hσ
  · rw [State.setSession_session_of_ne hji]
    exact h.pending j

/-- Writes of the kind keep the invariant, and so do the operations. -/
theorem step [DecidableEq Lock] {ok : State Db World Lock Write Loc → Label Input Proc Op → Prop}
    (hM : M.WritesOnly kind) (keeps : ∀ db w, kind w → I db → I (M.apply db w))
    (op : ∀ s o locks writes, I s.db → ok s (.op o) →
      M.op o { now := s.clock, clock := s.clock, fresh := s.fresh } s.db s.world
        = some (locks, writes) → I (writes.foldl M.apply s.db)) :
    ∀ s (l : Label Input Proc Op) s', Written kind I s → ok s l → M.step s l = some s' →
      Written kind I s' := by
  have hfold : ∀ {db : Db} {writes : List Write}, (∀ w ∈ writes, kind w) → I db →
      I (writes.foldl M.apply db) := fun hkind hdb =>
    foldl_invariant (fun d w hw hd => keeps d w (hkind w hw) hd) hdb
  have hnil : ∀ w ∈ ([] : List Write), kind w := fun _ hw => absurd hw List.not_mem_nil
  refine Machine.step_induction (I := Written kind I) ?_ ?_ ?_ ?_ ?_ ?_ ?_ ?_ ?_
  · intro s i proc h _ _
    exact h.moved (i := i) rfl h.committed hnil
  · intro s i input locks writes next h _ hact _
    exact h.moved (i := i) rfl h.committed
      (List.forall_mem_append.mpr ⟨h.pending i, hM.stmt hact⟩)
  · intro s i input locks writes next h _ hact _
    exact h.moved (i := i) rfl (hfold (hM.auto hact) h.committed) hnil
  · intro s i input next h _ hact
    exact h.moved (i := i) rfl (hfold (h.pending i) h.committed) hnil
  · intro s i input next h _ hact
    exact h.moved (i := i) rfl h.committed hnil
  · intro s i input world next h _ hact
    exact h.moved (i := i) rfl h.committed hnil
  · intro s i h _
    exact h.moved (i := i) rfl h.committed hnil
  · intro s o locks writes h hok hop _
    exact ⟨op s o locks writes h.committed hok hop, h.pending⟩
  · intro s n h _
    exact ⟨h.committed, h.pending⟩

end Written

end RatatoskrVault.Lib
