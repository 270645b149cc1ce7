import RatatoskrVault.Lib.ReadCommitted

/-! Invariants of concurrent sessions: what holds of the shared state, what holds of each session
beside it, and how much one session's step may change for the others. -/
namespace RatatoskrVault.Lib

variable {Db World Lock Write Loc Input Proc Op : Type}

/-- The part of a state that every session can see or change. -/
structure Shared (Db World : Type) where
  db : Db
  world : World
  clock : ℕ
  fresh : ℕ

def State.shared (s : State Db World Lock Write Loc) : Shared Db World :=
  { db := s.db, world := s.world, clock := s.clock, fresh := s.fresh }

/-- After the use of an identifier. -/
def Shared.used (e : Shared Db World) : Shared Db World := { e with fresh := e.fresh + 1 }

/-- The locks session `i` holds. -/
def State.holds (s : State Db World Lock Write Loc) (i : ℕ) (l : Lock) : Prop := (l, i) ∈ s.held

namespace Machine

variable {M : Machine Db World Lock Write Loc Input Proc Op}

/-- `G` holds of what is shared and `S` of every session beside it, with the locks it holds. -/
structure Beside (G : Shared Db World → Prop)
    (S : Shared Db World → (Lock → Prop) → Session Write Loc → Prop)
    (s : State Db World Lock Write Loc) : Prop where
  shared : G s.shared
  sessions : ∀ i, S s.shared (s.holds i) (s.session i)
  exclusive : ∀ l i j, s.holds i l → s.holds j l → i = j

variable {G : Shared Db World → Prop}
  {S : Shared Db World → (Lock → Prop) → Session Write Loc → Prop}
  {R : Shared Db World → Shared Db World → (Lock → Prop) → Session Write Loc → Prop}
  {s s' : State Db World Lock Write Loc}

/-- Session `i` has moved to `σ`, and the others only rely on `R`. -/
theorem Beside.moved {i : ℕ} {σ : Session Write Loc} {H : Lock → Prop}
    (mono : ∀ e H H' σ, (∀ l, H l → H' l) → S e H σ → S e H' σ)
    (stable : ∀ e e' H σ, R e e' H σ → S e H σ → S e' H σ) (h : Beside G S s)
    (hsession : s'.session = (s.setSession i σ).session) (hG : G s'.shared)
    (hR : ∀ j, j ≠ i → R s.shared s'.shared (s.holds j) (s.session j))
    (hself : ∀ l, H l → s'.holds i l) (hothers : ∀ j, j ≠ i → ∀ l, s.holds j l → s'.holds j l)
    (hexclusive : ∀ l i j, s'.holds i l → s'.holds j l → i = j) (hσ : S s'.shared H σ) :
    Beside G S s' := by
  refine ⟨hG, fun j => ?_, hexclusive⟩
  rw [hsession]
  by_cases hji : j = i
  · rw [hji, State.setSession_session_self]
    exact mono _ _ _ _ hself hσ
  · rw [State.setSession_session_of_ne hji]
    exact mono _ _ _ _ (hothers j hji) (stable _ _ _ _ (hR j hji) (h.sessions j))

/-- Session `i` has moved to `σ` and nothing that is shared has changed. -/
theorem Beside.replaced {i : ℕ} {σ : Session Write Loc}
    (mono : ∀ e H H' σ, (∀ l, H l → H' l) → S e H σ → S e H' σ) (h : Beside G S s)
    (hsession : s'.session = (s.setSession i σ).session) (hshared : s'.shared = s.shared)
    (hothers : ∀ j, j ≠ i → ∀ l, s.holds j l → s'.holds j l)
    (hexclusive : ∀ l i j, s'.holds i l → s'.holds j l → i = j)
    (hσ : S s.shared (fun _ => False) σ) : Beside G S s' :=
  h.moved (R := fun e e' _ _ => e' = e) mono (fun _ _ _ _ heq hS => heq ▸ hS) hsession
    (hshared ▸ h.shared) (fun _ _ => hshared) (fun _ => False.elim) hothers hexclusive
    (hshared ▸ hσ)

theorem holds_release {i j : ℕ} {l : Lock} (hji : j ≠ i) (h : s.holds j l) :
    (l, j) ∈ s.release i :=
  List.mem_filter.mpr ⟨h, by simpa using hji⟩

theorem holds_afterStmt {i j : ℕ} {l : Lock} {locks : List Lock} {writes : List Write} {next : Loc} :
    (afterStmt s i locks writes next).holds j l ↔ (l ∈ locks ∧ j = i) ∨ s.holds j l := by
  simp only [State.holds, afterStmt, List.mem_append, List.mem_map, Prod.mk.injEq]
  constructor
  · rintro (⟨l', hl', rfl, rfl⟩ | hmem)
    · exact Or.inl ⟨hl', rfl⟩
    · exact Or.inr hmem
  · rintro (⟨hl', rfl⟩ | hmem)
    · exact Or.inl ⟨l, hl', rfl, rfl⟩
    · exact Or.inr hmem

variable [DecidableEq Lock]

theorem exclusive_afterStmt {i : ℕ} {locks : List Lock} {writes : List Write} {next : Loc}
    (h : ∀ l i j, s.holds i l → s.holds j l → i = j) (hfree : s.available i locks = true)
    (l : Lock) (j k : ℕ) (hj : (afterStmt s i locks writes next).holds j l)
    (hk : (afterStmt s i locks writes next).holds k l) : j = k := by
  have havail := available_iff.mp hfree
  rcases holds_afterStmt.mp hj with ⟨hl, rfl⟩ | hj'
  · rcases holds_afterStmt.mp hk with ⟨-, rfl⟩ | hk'
    · rfl
    · exact (havail l k hk' hl).symm
  · rcases holds_afterStmt.mp hk with ⟨hl, rfl⟩ | hk'
    · exact havail l j hj' hl
    · exact h l j k hj' hk'

/-- One obligation for each kind of step; `R` is what the step may do to the other sessions. -/
theorem Beside.step {ok : State Db World Lock Write Loc → Label Input Proc Op → Prop}
    (mono : ∀ e H H' σ, (∀ l, H l → H' l) → S e H σ → S e H' σ)
    (stable : ∀ e e' H σ, R e e' H σ → S e H σ → S e' H σ)
    (used : ∀ e H σ, R e e.used H σ)
    (elapsed : ∀ e n H σ, R e { e with clock := e.clock + n } H σ)
    (usedG : ∀ e, G e → G e.used) (elapsedG : ∀ e n, G e → G { e with clock := e.clock + n })
    (aborted : ∀ e, S e (fun _ => False) ⟨M.aborted, [], none⟩)
    (start : ∀ s i proc, Beside G S s → ok s (.start i proc) →
      S s.shared (fun _ => False) ⟨M.start proc, [], none⟩)
    (stmt : ∀ s i input locks writes next, Beside G S s → ok s (.exec i input) →
      M.act (s.session i).loc (s.moment i) (M.view s i) s.world input
        = some (.stmt locks writes next) → s.available i locks = true →
      S s.shared.used (fun l => l ∈ locks ∨ s.holds i l)
        ⟨next, (s.session i).log ++ writes, some (s.moment i).now⟩)
    (auto : ∀ s i input locks writes next, Beside G S s → ok s (.exec i input) →
      M.act (s.session i).loc (s.moment i) (M.view s i) s.world input
        = some (.auto locks writes next) → s.available i locks = true →
      let e' := { s.shared.used with db := writes.foldl M.apply s.db }
      G e' ∧ (∀ j, j ≠ i → R s.shared e' (s.holds j) (s.session j)) ∧
        S e' (fun _ => False) ⟨next, [], none⟩)
    (commit : ∀ s i input next, Beside G S s → ok s (.exec i input) →
      M.act (s.session i).loc (s.moment i) (M.view s i) s.world input = some (.commit next) →
      let e' := { s.shared with db := M.view s i }
      G e' ∧ (∀ j, j ≠ i → R s.shared e' (s.holds j) (s.session j)) ∧
        S e' (fun _ => False) ⟨next, [], none⟩)
    (rollback : ∀ s i input next, Beside G S s → ok s (.exec i input) →
      M.act (s.session i).loc (s.moment i) (M.view s i) s.world input = some (.rollback next) →
      S s.shared (fun _ => False) ⟨next, [], none⟩)
    (call : ∀ s i input world next, Beside G S s → ok s (.exec i input) →
      M.act (s.session i).loc (s.moment i) (M.view s i) s.world input = some (.call world next) →
      let e' := { s.shared.used with world := world }
      G e' ∧ (∀ j, j ≠ i → R s.shared e' (s.holds j) (s.session j)) ∧
        S e' (fun _ => False) ⟨next, [], none⟩)
    (op : ∀ s o locks writes, Beside G S s → ok s (.op o) →
      M.op o { now := s.clock, clock := s.clock, fresh := s.fresh } s.db s.world
        = some (locks, writes) → (∀ l j, s.holds j l → l ∉ locks) →
      let e' := { s.shared.used with db := writes.foldl M.apply s.db }
      G e' ∧ ∀ j, R s.shared e' (s.holds j) (s.session j)) :
    ∀ s l s', Beside G S s → ok s l → M.step s l = some s' → Beside G S s' := by
  have hreleased : ∀ (s : State Db World Lock Write Loc) i, Beside G S s → ∀ l j k,
      (l, j) ∈ s.release i → (l, k) ∈ s.release i → j = k := fun s i h l j k hj hk =>
    h.exclusive l j k (List.mem_filter.mp hj).1 (List.mem_filter.mp hk).1
  refine step_induction ?_ ?_ ?_ ?_ ?_ ?_ ?_ ?_ ?_
  · intro s i proc h hok _
    exact h.replaced (i := i) mono rfl rfl (fun _ _ _ hl => hl) h.exclusive
      (start s i proc h hok)
  · intro s i input locks writes next h hok hact hfree
    exact h.moved (i := i) mono stable rfl (usedG _ h.shared) (fun j _ => used _ _ _)
      (fun l hl => holds_afterStmt.mpr (hl.imp_left fun hl => ⟨hl, rfl⟩))
      (fun j _ l hl => holds_afterStmt.mpr (Or.inr hl)) (exclusive_afterStmt h.exclusive hfree)
      (stmt s i input locks writes next h hok hact hfree)
  · intro s i input locks writes next h hok hact hfree
    obtain ⟨hG, hR, hS⟩ := auto s i input locks writes next h hok hact hfree
    exact h.moved (i := i) mono stable rfl hG hR (fun _ => False.elim) (fun _ _ _ hl => hl)
      h.exclusive hS
  · intro s i input next h hok hact
    obtain ⟨hG, hR, hS⟩ := commit s i input next h hok hact
    exact h.moved (i := i) mono stable rfl hG hR (fun _ => False.elim)
      (fun _ hji _ hl => holds_release hji hl) (hreleased s i h) hS
  · intro s i input next h hok hact
    exact h.replaced (i := i) mono rfl rfl (fun _ hji _ hl => holds_release hji hl)
      (hreleased s i h) (rollback s i input next h hok hact)
  · intro s i input world next h hok hact
    obtain ⟨hG, hR, hS⟩ := call s i input world next h hok hact
    exact h.moved (i := i) mono stable rfl hG hR (fun _ => False.elim) (fun _ _ _ hl => hl)
      h.exclusive hS
  · intro s i h _
    exact h.replaced (i := i) mono rfl rfl (fun _ hji _ hl => holds_release hji hl)
      (hreleased s i h) (aborted _)
  · intro s o locks writes h hok hop hfree
    obtain ⟨hG, hR⟩ := op s o locks writes h hok hop fun l j hl => hfree l j hl
    exact ⟨hG, fun j => stable _ _ _ _ (hR j) (h.sessions j), h.exclusive⟩
  · intro s n h _
    exact ⟨elapsedG _ n h.shared, fun j => stable _ _ _ _ (elapsed _ n _ _) (h.sessions j),
      h.exclusive⟩

end Machine

end RatatoskrVault.Lib
