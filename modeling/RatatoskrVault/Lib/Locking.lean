import RatatoskrVault.Lib.ReadCommitted

/-! What a session is known to hold and to have written from where it stands: the locks of its
transaction, which no other session holds, and nothing outside a transaction. -/
namespace RatatoskrVault.Lib

variable {Db World Lock Write Loc Input Proc Op : Type}

/-- The locations outside a transaction, and the locks that a location and its uncommitted
writes imply. -/
structure Discipline (Loc Write Lock : Type) where
  rest : Loc → Bool
  needs : Loc → List Write → List Lock

/-- A lock is implied only after the statement that takes it, and none outside a transaction. -/
structure Machine.Respects (M : Machine Db World Lock Write Loc Input Proc Op)
    (D : Discipline Loc Write Lock) : Prop where
  start : ∀ proc, D.needs (M.start proc) [] = []
  aborted : D.needs M.aborted [] = []
  rest : ∀ {loc m db world input locks writes next},
    M.act loc m db world input = some (.stmt locks writes next) → D.rest next = false
  stmt : ∀ {loc m db world input locks writes next}, ∀ log,
    M.act loc m db world input = some (.stmt locks writes next) →
    ∀ l ∈ D.needs next (log ++ writes), l ∈ D.needs loc log ∨ l ∈ locks
  auto : ∀ {loc m db world input locks writes next},
    M.act loc m db world input = some (.auto locks writes next) → D.needs next [] = []
  commit : ∀ {loc m db world input next},
    M.act loc m db world input = some (.commit next) → D.needs next [] = []
  rollback : ∀ {loc m db world input next},
    M.act loc m db world input = some (.rollback next) → D.needs next [] = []
  call : ∀ {loc m db world input world' next},
    M.act loc m db world input = some (.call world' next) → D.needs next [] = []

/-- Every implied lock is held, by one session only, and a session at rest has written nothing. -/
structure Locked (D : Discipline Loc Write Lock) (s : State Db World Lock Write Loc) : Prop where
  exclusive : ∀ l i j, (l, i) ∈ s.held → (l, j) ∈ s.held → i = j
  holds : ∀ i, ∀ l ∈ D.needs (s.session i).loc (s.session i).log, (l, i) ∈ s.held
  unwritten : ∀ i, D.rest (s.session i).loc = true → (s.session i).log = []

namespace Locked

variable {D : Discipline Loc Write Lock} {s s' : State Db World Lock Write Loc}

theorem unique {i j : ℕ} {l : Lock} (h : Locked D s)
    (hi : l ∈ D.needs (s.session i).loc (s.session i).log)
    (hj : l ∈ D.needs (s.session j).loc (s.session j).log) : i = j :=
  h.exclusive l i j (h.holds i l hi) (h.holds j l hj)

/-- A step after which session `i` needs nothing and every other lock is still held. -/
theorem ended {i : ℕ} {σ : Session Write Loc} (h : Locked D s)
    (hσ : D.needs σ.loc [] = []) (hlog : σ.log = [])
    (hsession : s'.session = (s.setSession i σ).session)
    (hheld : s'.held = s.held ∨ s'.held = s.release i) : Locked D s' := by
  have hsub : ∀ e ∈ s'.held, e ∈ s.held := by
    intro e he
    rcases hheld with heq | heq
    · rwa [heq] at he
    · rw [heq] at he
      exact (List.mem_filter.mp he).1
  refine ⟨fun l j k hj hk => h.exclusive l j k (hsub _ hj) (hsub _ hk), fun j l hl => ?_,
    fun j hrest => ?_⟩ <;>
    by_cases hji : j = i
  · subst hji
    rw [hsession, State.setSession_session_self, hlog, hσ] at hl
    exact absurd hl List.not_mem_nil
  · rw [hsession, State.setSession_session_of_ne hji] at hl
    have hmem := h.holds j l hl
    rcases hheld with heq | heq
    · rwa [heq]
    · rw [heq]
      exact List.mem_filter.mpr ⟨hmem, by simpa using hji⟩
  · subst hji
    rw [hsession, State.setSession_session_self, hlog]
  · rw [hsession, State.setSession_session_of_ne hji] at hrest ⊢
    exact h.unwritten j hrest

theorem afterStmt [DecidableEq Lock] {i : ℕ} {locks : List Lock} {writes : List Write} {next : Loc}
    (h : Locked D s) (hfree : s.available i locks = true) (hrest : D.rest next = false)
    (hneeds : ∀ l ∈ D.needs next ((s.session i).log ++ writes),
      l ∈ D.needs (s.session i).loc (s.session i).log ∨ l ∈ locks) :
    Locked D (Machine.afterStmt s i locks writes next) := by
  have havail := Machine.available_iff.mp hfree
  have hheld : ∀ {l j}, (l, j) ∈ (Machine.afterStmt s i locks writes next).held ↔
      (l ∈ locks ∧ j = i) ∨ (l, j) ∈ s.held := by
    intro l j
    simp only [Machine.afterStmt, List.mem_append, List.mem_map, Prod.mk.injEq]
    constructor
    · rintro (⟨l', hl', rfl, rfl⟩ | hmem)
      · exact Or.inl ⟨hl', rfl⟩
      · exact Or.inr hmem
    · rintro (⟨hl', rfl⟩ | hmem)
      · exact Or.inl ⟨l, hl', rfl, rfl⟩
      · exact Or.inr hmem
  refine ⟨?_, ?_, ?_⟩
  · intro l j k hj hk
    rcases hheld.mp hj with ⟨hl, rfl⟩ | hj'
    · rcases hheld.mp hk with ⟨-, rfl⟩ | hk'
      · rfl
      · exact (havail l k hk' hl).symm
    · rcases hheld.mp hk with ⟨hl, rfl⟩ | hk'
      · exact havail l j hj' hl
      · exact h.exclusive l j k hj' hk'
  · intro j l hl
    by_cases hji : j = i
    · subst hji
      have hl' : l ∈ D.needs next ((s.session j).log ++ writes) := by
        simpa [Machine.afterStmt] using hl
      rcases hneeds l hl' with hold | hnew
      · exact hheld.mpr (Or.inr (h.holds j l hold))
      · exact hheld.mpr (Or.inl ⟨hnew, rfl⟩)
    · have hsame : (Machine.afterStmt s i locks writes next).session j = s.session j :=
        State.setSession_session_of_ne hji
      rw [hsame] at hl
      exact hheld.mpr (Or.inr (h.holds j l hl))
  · intro j hj
    by_cases hji : j = i
    · subst hji
      have hself : ((Machine.afterStmt s j locks writes next).session j).loc = next := by
        simp [Machine.afterStmt]
      rw [hself, hrest] at hj
      cases hj
    · have hsame : (Machine.afterStmt s i locks writes next).session j = s.session j :=
        State.setSession_session_of_ne hji
      rw [hsame] at hj ⊢
      exact h.unwritten j hj

theorem step [DecidableEq Lock] {M : Machine Db World Lock Write Loc Input Proc Op}
    (hM : M.Respects D) :
    ∀ s (l : Label Input Proc Op) s', Locked D s → M.step s l = some s' →
      Locked D s' := by
  suffices hstep : ∀ s (l : Label Input Proc Op) s', Locked D s → True → M.step s l = some s' →
      Locked D s' from fun s l s' h hs => hstep s l s' h trivial hs
  refine Machine.step_induction (I := Locked D) ?_ ?_ ?_ ?_ ?_ ?_ ?_ ?_ ?_
  · intro s i proc h _ _
    exact h.ended (σ := ⟨M.start proc, [], none⟩) (hM.start proc) rfl rfl (Or.inl rfl)
  · intro s i input locks writes next h _ hact hfree
    exact h.afterStmt hfree (hM.rest hact) (hM.stmt _ hact)
  · intro s i input locks writes next h _ hact _
    exact h.ended (σ := ⟨next, [], none⟩) (hM.auto hact) rfl rfl (Or.inl rfl)
  · intro s i input next h _ hact
    exact h.ended (σ := ⟨next, [], none⟩) (hM.commit hact) rfl rfl (Or.inr rfl)
  · intro s i input next h _ hact
    exact h.ended (σ := ⟨next, [], none⟩) (hM.rollback hact) rfl rfl (Or.inr rfl)
  · intro s i input world next h _ hact
    exact h.ended (σ := ⟨next, [], none⟩) (hM.call hact) rfl rfl (Or.inl rfl)
  · intro s i h _
    exact h.ended (σ := ⟨M.aborted, [], none⟩) hM.aborted rfl rfl (Or.inr rfl)
  · intro s o locks writes h _ _ _
    exact ⟨h.exclusive, h.holds, h.unwritten⟩
  · intro s n h _
    exact ⟨h.exclusive, h.holds, h.unwritten⟩

/-- An invariant whose steps may rely on the locks, before and after. -/
theorem preserved [DecidableEq Lock] {M : Machine Db World Lock Write Loc Input Proc Op}
    (hM : M.Respects D) {ok : State Db World Lock Write Loc → Label Input Proc Op → Prop}
    {I : State Db World Lock Write Loc → Prop} (hI : ∀ s, I s → Locked D s)
    (h : ∀ s l s', (Locked D s → I s) → ok s l ∧ Locked D s → M.step s l = some s' →
      Locked D s' → I s') :
    ∀ s l s', I s → ok s l → M.step s l = some s' → I s' :=
  fun s l s' hs hok hstep => h s l s' (fun _ => hs) ⟨hok, hI s hs⟩ hstep
    (step hM s l s' (hI s hs) hstep)

end Locked

end RatatoskrVault.Lib
