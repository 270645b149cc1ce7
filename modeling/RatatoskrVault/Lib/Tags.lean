import RatatoskrVault.Lib.ReadCommitted

/-! Identifiers that stand for one thing: rows and pending writes that carry the same fresh
identifier agree on what it was drawn for. -/
namespace RatatoskrVault.Lib

variable {Db World Lock Write Loc Input Proc Op T : Type}

/-- What the rows of a database and the writes of a log say of identifiers. -/
structure Tags (Db Write T : Type) where
  tagged : Db → ℕ → T → Prop
  gives : Write → ℕ → T → Prop

namespace Tags

variable (K : Tags Db Write T)

/-- The writes of one statement tag nothing, or the identifier of the step. -/
def Drawn (fresh : ℕ) (writes : List Write) : Prop :=
  (∀ w ∈ writes, ∀ n t, ¬ K.gives w n t) ∨
    ∃ t, ∀ w ∈ writes, ∀ n t', K.gives w n t' → n = fresh ∧ t' = t

/-- `g` knows what every identifier in use was drawn for. -/
structure Agrees (g : ℕ → T) (s : State Db World Lock Write Loc) : Prop where
  committed : ∀ n t, K.tagged s.db n t → n < s.fresh ∧ g n = t
  pending : ∀ i, ∀ w ∈ (s.session i).log, ∀ n t, K.gives w n t → n < s.fresh ∧ g n = t

end Tags

/-- Rows get their tags from writes, and writes draw them fresh. -/
structure Machine.Tagging (M : Machine Db World Lock Write Loc Input Proc Op)
    (K : Tags Db Write T) : Prop where
  apply : ∀ {db w n t}, K.tagged (M.apply db w) n t → K.tagged db n t ∨ K.gives w n t
  stmt : ∀ {loc m db world input locks writes next},
    M.act loc m db world input = some (.stmt locks writes next) → K.Drawn m.fresh writes
  auto : ∀ {loc m db world input locks writes next},
    M.act loc m db world input = some (.auto locks writes next) → K.Drawn m.fresh writes
  op : ∀ {o m db world locks writes},
    M.op o m db world = some (locks, writes) → K.Drawn m.fresh writes

namespace Tags

variable {K : Tags Db Write T} {M : Machine Db World Lock Write Loc Input Proc Op} {g : ℕ → T}
  {s s' : State Db World Lock Write Loc}

theorem tagged_foldl (hM : M.Tagging K) {log : List Write} {db : Db} {n : ℕ} {t : T}
    (h : K.tagged (log.foldl M.apply db) n t) :
    K.tagged db n t ∨ ∃ w ∈ log, K.gives w n t := by
  induction log generalizing db with
  | nil => exact Or.inl h
  | cons w log ih =>
    rcases ih h with hdb | ⟨w', hw', hgives⟩
    · rcases hM.apply hdb with hdb | hgives
      · exact Or.inl hdb
      · exact Or.inr ⟨w, List.mem_cons_self .., hgives⟩
    · exact Or.inr ⟨w', List.mem_cons_of_mem _ hw', hgives⟩

/-- An identifier stands for one thing, wherever a session sees it. -/
theorem Agrees.view (hM : M.Tagging K) (h : K.Agrees g s) (i : ℕ) {n : ℕ} {t : T}
    (htag : K.tagged (M.view s i) n t) : n < s.fresh ∧ g n = t := by
  rcases tagged_foldl hM htag with hdb | ⟨w, hw, hgives⟩
  · exact h.committed n t hdb
  · exact h.pending i w hw n t hgives

/-- The writes of the step extend what is known. -/
theorem Drawn.extend {fresh : ℕ} {writes : List Write} (h : K.Drawn fresh writes) (g : ℕ → T) :
    ∃ g' : ℕ → T, (∀ n, n < fresh → g' n = g n) ∧
      ∀ w ∈ writes, ∀ n t, K.gives w n t → n = fresh ∧ g' n = t := by
  rcases h with hnone | ⟨t, hsome⟩
  · exact ⟨g, fun _ _ => rfl, fun w hw n t hgives => absurd hgives (hnone w hw n t)⟩
  · refine ⟨Function.update g fresh t, fun n hn => ?_, fun w hw n t' hgives => ?_⟩
    · rw [Function.update_of_ne (Nat.ne_of_lt hn)]
    · obtain ⟨rfl, rfl⟩ := hsome w hw n t' hgives
      exact ⟨rfl, Function.update_self ..⟩

/-- Identifiers keep their meaning while at most one is drawn. -/
theorem Agrees.drawn {g' : ℕ → T} {writes : List Write} (h : K.Agrees g s)
    (hold : ∀ n, n < s.fresh → g' n = g n)
    (hnew : ∀ w ∈ writes, ∀ n t, K.gives w n t → n = s.fresh ∧ g' n = t)
    (hfresh : s'.fresh = s.fresh + 1)
    (hdb : ∀ n t, K.tagged s'.db n t → K.tagged s.db n t ∨ ∃ w ∈ writes, K.gives w n t)
    (hlog : ∀ i, ∀ w ∈ (s'.session i).log, w ∈ (s.session i).log ∨ w ∈ writes) :
    K.Agrees g' s' where
  committed n t htag := by
    rw [hfresh]
    rcases hdb n t htag with hold' | ⟨w, hw, hgives⟩
    · obtain ⟨hlt, heq⟩ := h.committed n t hold'
      exact ⟨by omega, (hold n hlt).trans heq⟩
    · obtain ⟨rfl, heq⟩ := hnew w hw n t hgives
      exact ⟨by omega, heq⟩
  pending i w hw n t hgives := by
    rw [hfresh]
    rcases hlog i w hw with hold' | hw
    · obtain ⟨hlt, heq⟩ := h.pending i w hold' n t hgives
      exact ⟨by omega, (hold n hlt).trans heq⟩
    · obtain ⟨rfl, heq⟩ := hnew w hw n t hgives
      exact ⟨by omega, heq⟩

/-- Nothing is drawn, and sessions only forget writes. -/
theorem Agrees.kept (h : K.Agrees g s) (hfresh : s.fresh ≤ s'.fresh)
    (hdb : ∀ n t, K.tagged s'.db n t → n < s.fresh ∧ g n = t)
    (hlog : ∀ i, ∀ w ∈ (s'.session i).log, w ∈ (s.session i).log) : K.Agrees g s' where
  committed n t htag := by
    obtain ⟨hlt, heq⟩ := hdb n t htag
    exact ⟨by omega, heq⟩
  pending i w hw n t hgives := by
    obtain ⟨hlt, heq⟩ := h.pending i w (hlog i w hw) n t hgives
    exact ⟨by omega, heq⟩

theorem log_setSession {i : ℕ} {σ : Session Write Loc} {writes : List Write}
    (hσ : ∀ w ∈ σ.log, w ∈ (s.session i).log ∨ w ∈ writes) (j : ℕ) :
    ∀ w ∈ ((s.setSession i σ).session j).log, w ∈ (s.session j).log ∨ w ∈ writes := by
  intro w hw
  by_cases hji : j = i
  · rw [hji, State.setSession_session_self] at hw
    rw [hji]
    exact hσ w hw
  · rw [State.setSession_session_of_ne hji] at hw
    exact Or.inl hw

theorem log_setSession_empty {i : ℕ} {next : Loc} {began : Option ℕ} (j : ℕ) :
    ∀ w ∈ ((s.setSession i ⟨next, [], began⟩).session j).log, w ∈ (s.session j).log := by
  intro w hw
  have hlog : w ∈ (s.session j).log ∨ w ∈ ([] : List Write) := log_setSession (by simp) j w hw
  rcases hlog with h | h
  · exact h
  · cases h

variable [DecidableEq Lock]

/-- Every step keeps identifiers unambiguous. -/
theorem step (hM : M.Tagging K)
    (ok : State Db World Lock Write Loc → Label Input Proc Op → Prop) :
    ∀ s l s', (∃ g, K.Agrees g s) → ok s l → M.step s l = some s' → ∃ g, K.Agrees g s' := by
  refine Machine.step_induction ?_ ?_ ?_ ?_ ?_ ?_ ?_ ?_ ?_
  · intro s i proc ⟨g, h⟩ _ _
    exact ⟨g, h.kept (Nat.le_refl _) h.committed log_setSession_empty⟩
  · intro s i input locks writes next ⟨g, h⟩ _ hact _
    obtain ⟨g', hold, hnew⟩ := (hM.stmt hact).extend g
    refine ⟨g', h.drawn hold hnew rfl (fun n t htag => Or.inl htag) fun j => ?_⟩
    exact log_setSession (fun w hw => List.mem_append.mp hw) j
  · intro s i input locks writes next ⟨g, h⟩ _ hact _
    obtain ⟨g', hold, hnew⟩ := (hM.auto hact).extend g
    refine ⟨g', h.drawn hold hnew rfl (fun n t htag => tagged_foldl hM htag) fun j w hw => ?_⟩
    exact Or.inl (log_setSession_empty j w hw)
  · intro s i input next ⟨g, h⟩ _ _
    exact ⟨g, h.kept (Nat.le_refl _) (fun n t htag => h.view hM i htag) log_setSession_empty⟩
  · intro s i input next ⟨g, h⟩ _ _
    exact ⟨g, h.kept (Nat.le_refl _) h.committed log_setSession_empty⟩
  · intro s i input world next ⟨g, h⟩ _ _
    exact ⟨g, h.kept (Nat.le_succ _) h.committed log_setSession_empty⟩
  · intro s i ⟨g, h⟩ _
    exact ⟨g, h.kept (Nat.le_refl _) h.committed log_setSession_empty⟩
  · intro s o locks writes ⟨g, h⟩ _ hop _
    obtain ⟨g', hold, hnew⟩ := (hM.op hop).extend g
    exact ⟨g', h.drawn hold hnew rfl (fun n t htag => tagged_foldl hM htag) fun _ _ hw => Or.inl hw⟩
  · intro s n ⟨g, h⟩ _
    exact ⟨g, h.kept (Nat.le_refl _) h.committed fun _ _ hw => hw⟩

end Tags

end RatatoskrVault.Lib
