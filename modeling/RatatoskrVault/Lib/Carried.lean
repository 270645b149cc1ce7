import RatatoskrVault.Lib.ReadCommitted

/-! Identifiers that sessions carry from the step that drew them: no two sessions carry the same,
and none carries one that is still to be drawn. -/
namespace RatatoskrVault.Lib

variable {Db World Lock Write Loc Input Proc Op : Type} {carried : Loc → Option ℕ}

/-- A location carries what the one before it did, or what its step has drawn, or nothing. -/
structure Machine.Carries (M : Machine Db World Lock Write Loc Input Proc Op)
    (carried : Loc → Option ℕ) : Prop where
  start : ∀ proc, carried (M.start proc) = none
  aborted : carried M.aborted = none
  stmt : ∀ {loc m db world input locks writes next},
    M.act loc m db world input = some (.stmt locks writes next) →
    carried next = none ∨ carried next = carried loc ∨ carried next = some m.fresh
  auto : ∀ {loc m db world input locks writes next},
    M.act loc m db world input = some (.auto locks writes next) →
    carried next = none ∨ carried next = carried loc ∨ carried next = some m.fresh
  commit : ∀ {loc m db world input next},
    M.act loc m db world input = some (.commit next) →
    carried next = none ∨ carried next = carried loc
  rollback : ∀ {loc m db world input next},
    M.act loc m db world input = some (.rollback next) →
    carried next = none ∨ carried next = carried loc
  call : ∀ {loc m db world input world' next},
    M.act loc m db world input = some (.call world' next) →
    carried next = none ∨ carried next = carried loc ∨ carried next = some m.fresh

/-- No two sessions carry one identifier, and none carries one to come. -/
structure Carried (carried : Loc → Option ℕ) (s : State Db World Lock Write Loc) : Prop where
  below : ∀ i k, carried (s.session i).loc = some k → k < s.fresh
  apart : ∀ i j k, carried (s.session i).loc = some k → carried (s.session j).loc = some k → i = j

namespace Carried

variable {s s' : State Db World Lock Write Loc} {i : ℕ} {σ : Session Write Loc}

/-- One session has moved, and an identifier it has drawn is used up. -/
theorem moved (h : Carried carried s) (hsession : s'.session = (s.setSession i σ).session)
    (hfresh : s.fresh ≤ s'.fresh)
    (hσ : carried σ.loc = none ∨ carried σ.loc = carried (s.session i).loc ∨
      (carried σ.loc = some s.fresh ∧ s.fresh < s'.fresh)) : Carried carried s' := by
  have hself : s'.session i = σ := by rw [hsession, State.setSession_session_self]
  have hother : ∀ j, j ≠ i → s'.session j = s.session j := fun j hji => by
    rw [hsession, State.setSession_session_of_ne hji]
  -- a moved session shares its identifier with none of the others
  have happart : ∀ j k, j ≠ i → carried σ.loc = some k →
      carried (s.session j).loc ≠ some k := by
    intro j k hji hk hj
    rcases hσ with hnone | hkept | ⟨hdrawn, -⟩
    · rw [hnone] at hk
      cases hk
    · exact hji (h.apart j i k hj (hkept ▸ hk))
    · rw [hdrawn] at hk
      obtain rfl := Option.some.inj hk
      exact Nat.lt_irrefl _ (h.below j _ hj)
  constructor
  · intro j k hk
    by_cases hji : j = i
    · rw [hji, hself] at hk
      rcases hσ with hnone | hkept | ⟨hdrawn, hused⟩
      · rw [hnone] at hk
        cases hk
      · exact Nat.lt_of_lt_of_le (h.below i k (hkept ▸ hk)) hfresh
      · rw [hdrawn] at hk
        obtain rfl := Option.some.inj hk
        exact hused
    · rw [hother j hji] at hk
      exact Nat.lt_of_lt_of_le (h.below j k hk) hfresh
  · intro j l k hj hl
    by_cases hji : j = i
    · by_cases hli : l = i
      · rw [hji, hli]
      · rw [hji, hself] at hj
        rw [hother l hli] at hl
        exact absurd hl (happart l k hli hj)
    · rw [hother j hji] at hj
      by_cases hli : l = i
      · rw [hli, hself] at hl
        exact absurd hj (happart j k hji hl)
      · rw [hother l hli] at hl
        exact h.apart j l k hj hl

theorem step [DecidableEq Lock] {M : Machine Db World Lock Write Loc Input Proc Op}
    (hM : M.Carries carried) :
    ∀ s (l : Label Input Proc Op) s', Carried carried s → M.step s l = some s' →
      Carried carried s' := by
  suffices hstep : ∀ s (l : Label Input Proc Op) s', Carried carried s → True →
      M.step s l = some s' → Carried carried s' from fun s l s' h hs => hstep s l s' h trivial hs
  have hnext : ∀ {next loc : Loc} {n : ℕ}, carried next = none ∨ carried next = carried loc ∨
      carried next = some n → carried next = none ∨ carried next = carried loc ∨
        (carried next = some n ∧ n < n + 1) := fun h =>
    h.imp_right fun h => h.imp_right fun h => ⟨h, Nat.lt_succ_self _⟩
  refine Machine.step_induction (I := Carried carried) ?_ ?_ ?_ ?_ ?_ ?_ ?_ ?_ ?_
  · intro s i proc h _ _
    exact h.moved (i := i) rfl (Nat.le_refl _) (Or.inl (hM.start proc))
  · intro s i input locks writes next h _ hact _
    exact h.moved (i := i) rfl (Nat.le_succ _) (hnext (hM.stmt hact))
  · intro s i input locks writes next h _ hact _
    exact h.moved (i := i) rfl (Nat.le_succ _) (hnext (hM.auto hact))
  · intro s i input next h _ hact
    exact h.moved (i := i) rfl (Nat.le_refl _) ((hM.commit hact).imp_right Or.inl)
  · intro s i input next h _ hact
    exact h.moved (i := i) rfl (Nat.le_refl _) ((hM.rollback hact).imp_right Or.inl)
  · intro s i input world next h _ hact
    exact h.moved (i := i) rfl (Nat.le_succ _) (hnext (hM.call hact))
  · intro s i h _
    exact h.moved (i := i) rfl (Nat.le_refl _) (Or.inl hM.aborted)
  · intro s o locks writes h _ _ _
    exact ⟨fun i k hk => Nat.lt_succ_of_lt (h.below i k hk), h.apart⟩
  · intro s n h _
    exact ⟨h.below, h.apart⟩

end Carried

end RatatoskrVault.Lib
