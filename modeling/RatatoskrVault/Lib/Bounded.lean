import RatatoskrVault.Lib.ReadCommitted

/-! Procedures that take a bounded number of steps: a measure of their locations that every action
lowers. -/
namespace RatatoskrVault.Lib

variable {Db World Lock Write Loc Input Proc Op : Type}

/-- Where a step leads. -/
def Action.next : Action World Lock Write Loc → Loc
  | .stmt _ _ next => next
  | .auto _ _ next => next
  | .commit next => next
  | .rollback next => next
  | .call _ next => next

theorem Action.next_map {Loc' : Type} (f : Loc → Loc') (a : Action World Lock Write Loc) :
    (a.map f).next = f a.next := by
  cases a <;> rfl

/-- Session `i` neither stops nor begins anything else. -/
def Label.Continues (i : ℕ) : Label Input Proc Op → Prop
  | .start j _ => j ≠ i
  | .abort j => j ≠ i
  | _ => True

/-- The steps of session `i` in a run. -/
def ownSteps (i : ℕ) (ls : List (Label Input Proc Op)) : ℕ :=
  ls.countP fun l => l.session? == some i

/-- A label of session `i` that continues it executes it. -/
theorem Label.eq_exec {i : ℕ} {l : Label Input Proc Op} (h : l.Continues i)
    (hl : l.session? = some i) : ∃ input, l = .exec i input := by
  cases l with
  | start j proc => exact absurd (Option.some.inj hl) h
  | abort j => exact absurd (Option.some.inj hl) h
  | exec j input =>
    obtain rfl := Option.some.inj hl
    exact ⟨input, rfl⟩
  | op o => cases hl
  | tick n => cases hl

namespace Machine

variable {M : Machine Db World Lock Write Loc Input Proc Op} {s s' : State Db World Lock Write Loc}
  {i : ℕ}

/-- Every action from a location of `C` stays in `C`, with less left to do. -/
structure Descends (M : Machine Db World Lock Write Loc Input Proc Op) (C : Loc → Prop)
    (left : Loc → ℕ) : Prop where
  stays : ∀ {loc m db world input a}, C loc → M.act loc m db world input = some a → C a.next
  lower : ∀ {loc m db world input a}, C loc → M.act loc m db world input = some a →
    left a.next < left loc

variable [DecidableEq Lock]

theorem step_exec {input : Input} (h : M.step s (.exec i input) = some s') :
    ∃ a, M.act (s.session i).loc (s.moment i) (M.view s i) s.world input = some a ∧
      M.perform s i a = some s' ∧ (s'.session i).loc = a.next := by
  obtain ⟨a, ha, hp⟩ := Option.bind_eq_some_iff.mp h
  refine ⟨a, ha, hp, ?_⟩
  have hself : ∀ σ : Session Write Loc, ((s.setSession i σ).session i).loc = σ.loc := fun σ => by
    rw [State.setSession_session_self]
  cases a with
  | stmt locks writes next =>
    simp only [perform] at hp
    split_ifs at hp
    obtain rfl := Option.some.inj hp
    exact hself _
  | auto locks writes next =>
    simp only [perform] at hp
    split_ifs at hp
    obtain rfl := Option.some.inj hp
    exact hself _
  | commit next => obtain rfl := Option.some.inj hp; exact hself _
  | rollback next => obtain rfl := Option.some.inj hp; exact hself _
  | call world next => obtain rfl := Option.some.inj hp; exact hself _

/-- A run in which session `i` continues takes at most as many of its steps as are left. -/
theorem Descends.ownSteps_le {C : Loc → Prop} {left : Loc → ℕ} (h : M.Descends C left)
    {ls : List (Label Input Proc Op)} (hC : C (s.session i).loc)
    (hcontinues : ∀ l ∈ ls, l.Continues i) (hrun : run M.step s ls = some s') :
    C (s'.session i).loc ∧ ownSteps i ls + left (s'.session i).loc ≤ left (s.session i).loc := by
  induction ls generalizing s with
  | nil =>
    obtain rfl : s = s' := by simpa [run] using hrun
    exact ⟨hC, by simp [ownSteps]⟩
  | cons l ls ih =>
    obtain ⟨s₁, hs, hrest⟩ := Option.bind_eq_some_iff.mp hrun
    have hlater : ∀ l ∈ ls, l.Continues i := fun l hl => hcontinues l (List.mem_cons_of_mem _ hl)
    by_cases hl : l.session? = some i
    · obtain ⟨input, rfl⟩ := Label.eq_exec (hcontinues l (List.mem_cons_self ..)) hl
      obtain ⟨a, ha, -, hloc⟩ := step_exec hs
      have hlower := h.lower hC ha
      have hstays := h.stays hC ha
      rw [← hloc] at hlower hstays
      obtain ⟨hend, hcount⟩ := ih hstays hlater hrest
      refine ⟨hend, ?_⟩
      unfold ownSteps at hcount ⊢
      rw [List.countP_cons_of_pos (by simp [Label.session?])]
      omega
    · have hsame : s₁.session i = s.session i := step_session_of_ne hs hl
      obtain ⟨hend, hcount⟩ := ih (hsame ▸ hC) hlater hrest
      rw [hsame] at hcount
      refine ⟨hend, ?_⟩
      unfold ownSteps at hcount ⊢
      rw [List.countP_cons_of_neg (by simpa using hl)]
      exact hcount

end Machine

end RatatoskrVault.Lib
