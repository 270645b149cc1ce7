import Mathlib.Data.List.Basic
import RatatoskrVault.Lib.Runs

/-! Accounts of runs: what the steps of a run spend is covered by what the run starts with and what
its steps earn. -/
namespace RatatoskrVault.Lib

variable {State Label : Type*} (step : State → Label → Option State)

/-- What an amount for each step adds up to along a run. -/
def total (amount : State → Label → ℕ) : State → List Label → ℕ
  | _, [] => 0
  | s, l :: ls => amount s l + ((step s l).map fun s' => total amount s' ls).getD 0

variable {step} {spent earned : State → Label → ℕ} {s s' : State} {ls : List Label}

theorem total_cons {l : Label} (h : step s l = some s') :
    total step spent s (l :: ls) = spent s l + total step spent s' ls := by
  rw [total, h]
  rfl

theorem total_zero : total step (fun _ _ => 0) s ls = 0 := by
  induction ls generalizing s with
  | nil => rfl
  | cons l ls ih =>
    unfold total
    cases hs : step s l with
    | none => rfl
    | some next => simp [ih]

/-- Every step is paid from the stock and from what it earns. -/
theorem total_add_le {ok : State → Label → Prop} {I : State → Prop} (stock : State → ℕ)
    (hstep : ∀ s l s', I s → ok s l → step s l = some s' →
      I s' ∧ spent s l + stock s' ≤ stock s + earned s l)
    (hrun : run step s ls = some s') (hok : Along step ok s ls) (h : I s) :
    total step spent s ls + stock s' ≤ stock s + total step earned s ls := by
  induction ls generalizing s with
  | nil =>
    obtain rfl : s = s' := by simpa [run] using hrun
    simp [total]
  | cons l ls ih =>
    obtain ⟨next, hs, hrest⟩ := Option.bind_eq_some_iff.mp hrun
    obtain ⟨hnext, hpaid⟩ := hstep s l next h hok.1 hs
    have hlater := ih hrest (hok.2 next hs) hnext
    rw [total_cons hs, total_cons hs]
    omega

end RatatoskrVault.Lib
