import Mathlib.Algebra.GroupWithZero.Nat
import Mathlib.Algebra.BigOperators.Group.List.Basic

/-! Sums in a bounded type of numbers: saturating ones, and ones that overflow with a panic or
wrap around. -/
namespace RatatoskrVault.Lib

variable {max : ℕ} {overflowChecks : Bool} {total : ℕ} {sizes : List ℕ}

def saturatingSum (max total : ℕ) (sizes : List ℕ) : ℕ :=
  sizes.foldl (fun total size => min (total + size) max) total

/-- One addition; there is no result where overflow checks are compiled in and it overflows. -/
def machineAdd (max : ℕ) (overflowChecks : Bool) (total size : ℕ) : Option ℕ :=
  if total + size ≤ max then some (total + size)
  else if overflowChecks then none
  else some ((total + size) % (max + 1))

def machineSum (max : ℕ) (overflowChecks : Bool) (total : ℕ) (sizes : List ℕ) : Option ℕ :=
  sizes.foldlM (machineAdd max overflowChecks) total

theorem saturatingSum_eq (h : total ≤ max) :
    saturatingSum max total sizes = min (total + sizes.sum) max := by
  induction sizes generalizing total with
  | nil =>
    show total = _
    rw [List.sum_nil]
    omega
  | cons size sizes ih =>
    have hstep : saturatingSum max total (size :: sizes)
        = saturatingSum max (min (total + size) max) sizes := rfl
    rw [hstep, ih (Nat.min_le_right ..), List.sum_cons]
    omega

/-- The sum panics or wraps exactly if it does not fit, wherever it overflows on the way. -/
theorem machineSum_eq (h : total ≤ max) :
    machineSum max overflowChecks total sizes =
      if total + sizes.sum ≤ max then some (total + sizes.sum)
      else if overflowChecks then none
      else some ((total + sizes.sum) % (max + 1)) := by
  induction sizes generalizing total with
  | nil =>
    rw [List.sum_nil, Nat.add_zero, if_pos h]
    rfl
  | cons size sizes ih =>
    have hstep : machineSum max overflowChecks total (size :: sizes)
        = (machineAdd max overflowChecks total size).bind fun total =>
            machineSum max overflowChecks total sizes := rfl
    rw [hstep, machineAdd, List.sum_cons, ← Nat.add_assoc]
    by_cases hfits : total + size ≤ max
    · rw [if_pos hfits]
      exact ih hfits
    · rw [if_neg hfits, if_neg (show ¬ total + size + sizes.sum ≤ max by omega)]
      cases overflowChecks with
      | true => rfl
      | false =>
        have hwrapped : (total + size) % (max + 1) ≤ max :=
          Nat.lt_succ_iff.mp (Nat.mod_lt _ (Nat.succ_pos _))
        have hsum : ((total + size) % (max + 1) + sizes.sum) % (max + 1)
            = (total + size + sizes.sum) % (max + 1) := Nat.mod_add_mod ..
        simp only [Bool.false_eq_true, if_false, Option.bind_some]
        rw [ih hwrapped]
        simp only [Bool.false_eq_true, if_false]
        split
        · rename_i hle
          rw [← hsum, Nat.mod_eq_of_lt (Nat.lt_succ_iff.mpr hle)]
        · rw [hsum]

/-- A sum that fits in a smaller type is neither saturated nor wrapped. -/
theorem machineSum_of_le (h : sizes.sum ≤ max) :
    machineSum max overflowChecks 0 sizes = some sizes.sum := by
  rw [machineSum_eq (Nat.zero_le _), Nat.zero_add, if_pos h]

end RatatoskrVault.Lib
