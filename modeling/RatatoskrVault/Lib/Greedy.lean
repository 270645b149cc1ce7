import Mathlib.Algebra.GroupWithZero.Nat
import Mathlib.Algebra.BigOperators.Group.List.Basic
import Mathlib.Algebra.Order.BigOperators.Group.List
import Mathlib.Algebra.Order.Group.Nat
import Mathlib.Data.List.Induction
import Mathlib.Data.List.Nodup

/-! Greedy admission: one pass over a list that takes what its rule lets pass, and leaves the rest
with the reason it was refused. -/
namespace RatatoskrVault.Lib

variable {α ρ : Type}

/-- Each item meets the rule once, beside what has been taken before it. -/
def greedy (refuses : List α → α → Option ρ) (items : List α) : List α × List (α × ρ) :=
  items.foldl (fun out a =>
    match refuses out.1 a with
    | none => (out.1 ++ [a], out.2)
    | some reason => (out.1, out.2 ++ [(a, reason)])) ([], [])

section Pass

variable {refuses : List α → α → Option ρ} {items front back : List α} {a : α} {reason : ρ}

theorem greedy_concat_of_taken (h : refuses (greedy refuses items).1 a = none) :
    greedy refuses (items ++ [a]) = ((greedy refuses items).1 ++ [a], (greedy refuses items).2) := by
  unfold greedy at h ⊢
  rw [List.foldl_append, List.foldl_cons, List.foldl_nil, h]

theorem greedy_concat_of_left (h : refuses (greedy refuses items).1 a = some reason) :
    greedy refuses (items ++ [a]) =
      ((greedy refuses items).1, (greedy refuses items).2 ++ [(a, reason)]) := by
  unfold greedy at h ⊢
  rw [List.foldl_append, List.foldl_cons, List.foldl_nil, h]

/-- What comes later only adds to what has been taken and left. -/
theorem greedy_append : ∃ taken left, greedy refuses (front ++ back) =
      ((greedy refuses front).1 ++ taken, (greedy refuses front).2 ++ left) ∧
    taken.Sublist back ∧ (left.map Prod.fst).Sublist back := by
  induction back using List.reverseRecOn with
  | nil => exact ⟨[], [], by simp, List.Sublist.refl _, List.Sublist.refl _⟩
  | append_singleton back a ih =>
    obtain ⟨taken, left, hpass, htaken, hleft⟩ := ih
    rw [← List.append_assoc]
    cases hrule : refuses (greedy refuses (front ++ back)).1 a with
    | none =>
      refine ⟨taken ++ [a], left, ?_, htaken.append_right _, ?_⟩
      · rw [greedy_concat_of_taken hrule, hpass, List.append_assoc]
      · exact hleft.trans (List.sublist_append_left _ _)
    | some reason =>
      refine ⟨taken, left ++ [(a, reason)], ?_, htaken.trans (List.sublist_append_left _ _), ?_⟩
      · rw [greedy_concat_of_left hrule, hpass, List.append_assoc]
      · rw [List.map_append]
        exact hleft.append_right _

theorem sublist_taken : (greedy refuses items).1.Sublist items := by
  obtain ⟨taken, left, hpass, htaken, -⟩ := @greedy_append α ρ refuses [] items
  rw [List.nil_append] at hpass
  rw [hpass]
  exact htaken

theorem sublist_left : ((greedy refuses items).2.map Prod.fst).Sublist items := by
  obtain ⟨taken, left, hpass, -, hleft⟩ := @greedy_append α ρ refuses [] items
  rw [List.nil_append] at hpass
  rw [hpass]
  exact hleft

/-- Nothing is lost and nothing comes twice. -/
theorem perm_greedy :
    ((greedy refuses items).1 ++ (greedy refuses items).2.map Prod.fst).Perm items := by
  induction items using List.reverseRecOn with
  | nil => exact List.Perm.refl _
  | append_singleton items a ih =>
    cases hrule : refuses (greedy refuses items).1 a with
    | none =>
      rw [greedy_concat_of_taken hrule, List.append_assoc]
      have hmove : ([a] ++ (greedy refuses items).2.map Prod.fst).Perm
          ((greedy refuses items).2.map Prod.fst ++ [a]) := List.perm_append_comm
      refine (hmove.append_left _).trans ?_
      rw [← List.append_assoc]
      exact ih.append_right [a]
    | some reason =>
      rw [greedy_concat_of_left hrule, List.map_append, ← List.append_assoc]
      exact ih.append_right _

/-- What the rule keeps true of the taken items holds in the end. -/
theorem taken_invariant {P : List α → Prop} (hnil : P [])
    (hstep : ∀ taken a, P taken → refuses taken a = none → P (taken ++ [a])) :
    P (greedy refuses items).1 := by
  induction items using List.reverseRecOn with
  | nil => exact hnil
  | append_singleton items a ih =>
    cases hrule : refuses (greedy refuses items).1 a with
    | none =>
      rw [greedy_concat_of_taken hrule]
      exact hstep _ a ih hrule
    | some reason =>
      rw [greedy_concat_of_left hrule]
      exact ih

section Turn

variable [DecidableEq α]

/-- A part of a list without repetition is what it holds of the list. -/
theorem filter_mem_of_sublist {part whole : List α} (h : part.Sublist whole)
    (hnodup : whole.Nodup) : whole.filter (· ∈ part) = part := by
  have hself : part.filter (· ∈ part) = part :=
    List.filter_eq_self.mpr fun a ha => by simpa using ha
  have hsub : part.Sublist (whole.filter (· ∈ part)) := by
    have hfilter := h.filter fun a => decide (a ∈ part)
    rwa [hself] at hfilter
  have hlength : (whole.filter (· ∈ part)).length ≤ part.length := by
    refine (List.subperm_of_subset (hnodup.filter _) fun a ha => ?_).length_le
    simpa using (List.mem_filter.mp ha).2
  exact (hsub.eq_of_length_le hlength).symm

/-- What was taken before an item's turn, read off the end of the pass. -/
theorem taken_before (hnodup : (front ++ back).Nodup) :
    front.filter (· ∈ (greedy refuses (front ++ back)).1) = (greedy refuses front).1 := by
  obtain ⟨hfront, -, hdisjoint⟩ := List.nodup_append'.mp hnodup
  obtain ⟨taken, left, hpass, htaken, -⟩ := @greedy_append α ρ refuses front back
  have hsame : ∀ x ∈ front, decide (x ∈ (greedy refuses (front ++ back)).1) =
      decide (x ∈ (greedy refuses front).1) := by
    intro x hx
    have hnot : x ∉ taken := fun h => hdisjoint hx (htaken.subset h)
    simp [hpass, hnot]
  rw [List.filter_congr hsame]
  exact filter_mem_of_sublist sublist_taken hfront

/-- An item is left for a reason exactly if the rule had that reason at its turn. -/
theorem mem_left_iff (hnodup : (front ++ a :: back).Nodup) :
    (a, reason) ∈ (greedy refuses (front ++ a :: back)).2 ↔
      refuses (front.filter (· ∈ (greedy refuses (front ++ a :: back)).1)) a = some reason := by
  rw [taken_before hnodup]
  obtain ⟨-, hback, hdisjoint⟩ := List.nodup_append'.mp hnodup
  have hother : a ∉ back := (List.nodup_cons.mp hback).1
  have hfront : a ∉ front := fun h => hdisjoint h (by simp)
  obtain ⟨taken, left, hpass, -, hleft⟩ := @greedy_append α ρ refuses (front ++ [a]) back
  rw [List.append_assoc, List.singleton_append] at hpass
  have hlater : (a, reason) ∉ left := fun h => hother (hleft.subset (List.mem_map_of_mem h))
  have hearlier : (a, reason) ∉ (greedy refuses front).2 :=
    fun h => hfront (sublist_left.subset (List.mem_map_of_mem h))
  rw [hpass]
  cases hrule : refuses (greedy refuses front).1 a with
  | none =>
    rw [greedy_concat_of_taken hrule]
    simp [hlater, hearlier]
  | some other =>
    rw [greedy_concat_of_left hrule]
    simp [hlater, hearlier, eq_comm]

end Turn

end Pass

section Caps

/-- Why an item is left: so many have been taken, or it does not fit what is left of the budget. -/
inductive Limit
  | items | bytes
  deriving DecidableEq

/-- At most so many items, of so many bytes together. -/
structure Caps where
  items : ℕ
  bytes : ℕ
  deriving DecidableEq

variable (caps : Caps) (size : α → ℕ)

def Caps.refuses (taken : List α) (a : α) : Option Limit :=
  if caps.items ≤ taken.length then some .items
  else if caps.bytes < (taken.map size).sum + size a then some .bytes
  else none

theorem Caps.refuses_eq_none {taken : List α} {a : α} :
    caps.refuses size taken a = none ↔
      taken.length < caps.items ∧ (taken.map size).sum + size a ≤ caps.bytes := by
  unfold Caps.refuses
  split_ifs with hitems hbytes
  · simp only [false_iff]
    omega
  · simp only [false_iff]
    omega
  · simp only [true_iff]
    omega

theorem Caps.refuses_eq_items {taken : List α} {a : α} :
    caps.refuses size taken a = some .items ↔ caps.items ≤ taken.length := by
  unfold Caps.refuses
  split_ifs with hitems hbytes
  · simp [hitems]
  · simp [hitems]
  · simp [hitems]

theorem Caps.refuses_eq_bytes {taken : List α} {a : α} :
    caps.refuses size taken a = some .bytes ↔
      taken.length < caps.items ∧ caps.bytes < (taken.map size).sum + size a := by
  unfold Caps.refuses
  split_ifs with hitems hbytes
  · simp only [Option.some.injEq, reduceCtorEq, false_iff]
    omega
  · simp only [true_iff]
    omega
  · simp only [false_iff]
    omega

/-- The caps hold of what has been taken. -/
theorem Caps.within (items : List α) :
    (greedy (caps.refuses size) items).1.length ≤ caps.items ∧
      (((greedy (caps.refuses size) items).1).map size).sum ≤ caps.bytes := by
  refine taken_invariant (P := fun taken => taken.length ≤ caps.items ∧
    (taken.map size).sum ≤ caps.bytes) ?_ ?_
  · exact ⟨Nat.zero_le _, Nat.zero_le _⟩
  · intro taken a hwithin hrule
    obtain ⟨hitems, hbytes⟩ := (caps.refuses_eq_none size).mp hrule
    rw [List.length_append, List.map_append, List.sum_append, List.length_singleton,
      List.map_singleton, List.sum_singleton]
    omega

end Caps

end RatatoskrVault.Lib
