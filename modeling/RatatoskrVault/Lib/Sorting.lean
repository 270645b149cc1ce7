import Mathlib.Data.List.Sort
import Mathlib.Data.Prod.Lex
import RatatoskrVault.Lib.Table

/-! Lists sorted by a key: one order for every arrangement of the same rows, and what is among the
first of them. -/
namespace RatatoskrVault.Lib

variable {Row β : Type} [LinearOrder β] {key : Row → β} {t t' : List Row} {r : Row} {n : ℕ}

/-- Rows of one key keep their order. -/
def sortBy (key : Row → β) (t : List Row) : List Row := t.insertionSort fun a b => key a ≤ key b

theorem perm_sortBy : (sortBy key t).Perm t := List.perm_insertionSort _ t

theorem mem_sortBy : r ∈ sortBy key t ↔ r ∈ t := perm_sortBy.mem_iff

theorem pairwise_sortBy : (sortBy key t).Pairwise fun a b => key a ≤ key b := by
  have htotal : Std.Total fun a b : Row => key a ≤ key b := ⟨fun a b => le_total _ _⟩
  have htrans : IsTrans Row fun a b => key a ≤ key b := ⟨fun _ _ _ => le_trans⟩
  exact List.pairwise_insertionSort _ t

theorem sortBy_eq_self (h : t.Pairwise fun a b => key a ≤ key b) : sortBy key t = t :=
  h.insertionSort_eq

/-- Distinct keys come in strictly increasing order. -/
theorem pairwise_lt_sortBy (h : (t.map key).Nodup) :
    (sortBy key t).Pairwise fun a b => key a < key b := by
  have hnodup : ((sortBy key t).map key).Nodup := (perm_sortBy.map key).nodup_iff.mpr h
  have hne : (sortBy key t).Pairwise fun a b => key a ≠ key b := List.pairwise_map.mp hnodup
  exact (pairwise_sortBy.and hne).imp fun hab => lt_of_le_of_ne hab.1 hab.2

/-- In an increasing list one row comes before another exactly if its key is smaller. -/
theorem pair_sublist_iff {a b : Row} (h : t.Pairwise fun a b => key a < key b) (ha : a ∈ t)
    (hb : b ∈ t) : [a, b].Sublist t ↔ key a < key b := by
  constructor
  · intro hsub
    have hpair := h.sublist hsub
    exact (List.pairwise_cons.mp hpair).1 b (List.mem_singleton_self b)
  · intro hlt
    obtain ⟨front, back, rfl⟩ := List.append_of_mem ha
    have hback : b ∈ back := by
      rcases List.mem_append.mp hb with hfront | hrest
      · have hafter := (List.pairwise_append.mp h).2.2 b hfront a (List.mem_cons_self ..)
        exact absurd hafter hlt.not_gt
      · rcases List.mem_cons.mp hrest with rfl | hback
        · exact absurd hlt (lt_irrefl _)
        · exact hback
    have htail : [a, b].Sublist (a :: back) := (List.singleton_sublist.mpr hback).cons_cons a
    exact htail.trans (List.sublist_append_right front _)

/-- The order does not depend on the order of the input. -/
theorem sortBy_eq_of_perm (hkey : IsKey key t) (h : t.Perm t') : sortBy key t = sortBy key t' := by
  have hperm : (sortBy key t).Perm (sortBy key t') := perm_sortBy.trans (h.trans perm_sortBy.symm)
  refine hperm.eq_of_pairwise (fun a b ha hb hab hba => ?_) pairwise_sortBy pairwise_sortBy
  have hb' : b ∈ t := h.mem_iff.mpr (mem_sortBy.mp hb)
  exact hkey a (mem_sortBy.mp ha) b hb' (le_antisymm hab hba)

/-- Rows of distinct keys are merged into the same order. -/
theorem mergeSort_eq_sortBy (hkey : IsKey key t) :
    (t.mergeSort fun a b => decide (key a ≤ key b)) = sortBy key t := by
  have hperm : (t.mergeSort fun a b => decide (key a ≤ key b)).Perm (sortBy key t) :=
    (List.mergeSort_perm t _).trans perm_sortBy.symm
  have hmerged : (t.mergeSort fun a b => decide (key a ≤ key b)).Pairwise
      fun a b => key a ≤ key b := by
    have hsorted := @List.pairwise_mergeSort Row (fun a b => decide (key a ≤ key b))
      (fun a b c => by simpa using le_trans) (fun a b => by simpa using le_total _ _) t
    exact hsorted.imp of_decide_eq_true
  refine hperm.eq_of_pairwise (fun a b ha hb hab hba => ?_) hmerged pairwise_sortBy
  exact hkey a ((List.mergeSort_perm t _).mem_iff.mp ha) b (mem_sortBy.mp hb) (le_antisymm hab hba)

/-- Among the first `n` of an increasing list are those that fewer than `n` come before. -/
theorem mem_take_of_pairwise (h : t.Pairwise fun a b => key a < key b) :
    r ∈ t.take n ↔ r ∈ t ∧ t.countP (fun a => key a < key r) < n := by
  induction t generalizing n with
  | nil => simp
  | cons a t ih =>
    obtain ⟨hhead, htail⟩ := List.pairwise_cons.mp h
    cases n with
    | zero => simp
    | succ n =>
      rw [List.take_succ_cons, List.mem_cons, List.mem_cons, List.countP_cons, ih htail]
      constructor
      · rintro (rfl | ⟨hmem, hcount⟩)
        · have hnone : t.countP (fun b => key b < key r) = 0 :=
            List.countP_eq_zero.mpr fun b hb => by simpa using (hhead b hb).le
          simp [hnone]
        · refine ⟨Or.inr hmem, ?_⟩
          split_ifs <;> omega
      · rintro ⟨rfl | hmem, hcount⟩
        · exact Or.inl rfl
        · have hlt : key a < key r := hhead r hmem
          simp only [hlt, decide_true, if_true] at hcount
          exact Or.inr ⟨hmem, by omega⟩

theorem mem_take_sortBy (h : (t.map key).Nodup) :
    r ∈ (sortBy key t).take n ↔ r ∈ t ∧ t.countP (fun a => key a < key r) < n := by
  rw [mem_take_of_pairwise (pairwise_lt_sortBy h), mem_sortBy, perm_sortBy.countP_eq]

/-- At least `n` rows, or all of them, come among the first `n`. -/
theorem le_countP_first (h : (t.map key).Nodup) {keeps : Row → Bool}
    (hkeeps : ∀ r ∈ t, t.countP (fun a => key a < key r) < n → keeps r = true) :
    min n t.length ≤ t.countP keeps := by
  have hfirst : ((sortBy key t).take n).countP keeps = min n t.length := by
    rw [List.countP_eq_length.mpr fun r hr => ?_, List.length_take, perm_sortBy.length_eq]
    obtain ⟨hmem, hcount⟩ := (mem_take_sortBy h).mp hr
    exact hkeeps r hmem hcount
  rw [← hfirst, ← (@perm_sortBy Row β _ key t).countP_eq]
  exact (List.take_sublist n _).countP_le

end RatatoskrVault.Lib
