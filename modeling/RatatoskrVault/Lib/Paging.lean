import Mathlib.Data.List.Nodup

/-! Pages of a list cut by a cursor: each call returns the first rows beyond the cursor that the
last row of the page before it left. -/
namespace RatatoskrVault.Lib

variable {Row Cursor : Type*}

/-- Which rows lie beyond a cursor, and the cursor a row leaves. -/
structure Paging (Row Cursor : Type*) where
  beyond : Cursor → Row → Bool
  cursorOf : Row → Cursor

namespace Paging

variable (P : Paging Row Cursor) (limit : ℕ) (rows : List Row)

/-- The rows that are still to come. -/
def rest : Option Cursor → List Row
  | none => rows
  | some c => rows.filter (P.beyond c)

/-- Pages until one is shorter than the limit; nothing where the calls do not suffice. -/
def visit : ℕ → Option Cursor → Option (List Row)
  | 0, _ => none
  | calls + 1, after =>
    let page := (P.rest rows after).take limit
    if page.length < limit then some page
    else
      match page.getLast? with
      | none => none
      | some last => (visit calls (some (P.cursorOf last))).map (page ++ ·)

/-- The calls return every row once, in the order of the list. -/
def Visits : Prop := ∃ calls, P.visit limit rows calls none = some rows

/-- The cursor of the last row of every full page lies between this row and the next. -/
def Aligned : Prop :=
  ∀ k row, 0 < k → rows[k * limit - 1]? = some row →
    P.beyond (P.cursorOf row) row = false ∧
      ∀ later ∈ rows.drop (k * limit), P.beyond (P.cursorOf row) later = true

/-- What lies beyond a cursor is a last part of the list. -/
def Upward : Prop := ∀ c, rows.Pairwise fun a b => P.beyond c a = true → P.beyond c b = true

variable {P limit rows}

theorem exists_drop {beyond : Row → Bool}
    (h : rows.Pairwise fun a b => beyond a = true → beyond b = true) :
    ∃ m ≤ rows.length, rows.filter beyond = rows.drop m := by
  induction rows with
  | nil => exact ⟨0, Nat.le_refl _, rfl⟩
  | cons a rows ih =>
    obtain ⟨hhead, htail⟩ := List.pairwise_cons.mp h
    by_cases ha : beyond a = true
    · refine ⟨0, Nat.zero_le _, ?_⟩
      rw [List.drop_zero, List.filter_eq_self]
      intro b hb
      rcases List.mem_cons.mp hb with rfl | hb
      · exact ha
      · exact hhead b hb ha
    · obtain ⟨m, hm, hfilter⟩ := ih htail
      refine ⟨m + 1, Nat.succ_le_succ hm, ?_⟩
      rw [List.filter_cons_of_neg ha, hfilter, List.drop_succ_cons]

/-- The rows beyond a cursor are those after its row where the cursor lies between the two. -/
theorem filter_eq_drop_iff {beyond : Row → Bool} {n : ℕ} {row : Row}
    (h : rows.Pairwise fun a b => beyond a = true → beyond b = true) (hn : 0 < n)
    (hrow : rows[n - 1]? = some row) :
    rows.filter beyond = rows.drop n ↔
      beyond row = false ∧ ∀ later ∈ rows.drop n, beyond later = true := by
  have hsplit : rows.filter beyond = (rows.take n).filter beyond ++ (rows.drop n).filter beyond := by
    rw [← List.filter_append, List.take_append_drop]
  have htake : rows.take n = rows.take (n - 1) ++ [row] := by
    obtain ⟨n, rfl⟩ := Nat.exists_eq_succ_of_ne_zero (Nat.ne_of_gt hn)
    rw [List.take_add_one]
    simp only [Nat.succ_sub_one] at hrow ⊢
    rw [hrow]
    rfl
  constructor
  · intro heq
    have hlater : ∀ later ∈ rows.drop n, beyond later = true := fun later hmem =>
      (List.mem_filter.mp (heq.symm ▸ hmem)).2
    refine ⟨?_, hlater⟩
    rw [heq, List.filter_eq_self.mpr hlater] at hsplit
    have hnone : (rows.take n).filter beyond = [] := List.self_eq_append_left.mp hsplit
    rw [List.filter_eq_nil_iff] at hnone
    simpa using hnone row (by rw [htake]; simp)
  · rintro ⟨hrow', hlater⟩
    have hnone : (rows.take n).filter beyond = [] := by
      rw [List.filter_eq_nil_iff, htake]
      have hbefore := h.sublist (List.take_sublist n rows)
      rw [htake, List.pairwise_append] at hbefore
      intro a ha hbeyond
      rcases List.mem_append.mp ha with ha | ha
      · have hbad := hbefore.2.2 a ha row (List.mem_singleton_self _) hbeyond
        rw [hrow'] at hbad
        cases hbad
      · rw [List.mem_singleton.mp ha, hrow'] at hbeyond
        cases hbeyond
    rw [hsplit, hnone, List.nil_append, List.filter_eq_self.mpr hlater]

/-- The last row of a full page. -/
theorem getLast?_page {n : ℕ} (hlimit : 0 < limit)
    (hfull : ¬ ((rows.drop n).take limit).length < limit) :
    ∃ row, ((rows.drop n).take limit).getLast? = some row ∧ rows[n + limit - 1]? = some row := by
  rw [List.length_take, List.length_drop] at hfull
  have hlt : n + limit - 1 < rows.length := by omega
  refine ⟨rows[n + limit - 1], ?_, List.getElem?_eq_getElem hlt⟩
  rw [List.getLast?_eq_getElem?, List.length_take, List.length_drop,
    show min limit (rows.length - n) = limit by omega, List.getElem?_take_of_lt (by omega),
    List.getElem?_drop, show n + (limit - 1) = n + limit - 1 by omega]
  exact List.getElem?_eq_getElem hlt

variable (hlimit : 0 < limit)

include hlimit

/-- From a cursor that lies where it should, aligned pages return all the rest. -/
theorem visit_of_aligned (halign : P.Aligned limit rows) (hup : P.Upward rows) (calls k : ℕ)
    (after : Option Cursor) (hrest : P.rest rows after = rows.drop (k * limit))
    (hcalls : rows.length - k * limit < calls) :
    P.visit limit rows calls after = some (rows.drop (k * limit)) := by
  induction calls generalizing k after with
  | zero => exact absurd hcalls (Nat.not_lt_zero _)
  | succ calls ih =>
    unfold visit
    rw [hrest]
    dsimp only
    split_ifs with hshort
    · rw [List.length_take, List.length_drop] at hshort
      rw [List.take_of_length_le (by rw [List.length_drop]; omega)]
    · obtain ⟨row, hlast, hrow⟩ := getLast?_page hlimit hshort
      rw [hlast]
      rw [List.length_take, List.length_drop] at hshort
      have hnext : (k + 1) * limit = k * limit + limit := by rw [Nat.add_mul, Nat.one_mul]
      rw [← hnext] at hrow
      have hbeyond : P.rest rows (some (P.cursorOf row)) = rows.drop ((k + 1) * limit) :=
        (filter_eq_drop_iff (hup _) (by omega) hrow).mpr (halign (k + 1) row (by omega) hrow)
      show (P.visit limit rows calls (some (P.cursorOf row))).map _ = _
      rw [ih (k + 1) _ hbeyond (by omega), Option.map_some, hnext, ← List.drop_drop,
        List.take_append_drop]

omit hlimit in
/-- What is returned begins with the page of the first call. -/
theorem prefix_visit {calls : ℕ} {after : Option Cursor} {out : List Row}
    (h : P.visit limit rows calls after = some out) : (P.rest rows after).take limit <+: out := by
  cases calls with
  | zero => cases h
  | succ calls =>
    unfold visit at h
    dsimp only at h
    split at h
    · exact Option.some.inj h ▸ List.prefix_rfl
    · split at h
      · cases h
      · obtain ⟨later, -, rfl⟩ := Option.map_eq_some_iff.mp h
        exact List.prefix_append _ _

omit hlimit in
/-- Only rows of the list are returned. -/
theorem mem_of_visit {calls : ℕ} {after : Option Cursor} {out : List Row}
    (h : P.visit limit rows calls after = some out) : ∀ row ∈ out, row ∈ rows := by
  have hrest : ∀ after, ∀ row ∈ (P.rest rows after).take limit, row ∈ rows := by
    intro after row hrow
    have hmem := List.mem_of_mem_take hrow
    cases after with
    | none => exact hmem
    | some c => exact (List.mem_filter.mp hmem).1
  induction calls generalizing after out with
  | zero => cases h
  | succ calls ih =>
    unfold visit at h
    dsimp only at h
    split at h
    · exact Option.some.inj h ▸ hrest after
    · split at h
      · cases h
      · obtain ⟨later, hlater, rfl⟩ := Option.map_eq_some_iff.mp h
        intro row hrow
        rcases List.mem_append.mp hrow with hrow | hrow
        · exact hrest after row hrow
        · exact ih hlater row hrow

/-- With nothing left, the next call is the last. -/
theorem visit_of_rest_nil {calls : ℕ} {after : Option Cursor} {out : List Row}
    (hrest : P.rest rows after = []) (h : P.visit limit rows calls after = some out) :
    [] = out := by
  cases calls with
  | zero => cases h
  | succ calls =>
    unfold visit at h
    rw [hrest] at h
    dsimp only at h
    have hshort : ([] : List Row).length < limit := hlimit
    rw [List.take_nil, if_pos hshort] at h
    exact Option.some.inj h

/-- Two last parts of a list without repetition, where one begins with the first page of the
other. -/
theorem drop_eq_of_prefix {m n : ℕ} (hnodup : rows.Nodup) (hm : m ≤ rows.length)
    (hinitial : (rows.drop m).take limit <+: rows.drop n)
    (hempty : m = rows.length → rows.drop n = []) :
    rows.drop m = rows.drop n := by
  by_cases hend : m = rows.length
  · rw [hempty hend, hend, List.drop_length]
  · have hlt : m < rows.length := by omega
    have hhead : rows[m]? = rows[n]? := by
      have hfirst := List.prefix_iff_getElem?.mp hinitial 0 (by
        rw [List.length_take, List.length_drop]
        omega)
      rw [List.getElem?_drop, Nat.add_zero] at hfirst
      rw [hfirst, List.getElem_take, List.getElem_drop]
      simp
    have hlt' : n < rows.length := by
      rw [List.getElem?_eq_getElem hlt] at hhead
      exact (List.getElem?_eq_some_iff.mp hhead.symm).1
    rw [List.getElem?_eq_getElem hlt, List.getElem?_eq_getElem hlt'] at hhead
    rw [hnodup.getElem_inj_iff.mp (Option.some.inj hhead)]

/-- Calls that have returned the rows once and in order have met aligned pages only. -/
theorem aligned_of_visit (hnodup : rows.Nodup) (hup : P.Upward rows) (calls k : ℕ)
    (after : Option Cursor) (hrest : P.rest rows after = rows.drop (k * limit))
    (hvisit : P.visit limit rows calls after = some (rows.drop (k * limit))) :
    ∀ k' row, k < k' → rows[k' * limit - 1]? = some row →
      P.beyond (P.cursorOf row) row = false ∧
        ∀ later ∈ rows.drop (k' * limit), P.beyond (P.cursorOf row) later = true := by
  induction calls generalizing k after with
  | zero => cases hvisit
  | succ calls ih =>
    intro k' row' hk hrow'
    have hnext : (k + 1) * limit = k * limit + limit := by rw [Nat.add_mul, Nat.one_mul]
    have hle : (k + 1) * limit ≤ k' * limit := Nat.mul_le_mul_right limit hk
    have hbound := (List.getElem?_eq_some_iff.mp hrow').1
    unfold visit at hvisit
    rw [hrest] at hvisit
    dsimp only at hvisit
    split at hvisit
    · rename_i hshort
      rw [List.length_take, List.length_drop] at hshort
      omega
    · rename_i hfull
      obtain ⟨row, hlast, hrow⟩ := getLast?_page hlimit hfull
      rw [hlast] at hvisit
      obtain ⟨later, hlater, happend⟩ := Option.map_eq_some_iff.mp hvisit
      have hdrop : later = rows.drop ((k + 1) * limit) := by
        rw [hnext, ← List.drop_drop]
        refine List.append_cancel_left (happend.trans ?_)
        exact (List.take_append_drop limit _).symm
      rw [hdrop] at hlater
      rw [← hnext] at hrow
      obtain ⟨m, hm, hbeyond⟩ := exists_drop (hup (P.cursorOf row))
      have hinitial := prefix_visit hlater
      have hempty : m = rows.length → rows.drop ((k + 1) * limit) = [] := by
        intro hend
        refine (visit_of_rest_nil hlimit ?_ hlater).symm
        show rows.filter _ = []
        rw [hbeyond, hend, List.drop_length]
      have hsame : P.rest rows (some (P.cursorOf row)) = rows.drop ((k + 1) * limit) := by
        show rows.filter _ = _
        rw [hbeyond]
        refine drop_eq_of_prefix hlimit hnodup hm ?_ hempty
        rw [← hbeyond]
        exact hinitial
      by_cases heq : k' = k + 1
      · subst heq
        obtain rfl := Option.some.inj (hrow.symm.trans hrow')
        exact (filter_eq_drop_iff (hup _) (by omega) hrow).mp hsame
      · exact ih (k + 1) _ hsame hlater k' row' (by omega) hrow'

/-- The calls return every row once and in order where all full pages are aligned, and only
there. -/
theorem visits_iff (hnodup : rows.Nodup) (hup : P.Upward rows) :
    P.Visits limit rows ↔ P.Aligned limit rows := by
  constructor
  · rintro ⟨calls, hvisit⟩ k row hk hrow
    have hstart : rows.drop (0 * limit) = rows := by rw [Nat.zero_mul, List.drop_zero]
    exact aligned_of_visit hlimit hnodup hup calls 0 none hstart.symm (hstart.symm ▸ hvisit) k row hk
      hrow
  · intro halign
    have hstart : rows.drop (0 * limit) = rows := by rw [Nat.zero_mul, List.drop_zero]
    have hvisit := visit_of_aligned hlimit halign hup (rows.length + 1) 0 none hstart.symm (by omega)
    rw [hstart] at hvisit
    exact ⟨_, hvisit⟩

end Paging

end RatatoskrVault.Lib
