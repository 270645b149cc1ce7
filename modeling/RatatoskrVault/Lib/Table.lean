import Mathlib.Data.List.MinMax
import Mathlib.Data.List.Nodup

/-! Tables as lists of rows: the update every keyed `UPDATE` statement performs, and how it
acts on membership and lookup. -/
namespace RatatoskrVault.Lib

variable {Row : Type*} {p q : Row → Bool} {f : Row → Row} {t : List Row} {r : Row}

/-- Rewrites the rows selected by `p` and keeps the others. -/
def updateWhere (p : Row → Bool) (f : Row → Row) (t : List Row) : List Row :=
  t.map fun r => if p r then f r else r

theorem mem_updateWhere :
    r ∈ updateWhere p f t ↔ (∃ r₀ ∈ t, p r₀ = true ∧ r = f r₀) ∨ (r ∈ t ∧ p r = false) := by
  simp only [updateWhere, List.mem_map]
  constructor
  · rintro ⟨r₀, hr₀, rfl⟩
    by_cases hp : p r₀ = true
    · exact Or.inl ⟨r₀, hr₀, hp, by simp [hp]⟩
    · have hp' : p r₀ = false := by simpa using hp
      exact Or.inr (by simp [hp', hr₀])
  · rintro (⟨r₀, hr₀, hp, rfl⟩ | ⟨hr, hp⟩)
    · exact ⟨r₀, hr₀, by simp [hp]⟩
    · exact ⟨r, hr, by simp [hp]⟩

/-- Every row after an update comes from one before it. -/
theorem of_mem_updateWhere (h : r ∈ updateWhere p f t) :
    ∃ r₀ ∈ t, (p r₀ = true ∧ r = f r₀) ∨ (p r₀ = false ∧ r = r₀) := by
  rcases mem_updateWhere.mp h with ⟨r₀, hr₀, hp, rfl⟩ | ⟨hr, hp⟩
  · exact ⟨r₀, hr₀, Or.inl ⟨hp, rfl⟩⟩
  · exact ⟨r, hr, Or.inr ⟨hp, rfl⟩⟩

/-- Every row before an update is still there, changed or not. -/
theorem mem_updateWhere_of_mem (h : r ∈ t) : (if p r then f r else r) ∈ updateWhere p f t :=
  List.mem_map.mpr ⟨r, h, rfl⟩

/-- A property of all rows that the update keeps. -/
theorem forall_updateWhere {P : Row → Prop} (h : ∀ r ∈ t, P r)
    (hf : ∀ r ∈ t, P r → p r = true → P (f r)) : ∀ r ∈ updateWhere p f t, P r := by
  intro r hr
  obtain ⟨r₀, hr₀, ⟨hp, rfl⟩ | ⟨-, rfl⟩⟩ := of_mem_updateWhere hr
  · exact hf r₀ hr₀ (h r₀ hr₀) hp
  · exact h r hr₀

/-- A lookup by a condition that the update neither creates nor destroys. -/
theorem find?_updateWhere (hq : ∀ r, q (f r) = q r) :
    (updateWhere p f t).find? q = (t.find? q).map fun r => if p r then f r else r := by
  have hcond : (q ∘ fun r => if p r then f r else r) = q := by
    funext r
    by_cases hp : p r = true <;> simp [hp, hq]
  rw [updateWhere, List.find?_map, hcond]

/-- A lookup by a condition that one row meets. -/
theorem find?_of_mem (hmem : r ∈ t) (hr : q r = true) (honly : ∀ r' ∈ t, q r' = true → r' = r) :
    t.find? q = some r := by
  cases hfind : t.find? q with
  | none =>
    rw [List.find?_eq_none] at hfind
    exact absurd hr (hfind r hmem)
  | some r' =>
    rw [honly r' (List.mem_of_find?_eq_some hfind) (List.find?_some hfind)]

theorem map_updateWhere {β : Type*} {g : Row → β} (hg : ∀ r, g (f r) = g r) :
    (updateWhere p f t).map g = t.map g := by
  simp only [updateWhere, List.map_map]
  apply List.map_congr_left
  intro r _
  by_cases hp : p r = true <;> simp [hp, hg]

section Key

variable {β : Type*} {key : Row → β}

/-- No two rows share a key. -/
def IsKey (key : Row → β) (t : List Row) : Prop := ∀ a ∈ t, ∀ b ∈ t, key a = key b → a = b

instance [DecidableEq Row] [DecidableEq β] : Decidable (IsKey key t) :=
  inferInstanceAs (Decidable (∀ a ∈ t, ∀ b ∈ t, key a = key b → a = b))

theorem IsKey.nil : IsKey key ([] : List Row) := fun _ h => absurd h List.not_mem_nil

theorem IsKey.append_singleton (h : IsKey key t) (hnew : ∀ a ∈ t, key a ≠ key r) :
    IsKey key (t ++ [r]) := by
  intro a ha b hb hab
  rcases List.mem_append.mp ha with ha | ha
  · rcases List.mem_append.mp hb with hb | hb
    · exact h a ha b hb hab
    · rw [List.mem_singleton.mp hb] at hab
      exact absurd hab (hnew a ha)
  · rw [List.mem_singleton.mp ha] at hab ⊢
    rcases List.mem_append.mp hb with hb | hb
    · exact absurd hab.symm (hnew b hb)
    · exact (List.mem_singleton.mp hb).symm

/-- Rows of a table are known by their keys, in lists as well. -/
theorem IsKey.eq_of_map_eq (h : IsKey key t) {l l' : List Row} (hl : ∀ a ∈ l, a ∈ t)
    (hl' : ∀ a ∈ l', a ∈ t) (hmap : l.map key = l'.map key) : l = l' := by
  induction l generalizing l' with
  | nil => exact (List.map_eq_nil_iff.mp hmap.symm).symm
  | cons a l ih =>
    cases l' with
    | nil => cases hmap
    | cons a' l' =>
      obtain ⟨hhead, htail⟩ := List.cons.inj hmap
      obtain ⟨ha, hrest⟩ := List.forall_mem_cons.mp hl
      obtain ⟨ha', hrest'⟩ := List.forall_mem_cons.mp hl'
      rw [h a ha a' ha' hhead, ih hrest hrest' htail]

/-- An update that leaves the keys alone. -/
theorem IsKey.updateWhere (h : IsKey key t) (hf : ∀ r, key (f r) = key r) :
    IsKey key (updateWhere p f t) := by
  have hkey : ∀ r, key (if p r then f r else r) = key r := by
    intro r
    by_cases hp : p r = true <;> simp [hp, hf]
  intro a ha b hb hab
  obtain ⟨a, ha', rfl⟩ := List.mem_map.mp ha
  obtain ⟨b, hb', rfl⟩ := List.mem_map.mp hb
  rw [hkey, hkey] at hab
  rw [h a ha' b hb' hab]

end Key

section Highest

variable {f : Row → ℕ} {t' : List Row}

/-- The first highest of two lists: that of the first list, or one of the second above it. -/
theorem argmax_append (h : (t ++ t').argmax f = some r) :
    t.argmax f = some r ∨ r ∈ t' ∧ ∀ a ∈ t, f a < f r := by
  induction t' using List.reverseRecOn generalizing r with
  | nil => exact Or.inl (by simpa using h)
  | append_singleton t' last ih =>
    rw [← List.append_assoc, List.argmax_concat] at h
    cases hbefore : (t ++ t').argmax f with
    | none =>
      rw [hbefore] at h
      obtain rfl := Option.some.inj h
      have hnil := List.argmax_eq_none.mp hbefore
      rw [List.append_eq_nil_iff] at hnil
      refine Or.inr ⟨by simp, ?_⟩
      rw [hnil.1]
      exact fun r hr => absurd hr List.not_mem_nil
    | some c =>
      rw [hbefore] at h
      dsimp only at h
      split_ifs at h with hlt
      · obtain rfl := Option.some.inj h
        refine Or.inr ⟨by simp, fun r hr => ?_⟩
        have hle : f r ≤ f c := List.le_of_mem_argmax (List.mem_append_left _ hr) hbefore
        omega
      · obtain rfl := Option.some.inj h
        refine (ih hbefore).imp_right fun ⟨hmem, hhighest⟩ => ⟨?_, hhighest⟩
        exact List.mem_append_left _ hmem

end Highest

end RatatoskrVault.Lib
