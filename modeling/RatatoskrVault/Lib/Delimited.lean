import Mathlib.Data.List.Basic

/-! Encodings without lengths: what an encoding of a list says about its items, when each item can
be told from what follows it. -/
namespace RatatoskrVault.Lib

variable {α β γ δ : Type}

/-- An encoding tells what is read of an item, and where the item ends. -/
def Delimits (encode : α → List β) (read : α → γ) (P : α → Prop) : Prop :=
  ∀ a a' rest rest', P a → P a' → encode a ++ rest = encode a' ++ rest' →
    read a = read a' ∧ rest = rest'

/-- A text is cut at its first separator. -/
theorem append_separator_inj {separator : β} {first first' rest rest' : List β}
    (h : separator ∉ first) (h' : separator ∉ first')
    (heq : first ++ separator :: rest = first' ++ separator :: rest') :
    first = first' ∧ rest = rest' := by
  induction first generalizing first' with
  | nil =>
    cases first' with
    | nil => exact ⟨rfl, (List.cons.inj heq).2⟩
    | cons b tail => exact absurd ((List.cons.inj heq).1 ▸ List.mem_cons_self) h'
  | cons b tail ih =>
    cases first' with
    | nil => exact absurd ((List.cons.inj heq).1 ▸ List.mem_cons_self) h
    | cons b' tail' =>
      obtain ⟨hb, htail⟩ := List.cons.inj heq
      obtain ⟨hsame, hrest⟩ := ih (fun hmem => h (List.mem_cons_of_mem _ hmem))
        (fun hmem => h' (List.mem_cons_of_mem _ hmem)) htail
      exact ⟨by rw [hb, hsame], hrest⟩

namespace Delimits

variable {encode encode' : α → List β} {read : α → γ} {read' : α → δ} {P Q : α → Prop}

theorem mono (h : Delimits encode read P) (hPQ : ∀ a, Q a → P a) : Delimits encode read Q :=
  fun a a' rest rest' ha ha' heq => h a a' rest rest' (hPQ a ha) (hPQ a' ha') heq

/-- A field ends at the first separator. -/
theorem terminated (separator : β) (field : α → List β) :
    Delimits (fun a => field a ++ [separator]) field (fun a => separator ∉ field a) := by
  intro a a' rest rest' ha ha' heq
  rw [List.append_assoc, List.append_assoc, List.singleton_append, List.singleton_append] at heq
  exact append_separator_inj ha ha' heq

/-- One field after another. -/
theorem append (h : Delimits encode read P) (h' : Delimits encode' read' P) :
    Delimits (fun a => encode a ++ encode' a) (fun a => (read a, read' a)) P := by
  intro a a' rest rest' ha ha' heq
  rw [List.append_assoc, List.append_assoc] at heq
  obtain ⟨hread, hrest⟩ := h a a' _ _ ha ha' heq
  obtain ⟨hread', hrest'⟩ := h' a a' _ _ ha ha' hrest
  exact ⟨Prod.ext hread hread', hrest'⟩

/-- A list is read item by item. -/
theorem flatMap (h : Delimits encode read P) (hne : ∀ a, P a → encode a ≠ [])
    {items items' : List α} (hitems : ∀ a ∈ items, P a) (hitems' : ∀ a ∈ items', P a)
    (heq : items.flatMap encode = items'.flatMap encode) : items.map read = items'.map read := by
  induction items generalizing items' with
  | nil =>
    cases items' with
    | nil => rfl
    | cons a' rest' =>
      rw [List.flatMap_nil, List.flatMap_cons] at heq
      have hempty := List.append_eq_nil_iff.mp heq.symm
      exact absurd hempty.1 (hne a' (hitems' a' List.mem_cons_self))
  | cons a rest ih =>
    rw [List.forall_mem_cons] at hitems
    cases items' with
    | nil =>
      rw [List.flatMap_nil, List.flatMap_cons] at heq
      exact absurd (List.append_eq_nil_iff.mp heq).1 (hne a hitems.1)
    | cons a' rest' =>
      rw [List.forall_mem_cons] at hitems'
      rw [List.flatMap_cons, List.flatMap_cons] at heq
      obtain ⟨hread, hrest⟩ := h a a' _ _ hitems.1 hitems'.1 heq
      rw [List.map_cons, List.map_cons, hread, ih hitems.2 hitems'.2 hrest]

end Delimits

end RatatoskrVault.Lib
