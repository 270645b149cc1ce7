import Mathlib.Data.List.Infix

/-! Replacing patterns in a text: from the left, each occurrence of a pattern that does not overlap
the one before it gives way to a mark, and so one pattern after the other. Where no pattern is found
over a mark, this is cutting the occurrences out of the text, which leaves gaps that no pattern
matches. -/
namespace RatatoskrVault.Lib.Replacing

section Block

variable {α β : Type} {view : α → β} {pattern : List β} {block : List α}

/-- An item lies in an occurrence of a pattern. -/
def Inside (view : α → β) (patterns : List (List β)) (text : List α) (a : α) : Prop :=
  ∃ pattern ∈ patterns, pattern ≠ [] ∧
    ∃ block, block <:+: text ∧ block.map view = pattern ∧ a ∈ block

theorem Inside.mono {patterns patterns' : List (List β)} {text : List α} {a : α}
    (h : Inside view patterns text a) (hsub : patterns ⊆ patterns') :
    Inside view patterns' text a := by
  obtain ⟨pattern, hmem, hrest⟩ := h
  exact ⟨pattern, hsub hmem, hrest⟩

end Block

section Gaps

variable {α : Type} {mark : List α} {IsMark : α → Prop} {block text : List α}
  {tokens : List (Option α)}

/-- A text with the mark in its gaps. -/
def render (mark : List α) : List (Option α) → List α
  | [] => []
  | none :: tokens => mark ++ render mark tokens
  | some a :: tokens => a :: render mark tokens

/-- A text of which blocks are cut out. -/
inductive Remains : List α → List (Option α) → Prop
  | nil : Remains [] []
  | keep {rest : List α} {tokens : List (Option α)} (a : α) : Remains rest tokens →
      Remains (a :: rest) (some a :: tokens)
  | cut {rest : List α} {tokens : List (Option α)} (gone : List α) : Remains rest tokens →
      Remains (gone ++ rest) (none :: tokens)

namespace Remains

theorem map_some (text : List α) : Remains text (text.map some) := by
  induction text with
  | nil => exact .nil
  | cons a text ih => exact .keep a ih

/-- What is kept is kept in order. -/
theorem sublist (h : Remains text tokens) : (tokens.filterMap id).Sublist text := by
  induction h with
  | nil => exact .slnil
  | keep a _ ih => exact ih.cons_cons a
  | cut gone _ ih => exact ih.trans (List.sublist_append_right _ _)

end Remains

end Gaps

section Scan

variable {α β : Type} [DecidableEq β] (view : α → β) (mark : List α) (pattern : List β)

/-- The text with the pattern replaced, after the next items are skipped. -/
def replaceFrom : ℕ → List α → List α
  | _, [] => []
  | skip + 1, _ :: text => replaceFrom skip text
  | 0, a :: text =>
    if pattern <+: (a :: text).map view then mark ++ replaceFrom (pattern.length - 1) text
    else a :: replaceFrom 0 text

/-- The occurrences that are replaced. -/
def foundFrom : ℕ → List α → List (List α)
  | _, [] => []
  | skip + 1, _ :: text => foundFrom skip text
  | 0, a :: text =>
    if pattern <+: (a :: text).map view then
      (a :: text).take pattern.length :: foundFrom (pattern.length - 1) text
    else foundFrom 0 text

def replaceAll (text : List α) : List α := replaceFrom view mark pattern 0 text

def found (text : List α) : List (List α) := foundFrom view pattern 0 text

variable {view mark pattern}

variable {block text : List α}

end Scan

/-! One pattern after the other, in a text and in a text with gaps. -/

section Each

variable {α β : Type} [DecidableEq β] (view : α → β) (mark : List α) (IsMark : α → Prop)

/-- The pattern replaced by gaps; a gap matches nothing. -/
def cutOut (pattern : List β) (tokens : List (Option α)) : List (Option α) :=
  replaceAll (Option.map view) [none] (pattern.map some) tokens

def cutEach : List (List β) → List (Option α) → List (Option α)
  | [], tokens => tokens
  | pattern :: patterns, tokens =>
    cutEach patterns (if pattern = [] then tokens else cutOut view pattern tokens)

/-- No pattern is found over a mark. -/
def Quiet : List (List β) → List (Option α) → Prop
  | [], _ => True
  | pattern :: patterns, tokens =>
    (pattern ≠ [] → ∀ block ∈ found view pattern (render mark tokens), ∀ a ∈ block, ¬IsMark a) ∧
      Quiet patterns (if pattern = [] then tokens else cutOut view pattern tokens)

variable {view mark IsMark} {pattern : List β} {block text : List α} {tokens : List (Option α)}

end Each

end RatatoskrVault.Lib.Replacing
