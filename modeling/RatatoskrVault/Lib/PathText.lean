import RatatoskrVault.Lib.FileTree

/-! The components of a path as it is written. -/
namespace RatatoskrVault.Lib

inductive PathComponent
  | rootDir | curDir | parentDir
  | normal (part : FileName)
  deriving DecidableEq

/-- What a piece between two separators says; an empty one and a dot say nothing. -/
def PathComponent.ofPiece (piece : FileName) : Option PathComponent :=
  if piece = [] ∨ piece = ['.'] then none
  else if piece = ['.', '.'] then some .parentDir
  else some (.normal piece)

/-- The components of a path text; a dot is one where the text starts with it. -/
def components (text : List Char) : List PathComponent :=
  let pieces := text.splitOn '/'
  (if isAbsolute text then [.rootDir] else if pieces.head? = some ['.'] then [.curDir] else []) ++
    pieces.filterMap PathComponent.ofPiece

section

variable {text : List Char} {part piece : FileName}

theorem ofPiece_eq_normal : PathComponent.ofPiece piece = some (.normal part) ↔
    piece = part ∧ part ≠ [] ∧ part ≠ ['.'] ∧ part ≠ ['.', '.'] := by
  unfold PathComponent.ofPiece
  split_ifs with hempty hdots
  · simp only [false_iff]
    rintro ⟨rfl, hne, hdot, -⟩
    exact hempty.elim hne hdot
  · simp only [Option.some.injEq, reduceCtorEq, false_iff]
    rintro ⟨rfl, -, -, hne⟩
    exact hne hdots
  · simp only [Option.some.injEq, PathComponent.normal.injEq]
    constructor
    · rintro rfl
      exact ⟨rfl, fun h => hempty (Or.inl h), fun h => hempty (Or.inr h), hdots⟩
    · exact fun h => h.1

/-- A normal component is a name. -/
theorem real_of_mem_components (h : .normal part ∈ components text) :
    part ≠ ['.'] ∧ part ≠ ['.', '.'] := by
  unfold components at h
  rcases List.mem_append.mp h with hlead | hpiece
  · split_ifs at hlead <;> simp at hlead
  · obtain ⟨piece, -, hpiece⟩ := List.mem_filterMap.mp hpiece
    exact (ofPiece_eq_normal.mp hpiece).2.2

theorem rootDir_mem_components : .rootDir ∈ components text ↔ isAbsolute text = true := by
  unfold components
  rw [List.mem_append]
  constructor
  · rintro (hlead | hpiece)
    · split_ifs at hlead with habsolute
      · exact habsolute
      · simp at hlead
      · simp at hlead
    · obtain ⟨piece, -, hpiece⟩ := List.mem_filterMap.mp hpiece
      unfold PathComponent.ofPiece at hpiece
      split_ifs at hpiece <;> simp at hpiece
  · intro h
    rw [if_pos h]
    exact Or.inl (List.mem_singleton.mpr rfl)

/-- The first piece of a text that does not start with a separator is not empty. -/
theorem splitOn_cons {c : Char} (hc : c ≠ '/') : ∃ piece pieces,
    (c :: text).splitOn '/' = (c :: piece) :: pieces := by
  obtain ⟨piece, pieces, hpieces⟩ :=
    List.exists_cons_of_ne_nil (List.splitOnP_ne_nil (· == '/') text)
  refine ⟨piece, pieces, ?_⟩
  rw [List.splitOn_eq_splitOnP, List.splitOnP_cons_eq_if_modifyHead, if_neg (by simpa using hc),
    hpieces, List.modifyHead_cons]

/-- Only the empty text has no component. -/
theorem components_eq_nil : components text = [] ↔ text = [] := by
  constructor
  · intro h
    by_contra hne
    obtain ⟨c, rest, rfl⟩ := List.exists_cons_of_ne_nil hne
    unfold components at h
    obtain ⟨hlead, hpieces⟩ := List.append_eq_nil_iff.mp h
    split_ifs at hlead with habsolute hdot
    have hc : c ≠ '/' := by
      rintro rfl
      exact habsolute rfl
    obtain ⟨piece, pieces, hsplit⟩ := splitOn_cons hc
    rw [hsplit] at hdot hpieces
    have hfirst := List.filterMap_eq_nil_iff.mp hpieces _ List.mem_cons_self
    have hpiece : c :: piece ≠ ['.'] := fun heq => hdot (congrArg some heq)
    unfold PathComponent.ofPiece at hfirst
    rw [if_neg (not_or.mpr ⟨List.cons_ne_nil _ _, hpiece⟩)] at hfirst
    split_ifs at hfirst
  · rintro rfl
    rfl

end

end RatatoskrVault.Lib
