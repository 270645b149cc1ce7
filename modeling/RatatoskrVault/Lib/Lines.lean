import Mathlib.Data.List.Basic
import Mathlib.Data.List.Induction

/-! The lines of a text over any alphabet, and of its image under an encoding of the alphabet. -/
namespace RatatoskrVault.Lib

variable {α β : Type} [DecidableEq α] [DecidableEq β] {lf cr : α} {text : List α}

/-- The pieces of a text up to and with each line feed. -/
def splitInclusive (lf : α) : List α → List (List α)
  | [] => []
  | c :: rest =>
    if c = lf then [c] :: splitInclusive lf rest
    else
      match splitInclusive lf rest with
      | [] => [[c]]
      | line :: lines => (c :: line) :: lines

/-- A line without its line feed, and without the carriage return before it. -/
def stripLineEnd (lf cr : α) (line : List α) : List α :=
  if line.getLast? = some lf then
    if line.dropLast.getLast? = some cr then line.dropLast.dropLast else line.dropLast
  else line

def lines (lf cr : α) (text : List α) : List (List α) :=
  (splitInclusive lf text).map (stripLineEnd lf cr)

theorem flatten_splitInclusive : (splitInclusive lf text).flatten = text := by
  induction text with
  | nil => rfl
  | cons c rest ih =>
    unfold splitInclusive
    split_ifs
    · rw [List.flatten_cons, ih]
      rfl
    · cases h : splitInclusive lf rest with
      | nil =>
        rw [h] at ih
        rw [← ih]
        rfl
      | cons line lines =>
        rw [h, List.flatten_cons] at ih
        rw [List.flatten_cons, List.cons_append, ih]

/-- Only the end of a line is stripped. -/
theorem mem_of_stripLineEnd_eq_nil {line : List α} (h : stripLineEnd lf cr line = []) :
    ∀ c ∈ line, c = lf ∨ c = cr := by
  unfold stripLineEnd at h
  intro c hc
  split_ifs at h with hlf hcr
  · have hline : line.dropLast ++ [lf] = line := List.dropLast_append_getLast? lf hlf
    have hpart : line.dropLast.dropLast ++ [cr] = line.dropLast :=
      List.dropLast_append_getLast? cr hcr
    rw [← hline, ← hpart, h] at hc
    simpa [or_comm] using hc
  · have hline : line.dropLast ++ [lf] = line := List.dropLast_append_getLast? lf hlf
    rw [← hline, h] at hc
    exact Or.inl (by simpa using hc)
  · rw [h] at hc
    cases hc

/-- A text without a line that says anything is made of line ends. -/
theorem eq_of_mem_of_lines_empty (h : ∀ line ∈ lines lf cr text, line = []) :
    ∀ c ∈ text, c = lf ∨ c = cr := by
  intro c hc
  have hflatten : (splitInclusive lf text).flatten = text := flatten_splitInclusive
  rw [← hflatten] at hc
  obtain ⟨line, hline, hmem⟩ := List.mem_flatten.mp hc
  exact mem_of_stripLineEnd_eq_nil (h _ (List.mem_map.mpr ⟨line, hline, rfl⟩)) c hmem

/-- An encoding that keeps line ends apart from everything else. -/
structure Encoding (lf cr : α) (lf' cr' : β) where
  encode : α → List β
  encode_lf : encode lf = [lf']
  encode_cr : encode cr = [cr']
  encode_ne_nil : ∀ c, encode c ≠ []
  lf_not_mem : ∀ c, c ≠ lf → lf' ∉ encode c
  cr_not_mem : ∀ c, c ≠ cr → cr' ∉ encode c

theorem splitInclusive_append {piece : List α} (hne : piece ≠ []) (hlf : lf ∉ piece) :
    splitInclusive lf (piece ++ text)
      = match splitInclusive lf text with
        | [] => [piece]
        | line :: lines => (piece ++ line) :: lines := by
  induction piece with
  | nil => exact absurd rfl hne
  | cons c piece ih =>
    obtain ⟨hc, hpiece⟩ := not_or.mp (fun h => hlf (List.mem_cons.mpr h))
    rw [List.cons_append, splitInclusive, if_neg (Ne.symm hc)]
    by_cases hnil : piece = []
    · rw [hnil]
      rfl
    · rw [ih hnil hpiece]
      cases splitInclusive lf text <;> rfl

/-- A text starts with its first line. -/
theorem splitInclusive_line {line : List α} (hline : lf ∉ line) :
    splitInclusive lf (line ++ lf :: text) = (line ++ [lf]) :: splitInclusive lf text := by
  have hhead : splitInclusive lf (lf :: text) = [lf] :: splitInclusive lf text := by
    rw [splitInclusive, if_pos rfl]
  by_cases hnil : line = []
  · rw [hnil]
    exact hhead
  · rw [splitInclusive_append hnil hline, hhead]

theorem stripLineEnd_line (line : List α) :
    stripLineEnd lf cr (line ++ [lf]) =
      if line.getLast? = some cr then line.dropLast else line := by
  unfold stripLineEnd
  rw [if_pos List.getLast?_concat, List.dropLast_concat]

theorem lines_line {line : List α} (hline : lf ∉ line) : lines lf cr (line ++ lf :: text) =
    (if line.getLast? = some cr then line.dropLast else line) :: lines lf cr text := by
  unfold lines
  rw [splitInclusive_line hline, List.map_cons, stripLineEnd_line]

/-- A piece has no line feed but the one it ends with. -/
theorem lf_not_mem_of_mem_splitInclusive {piece : List α} (h : piece ∈ splitInclusive lf text) :
    lf ∉ piece ∨ ∃ line, lf ∉ line ∧ piece = line ++ [lf] := by
  induction text generalizing piece with
  | nil => exact absurd h List.not_mem_nil
  | cons c rest ih =>
    unfold splitInclusive at h
    split_ifs at h with hc
    · rcases List.mem_cons.mp h with heq | hmem
      · exact Or.inr ⟨[], List.not_mem_nil, by rw [heq, hc, List.nil_append]⟩
      · exact ih hmem
    · cases hsplit : splitInclusive lf rest with
      | nil =>
        rw [hsplit] at h
        rw [List.mem_singleton.mp h]
        exact Or.inl fun hmem => hc (List.mem_singleton.mp hmem).symm
      | cons first later =>
        rw [hsplit] at h ih
        rcases List.mem_cons.mp h with heq | hmem
        · rcases ih List.mem_cons_self with hfirst | ⟨line, hline, hfirst⟩
          · exact Or.inl (by simp [heq, hfirst, Ne.symm hc])
          · exact Or.inr ⟨c :: line, by simp [hline, Ne.symm hc], by rw [heq, hfirst]; rfl⟩
        · exact ih (List.mem_cons_of_mem _ hmem)

/-- A line has no line feed. -/
theorem lf_not_mem_of_mem_lines {line : List α} (h : line ∈ lines lf cr text) : lf ∉ line := by
  obtain ⟨piece, hpiece, rfl⟩ := List.mem_map.mp h
  rcases lf_not_mem_of_mem_splitInclusive hpiece with hfree | ⟨line, hline, rfl⟩
  · unfold stripLineEnd
    rw [if_neg fun hlast => hfree (List.mem_of_getLast? hlast)]
    exact hfree
  · rw [stripLineEnd_line]
    split_ifs
    · exact fun hmem => hline (List.dropLast_subset line hmem)
    · exact hline

namespace Encoding

variable {lf' cr' : β} (E : Encoding lf cr lf' cr')

theorem splitInclusive_flatMap :
    splitInclusive lf' (text.flatMap E.encode)
      = (splitInclusive lf text).map fun line => line.flatMap E.encode := by
  induction text with
  | nil => rfl
  | cons c rest ih =>
    rw [List.flatMap_cons]
    by_cases hc : c = lf
    · rw [hc, E.encode_lf, List.singleton_append, splitInclusive, if_pos rfl, splitInclusive,
        if_pos rfl, ih, List.map_cons, List.flatMap_singleton, E.encode_lf]
    · rw [splitInclusive_append (E.encode_ne_nil c) (E.lf_not_mem c hc), ih, splitInclusive,
        if_neg hc]
      cases splitInclusive lf rest with
      | nil => simp
      | cons line lines => simp

omit [DecidableEq α] [DecidableEq β] in
theorem getLast?_flatMap (c' : β) (c : α) (hself : E.encode c = [c'])
    (hother : ∀ d, d ≠ c → c' ∉ E.encode d) (line : List α) :
    (line.flatMap E.encode).getLast? = some c' ↔ line.getLast? = some c := by
  induction line using List.reverseRecOn with
  | nil => simp
  | append_singleton line d _ =>
    rw [List.getLast?_concat, List.flatMap_append, List.flatMap_singleton,
      List.getLast?_append_of_ne_nil _ (E.encode_ne_nil d)]
    constructor
    · intro h
      by_contra hne
      exact hother d (fun hd => hne (congrArg some hd)) (List.mem_of_getLast? h)
    · intro h
      rw [Option.some.inj h, hself]
      rfl

omit [DecidableEq α] [DecidableEq β] in
theorem dropLast_flatMap (c' : β) (c : α) (hself : E.encode c = [c']) {line : List α}
    (h : line.getLast? = some c) :
    (line.flatMap E.encode).dropLast = line.dropLast.flatMap E.encode := by
  have hline : line.dropLast ++ [c] = line := List.dropLast_append_getLast? c h
  rw [← hline, List.flatMap_append, List.flatMap_singleton, hself, List.dropLast_concat,
    List.dropLast_concat]

theorem stripLineEnd_flatMap (line : List α) :
    stripLineEnd lf' cr' (line.flatMap E.encode) = (stripLineEnd lf cr line).flatMap E.encode := by
  have hlast := E.getLast?_flatMap lf' lf E.encode_lf E.lf_not_mem
  have hlast' := E.getLast?_flatMap cr' cr E.encode_cr E.cr_not_mem
  unfold stripLineEnd
  simp only [hlast]
  by_cases hlf : line.getLast? = some lf
  · rw [if_pos hlf, if_pos hlf, E.dropLast_flatMap lf' lf E.encode_lf hlf]
    simp only [hlast']
    split_ifs with hcr
    · exact E.dropLast_flatMap cr' cr E.encode_cr hcr
    · rfl
  · rw [if_neg hlf, if_neg hlf]

/-- The lines of an encoded text are the encoded lines. -/
theorem lines_flatMap :
    lines lf' cr' (text.flatMap E.encode)
      = (lines lf cr text).map fun line => line.flatMap E.encode := by
  rw [lines, E.splitInclusive_flatMap, lines, List.map_map, List.map_map]
  exact List.map_congr_left fun line _ => E.stripLineEnd_flatMap line

omit [DecidableEq α] [DecidableEq β] in
theorem flatMap_eq_nil {line : List α} : line.flatMap E.encode = [] ↔ line = [] := by
  cases line with
  | nil => simp
  | cons c line => simp [E.encode_ne_nil]

end Encoding

end RatatoskrVault.Lib
