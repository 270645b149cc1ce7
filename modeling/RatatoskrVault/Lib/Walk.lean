import Mathlib.Data.List.Basic
import Mathlib.Data.List.Nodup
import Mathlib.Data.Nat.Notation

/-! Following links one after the other, with a limit on their number and a stop at the second visit
of a key: what a walk returns, why it fails, and what it looks up. -/
namespace RatatoskrVault.Lib

variable {ρ κ ε : Type} [DecidableEq κ]

section

variable (key : ρ → κ) (cycle tooDeep : ε)

/-- From `current` on; `passed` has been visited, and `depth` more visits are allowed. -/
def walkM {m : Type → Type} [Monad m] (next : ρ → m (Except ε (Option ρ))) :
    ℕ → List ρ → ρ → m (Except ε (List ρ))
  | 0, _, _ => pure (.error tooDeep)
  | depth + 1, passed, current =>
    if key current ∈ passed.map key then pure (.error cycle)
    else next current >>= fun
      | .error e => pure (.error e)
      | .ok none => pure (.ok (passed ++ [current]))
      | .ok (some parent) => walkM next depth (passed ++ [current]) parent

variable (next : ρ → Except ε (Option ρ))

/-- The walk along links that do not depend on when they are looked up. -/
def walk : ℕ → List ρ → ρ → Except ε (List ρ)
  | 0, _, _ => .error tooDeep
  | depth + 1, passed, current =>
    if key current ∈ passed.map key then .error cycle
    else match next current with
      | .error e => .error e
      | .ok none => .ok (passed ++ [current])
      | .ok (some parent) => walk depth (passed ++ [current]) parent

/-- What the walk looks up, in order. -/
def lookups : ℕ → List ρ → ρ → List ρ
  | 0, _, _ => []
  | depth + 1, passed, current =>
    if key current ∈ passed.map key then []
    else match next current with
      | .ok (some parent) => current :: lookups depth (passed ++ [current]) parent
      | _ => [current]

end

/-- A lookup that is put on record. -/
def logged {β : Type} (f : ρ → β) (reference : ρ) : StateM (List ρ) β :=
  fun log => (f reference, log ++ [reference])

/-- Each reference links to the next one. -/
def Linked (next : ρ → Except ε (Option ρ)) : List ρ → Prop
  | current :: parent :: rest => next current = .ok (some parent) ∧ Linked next (parent :: rest)
  | _ => True

/-- Each reference links to the next one, and the last to none. -/
def Complete (next : ρ → Except ε (Option ρ)) : List ρ → Prop
  | [] => False
  | [last] => next last = .ok none
  | current :: parent :: rest => next current = .ok (some parent) ∧ Complete next (parent :: rest)

section

variable {key : ρ → κ} {cycle tooDeep : ε} {next : ρ → Except ε (Option ρ)} {depth : ℕ}
  {passed : List ρ} {current : ρ}

theorem run_logged_bind {β : Type} (f : Except ε (Option ρ) → StateM (List ρ) β) (log : List ρ) :
    (logged next current >>= f).run log = (f (next current)).run (log ++ [current]) := rfl

/-- The walk with recorded lookups is the walk, and the record is what it looks up. -/
theorem walkM_logged (log : List ρ) :
    (walkM key cycle tooDeep (logged next) depth passed current).run log =
      (walk key cycle tooDeep next depth passed current,
        log ++ lookups key next depth passed current) := by
  induction depth generalizing passed current log with
  | zero =>
    unfold lookups
    rw [List.append_nil]
    rfl
  | succ depth ih =>
    unfold walkM walk lookups
    split_ifs with hrepeated
    · rw [List.append_nil]
      rfl
    · rw [run_logged_bind]
      cases next current with
      | error e => rfl
      | ok parent? =>
        cases parent? with
        | none => rfl
        | some parent =>
          simp only
          rw [ih, List.append_assoc, List.singleton_append]

theorem length_lookups_le : (lookups key next depth passed current).length ≤ depth := by
  induction depth generalizing passed current with
  | zero => exact Nat.le_refl 0
  | succ depth ih =>
    unfold lookups
    split_ifs
    · exact Nat.zero_le _
    · split
      · exact Nat.succ_le_succ ih
      · exact Nat.succ_le_succ (Nat.zero_le depth)

/-- A walk succeeds exactly with the rest of a complete chain whose keys are all new and which is
no longer than allowed. -/
theorem walk_eq_ok_iff {chain : List ρ} :
    walk key cycle tooDeep next depth passed current = .ok chain ↔
      ∃ rest, chain = passed ++ rest ∧ rest.head? = some current ∧ Complete next rest ∧
        (rest.map key).Nodup ∧ (∀ k ∈ rest.map key, k ∉ passed.map key) ∧ rest.length ≤ depth := by
  induction depth generalizing passed current with
  | zero =>
    refine iff_of_false nofun ?_
    rintro ⟨rest, -, hhead, -, -, -, hlength⟩
    rw [List.eq_nil_of_length_eq_zero (Nat.le_zero.mp hlength)] at hhead
    exact nomatch hhead
  | succ depth ih =>
    unfold walk
    split_ifs with hrepeated
    · refine iff_of_false nofun ?_
      rintro ⟨rest, -, hhead, -, -, hnew, -⟩
      obtain ⟨older, rfl⟩ := List.head?_eq_some_iff.mp hhead
      exact hnew (key current) (by simp) hrepeated
    · cases hnext : next current with
      | error e =>
        refine iff_of_false nofun ?_
        rintro ⟨rest, -, hhead, hcomplete, -⟩
        obtain ⟨older, rfl⟩ := List.head?_eq_some_iff.mp hhead
        cases older <;> simp [Complete, hnext] at hcomplete
      | ok parent? =>
        cases parent? with
        | none =>
          simp only
          constructor
          · intro h
            obtain rfl := Except.ok.inj h
            refine ⟨[current], rfl, rfl, hnext, by simp, ?_, by simp⟩
            simpa using hrepeated
          · rintro ⟨rest, rfl, hhead, hcomplete, -⟩
            obtain ⟨older, rfl⟩ := List.head?_eq_some_iff.mp hhead
            cases older with
            | nil => rfl
            | cons parent older => simp [Complete, hnext] at hcomplete
        | some parent =>
          simp only
          rw [ih]
          constructor
          · rintro ⟨rest, rfl, hhead, hcomplete, hnodup, hnew, hlength⟩
            obtain ⟨older, rfl⟩ := List.head?_eq_some_iff.mp hhead
            have hfirst : key current ∉ (parent :: older).map key := by
              intro hmem
              exact hnew _ hmem (by simp)
            refine ⟨current :: parent :: older, by simp, rfl, ⟨hnext, hcomplete⟩, ?_, ?_, ?_⟩
            · rw [List.map_cons, List.nodup_cons]
              exact ⟨hfirst, hnodup⟩
            · intro k hk hpassed
              rcases List.mem_cons.mp hk with rfl | hk
              · exact hrepeated hpassed
              · exact hnew k hk (by simp [hpassed])
            · exact Nat.succ_le_succ hlength
          · rintro ⟨rest, rfl, hhead, hcomplete, hnodup, hnew, hlength⟩
            obtain ⟨older, rfl⟩ := List.head?_eq_some_iff.mp hhead
            cases older with
            | nil => simp [Complete, hnext] at hcomplete
            | cons parent' older =>
              obtain ⟨hparent, hcomplete⟩ := hcomplete
              have hsame : parent = parent' := by
                rw [hnext] at hparent
                exact Option.some.inj (Except.ok.inj hparent)
              subst hsame
              rw [List.map_cons, List.nodup_cons] at hnodup
              refine ⟨parent :: older, by simp, rfl, hcomplete, hnodup.2, ?_,
                Nat.le_of_succ_le_succ hlength⟩
              intro k hk hmem
              rw [List.map_append, List.mem_append, List.map_singleton, List.mem_singleton] at hmem
              rcases hmem with hpassed | rfl
              · exact hnew k (List.mem_cons_of_mem _ hk) hpassed
              · exact hnodup.1 hk

/-- Why a walk fails. -/
theorem walk_eq_error {e : ε} (h : walk key cycle tooDeep next depth passed current = .error e) :
    e = tooDeep ∨ ∃ rest, rest.head? = some current ∧ Linked next rest ∧
      (e = cycle ∧ ¬((passed ++ rest).map key).Nodup ∨
        ∃ last ∈ rest, next last = .error e) := by
  induction depth generalizing passed current with
  | zero => exact .inl (Except.error.inj h).symm
  | succ depth ih =>
    unfold walk at h
    split_ifs at h with hrepeated
    · refine .inr ⟨[current], rfl, trivial, .inl ⟨(Except.error.inj h).symm, ?_⟩⟩
      rw [List.map_append, List.nodup_append]
      exact fun hnodup => hnodup.2.2 _ hrepeated _ (by simp) rfl
    · cases hnext : next current with
      | error e' =>
        rw [hnext] at h
        obtain rfl := Except.error.inj h
        exact .inr ⟨[current], rfl, trivial, .inr ⟨current, List.mem_singleton_self _, hnext⟩⟩
      | ok parent? =>
        cases parent? with
        | none =>
          rw [hnext] at h
          cases h
        | some parent =>
          rw [hnext] at h
          rcases ih h with htooDeep | ⟨rest, hhead, hlinked, hwhy⟩
          · exact .inl htooDeep
          · obtain ⟨older, rfl⟩ := List.head?_eq_some_iff.mp hhead
            refine .inr ⟨current :: parent :: older, rfl, ⟨hnext, hlinked⟩, ?_⟩
            rcases hwhy with ⟨hcycle, hnodup⟩ | ⟨last, hlast, herror⟩
            · rw [List.append_assoc] at hnodup
              exact .inl ⟨hcycle, hnodup⟩
            · exact .inr ⟨last, List.mem_cons_of_mem _ hlast, herror⟩

end

end RatatoskrVault.Lib
