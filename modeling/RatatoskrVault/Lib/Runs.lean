import Mathlib.Data.List.Basic

/-! Runs of a deterministic labelled step function, and the induction rule for what every
run preserves. Nothing here names a particular system. -/
namespace RatatoskrVault.Lib

variable {State Label : Type*}

/-- Follows the labels in order; `none` as soon as one of them is not enabled. -/
def run (step : State → Label → Option State) : State → List Label → Option State
  | s, [] => some s
  | s, l :: ls => (step s l).bind fun s' => run step s' ls

/-- The states reached from `s₀` by enabled steps, each of which meets `ok` where it is taken. -/
inductive Reach (step : State → Label → Option State) (ok : State → Label → Prop)
    (s₀ : State) : State → Prop
  | refl : Reach step ok s₀ s₀
  | tail {s s' : State} {l : Label} :
      Reach step ok s₀ s → ok s l → step s l = some s' → Reach step ok s₀ s'

/-- Every step of the run meets `ok` in the state in which it is taken. -/
def Along (step : State → Label → Option State) (ok : State → Label → Prop) :
    State → List Label → Prop
  | _, [] => True
  | s, l :: ls => ok s l ∧ ∀ s', step s l = some s' → Along step ok s' ls

variable {step : State → Label → Option State} {ok : State → Label → Prop} {s₀ s s' : State}

theorem Reach.invariant {I : State → Prop} (h₀ : I s₀)
    (hstep : ∀ s l s', I s → ok s l → step s l = some s' → I s')
    (h : Reach step ok s₀ s) : I s := by
  induction h with
  | refl => exact h₀
  | tail _ hok hs ih => exact hstep _ _ _ ih hok hs

theorem Reach.mono {ok' : State → Label → Prop} (hok : ∀ s l, ok s l → ok' s l)
    (h : Reach step ok s₀ s) : Reach step ok' s₀ s := by
  induction h with
  | refl => exact .refl
  | tail _ hl hs ih => exact ih.tail (hok _ _ hl) hs

/-- What every step keeps holds where each step is taken. -/
theorem Reach.strengthen {I : State → Prop} (h₀ : I s₀)
    (hstep : ∀ s l s', I s → ok s l → step s l = some s' → I s') (h : Reach step ok s₀ s) :
    Reach step (fun s l => ok s l ∧ I s) s₀ s := by
  induction h with
  | refl => exact .refl
  | tail hreach hok hs ih => exact ih.tail ⟨hok, hreach.invariant h₀ hstep⟩ hs

theorem Reach.trans {s₁ : State} (h₁ : Reach step ok s₀ s₁) (h₂ : Reach step ok s₁ s) :
    Reach step ok s₀ s := by
  induction h₂ with
  | refl => exact h₁
  | tail _ hl hs ih => exact ih.tail hl hs

/-- A run all of whose steps meet `ok` ends in a reached state. -/
theorem Reach.of_run {ls : List Label} (hrun : run step s ls = some s')
    (hok : Along step ok s ls) : Reach step ok s s' := by
  induction ls generalizing s with
  | nil =>
    obtain rfl : s = s' := by simpa [run] using hrun
    exact .refl
  | cons l ls ih =>
    obtain ⟨s₁, hs, hrest⟩ := Option.bind_eq_some_iff.mp hrun
    exact (Reach.refl.tail hok.1 hs).trans (ih hrest (hok.2 s₁ hs))

section Replay

variable {Db Write : Type*} {apply : Db → Write → Db} {log : List Write} {db : Db}

theorem foldl_invariant {I : Db → Prop} (hstep : ∀ db, ∀ w ∈ log, I db → I (apply db w))
    (h : I db) : I (log.foldl apply db) := by
  induction log generalizing db with
  | nil => exact h
  | cons w log ih =>
    exact ih (fun db w' hw' => hstep db w' (List.mem_cons_of_mem _ hw'))
      (hstep db w (List.mem_cons_self ..) h)

/-- What one write of a log establishes and the others keep holds once the log is replayed. -/
theorem foldl_establish {I P : Db → Prop} {w : Write} (hw : w ∈ log)
    (hI : ∀ db, ∀ w' ∈ log, I db → I (apply db w'))
    (hmake : ∀ db, I db → P (apply db w))
    (hkeep : ∀ db, ∀ w' ∈ log, I db → P db → P (apply db w'))
    (h : I db) : P (log.foldl apply db) := by
  induction log generalizing db with
  | nil => exact absurd hw List.not_mem_nil
  | cons w₀ log ih =>
    have hI₀ : I (apply db w₀) := hI db w₀ (List.mem_cons_self ..) h
    rcases List.mem_cons.mp hw with rfl | hlog
    · have hboth : I (log.foldl apply (apply db w)) ∧ P (log.foldl apply (apply db w)) :=
        foldl_invariant (I := fun db => I db ∧ P db)
          (fun db w' hw' hip =>
            ⟨hI db w' (List.mem_cons_of_mem _ hw') hip.1,
              hkeep db w' (List.mem_cons_of_mem _ hw') hip.1 hip.2⟩)
          ⟨hI₀, hmake db h⟩
      exact hboth.2
    · exact ih hlog (fun db w' hw' => hI db w' (List.mem_cons_of_mem _ hw'))
        (fun db w' hw' => hkeep db w' (List.mem_cons_of_mem _ hw')) hI₀

end Replay

theorem exists_of_run_any {ls : List Label} {p : State → Bool}
    (h : (run step s ls).any p = true) : ∃ s', run step s ls = some s' ∧ p s' = true := by
  cases hrun : run step s ls with
  | none => simp [hrun] at h
  | some s' => exact ⟨s', rfl, by simpa [hrun] using h⟩

/-- A condition that reads labels only. -/
theorem along_of_forall {ls : List Label} (hok : ∀ l ∈ ls, ∀ s, ok s l) (s : State) :
    Along step ok s ls := by
  induction ls generalizing s with
  | nil => trivial
  | cons l ls ih =>
    exact ⟨hok l (List.mem_cons_self ..) s,
      fun s' _ => ih (fun l' hl' => hok l' (List.mem_cons_of_mem _ hl')) s'⟩

/-- `Along`, for a condition that can be evaluated. -/
def meets (step : State → Label → Option State) (check : State → Label → Bool) :
    State → List Label → Bool
  | _, [] => true
  | s, l :: ls => check s l && (step s l).all fun s' => meets step check s' ls

theorem along_of_meets {check : State → Label → Bool} {ls : List Label}
    (hcheck : ∀ s l, check s l = true → ok s l) (h : meets step check s ls = true) :
    Along step ok s ls := by
  induction ls generalizing s with
  | nil => trivial
  | cons l ls ih =>
    simp only [meets, Bool.and_eq_true] at h
    refine ⟨hcheck s l h.1, fun s' hs => ih ?_⟩
    have hall := h.2
    rwa [hs] at hall

/-- The part of a run that is left once a first part has been taken. -/
theorem Along.drop {ls ls' : List Label} (h : Along step ok s (ls ++ ls'))
    (hrun : run step s ls = some s') : Along step ok s' ls' := by
  induction ls generalizing s with
  | nil =>
    obtain rfl : s = s' := by simpa [run] using hrun
    exact h
  | cons l ls ih =>
    obtain ⟨s₁, hs, hrest⟩ := Option.bind_eq_some_iff.mp hrun
    exact ih (h.2 s₁ hs) hrest

theorem Along.take {ls ls' : List Label} (h : Along step ok s (ls ++ ls')) :
    Along step ok s ls := by
  induction ls generalizing s with
  | nil => trivial
  | cons l ls ih => exact ⟨h.1, fun s' hs => ih (h.2 s' hs)⟩

theorem along_append {ls ls' : List Label} (hrun : run step s ls = some s') :
    Along step ok s (ls ++ ls') ↔ Along step ok s ls ∧ Along step ok s' ls' := by
  refine ⟨fun h => ⟨h.take, h.drop hrun⟩, fun ⟨h, h'⟩ => ?_⟩
  induction ls generalizing s with
  | nil =>
    obtain rfl : s = s' := by simpa [run] using hrun
    exact h'
  | cons l ls ih =>
    obtain ⟨s₁, hs, hrest⟩ := Option.bind_eq_some_iff.mp hrun
    refine ⟨h.1, fun s₂ hs₂ => ?_⟩
    rw [hs] at hs₂
    exact Option.some.inj hs₂ ▸ ih hrest ⟨h.2 s₁ hs, h'⟩ (h.2 s₁ hs)

theorem Along.mono {ok' : State → Label → Prop} {ls : List Label}
    (hok : ∀ s l, ok s l → ok' s l) (h : Along step ok s ls) : Along step ok' s ls := by
  induction ls generalizing s with
  | nil => trivial
  | cons l ls ih => exact ⟨hok s l h.1, fun s' hs => ih (h.2 s' hs)⟩

theorem Along.and {ok' : State → Label → Prop} {ls : List Label} (h : Along step ok s ls)
    (h' : Along step ok' s ls) : Along step (fun s l => ok s l ∧ ok' s l) s ls := by
  induction ls generalizing s with
  | nil => trivial
  | cons l ls ih => exact ⟨⟨h.1, h'.1⟩, fun s' hs => ih (h.2 s' hs) (h'.2 s' hs)⟩

/-- What holds after a run and not before it begins to hold at a step of the run. -/
theorem exists_step_between {P : State → Prop} {ls : List Label} (hrun : run step s ls = some s')
    (hbefore : ¬ P s) (hafter : P s') : ∃ front l back s₁ s₂, ls = front ++ l :: back ∧
      run step s front = some s₁ ∧ step s₁ l = some s₂ ∧ ¬ P s₁ ∧ P s₂ := by
  induction ls generalizing s with
  | nil =>
    obtain rfl : s = s' := by simpa [run] using hrun
    exact absurd hafter hbefore
  | cons l ls ih =>
    obtain ⟨s₁, hs, hrest⟩ := Option.bind_eq_some_iff.mp hrun
    by_cases hnext : P s₁
    · exact ⟨[], l, ls, s, s₁, rfl, rfl, hs, hbefore, hnext⟩
    · obtain ⟨front, l', back, s₂, s₃, rfl, hfront, hstep, hnot, hthen⟩ := ih hrest hnext
      refine ⟨l :: front, l', back, s₂, s₃, rfl, ?_, hstep, hnot, hthen⟩
      exact Option.bind_eq_some_iff.mpr ⟨s₁, hs, hfront⟩

/-- A run goes through the states of its parts. -/
theorem run_append {ls ls' : List Label} (hrun : run step s ls = some s₀) :
    run step s (ls ++ ls') = run step s₀ ls' := by
  induction ls generalizing s with
  | nil =>
    obtain rfl : s = s₀ := by simpa [run] using hrun
    rfl
  | cons l ls ih =>
    obtain ⟨s₁, hs, hrest⟩ := Option.bind_eq_some_iff.mp hrun
    rw [List.cons_append, run, hs]
    exact ih hrest

section Since

/-- What a run has taken since the last label that opens: each label with the states around it. -/
def since (step : State → Label → Option State) (opens : Label → Bool) :
    State → List Label → List (State × Label × State) → List (State × Label × State)
  | _, [], taken => taken
  | s, l :: ls, taken =>
    (step s l).elim taken fun s' =>
      since step opens s' ls (if opens l then [] else taken ++ [(s, l, s')])

theorem since_invariant {opens : Label → Bool} {J : State → List (State × Label × State) → Prop}
    {ls : List Label} {taken : List (State × Label × State)}
    (hstep : ∀ s l s' taken, J s taken → ok s l → step s l = some s' →
      J s' (if opens l then [] else taken ++ [(s, l, s')]))
    (h : J s taken) (hok : Along step ok s ls) (hrun : run step s ls = some s') :
    J s' (since step opens s ls taken) := by
  induction ls generalizing s taken with
  | nil =>
    obtain rfl : s = s' := by simpa [run] using hrun
    exact h
  | cons l ls ih =>
    obtain ⟨s₁, hs, hrest⟩ := Option.bind_eq_some_iff.mp hrun
    have hnext := ih (hstep s l s₁ taken h hok.1 hs) (hok.2 s₁ hs) hrest
    rw [since, hs]
    exact hnext

end Since

section History

variable {O : Type*} [DecidableEq O]

/-- What is observed before each step of a run and after the last. -/
def history (step : State → Label → Option State) (obs : State → O) : State → List Label → List O
  | s, [] => [obs s]
  | s, l :: ls => obs s :: (step s l).elim [] fun s' => history step obs s' ls

/-- The consecutive values that differ. -/
def changes : List O → List (O × O)
  | a :: b :: rest => if a = b then changes (b :: rest) else (a, b) :: changes (b :: rest)
  | _ => []

theorem changes_cons_cons {a b : O} {rest : List O} :
    changes (a :: b :: rest) = changes [a, b] ++ changes (b :: rest) := by
  by_cases hab : a = b
  · simp [changes, hab]
  · simp [changes, hab]

omit [DecidableEq O] in
theorem history_eq_cons (step : State → Label → Option State) (obs : State → O) (s : State)
    (ls : List Label) : ∃ rest, history step obs s ls = obs s :: rest := by
  cases ls with
  | nil => exact ⟨[], rfl⟩
  | cons l ls => exact ⟨_, rfl⟩

/-- A record that every step extends by the change it makes lists the changes of a run. -/
theorem record_eq_changes (obs : State → O) (record : State → List (O × O)) {I : State → Prop}
    {ls : List Label} (hI : ∀ s l s', I s → ok s l → step s l = some s' → I s')
    (hrecord : ∀ s l s', I s → ok s l → step s l = some s' →
      record s' = record s ++ changes [obs s, obs s'])
    (hs : I s) (hok : Along step ok s ls) (hrun : run step s ls = some s') :
    record s' = record s ++ changes (history step obs s ls) := by
  induction ls generalizing s with
  | nil =>
    obtain rfl : s = s' := by simpa [run] using hrun
    simp [history, changes]
  | cons l ls ih =>
    obtain ⟨s₁, hstep, hrest⟩ := Option.bind_eq_some_iff.mp hrun
    obtain ⟨rest, hhistory⟩ := history_eq_cons step obs s₁ ls
    have htail := ih (hI s l s₁ hs hok.1 hstep) (hok.2 s₁ hstep) hrest
    calc
      record s' = record s₁ ++ changes (history step obs s₁ ls) := htail
      _ = record s ++ (changes [obs s, obs s₁] ++ changes (obs s₁ :: rest)) := by
        rw [hrecord s l s₁ hs hok.1 hstep, hhistory, List.append_assoc]
      _ = record s ++ changes (history step obs s (l :: ls)) := by
        rw [← changes_cons_cons, ← hhistory]
        simp [history, hstep]

end History

end RatatoskrVault.Lib
