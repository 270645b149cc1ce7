import RatatoskrVault.Lib.ReadCommitted

/-! Procedures executed one after another: a session moves only while no other one is busy, and a
session may still stop at any point. -/
namespace RatatoskrVault.Lib

variable {Db World Lock Write Loc Input Proc Op : Type}

/-- Whether the step may find session `j` busy. -/
def Label.mayFind (j : ℕ) : Label Input Proc Op → Bool
  | .start i _ => j == i
  | .exec i _ => j == i
  | .op _ => false
  | _ => true

namespace Machine

variable (M : Machine Db World Lock Write Loc Input Proc Op)

/-- Nothing else is under way when the step is taken. -/
def Alone (s : State Db World Lock Write Loc) : Label Input Proc Op → Prop
  | .start i _ => ∀ j, j ≠ i → M.isIdle (s.session j).loc = true
  | .exec i _ => ∀ j, j ≠ i → M.isIdle (s.session j).loc = true
  | .op _ => ∀ j, M.isIdle (s.session j).loc = true
  | _ => True

/-- What holds of the shared state between steps, and of the one busy session beside it. -/
structure Serial (G : Db → World → ℕ → Prop)
    (S : Db → World → ℕ → List Write → Loc → Prop) (s : State Db World Lock Write Loc) :
    Prop where
  shared : G s.db s.world s.fresh
  sessions : ∀ i, S s.db s.world s.fresh (s.session i).log (s.session i).loc

variable {M} {G : Db → World → ℕ → Prop} {S : Db → World → ℕ → List Write → Loc → Prop}
  {s s' : State Db World Lock Write Loc}

/-- The session that has moved is all there is to check. -/
theorem Serial.moved {i : ℕ} {σ : Session Write Loc}
    (idle : ∀ db world fresh log loc, M.isIdle loc = true → S db world fresh log loc)
    (halone : ∀ j, j ≠ i → M.isIdle (s.session j).loc = true)
    (hsession : s'.session = (s.setSession i σ).session) (hG : G s'.db s'.world s'.fresh)
    (hσ : S s'.db s'.world s'.fresh σ.log σ.loc) : Serial G S s' := by
  refine ⟨hG, fun j => ?_⟩
  rw [hsession]
  by_cases hji : j = i
  · rw [hji, State.setSession_session_self]
    exact hσ
  · rw [State.setSession_session_of_ne hji]
    exact idle _ _ _ _ _ (halone j hji)

variable [DecidableEq Lock]

/-- One obligation for each kind of step of the busy session. -/
theorem Serial.step {ok : State Db World Lock Write Loc → Label Input Proc Op → Prop}
    (halone : ∀ s l, ok s l → M.Alone s l)
    (idle : ∀ db world fresh log loc, M.isIdle loc = true → S db world fresh log loc)
    (aborted : M.isIdle M.aborted = true)
    (start : ∀ s i proc, G s.db s.world s.fresh → ok s (.start i proc) →
      S s.db s.world s.fresh [] (M.start proc))
    (stmt : ∀ s i input locks writes next, G s.db s.world s.fresh → ok s (.exec i input) →
      S s.db s.world s.fresh (s.session i).log (s.session i).loc →
      M.act (s.session i).loc (s.moment i) (M.view s i) s.world input
        = some (.stmt locks writes next) →
      G s.db s.world (s.fresh + 1) ∧
        S s.db s.world (s.fresh + 1) ((s.session i).log ++ writes) next)
    (auto : ∀ s i input locks writes next, G s.db s.world s.fresh → ok s (.exec i input) →
      S s.db s.world s.fresh (s.session i).log (s.session i).loc →
      M.act (s.session i).loc (s.moment i) (M.view s i) s.world input
        = some (.auto locks writes next) →
      G (writes.foldl M.apply s.db) s.world (s.fresh + 1) ∧
        S (writes.foldl M.apply s.db) s.world (s.fresh + 1) [] next)
    (commit : ∀ s i input next, G s.db s.world s.fresh → ok s (.exec i input) →
      S s.db s.world s.fresh (s.session i).log (s.session i).loc →
      M.act (s.session i).loc (s.moment i) (M.view s i) s.world input = some (.commit next) →
      G (M.view s i) s.world s.fresh ∧ S (M.view s i) s.world s.fresh [] next)
    (rollback : ∀ s i input next, G s.db s.world s.fresh → ok s (.exec i input) →
      S s.db s.world s.fresh (s.session i).log (s.session i).loc →
      M.act (s.session i).loc (s.moment i) (M.view s i) s.world input = some (.rollback next) →
      S s.db s.world s.fresh [] next)
    (call : ∀ s i input world next, G s.db s.world s.fresh → ok s (.exec i input) →
      S s.db s.world s.fresh (s.session i).log (s.session i).loc →
      M.act (s.session i).loc (s.moment i) (M.view s i) s.world input = some (.call world next) →
      G s.db world (s.fresh + 1) ∧ S s.db world (s.fresh + 1) [] next)
    (op : ∀ s o locks writes, G s.db s.world s.fresh → ok s (.op o) →
      M.op o { now := s.clock, clock := s.clock, fresh := s.fresh } s.db s.world
        = some (locks, writes) →
      G (writes.foldl M.apply s.db) s.world (s.fresh + 1)) :
    ∀ s l s', Serial G S s → ok s l → M.step s l = some s' → Serial G S s' := by
  refine step_induction ?_ ?_ ?_ ?_ ?_ ?_ ?_ ?_ ?_
  · intro s i proc h hok _
    exact Serial.moved (σ := ⟨M.start proc, [], none⟩) idle (halone _ _ hok) rfl h.shared
      (start s i proc h.shared hok)
  · intro s i input locks writes next h hok hact _
    obtain ⟨hG, hS⟩ := stmt s i input locks writes next h.shared hok (h.sessions i) hact
    exact Serial.moved (i := i) idle (halone _ _ hok) rfl hG hS
  · intro s i input locks writes next h hok hact _
    obtain ⟨hG, hS⟩ := auto s i input locks writes next h.shared hok (h.sessions i) hact
    exact Serial.moved (i := i) idle (halone _ _ hok) rfl hG hS
  · intro s i input next h hok hact
    obtain ⟨hG, hS⟩ := commit s i input next h.shared hok (h.sessions i) hact
    exact Serial.moved (i := i) idle (halone _ _ hok) rfl hG hS
  · intro s i input next h hok hact
    exact Serial.moved (i := i) idle (halone _ _ hok) rfl h.shared
      (rollback s i input next h.shared hok (h.sessions i) hact)
  · intro s i input world next h hok hact
    obtain ⟨hG, hS⟩ := call s i input world next h.shared hok (h.sessions i) hact
    exact Serial.moved (i := i) idle (halone _ _ hok) rfl hG hS
  · intro s i h _
    refine ⟨h.shared, fun j => ?_⟩
    by_cases hji : j = i
    · have hself : (afterRollback s i M.aborted).session j = ⟨M.aborted, [], none⟩ := by
        rw [hji]
        exact State.setSession_session_self
      rw [hself]
      exact idle _ _ _ _ _ aborted
    · have hsame : (afterRollback s i M.aborted).session j = s.session j :=
        State.setSession_session_of_ne hji
      rw [hsame]
      exact h.sessions j
  · intro s o locks writes h hok hop _
    exact ⟨op s o locks writes h.shared hok hop, fun j => idle _ _ _ _ _ (halone _ _ hok j)⟩
  · intro s n h _
    exact ⟨h.shared, h.sessions⟩

/-- A step leaves the database alone, or commits one statement, a transaction or an operation. -/
theorem step_db {l : Label Input Proc Op} (h : M.step s l = some s') :
    s'.db = s.db ∨
    (∃ i input locks writes next, l = .exec i input ∧
      M.act (s.session i).loc (s.moment i) (M.view s i) s.world input
        = some (.auto locks writes next) ∧ s'.db = writes.foldl M.apply s.db) ∨
    (∃ i input next, l = .exec i input ∧
      M.act (s.session i).loc (s.moment i) (M.view s i) s.world input = some (.commit next) ∧
      s'.db = M.view s i) ∨
    ∃ o locks writes, l = .op o ∧
      M.op o { now := s.clock, clock := s.clock, fresh := s.fresh } s.db s.world
        = some (locks, writes) ∧ s'.db = writes.foldl M.apply s.db := by
  cases l with
  | start i proc =>
    simp only [step] at h
    split_ifs at h
    obtain rfl := Option.some.inj h
    exact Or.inl rfl
  | exec i input =>
    obtain ⟨a, ha, hp⟩ := Option.bind_eq_some_iff.mp h
    cases a with
    | stmt locks writes next =>
      simp only [perform] at hp
      split_ifs at hp
      obtain rfl := Option.some.inj hp
      exact Or.inl rfl
    | auto locks writes next =>
      simp only [perform] at hp
      split_ifs at hp
      obtain rfl := Option.some.inj hp
      exact Or.inr (Or.inl ⟨i, input, locks, writes, next, rfl, ha, rfl⟩)
    | commit next =>
      obtain rfl := Option.some.inj hp
      exact Or.inr (Or.inr (Or.inl ⟨i, input, next, rfl, ha, rfl⟩))
    | rollback next => obtain rfl := Option.some.inj hp; exact Or.inl rfl
    | call world next => obtain rfl := Option.some.inj hp; exact Or.inl rfl
  | abort i => obtain rfl := Option.some.inj h; exact Or.inl rfl
  | op o =>
    obtain ⟨⟨locks, writes⟩, ha, hp⟩ := Option.bind_eq_some_iff.mp h
    simp only at hp
    split_ifs at hp
    obtain rfl := Option.some.inj hp
    exact Or.inr (Or.inr (Or.inr ⟨o, locks, writes, rfl, ha, rfl⟩))
  | tick n => obtain rfl := Option.some.inj h; exact Or.inl rfl

section Check

variable (M)

/-- `Alone`, for runs of the first `n` sessions. -/
def isAlone (n : ℕ) (s : State Db World Lock Write Loc) (l : Label Input Proc Op) : Bool :=
  (List.range n).all fun j => M.isIdle (s.session j).loc || l.mayFind j

variable {M}

omit [DecidableEq Lock] in
theorem alone_of_isAlone {n : ℕ} {l : Label Input Proc Op}
    (hrest : ∀ j, n ≤ j → M.isIdle (s.session j).loc = true) (h : M.isAlone n s l = true) :
    M.Alone s l := by
  have hbelow : ∀ j, M.isIdle (s.session j).loc = true ∨ l.mayFind j = true := by
    intro j
    by_cases hj : j < n
    · have hcheck := List.all_eq_true.mp h j (List.mem_range.mpr hj)
      rwa [Bool.or_eq_true] at hcheck
    · exact Or.inl (hrest j (Nat.le_of_not_lt hj))
  cases l with
  | start i proc => exact fun j hji => (hbelow j).resolve_right fun hl => hji (beq_iff_eq.mp hl)
  | exec i input => exact fun j hji => (hbelow j).resolve_right fun hl => hji (beq_iff_eq.mp hl)
  | abort i => trivial
  | op o => exact fun j => (hbelow j).resolve_right (by simp [Label.mayFind])
  | tick n => trivial

/-- A condition that can be evaluated on the first `n` sessions, the only ones that move. -/
theorem along_of_check {ok : State Db World Lock Write Loc → Label Input Proc Op → Prop}
    {check : State Db World Lock Write Loc → Label Input Proc Op → Bool} {n : ℕ}
    {ls : List (Label Input Proc Op)}
    (hcheck : ∀ s' l, (∀ j, n ≤ j → s'.session j = s.session j) → check s' l = true → ok s' l)
    (hls : (ls.all fun l => l.session?.all fun i => decide (i < n)) = true)
    (h : meets M.step check s ls = true) : Along M.step ok s ls := by
  induction ls generalizing s with
  | nil => trivial
  | cons l ls ih =>
    simp only [meets, Bool.and_eq_true, List.all_cons] at h hls
    refine ⟨hcheck s l (fun _ _ => rfl) h.1, fun s' hs => ih (fun t l' ht => ?_) hls.2 ?_⟩
    · refine hcheck t l' fun j hj => ?_
      rw [ht j hj]
      refine step_session_of_ne hs fun hl => ?_
      have hlt := hls.1
      rw [hl] at hlt
      simp at hlt
      omega
    · have hall := h.2
      rwa [hs] at hall

theorem along_alone {n : ℕ} {ls : List (Label Input Proc Op)}
    (hrest : ∀ j, n ≤ j → M.isIdle (s.session j).loc = true)
    (hls : (ls.all fun l => l.session?.all fun i => decide (i < n)) = true)
    (h : meets M.step (M.isAlone n) s ls = true) : Along M.step M.Alone s ls := by
  refine along_of_check (fun s' l hsame hcheck => alone_of_isAlone (fun j hj => ?_) hcheck) hls h
  rw [hsame j hj]
  exact hrest j hj

end Check

end Machine

end RatatoskrVault.Lib
