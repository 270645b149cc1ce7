import RatatoskrVault.Lib.Sequential

/-! Proof outlines for procedures executed one after another: an invariant of what is committed,
and for every location an assertion about the committed database and the one the session sees. -/
namespace RatatoskrVault.Lib.Machine

variable {Db World Lock Write Loc Input Proc Op : Type}
  (M : Machine Db World Lock Write Loc Input Proc Op)

/-- `rest` tells the locations at which a session has no transaction open: a statement opens one,
and every other step ends it or finds none. -/
structure Rests (rest : Loc → Bool) : Prop where
  aborted : M.isIdle M.aborted = true
  idle : ∀ {loc m db world input}, M.isIdle loc = true → M.act loc m db world input = none
  start : ∀ proc, rest (M.start proc) = true
  stmt : ∀ {loc m db world input locks writes next},
    M.act loc m db world input = some (.stmt locks writes next) → rest next = false
  auto : ∀ {loc m db world input locks writes next},
    M.act loc m db world input = some (.auto locks writes next) →
    rest loc = true ∧ rest next = true
  commit : ∀ {loc m db world input next},
    M.act loc m db world input = some (.commit next) → rest next = true
  rollback : ∀ {loc m db world input next},
    M.act loc m db world input = some (.rollback next) → rest next = true
  call : ∀ {loc m db world input world' next},
    M.act loc m db world input = some (.call world' next) → rest loc = true ∧ rest next = true

/-- What is asserted of a session that is under way. -/
structure Asserted (rest : Loc → Bool) (F : Db → Db → World → ℕ → Loc → Prop) (db : Db)
    (world : World) (fresh : ℕ) (log : List Write) (loc : Loc) : Prop where
  rest : M.isIdle loc = false → rest loc = true → log = []
  holds : M.isIdle loc = false → F db (log.foldl M.apply db) world fresh loc

/-- An outline: `G` holds of what is committed, and `F` where each location is reached. -/
structure Outline (ok : State Db World Lock Write Loc → Label Input Proc Op → Prop)
    (G : Db → World → ℕ → Prop) (F : Db → Db → World → ℕ → Loc → Prop) : Prop where
  fresh : ∀ {db world fresh}, G db world fresh → G db world (fresh + 1)
  start : ∀ s i proc, ok s (.start i proc) → G s.db s.world s.fresh →
    F s.db s.db s.world s.fresh (M.start proc)
  stmt : ∀ s i input locks writes next, ok s (.exec i input) → G s.db s.world s.fresh →
    F s.db (M.view s i) s.world s.fresh (s.session i).loc →
    M.act (s.session i).loc (s.moment i) (M.view s i) s.world input
      = some (.stmt locks writes next) →
    F s.db (writes.foldl M.apply (M.view s i)) s.world (s.fresh + 1) next
  auto : ∀ s i input locks writes next, ok s (.exec i input) → G s.db s.world s.fresh →
    F s.db s.db s.world s.fresh (s.session i).loc →
    M.act (s.session i).loc (s.moment i) s.db s.world input = some (.auto locks writes next) →
    G (writes.foldl M.apply s.db) s.world (s.fresh + 1) ∧
      F (writes.foldl M.apply s.db) (writes.foldl M.apply s.db) s.world (s.fresh + 1) next
  commit : ∀ s i input next, ok s (.exec i input) → G s.db s.world s.fresh →
    F s.db (M.view s i) s.world s.fresh (s.session i).loc →
    M.act (s.session i).loc (s.moment i) (M.view s i) s.world input = some (.commit next) →
    G (M.view s i) s.world s.fresh ∧ F (M.view s i) (M.view s i) s.world s.fresh next
  rollback : ∀ s i input next, ok s (.exec i input) → G s.db s.world s.fresh →
    F s.db (M.view s i) s.world s.fresh (s.session i).loc →
    M.act (s.session i).loc (s.moment i) (M.view s i) s.world input = some (.rollback next) →
    M.isIdle next = false → F s.db s.db s.world s.fresh next
  call : ∀ s i input world next, ok s (.exec i input) → G s.db s.world s.fresh →
    F s.db s.db s.world s.fresh (s.session i).loc →
    M.act (s.session i).loc (s.moment i) s.db s.world input = some (.call world next) →
    G s.db world (s.fresh + 1) ∧ F s.db s.db world (s.fresh + 1) next
  op : ∀ s o locks writes, ok s (.op o) → G s.db s.world s.fresh →
    M.op o { now := s.clock, clock := s.clock, fresh := s.fresh } s.db s.world
      = some (locks, writes) →
    G (writes.foldl M.apply s.db) s.world (s.fresh + 1)

variable {M} {rest : Loc → Bool} {G : Db → World → ℕ → Prop}
  {F : Db → Db → World → ℕ → Loc → Prop}
  {ok : State Db World Lock Write Loc → Label Input Proc Op → Prop}

theorem Asserted.of_idle {db : Db} {world : World} {fresh : ℕ} {log : List Write} {loc : Loc}
    (h : M.isIdle loc = true) : M.Asserted rest F db world fresh log loc := by
  constructor
  · intro hbusy
    rw [h] at hbusy
    cases hbusy
  · intro hbusy
    rw [h] at hbusy
    cases hbusy

/-- A session without uncommitted writes. -/
theorem Asserted.of_nil {db : Db} {world : World} {fresh : ℕ} {loc : Loc}
    (h : M.isIdle loc = false → F db db world fresh loc) :
    M.Asserted rest F db world fresh [] loc :=
  ⟨fun _ _ => rfl, h⟩

/-- A session that takes a step is under way, and its assertion holds. -/
theorem Asserted.of_act {s : State Db World Lock Write Loc} {i : ℕ} {m : Moment} {db : Db}
    {world : World} {input : Input} {a : Action World Lock Write Loc} (hM : M.Rests rest)
    (h : M.Asserted rest F s.db s.world s.fresh (s.session i).log (s.session i).loc)
    (hact : M.act (s.session i).loc m db world input = some a) :
    F s.db (M.view s i) s.world s.fresh (s.session i).loc ∧
      (rest (s.session i).loc = true → M.view s i = s.db) := by
  have hbusy : M.isIdle (s.session i).loc = false := by
    by_contra hidle
    rw [hM.idle (by simpa using hidle)] at hact
    cases hact
  refine ⟨h.holds hbusy, fun hrest => ?_⟩
  unfold Machine.view
  rw [h.rest hbusy hrest]
  rfl

variable [DecidableEq Lock] {s s' : State Db World Lock Write Loc} {l : Label Input Proc Op}

/-- What an outline asserts is kept by every step that no other session is in the way of. -/
theorem Outline.step (h : M.Outline ok G F) (hM : M.Rests rest)
    (halone : ∀ s l, ok s l → M.Alone s l) :
    ∀ s l s', Serial G (M.Asserted rest F) s → ok s l → M.step s l = some s' →
      Serial G (M.Asserted rest F) s' := by
  refine Serial.step halone (fun db world fresh log loc => Asserted.of_idle) hM.aborted
    ?_ ?_ ?_ ?_ ?_ ?_ ?_
  · intro s i proc hG hok
    exact Asserted.of_nil fun _ => h.start s i proc hok hG
  · intro s i input locks writes next hG hok hS hact
    refine ⟨h.fresh hG, fun _ hrest => ?_, fun _ => ?_⟩
    · rw [hM.stmt hact] at hrest
      cases hrest
    · have hview := h.stmt s i input locks writes next hok hG (hS.of_act hM hact).1 hact
      unfold Machine.view at hview
      rwa [← List.foldl_append] at hview
  · intro s i input locks writes next hG hok hS hact
    obtain ⟨hF, hdb⟩ := hS.of_act hM hact
    rw [hdb (hM.auto hact).1] at hF hact
    obtain ⟨hG', hF'⟩ := h.auto s i input locks writes next hok hG hF hact
    exact ⟨hG', Asserted.of_nil fun _ => hF'⟩
  · intro s i input next hG hok hS hact
    obtain ⟨hG', hF'⟩ := h.commit s i input next hok hG (hS.of_act hM hact).1 hact
    exact ⟨hG', Asserted.of_nil fun _ => hF'⟩
  · intro s i input next hG hok hS hact
    exact Asserted.of_nil (h.rollback s i input next hok hG (hS.of_act hM hact).1 hact)
  · intro s i input world next hG hok hS hact
    obtain ⟨hF, hdb⟩ := hS.of_act hM hact
    rw [hdb (hM.call hact).1] at hF hact
    obtain ⟨hG', hF'⟩ := h.call s i input world next hok hG hF hact
    exact ⟨hG', Asserted.of_nil fun _ => hF'⟩
  · intro s o locks writes hG hok hop
    exact h.op s o locks writes hok hG hop

/-- The rule for runs: what is committed keeps the invariant, from rest. -/
theorem Outline.reach {s₀ : State Db World Lock Write Loc} (h : M.Outline ok G F)
    (hM : M.Rests rest) (halone : ∀ s l, ok s l → M.Alone s l)
    (hG : G s₀.db s₀.world s₀.fresh) (hidle : ∀ i, M.isIdle (s₀.session i).loc = true)
    (hreach : Reach M.step ok s₀ s) : Serial G (M.Asserted rest F) s :=
  hreach.invariant ⟨hG, fun i => Asserted.of_idle (hidle i)⟩ (h.step hM halone)

end RatatoskrVault.Lib.Machine
