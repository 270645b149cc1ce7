import Mathlib.Data.List.Nodup
import RatatoskrVault.Lib.ReadCommitted

/-! Keys drawn from fresh identifiers: no two rows of a table, committed or not, share one. -/
namespace RatatoskrVault.Lib

variable {Db World Lock Write Loc Input Proc Op : Type}

/-- The keys of a table and the key a write adds to it. -/
structure Keys (Db Write : Type) where
  table : Db → List ℕ
  added : Write → Option ℕ

namespace Keys

variable (K : Keys Db Write)

def addedBy (writes : List Write) : List ℕ := writes.filterMap K.added

/-- The keys session `i` has not committed yet. -/
def pending (s : State Db World Lock Write Loc) (i : ℕ) : List ℕ := K.addedBy (s.session i).log

/-- At most the identifier of the step. -/
def Drawn (fresh : ℕ) (writes : List Write) : Prop :=
  K.addedBy writes = [] ∨ K.addedBy writes = [fresh]

variable {K}

theorem Drawn.eq {fresh k : ℕ} {writes : List Write} (h : K.Drawn fresh writes)
    (hk : k ∈ K.addedBy writes) : k = fresh := by
  rcases h with heq | heq
  · rw [heq] at hk
    exact absurd hk List.not_mem_nil
  · rw [heq] at hk
    exact List.mem_singleton.mp hk

theorem Drawn.nodup {fresh : ℕ} {writes : List Write} (h : K.Drawn fresh writes) :
    (K.addedBy writes).Nodup := by
  rcases h with heq | heq
  · rw [heq]
    exact List.nodup_nil
  · rw [heq]
    exact List.nodup_singleton _

/-- A replay adds the keys of its writes, in order. -/
theorem table_foldl {apply : Db → Write → Db}
    (happly : ∀ db w, K.table (apply db w) = K.table db ++ (K.added w).toList)
    (log : List Write) (db : Db) : K.table (log.foldl apply db) = K.table db ++ K.addedBy log := by
  induction log generalizing db with
  | nil => simp [addedBy]
  | cons w log ih =>
    rw [List.foldl_cons, ih, happly, List.append_assoc]
    cases hw : K.added w with
    | none => simp [addedBy, hw]
    | some k => simp [addedBy, hw]

end Keys

/-- A write adds its key at the end of the table, and the key is the identifier of its step. -/
structure Machine.Draws (M : Machine Db World Lock Write Loc Input Proc Op) (K : Keys Db Write) :
    Prop where
  apply : ∀ db w, K.table (M.apply db w) = K.table db ++ (K.added w).toList
  stmt : ∀ {loc m db world input locks writes next},
    M.act loc m db world input = some (.stmt locks writes next) → K.Drawn m.fresh writes
  auto : ∀ {loc m db world input locks writes next},
    M.act loc m db world input = some (.auto locks writes next) → K.Drawn m.fresh writes
  op : ∀ {o m db world locks writes},
    M.op o m db world = some (locks, writes) → K.Drawn m.fresh writes

theorem Machine.Draws.table_foldl {M : Machine Db World Lock Write Loc Input Proc Op}
    {K : Keys Db Write} (hM : M.Draws K) (log : List Write) (db : Db) :
    K.table (log.foldl M.apply db) = K.table db ++ K.addedBy log :=
  Keys.table_foldl hM.apply log db

/-- Every key is in one place: committed, or pending in one session. -/
structure Keyed (K : Keys Db Write) (s : State Db World Lock Write Loc) : Prop where
  below : ∀ k ∈ K.table s.db, k < s.fresh
  nodup : (K.table s.db).Nodup
  pending_below : ∀ i, ∀ k ∈ K.pending s i, k < s.fresh
  pending_nodup : ∀ i, (K.pending s i).Nodup
  uncommitted : ∀ i, ∀ k ∈ K.pending s i, k ∉ K.table s.db
  apart : ∀ i j k, k ∈ K.pending s i → k ∈ K.pending s j → i = j

namespace Keyed

variable {K : Keys Db Write} {s s' : State Db World Lock Write Loc}

theorem pending_setSession {i : ℕ} {σ : Session Write Loc}
    (hsession : s'.session = (s.setSession i σ).session) (j : ℕ) :
    K.pending s' j = if j = i then K.addedBy σ.log else K.pending s j := by
  unfold Keys.pending
  rw [hsession]
  split_ifs with hji
  · rw [hji, State.setSession_session_self]
  · rw [State.setSession_session_of_ne hji]

/-- A session may forget its pending keys and a table may gain a fresh one. -/
theorem cleared {i : ℕ} {σ : Session Write Loc} (writes : List Write) (h : Keyed K s)
    (hsession : s'.session = (s.setSession i σ).session) (hlog : σ.log = [])
    (hdrawn : K.Drawn s.fresh writes) (htable : K.table s'.db = K.table s.db ++ K.addedBy writes)
    (hfresh : s.fresh ≤ s'.fresh) (hused : K.addedBy writes ≠ [] → s.fresh < s'.fresh) :
    Keyed K s' := by
  have hpending : ∀ j, ∀ k ∈ K.pending s' j, j ≠ i ∧ k ∈ K.pending s j := by
    intro j k hk
    rw [pending_setSession hsession, hlog] at hk
    split_ifs at hk with hji
    · exact absurd hk List.not_mem_nil
    · exact ⟨hji, hk⟩
  have hnew : ∀ k ∈ K.addedBy writes, k = s.fresh ∧ s.fresh < s'.fresh := fun k hk =>
    ⟨hdrawn.eq hk, hused (List.ne_nil_of_mem hk)⟩
  refine ⟨fun k hk => ?_, ?_, fun j k hk => ?_, fun j => ?_, fun j k hk hmem => ?_,
    fun j j' k hk hk' => h.apart j j' k (hpending j k hk).2 (hpending j' k hk').2⟩
  · rw [htable] at hk
    rcases List.mem_append.mp hk with hold | hadded
    · exact Nat.lt_of_lt_of_le (h.below k hold) hfresh
    · obtain ⟨rfl, hlt⟩ := hnew k hadded
      exact hlt
  · rw [htable]
    refine List.Nodup.append h.nodup hdrawn.nodup fun k hold hadded => ?_
    have hlt := h.below k hold
    rw [hdrawn.eq hadded] at hlt
    exact Nat.lt_irrefl _ hlt
  · exact Nat.lt_of_lt_of_le (h.pending_below j k (hpending j k hk).2) hfresh
  · rw [pending_setSession hsession, hlog]
    split_ifs
    · exact List.nodup_nil
    · exact h.pending_nodup j
  · obtain ⟨-, hk⟩ := hpending j k hk
    rw [htable] at hmem
    rcases List.mem_append.mp hmem with hold | hadded
    · exact h.uncommitted j k hk hold
    · have hlt := h.pending_below j k hk
      rw [hdrawn.eq hadded] at hlt
      exact Nat.lt_irrefl _ hlt

/-- The pending keys of a session join the table. -/
theorem committed {i : ℕ} {σ : Session Write Loc} (h : Keyed K s)
    (hsession : s'.session = (s.setSession i σ).session) (hlog : σ.log = [])
    (htable : K.table s'.db = K.table s.db ++ K.pending s i) (hfresh : s'.fresh = s.fresh) :
    Keyed K s' := by
  have hpending : ∀ j, ∀ k ∈ K.pending s' j, j ≠ i ∧ k ∈ K.pending s j := by
    intro j k hk
    rw [pending_setSession hsession, hlog] at hk
    split_ifs at hk with hji
    · exact absurd hk List.not_mem_nil
    · exact ⟨hji, hk⟩
  refine ⟨fun k hk => ?_, ?_, fun j k hk => ?_, fun j => ?_, fun j k hk hmem => ?_,
    fun j j' k hk hk' => h.apart j j' k (hpending j k hk).2 (hpending j' k hk').2⟩
  · rw [htable] at hk
    rw [hfresh]
    rcases List.mem_append.mp hk with hold | hadded
    · exact h.below k hold
    · exact h.pending_below i k hadded
  · rw [htable]
    exact List.Nodup.append h.nodup (h.pending_nodup i) fun k hold hadded =>
      h.uncommitted i k hadded hold
  · rw [hfresh]
    exact h.pending_below j k (hpending j k hk).2
  · rw [pending_setSession hsession, hlog]
    split_ifs
    · exact List.nodup_nil
    · exact h.pending_nodup j
  · obtain ⟨hji, hk⟩ := hpending j k hk
    rw [htable] at hmem
    rcases List.mem_append.mp hmem with hold | hadded
    · exact h.uncommitted j k hk hold
    · exact hji (h.apart j i k hk hadded)

/-- A statement adds at most its own identifier to the pending keys of its session. -/
theorem afterStmt {i : ℕ} {locks : List Lock} {writes : List Write} {next : Loc}
    (h : Keyed K s) (hdrawn : K.Drawn s.fresh writes) :
    Keyed K (Machine.afterStmt s i locks writes next) := by
  have hself : ∀ j, K.pending (Machine.afterStmt s i locks writes next) j
      = if j = i then K.pending s i ++ K.addedBy writes else K.pending s j := by
    intro j
    have hset : K.pending (Machine.afterStmt s i locks writes next) j
        = if j = i then K.addedBy ((s.session i).log ++ writes) else K.pending s j :=
      pending_setSession rfl j
    rw [hset]
    simp [Keys.pending, Keys.addedBy]
  have hpending : ∀ j, ∀ k ∈ K.pending (Machine.afterStmt s i locks writes next) j,
      k ∈ K.pending s j ∨ (j = i ∧ k = s.fresh) := by
    intro j k hk
    rw [hself] at hk
    split_ifs at hk with hji
    · rcases List.mem_append.mp hk with hold | hadded
      · exact Or.inl (hji ▸ hold)
      · exact Or.inr ⟨hji, hdrawn.eq hadded⟩
    · exact Or.inl hk
  refine ⟨fun k hk => Nat.lt_succ_of_lt (h.below k hk), h.nodup, fun j k hk => ?_, fun j => ?_,
    fun j k hk hmem => ?_, fun j j' k hk hk' => ?_⟩
  · rcases hpending j k hk with hold | ⟨-, rfl⟩
    · exact Nat.lt_succ_of_lt (h.pending_below j k hold)
    · exact Nat.lt_succ_self _
  · rw [hself]
    split_ifs
    · refine List.Nodup.append (h.pending_nodup i) hdrawn.nodup fun k hold hadded => ?_
      have hlt := h.pending_below i k hold
      rw [hdrawn.eq hadded] at hlt
      exact Nat.lt_irrefl _ hlt
    · exact h.pending_nodup j
  · rcases hpending j k hk with hold | ⟨-, rfl⟩
    · exact h.uncommitted j k hold hmem
    · exact Nat.lt_irrefl _ (h.below _ hmem)
  · rcases hpending j k hk with hold | ⟨hj, rfl⟩
    · rcases hpending j' k hk' with hold' | ⟨-, rfl⟩
      · exact h.apart j j' k hold hold'
      · exact absurd (h.pending_below j _ hold) (Nat.lt_irrefl _)
    · rcases hpending j' s.fresh hk' with hold' | ⟨hj', -⟩
      · exact absurd (h.pending_below j' _ hold') (Nat.lt_irrefl _)
      · exact hj.trans hj'.symm

theorem step [DecidableEq Lock] {M : Machine Db World Lock Write Loc Input Proc Op}
    (hM : M.Draws K) :
    ∀ s (l : Label Input Proc Op) s', Keyed K s → M.step s l = some s' → Keyed K s' := by
  suffices hstep : ∀ s (l : Label Input Proc Op) s', Keyed K s → True → M.step s l = some s' →
      Keyed K s' from fun s l s' h hs => hstep s l s' h trivial hs
  have hnone : ∀ fresh, K.Drawn fresh [] := fun _ => Or.inl rfl
  refine Machine.step_induction ?_ ?_ ?_ ?_ ?_ ?_ ?_ ?_ ?_
  · intro s i proc h _ _
    exact h.cleared (i := i) [] rfl rfl (hnone _) (List.append_nil _).symm
      (Nat.le_refl _) (fun hne => absurd rfl hne)
  · intro s i input locks writes next h _ hact _
    exact h.afterStmt (hM.stmt hact)
  · intro s i input locks writes next h _ hact _
    exact h.cleared (i := i) writes rfl rfl (hM.auto hact) (hM.table_foldl writes s.db) (Nat.le_succ _)
      (fun _ => Nat.lt_succ_self _)
  · intro s i input next h _ _
    exact h.committed (i := i) rfl rfl (hM.table_foldl _ s.db) rfl
  · intro s i input next h _ _
    exact h.cleared (i := i) [] rfl rfl (hnone _) (List.append_nil _).symm
      (Nat.le_refl _) (fun hne => absurd rfl hne)
  · intro s i input world next h _ _
    exact h.cleared (i := i) [] rfl rfl (hnone _) (List.append_nil _).symm
      (Nat.le_succ _) (fun hne => absurd rfl hne)
  · intro s i h _
    exact h.cleared (i := i) [] rfl rfl (hnone _) (List.append_nil _).symm
      (Nat.le_refl _) (fun hne => absurd rfl hne)
  · intro s o locks writes h _ hop _
    have hdrawn := hM.op hop
    have htable := hM.table_foldl writes s.db
    refine ⟨fun k hk => ?_, ?_, fun j k hk => Nat.lt_succ_of_lt (h.pending_below j k hk),
      h.pending_nodup, fun j k hk hmem => ?_, h.apart⟩
    · rcases List.mem_append.mp (htable ▸ hk) with hold | hadded
      · exact Nat.lt_succ_of_lt (h.below k hold)
      · rw [hdrawn.eq hadded]
        exact Nat.lt_succ_self _
    · show (K.table (writes.foldl M.apply s.db)).Nodup
      rw [htable]
      refine List.Nodup.append h.nodup hdrawn.nodup fun k hold hadded => ?_
      have hlt := h.below k hold
      rw [hdrawn.eq hadded] at hlt
      exact Nat.lt_irrefl _ hlt
    · rcases List.mem_append.mp (htable ▸ hmem) with hold | hadded
      · exact h.uncommitted j k hk hold
      · have hlt := h.pending_below j k hk
        rw [hdrawn.eq hadded] at hlt
        exact Nat.lt_irrefl _ hlt
  · intro s n h _
    exact ⟨h.below, h.nodup, h.pending_below, h.pending_nodup, h.uncommitted, h.apart⟩

end Keyed

end RatatoskrVault.Lib
