import Mathlib.Algebra.Order.BigOperators.Group.List
import Mathlib.Algebra.Order.Group.Nat
import RatatoskrVault.Mirror.Quota

/-! What the calls keep: the live reservations stay within the limits, a call is refused only for a
sum it read, and a reservation goes with the row of its run. -/
namespace RatatoskrVault.MirrorQuota

open Lib Machine

section Sums

theorem reservedBytes_append (rows : List MirrorQuotaReservation) (row : MirrorQuotaReservation) :
    reservedBytes (rows ++ [row]) = reservedBytes rows + row.reservedBytes := by
  simp [reservedBytes]

theorem reservedBytes_le {rows rows' : List MirrorQuotaReservation} (h : rows.Sublist rows') :
    reservedBytes rows ≤ reservedBytes rows' :=
  (h.map _).sum_le_sum fun _ _ => Nat.zero_le _

theorem targetReserved_le (db : Db) (targetId : Uuid) :
    targetReserved db targetId ≤ reservedBytes db.reservations :=
  reservedBytes_le List.filter_sublist

/-- The sums that an insertion leads to. -/
theorem targetReserved_insert (db : Db) (row : MirrorQuotaReservation) (targetId : Uuid) :
    targetReserved (db.apply (.insertReservation row)) targetId
      = targetReserved db targetId + if row.targetId = targetId then row.reservedBytes else 0 := by
  unfold targetReserved
  simp only [Db.apply, List.filter_append]
  by_cases hrow : row.targetId = targetId
  · rw [List.filter_cons_of_pos (by simpa using hrow), List.filter_nil, reservedBytes_append,
      if_pos hrow]
  · rw [List.filter_cons_of_neg (by simpa using hrow), List.filter_nil, List.append_nil,
      if_neg hrow, Nat.add_zero]

theorem targetReserved_release_le (db : Db) (runId targetId : Uuid) :
    targetReserved (db.apply (.releaseReservation runId)) targetId ≤ targetReserved db targetId :=
  reservedBytes_le (List.filter_sublist.filter _)

end Sums

variable (limits : Limits)

/-- The live reservations are within the limits, for each target and overall. -/
structure Within (db : Db) : Prop where
  perMirror : ∀ targetId, targetReserved db targetId ≤ limits.perMirrorMaxBytes
  global : reservedBytes db.reservations ≤ limits.globalMaxBytes

/-- The request and the live reservations together are within the limits. -/
structure Fits (db : Db) (call : ReserveCall) : Prop where
  perMirror : targetReserved db call.targetId + call.requestedBytes ≤ limits.perMirrorMaxBytes
  global : reservedBytes db.reservations + call.requestedBytes ≤ limits.globalMaxBytes

/-- One of the two sums with the request is over its limit. -/
def Exceeds (db : Db) (call : ReserveCall) : Prop :=
  limits.perMirrorMaxBytes < targetReserved db call.targetId + call.requestedBytes ∨
    limits.globalMaxBytes < reservedBytes db.reservations + call.requestedBytes

/-- The addition that saturates still meets the limit: the global limit is the largest number and
the sum is larger. -/
def Saturates (db : Db) (call : ReserveCall) : Prop :=
  limits.globalMaxBytes = i64Max ∧ i64Max < reservedBytes db.reservations + call.requestedBytes

/-- No comparison of a call is taken by saturation. -/
def Unsaturated (s : State) : Label → Prop
  | .exec i _ => ∀ call target, (s.session i).loc = .reserve call (.globalReserved target) →
      ¬ Saturates limits s.db call
  | _ => True

def Unrecorded (db : Db) (runId : Uuid) : Prop := ∀ r ∈ db.mirrorRuns, r.runId ≠ runId

/-- Sums that only shrink. -/
structure Shrinks (db db' : Db) : Prop where
  target : ∀ targetId, targetReserved db' targetId ≤ targetReserved db targetId
  global : reservedBytes db'.reservations ≤ reservedBytes db.reservations

section Invariant

variable (db : Db) (H : Lock → Prop)

/-- What holds of a reservation under way, from the sums it has read. -/
def Reserving (call : ReserveCall) (log : List Write) : ReserveLoc → Prop
  | .lock => log = []
  | .targetReserved =>
    log = [] ∧ H .quota ∧ limits.perMirrorMaxBytes ≤ i64Max ∧ limits.globalMaxBytes ≤ i64Max
  | .globalReserved target =>
    log = [] ∧ H .quota ∧ limits.perMirrorMaxBytes ≤ i64Max ∧ limits.globalMaxBytes ≤ i64Max ∧
      targetReserved db call.targetId ≤ target
  | .key => log = [] ∧ H .quota ∧ Fits limits db call
  | .insert => log = [] ∧ H .quota ∧ Fits limits db call
  | .commit => log = [.insertReservation call.row] ∧ H .quota ∧ Fits limits db call

/-- What holds of a record under way: its run has no row yet. -/
def Recording (call : RecordCall) (log : List Write) : RecordLoc → Prop
  | .key => log = []
  | .insert => log = [] ∧ H (.runKey call.runId)
  | .release =>
    ∃ row, row.runId = call.runId ∧ log = [.insertMirrorRun row] ∧ H (.runKey call.runId) ∧
      Unrecorded db call.runId
  | .commit =>
    ∃ row, row.runId = call.runId ∧
      (log = [.insertMirrorRun row] ∨
        log = [.insertMirrorRun row, .releaseReservation call.runId]) ∧
      H (.runKey call.runId) ∧ Unrecorded db call.runId

def Calling (σ : Session Write Loc) : Prop :=
  match σ.loc with
  | .reserve call at_ => Reserving limits db H call σ.log at_
  | .record call at_ => Recording db H call σ.log at_
  | _ => σ.log = []

end Invariant

/-- What a step of one session may do to another: sums shrink for the holder of their lock, and the
holder of a run key sees no row of that run. -/
def Relies (e e' : Shared Db Unit) (H : Lock → Prop) (_ : Session Write Loc) : Prop :=
  (H .quota → Shrinks e.db e'.db) ∧
    ∀ runId, H (.runKey runId) → Unrecorded e.db runId → Unrecorded e'.db runId

variable {limits} {db : Db} {H H' : Lock → Prop}

theorem Calling.mono {σ : Session Write Loc} (hH : ∀ l, H l → H' l) (h : Calling limits db H σ) :
    Calling limits db H' σ := by
  unfold Calling at h ⊢
  cases hloc : σ.loc with
  | reserve call at_ =>
    simp only [hloc] at h ⊢
    cases at_ with
    | lock => exact h
    | targetReserved => exact ⟨h.1, hH _ h.2.1, h.2.2⟩
    | globalReserved target => exact ⟨h.1, hH _ h.2.1, h.2.2⟩
    | key => exact ⟨h.1, hH _ h.2.1, h.2.2⟩
    | insert => exact ⟨h.1, hH _ h.2.1, h.2.2⟩
    | commit => exact ⟨h.1, hH _ h.2.1, h.2.2⟩
  | record call at_ =>
    simp only [hloc] at h ⊢
    cases at_ with
    | key => exact h
    | insert => exact ⟨h.1, hH _ h.2⟩
    | release =>
      obtain ⟨row, hrow, hlog, hkey, hnew⟩ := h
      exact ⟨row, hrow, hlog, hH _ hkey, hnew⟩
    | commit =>
      obtain ⟨row, hrow, hlog, hkey, hnew⟩ := h
      exact ⟨row, hrow, hlog, hH _ hkey, hnew⟩
  | _ => simpa only [hloc] using h

theorem Fits.of_shrinks {db' : Db} {call : ReserveCall} (h : Fits limits db call)
    (hless : Shrinks db db') : Fits limits db' call := by
  have htarget := hless.target call.targetId
  have hglobal := hless.global
  have hper := h.perMirror
  have hall := h.global
  exact ⟨by omega, by omega⟩

theorem Calling.stable {e e' : Shared Db Unit} {σ : Session Write Loc} (hR : Relies e e' H σ)
    (h : Calling limits e.db H σ) : Calling limits e'.db H σ := by
  unfold Calling at h ⊢
  cases hloc : σ.loc with
  | reserve call at_ =>
    simp only [hloc] at h ⊢
    cases at_ with
    | lock => exact h
    | targetReserved => exact h
    | globalReserved target =>
      obtain ⟨hlog, hquota, hper, hglobal, hread⟩ := h
      exact ⟨hlog, hquota, hper, hglobal, ((hR.1 hquota).target call.targetId).trans hread⟩
    | key => exact ⟨h.1, h.2.1, h.2.2.of_shrinks (hR.1 h.2.1)⟩
    | insert => exact ⟨h.1, h.2.1, h.2.2.of_shrinks (hR.1 h.2.1)⟩
    | commit => exact ⟨h.1, h.2.1, h.2.2.of_shrinks (hR.1 h.2.1)⟩
  | record call at_ =>
    simp only [hloc] at h ⊢
    cases at_ with
    | key => exact h
    | insert => exact h
    | release =>
      obtain ⟨row, hrow, hlog, hkey, hnew⟩ := h
      exact ⟨row, hrow, hlog, hkey, hR.2 _ hkey hnew⟩
    | commit =>
      obtain ⟨row, hrow, hlog, hkey, hnew⟩ := h
      exact ⟨row, hrow, hlog, hkey, hR.2 _ hkey hnew⟩
  | _ => simpa only [hloc] using h

theorem Relies.refl {e : Shared Db Unit} {e' : Shared Db Unit} (heq : e'.db = e.db)
    (σ : Session Write Loc) : Relies e e' H σ :=
  ⟨fun _ => ⟨fun _ => by rw [heq], by rw [heq]⟩, fun _ _ h => by rwa [heq]⟩

/-- The admission that the comparison allows is one that fits. -/
theorem fits_of_admitted {call : ReserveCall} {target : ℕ}
    (hlimits : limits.perMirrorMaxBytes ≤ i64Max ∧ limits.globalMaxBytes ≤ i64Max)
    (hread : targetReserved db call.targetId ≤ target)
    (hper : min i64Max (target + call.requestedBytes) ≤ limits.perMirrorMaxBytes)
    (hglobal : min i64Max (reservedBytes db.reservations + call.requestedBytes)
      ≤ limits.globalMaxBytes)
    (hunsaturated : ¬ Saturates limits db call) : Fits limits db call := by
  have hle := targetReserved_le db call.targetId
  have hall : reservedBytes db.reservations + call.requestedBytes ≤ limits.globalMaxBytes := by
    by_contra hover
    exact hunsaturated ⟨by omega, by omega⟩
  exact ⟨by omega, hall⟩

/-- What a committed insertion does to the sums. -/
theorem Within.insert {call : ReserveCall} (h : Within limits db) (hfits : Fits limits db call) :
    Within limits (db.apply (.insertReservation call.row)) := by
  refine ⟨fun targetId => ?_, ?_⟩
  · rw [targetReserved_insert]
    by_cases hsame : call.row.targetId = targetId
    · rw [if_pos hsame, ← hsame]
      exact hfits.perMirror
    · rw [if_neg hsame]
      exact h.perMirror targetId
  · show reservedBytes (db.reservations ++ [call.row]) ≤ limits.globalMaxBytes
    rw [reservedBytes_append]
    exact hfits.global

theorem Within.of_shrinks {db' : Db} (h : Within limits db) (hless : Shrinks db db') :
    Within limits db' :=
  ⟨fun targetId => (hless.target targetId).trans (h.perMirror targetId),
    hless.global.trans h.global⟩

/-- What a committed record does to the sums: nothing, or a release. -/
theorem shrinks_record {row : MirrorLifecycleRun} {runId : Uuid} {log : List Write}
    (hlog : log = [.insertMirrorRun row] ∨ log = [.insertMirrorRun row, .releaseReservation runId]) :
    Shrinks db (log.foldl Db.apply db) := by
  rcases hlog with rfl | rfl
  · exact ⟨fun _ => Nat.le_refl _, Nat.le_refl _⟩
  · exact ⟨fun targetId => targetReserved_release_le (db.apply (.insertMirrorRun row)) runId targetId,
      reservedBytes_le List.filter_sublist⟩

theorem mirrorRuns_record {row : MirrorLifecycleRun} {runId : Uuid} {log : List Write}
    (hlog : log = [.insertMirrorRun row] ∨ log = [.insertMirrorRun row, .releaseReservation runId]) :
    (log.foldl Db.apply db).mirrorRuns = db.mirrorRuns ++ [row] := by
  rcases hlog with rfl | rfl <;> rfl

/-- What the sessions of a state keep beside its reservations. -/
abbrev Kept (limits : Limits) : State → Prop :=
  Beside (fun e => Within limits e.db) (fun e H σ => Calling limits e.db H σ)

section Steps

variable {s s' : State} {i : ℕ}

/-- Where a session stands, with its log, as one of the cases of `Calling`. -/
theorem Kept.calling {loc : Loc} (h : Kept limits s) (hloc : (s.session i).loc = loc) :
    Calling limits s.db (s.holds i) { s.session i with loc } := by
  subst hloc
  exact h.sessions i

theorem Kept.view_of_nil (hlog : (s.session i).log = []) : (machine limits).view s i = s.db := by
  unfold Machine.view
  rw [hlog]
  rfl

theorem Kept.stmt {locks : List Lock} {writes : List Write} {next : Loc} (h : Kept limits s)
    (hok : ∀ call target, (s.session i).loc = .reserve call (.globalReserved target) →
      ¬ Saturates limits s.db call)
    (hact : Stmt limits ((machine limits).view s i) (s.session i).loc locks writes next) :
    Calling limits s.db (fun l => l ∈ locks ∨ s.holds i l)
      ⟨next, (s.session i).log ++ writes, some (s.moment i).now⟩ := by
  generalize hloc : (s.session i).loc = loc at hact
  have hcalling := h.calling hloc
  cases hact with
  | lock hper hglobal =>
    have hlog : (s.session i).log = [] := hcalling
    rw [hlog]
    exact ⟨rfl, Or.inl (List.mem_singleton_self _), hper, hglobal⟩
  | targetReserved =>
    obtain ⟨hlog, hquota, hper, hglobal⟩ := hcalling
    have hview : (machine limits).view s i = s.db := Kept.view_of_nil hlog
    rw [hview]
    have hlog' : (s.session i).log = [] := hlog
    rw [hlog']
    exact ⟨rfl, Or.inr hquota, hper, hglobal, Nat.le_refl _⟩
  | @admitted call target hper hglobal =>
    obtain ⟨hlog, hquota, hlimit, hlimit', hread⟩ := hcalling
    have hlog' : (s.session i).log = [] := hlog
    rw [Kept.view_of_nil hlog'] at hglobal
    rw [hlog']
    exact ⟨rfl, Or.inr hquota,
      fits_of_admitted ⟨hlimit, hlimit'⟩ hread hper hglobal (hok call target hloc)⟩
  | key =>
    obtain ⟨hlog, hquota, hfits⟩ := hcalling
    have hlog' : (s.session i).log = [] := hlog
    rw [hlog']
    exact ⟨rfl, Or.inr hquota, hfits⟩
  | insert =>
    obtain ⟨hlog, hquota, hfits⟩ := hcalling
    have hlog' : (s.session i).log = [] := hlog
    rw [hlog']
    exact ⟨rfl, Or.inr hquota, hfits⟩
  | runKey =>
    have hlog : (s.session i).log = [] := hcalling
    rw [hlog]
    exact ⟨rfl, Or.inl (List.mem_singleton_self _)⟩
  | insertRun hrow hnew =>
    obtain ⟨hlog, hkey⟩ := hcalling
    have hlog' : (s.session i).log = [] := hlog
    rw [Kept.view_of_nil hlog'] at hnew
    rw [hlog']
    exact ⟨_, hrow, rfl, Or.inr hkey, hnew⟩
  | release =>
    obtain ⟨row, hrow, hlog, hkey, hnew⟩ := hcalling
    have hlog' : (s.session i).log = [.insertMirrorRun row] := hlog
    rw [hlog']
    exact ⟨row, hrow, Or.inr rfl, Or.inr hkey, hnew⟩
  | unreserved =>
    obtain ⟨row, hrow, hlog, hkey, hnew⟩ := hcalling
    have hlog' : (s.session i).log = [.insertMirrorRun row] := hlog
    rw [hlog']
    exact ⟨row, hrow, Or.inl rfl, Or.inr hkey, hnew⟩

/-- A commit inserts one reservation that fits, or one row of evidence with its release. -/
theorem Kept.commit {next : Loc} (h : Kept limits s)
    (hact : act limits ((machine limits).view s i) (s.session i).loc = some (.commit next)) :
    (∃ call, (s.session i).log = [.insertReservation call.row] ∧ s.holds i .quota ∧
        Fits limits s.db call) ∨
      ∃ (call : RecordCall) (row : MirrorLifecycleRun), row.runId = call.runId ∧
        ((s.session i).log = [.insertMirrorRun row] ∨
          (s.session i).log = [.insertMirrorRun row, .releaseReservation call.runId]) ∧
        s.holds i (.runKey call.runId) ∧ Unrecorded s.db call.runId := by
  rcases act_commit hact with ⟨call, hloc, -⟩ | ⟨call, hloc, -⟩
  · exact Or.inl ⟨call, h.calling hloc⟩
  · obtain ⟨row, hrow, hlog, hkey, hnew⟩ := h.calling hloc
    exact Or.inr ⟨call, row, hrow, hlog, hkey, hnew⟩

theorem Kept.view_of_log {log : List Write} (hlog : (s.session i).log = log) :
    (machine limits).view s i = log.foldl Db.apply s.db := by
  rw [← hlog]
  rfl

theorem Kept.committed {next : Loc} (h : Kept limits s)
    (hact : act limits ((machine limits).view s i) (s.session i).loc = some (.commit next)) :
    let e' := { s.shared with db := (machine limits).view s i }
    Within limits e'.db ∧
      (∀ j, j ≠ i → Relies s.shared e' (s.holds j) (s.session j)) ∧
      Calling limits e'.db (fun _ => False) ⟨next, [], none⟩ := by
  have hended : ∀ db, Calling limits db (fun _ => False) ⟨next, [], none⟩ := by
    intro db
    rcases act_commit hact with ⟨call, -, rfl⟩ | ⟨call, -, rfl⟩ <;> rfl
  rcases h.commit hact with ⟨call, hlog, hquota, hfits⟩ | ⟨call, row, hrow, hlog, hkey, hnew⟩
  · have hview : (machine limits).view s i = _ := Kept.view_of_log hlog
    refine ⟨?_, fun j hji => ⟨fun hheld => ?_, fun runId _ habsent => ?_⟩, hended _⟩
    · show Within limits ((machine limits).view s i)
      rw [hview]
      exact h.shared.insert hfits
    · exact absurd (h.exclusive _ _ _ hheld hquota) hji
    · show Unrecorded ((machine limits).view s i) runId
      rw [hview]
      exact habsent
  · have hview : (machine limits).view s i = (s.session i).log.foldl Db.apply s.db := rfl
    have hless : Shrinks s.db _ := shrinks_record hlog
    refine ⟨?_, fun j hji => ⟨fun _ => ?_, fun runId hheld habsent => ?_⟩, hended _⟩
    · show Within limits ((machine limits).view s i)
      rw [hview]
      exact h.shared.of_shrinks hless
    · show Shrinks s.db ((machine limits).view s i)
      rw [hview]
      exact hless
    · show Unrecorded ((machine limits).view s i) runId
      have hother : row.runId ≠ runId := by
        intro heq
        rw [← heq, hrow] at hheld
        exact hji (h.exclusive _ _ _ hheld hkey)
      intro r hr
      rw [hview, mirrorRuns_record hlog] at hr
      rcases List.mem_append.mp hr with hold | hadded
      · exact habsent r hold
      · rw [List.mem_singleton.mp hadded]
        exact hother

end Steps

theorem kept_step : ∀ (s : State) (l : Label) s', Kept limits s → Unsaturated limits s l →
    (machine limits).step s l = some s' → Kept limits s' := by
  refine Beside.step (R := Relies) ?_ ?_ ?_ ?_ ?_ ?_ ?_ ?_ ?_ ?_ ?_ ?_ ?_ ?_
  · exact fun e H H' σ hH h => h.mono hH
  · exact fun e e' H σ hR h => h.stable hR
  · exact fun e H σ => Relies.refl rfl σ
  · exact fun e n H σ => Relies.refl rfl σ
  · exact fun e h => h
  · exact fun e n h => h
  · exact fun e => rfl
  · intro s i proc _ _
    cases proc <;> rfl
  · intro s i input locks writes next h hok hact _
    exact Kept.stmt h hok (act_stmt hact)
  · intro s i input locks writes next _ _ hact _
    exact absurd hact act_auto
  · intro s i input next h _ hact
    exact Kept.committed h hact
  · intro s i input next _ _ hact
    have hlog : ∀ loc, Rollback limits ((machine limits).view s i) loc next →
        Calling limits s.db (fun _ => False) ⟨next, [], none⟩ := by
      intro loc hdropped
      cases hdropped <;> rfl
    exact hlog _ (act_rollback hact)
  · intro s i input world next _ _ hact
    exact absurd hact act_call
  · intro s o
    exact o.elim

theorem kept_initial (hstart : Within limits db) (clock fresh : ℕ) :
    Kept limits (initial db clock fresh) :=
  ⟨hstart, fun _ => rfl, fun _ _ _ h => absurd h List.not_mem_nil⟩

section Refusal

/-- The label begins a call of session `i`. -/
def begins (i : ℕ) : Label → Bool
  | .start j _ => j == i
  | _ => false

/-- A step of a run, between the states around it. -/
abbrev Taken := State × Label × State

/-- The session's own steps leave the database as it was. -/
def WritesNothing (i : ℕ) (taken : List Taken) : Prop :=
  ∀ m ∈ taken, m.2.1.session? = some i → m.2.2.db = m.1.db

/-- At some moment of the call one of the sums with the request is over its limit, and the call
writes nothing. -/
def RefusedForASum (limits : Limits) (i : ℕ) (call : ReserveCall) (taken : List Taken) : Prop :=
  (∃ m ∈ taken, Exceeds limits m.1.db call) ∧ WritesNothing i taken

/-- What the steps of a call have shown of the sums it has read. -/
def Reads (limits : Limits) (i : ℕ) (s : State) (taken : List Taken) : Prop :=
  match (s.session i).loc with
  | .reserve call at_ =>
    WritesNothing i taken ∧ ∀ target, at_ = .globalReserved target →
      ∃ m ∈ taken, targetReserved m.1.db call.targetId = target
  | .quotaExceeded call => RefusedForASum limits i call taken
  | _ => True

variable {s s' : State} {i : ℕ} {l : Label} {taken : List Taken}

theorem WritesNothing.snoc (h : WritesNothing i taken)
    (hl : l.session? = some i → s'.db = s.db) : WritesNothing i (taken ++ [(s, l, s')]) := by
  intro m hm hsession
  rcases List.mem_append.mp hm with hold | hnew
  · exact h m hold hsession
  · obtain rfl := List.mem_singleton.mp hnew
    exact hl hsession

/-- A step of another session tells the call nothing. -/
theorem Reads.other (h : Reads limits i s taken) (hl : l.session? ≠ some i)
    (hsame : s'.session i = s.session i) : Reads limits i s' (taken ++ [(s, l, s')]) := by
  have hleft : ∀ {m}, m ∈ taken → m ∈ taken ++ [(s, l, s')] := List.mem_append_left _
  unfold Reads at h ⊢
  rw [hsame]
  cases hloc : (s.session i).loc with
  | reserve call at_ =>
    simp only [hloc] at h ⊢
    refine ⟨h.1.snoc fun hi => absurd hi hl, fun target htarget => ?_⟩
    obtain ⟨m, hm, hread⟩ := h.2 target htarget
    exact ⟨m, hleft hm, hread⟩
  | quotaExceeded call =>
    simp only [hloc] at h ⊢
    obtain ⟨⟨m, hm, hexceeds⟩, hquiet⟩ := h
    exact ⟨⟨m, hleft hm, hexceeds⟩, hquiet.snoc fun hi => absurd hi hl⟩
  | _ => trivial

/-- A statement of the call itself: the first sum is one it has just read. -/
theorem Reads.stmt {locks : List Lock} {writes : List Write} {next : Loc} (hkept : Kept limits s)
    (h : Reads limits i s taken)
    (hact : Stmt limits ((machine limits).view s i) (s.session i).loc locks writes next)
    (hs' : s' = afterStmt s i locks writes next) :
    Reads limits i s' (taken ++ [(s, l, s')]) := by
  have hdb : s'.db = s.db := by rw [hs']; rfl
  have hloc' : (s'.session i).loc = next := by rw [hs']; simp [afterStmt]
  generalize hloc : (s.session i).loc = loc at hact
  have hcalling := hkept.calling hloc
  unfold Reads at h ⊢
  rw [hloc] at h
  rw [hloc']
  cases hact with
  | @targetReserved call =>
    refine ⟨h.1.snoc fun _ => hdb, fun target htarget => ⟨(s, l, s'), by simp, ?_⟩⟩
    have hlog : (s.session i).log = [] := hcalling.1
    have hread : targetReserved ((machine limits).view s i) call.targetId = target :=
      ReserveLoc.globalReserved.inj htarget
    rw [← hread, Kept.view_of_nil hlog]
  | lock => exact ⟨h.1.snoc fun _ => hdb, fun _ hat => by cases hat⟩
  | admitted => exact ⟨h.1.snoc fun _ => hdb, fun _ hat => by cases hat⟩
  | key => exact ⟨h.1.snoc fun _ => hdb, fun _ hat => by cases hat⟩
  | insert => exact ⟨h.1.snoc fun _ => hdb, fun _ hat => by cases hat⟩
  | runKey => trivial
  | insertRun => trivial
  | release => trivial
  | unreserved => trivial

/-- The refusal itself: the first sum was read before, the second is read now. -/
theorem Reads.rollback {next : Loc} (hkept : Kept limits s) (h : Reads limits i s taken)
    (hact : Rollback limits ((machine limits).view s i) (s.session i).loc next)
    (hs' : s' = afterRollback s i next) : Reads limits i s' (taken ++ [(s, l, s')]) := by
  have hdb : s'.db = s.db := by rw [hs']; rfl
  have hloc' : (s'.session i).loc = next := by rw [hs']; simp [afterRollback]
  generalize hloc : (s.session i).loc = loc at hact
  have hcalling := hkept.calling hloc
  unfold Reads at h ⊢
  rw [hloc] at h
  rw [hloc']
  cases hact with
  | failed => trivial
  | @quotaExceeded call target hexceeds =>
    obtain ⟨hquiet, hread⟩ := h
    have hlog : (s.session i).log = [] := hcalling.1
    rw [Kept.view_of_nil hlog] at hexceeds
    refine ⟨?_, hquiet.snoc fun _ => hdb⟩
    rcases hexceeds with hper | hglobal
    · obtain ⟨m, hm, hsum⟩ := hread target rfl
      refine ⟨m, List.mem_append_left _ hm, Or.inl ?_⟩
      rw [hsum]
      exact hper
    · exact ⟨(s, l, s'), by simp, Or.inr hglobal⟩

theorem reads_step (hkept : Kept limits s) (h : Reads limits i s taken)
    (hstep : (machine limits).step s l = some s') :
    Reads limits i s' (if begins i l then [] else taken ++ [(s, l, s')]) := by
  by_cases hl : l.session? = some i
  · cases l with
    | start j proc =>
      obtain rfl : j = i := Option.some.inj hl
      simp only [step] at hstep
      split_ifs at hstep
      obtain rfl := Option.some.inj hstep
      simp only [begins, beq_self_eq_true, if_true]
      unfold Reads
      rw [afterStart, State.setSession_session_self]
      cases proc with
      | reserve call => exact ⟨fun _ hm => absurd hm List.not_mem_nil, fun _ hat => by cases hat⟩
      | record call => trivial
    | exec j input =>
      obtain rfl : j = i := Option.some.inj hl
      obtain ⟨a, hact, hp⟩ := Option.bind_eq_some_iff.mp hstep
      rw [if_neg (by simp [begins])]
      cases a with
      | stmt locks writes next =>
        simp only [perform] at hp
        split_ifs at hp
        exact Reads.stmt hkept h (act_stmt hact) (Option.some.inj hp).symm
      | auto locks writes next => exact absurd hact act_auto
      | commit next =>
        obtain rfl := Option.some.inj hp
        unfold Reads
        rw [afterCommit]
        simp only [State.setSession_session_self]
        rcases act_commit hact with ⟨call, -, rfl⟩ | ⟨call, -, rfl⟩ <;> trivial
      | rollback next => exact Reads.rollback hkept h (act_rollback hact) (Option.some.inj hp).symm
      | call world next => exact absurd hact act_call
    | abort j =>
      obtain rfl : j = i := Option.some.inj hl
      obtain rfl := Option.some.inj hstep
      unfold Reads
      rw [afterRollback]
      simp only [State.setSession_session_self]
    | op o => exact o.elim
    | tick n => cases hl
  · have hbegins : begins i l = false := by
      cases l with
      | start j proc =>
        refine beq_eq_false_iff_ne.mpr fun hji => hl ?_
        rw [hji]
        rfl
      | _ => rfl
    rw [if_neg (by simp [hbegins])]
    exact h.other hl (step_session_of_ne hstep hl)

end Refusal

/-- A reservation that is gone went with the row of its run. -/
def ReleasedWithItsRun (db db' : Db) : Prop :=
  ∀ r ∈ db.reservations, r ∉ db'.reservations →
    (∃ row ∈ db'.mirrorRuns, row.runId = r.runId) ∧ Unrecorded db r.runId

theorem released_with_its_run {s s' : State} {l : Label} (h : Kept limits s)
    (hstep : (machine limits).step s l = some s') : ReleasedWithItsRun s.db s'.db := by
  have hsame : s'.db = s.db → ReleasedWithItsRun s.db s'.db := by
    intro heq r hr hgone
    rw [heq] at hgone
    exact absurd hr hgone
  cases l with
  | start i proc =>
    simp only [step] at hstep
    split_ifs at hstep
    obtain rfl := Option.some.inj hstep
    exact hsame rfl
  | exec i input =>
    obtain ⟨a, hact, hp⟩ := Option.bind_eq_some_iff.mp hstep
    cases a with
    | stmt locks writes next =>
      simp only [perform] at hp
      split_ifs at hp
      obtain rfl := Option.some.inj hp
      exact hsame rfl
    | auto locks writes next => exact absurd hact act_auto
    | commit next =>
      obtain rfl := Option.some.inj hp
      show ReleasedWithItsRun s.db ((machine limits).view s i)
      intro r hr hgone
      rcases h.commit hact with ⟨call, hlog, -, -⟩ | ⟨call, row, hrow, hlog, -, hnew⟩
      · rw [Kept.view_of_log hlog] at hgone
        exact absurd (List.mem_append_left _ hr) hgone
      · have hrun : r.runId = call.runId := by
          by_contra hother
          rcases hlog with hlog | hlog
          · rw [Kept.view_of_log hlog] at hgone
            exact hgone hr
          · rw [Kept.view_of_log hlog] at hgone
            exact hgone (List.mem_filter.mpr ⟨hr, bne_iff_ne.mpr hother⟩)
        rw [hrun]
        refine ⟨⟨row, ?_, hrow⟩, hnew⟩
        rw [Kept.view_of_log rfl, mirrorRuns_record hlog]
        exact List.mem_append_right _ (List.mem_singleton_self _)
    | rollback next =>
      obtain rfl := Option.some.inj hp
      exact hsame rfl
    | call world next => exact absurd hact act_call
  | abort i =>
    obtain rfl := Option.some.inj hstep
    exact hsame rfl
  | op o => exact o.elim
  | tick n =>
    obtain rfl := Option.some.inj hstep
    exact hsame rfl

/-- What session `i` has gone through since it last began a call. -/
def callSteps (limits : Limits) (s : State) (i : ℕ) (ls : List Label) : List Taken :=
  since (machine limits).step (begins i) s ls []

/-- Under one pair of limits, however the statements of the calls are interleaved: the live
reservations are within the limits, a refused call saw a sum that was over its limit and wrote
nothing, and a reservation goes only in the commit that inserts the row of its run. -/
theorem admission_exact {clock fresh : ℕ} {ls : List Label} {s : State}
    (hstart : Within limits db)
    (hrun : run (machine limits).step (initial db clock fresh) ls = some s)
    (hok : Along (machine limits).step (Unsaturated limits) (initial db clock fresh) ls) :
    Within limits s.db ∧
      (∀ i call, (s.session i).loc = .quotaExceeded call →
        RefusedForASum limits i call (callSteps limits (initial db clock fresh) i ls)) ∧
      ∀ l s', (machine limits).step s l = some s' → ReleasedWithItsRun s.db s'.db := by
  have hinitial : Kept limits (initial db clock fresh) := kept_initial hstart clock fresh
  have hkept : Kept limits s := (Reach.of_run hrun hok).invariant hinitial kept_step
  refine ⟨hkept.shared, fun i call hloc => ?_, fun l s' hstep => released_with_its_run hkept hstep⟩
  have hboth : Kept limits s ∧
      Reads limits i s (callSteps limits (initial db clock fresh) i ls) :=
    since_invariant (J := fun s taken => Kept limits s ∧ Reads limits i s taken)
      (fun s l s' taken h hl hs => ⟨kept_step s l s' h.1 hl hs, reads_step h.1 h.2 hs⟩)
      ⟨hinitial, trivial⟩ hok hrun
  have hreads := hboth.2
  unfold Reads at hreads
  rw [hloc] at hreads
  exact hreads

/-- Below the largest number no comparison saturates. -/
theorem unsaturated_of_ne (h : limits.globalMaxBytes ≠ i64Max) (s : State) (l : Label) :
    Unsaturated limits s l := by
  cases l with
  | exec i input => exact fun _ _ _ hsaturated => h hsaturated.1
  | _ => trivial

namespace Sample

def oneTarget : Db :=
  { targets :=
      [{ targetId := 1, provider := "github", externalRepositoryId := "r", status := .cloning }] }

/-- A whole call by session `i`. -/
def reserve (i : ℕ) (runId : Uuid) (requestedBytes : ℕ) : List Label :=
  .start i (.reserve { targetId := 1, runId, requestedBytes }) :: List.replicate 6 (.exec i ())

def refused : ReserveCall := { targetId := 1, runId := 8, requestedBytes := 6 }

/-- A call that is admitted, one that is refused while it is live, and the record of the first. -/
def calls : List Label :=
  reserve 0 7 6 ++ .start 1 (.reserve refused) :: List.replicate 3 (.exec 1 ()) ++
    .start 0 (.record { targetId := 1, runId := 7, result := .succeeded 1 1 }) ::
      List.replicate 4 (.exec 0 ())

def ten : Limits := { perMirrorMaxBytes := 10, globalMaxBytes := 10 }

def largest : Limits := { perMirrorMaxBytes := i64Max, globalMaxBytes := i64Max }

end Sample

theorem admission_exact_calls : ∃ s,
    run (machine Sample.ten).step (initial Sample.oneTarget 0 0) Sample.calls = some s ∧
      Within Sample.ten s.db ∧
        RefusedForASum Sample.ten 1 Sample.refused
          (callSteps Sample.ten (initial Sample.oneTarget 0 0) 1 Sample.calls) := by
  have hsome : (run (machine Sample.ten).step (initial Sample.oneTarget 0 0) Sample.calls).any
      (fun s => (s.session 1).loc == .quotaExceeded Sample.refused) = true := by decide +kernel
  obtain ⟨s, hrun, hloc⟩ := exists_of_run_any hsome
  have hstart : Within Sample.ten Sample.oneTarget := ⟨fun _ => Nat.zero_le _, by decide⟩
  have hexact := admission_exact hstart hrun
    (along_of_forall (fun l _ s => unsaturated_of_ne (by decide) s l) _)
  exact ⟨s, hrun, hexact.1, hexact.2.1 1 _ (beq_iff_eq.mp hloc)⟩

/-- With the largest limits, a reservation of all there is does not keep out another byte. -/
theorem saturated_admission : ∃ s,
    run (machine Sample.largest).step (initial Sample.oneTarget 0 0)
        (Sample.reserve 0 7 i64Max ++ Sample.reserve 1 8 1) = some s ∧
      ¬ Within Sample.largest s.db := by
  have hsome : (run (machine Sample.largest).step (initial Sample.oneTarget 0 0)
      (Sample.reserve 0 7 i64Max ++ Sample.reserve 1 8 1)).any
      (fun s => decide (i64Max < reservedBytes s.db.reservations)) = true := by decide +kernel
  obtain ⟨s, hrun, hover⟩ := exists_of_run_any hsome
  exact ⟨s, hrun, fun hwithin => Nat.not_lt_of_le hwithin.global (of_decide_eq_true hover)⟩

end RatatoskrVault.MirrorQuota
