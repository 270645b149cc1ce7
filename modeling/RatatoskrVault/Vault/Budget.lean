import Mathlib.Algebra.Order.BigOperators.Group.List
import Mathlib.Algebra.Order.Group.Nat
import RatatoskrVault.Vault.Recorded

/-! The host storage budget: what the published mirrors occupy, beside what the live reservations
hold, in runs whose admitted operations store no more than they reserved. -/
namespace RatatoskrVault

open Lib

/-- Bytes that a run has stored in the published mirror of its target. -/
structure StoredBytes where
  targetId : Uuid
  bytes : ℕ
  deriving DecidableEq

def storedBytes (stored : List StoredBytes) : ℕ := (stored.map (·.bytes)).sum

/-- What a reservation accounts for: itself, and what its run may still store. -/
def MirrorQuotaReservation.claim (grown : Uuid → ℕ) (row : MirrorQuotaReservation) : ℕ :=
  row.reservedBytes + (row.reservedBytes - grown row.runId)

def claimedBytes (grown : Uuid → ℕ) (reservations : List MirrorQuotaReservation) : ℕ :=
  (reservations.map (·.claim grown)).sum

section

variable {p : Uuid → Bool} {grown : Uuid → ℕ} {stored stored' : List StoredBytes}
  {reservations : List MirrorQuotaReservation} {row : MirrorQuotaReservation}

theorem storedBytes_append :
    storedBytes (stored ++ stored') = storedBytes stored + storedBytes stored' := by
  simp [storedBytes]

theorem storedBytes_sublist (h : stored.Sublist stored') : storedBytes stored ≤ storedBytes stored' :=
  (h.map _).sum_le_sum fun _ _ => Nat.zero_le _

theorem reservedBytes_le_claimedBytes : reservedBytes reservations ≤ claimedBytes grown reservations :=
  List.sum_le_sum fun _ _ => Nat.le_add_right _ _

theorem claimedBytes_append {reservations' : List MirrorQuotaReservation} :
    claimedBytes grown (reservations ++ reservations')
      = claimedBytes grown reservations + claimedBytes grown reservations' := by
  simp [claimedBytes]

theorem claimedBytes_cons :
    claimedBytes grown (row :: reservations) = row.claim grown + claimedBytes grown reservations := by
  simp [claimedBytes]

theorem claimedBytes_sublist {reservations' : List MirrorQuotaReservation}
    (h : reservations.Sublist reservations') :
    claimedBytes grown reservations ≤ claimedBytes grown reservations' :=
  (h.map _).sum_le_sum fun _ _ => Nat.zero_le _

/-- Growth is paid for by the claim of its reservation. -/
theorem claimedBytes_grow {n : ℕ} (hrow : row ∈ reservations)
    (hfits : grown row.runId + n ≤ row.reservedBytes) :
    claimedBytes (Function.update grown row.runId (grown row.runId + n)) reservations + n
      ≤ claimedBytes grown reservations := by
  have hclaim : ∀ other : MirrorQuotaReservation,
      other.claim (Function.update grown row.runId (grown row.runId + n)) ≤ other.claim grown := by
    intro other
    unfold MirrorQuotaReservation.claim
    by_cases hsame : other.runId = row.runId
    · rw [hsame, Function.update_self]
      omega
    · rw [Function.update_of_ne hsame]
  obtain ⟨before, after, rfl⟩ := List.append_of_mem hrow
  have hpaid : row.claim (Function.update grown row.runId (grown row.runId + n)) + n
      ≤ row.claim grown := by
    unfold MirrorQuotaReservation.claim
    rw [Function.update_self]
    omega
  have hothers : ∀ others : List MirrorQuotaReservation,
      claimedBytes (Function.update grown row.runId (grown row.runId + n)) others
        ≤ claimedBytes grown others := fun others => List.sum_le_sum fun other _ => hclaim other
  have hbefore := hothers before
  have hafter := hothers after
  rw [claimedBytes_append, claimedBytes_append, claimedBytes_cons, claimedBytes_cons]
  omega

/-- Growth outside a budget does not count against it. -/
theorem claimedBytes_grow_le {runId : Uuid} {n : ℕ} :
    claimedBytes (Function.update grown runId (grown runId + n)) reservations
      ≤ claimedBytes grown reservations := by
  refine List.sum_le_sum fun other _ => ?_
  unfold MirrorQuotaReservation.claim
  by_cases hsame : other.runId = runId
  · rw [hsame, Function.update_self]
    omega
  · rw [Function.update_of_ne hsame]

end

namespace Vault

/-- The vault with the bytes of its published mirrors, and what each run has stored so far. -/
structure Host where
  vault : State
  stored : List StoredBytes
  grown : Uuid → ℕ

inductive HostLabel
  | vault (l : Label)
  /-- An admitted run stores bytes in the published mirror of its target. -/
  | grow (runId : Uuid) (n : ℕ)

section

variable (settings : Settings)

/-- The bytes of a mirror go with its directory; a run stores at most what it has reserved. -/
def Host.step (h : Host) : HostLabel → Option Host
  | .vault l =>
    ((machine settings).step h.vault l).map fun s =>
      { h with
        vault := s
        stored := h.stored.filter fun entry =>
          s.world.mirrors (mirrorRelativePath settings.mirror entry.targetId) }
  | .grow runId n =>
    match h.vault.db.reservations.find? fun row => row.runId == runId with
    | none => none
    | some row =>
      if h.grown runId + n ≤ row.reservedBytes ∧
          h.vault.world.mirrors (mirrorRelativePath settings.mirror row.targetId) = true then
        some
          { h with
            stored := h.stored ++ [{ targetId := row.targetId, bytes := n }]
            grown := Function.update h.grown runId (h.grown runId + n) }
      else none

namespace Host

variable (h : Host) (p : Uuid → Bool)

/-- The bytes stored for the targets of `p`. -/
def storedFor : ℕ := storedBytes (h.stored.filter fun entry => p entry.targetId)

/-- The live reservations of the targets of `p`. -/
def reservedFor : ℕ := reservedBytes (h.vault.db.reservations.filter fun row => p row.targetId)

/-- The stored bytes, the live reservations, and what their runs may still store. -/
def claimedFor : ℕ :=
  h.storedFor p +
    claimedBytes h.grown (h.vault.db.reservations.filter fun row => p row.targetId)

end Host

/-- The host and every mirror are within their budgets. -/
structure WithinBudget (h : Host) : Prop where
  host : h.storedFor (fun _ => true) + h.reservedFor (fun _ => true)
    ≤ settings.mirror.globalMaxBytes
  mirror : ∀ targetId, h.storedFor (· == targetId) + h.reservedFor (· == targetId)
    ≤ settings.mirror.perMirrorMaxBytes

/-- The claims on the host and on every mirror are within their budgets. -/
structure Claimed (h : Host) : Prop where
  host : h.claimedFor (fun _ => true) ≤ settings.mirror.globalMaxBytes
  mirror : ∀ targetId, h.claimedFor (· == targetId) ≤ settings.mirror.perMirrorMaxBytes

/-- A reservation is committed only where both budgets have room, beside what is stored and
claimed, for it and for what its run may store under it. -/
def HasRoom (h : Host) : HostLabel → Prop
  | .vault (.exec i _) => ∀ run, (h.vault.session i).loc = .mirror (.commitReservation run) →
      h.claimedFor (fun _ => true) + 2 * admittedReservation settings.mirror run.request
          ≤ settings.mirror.globalMaxBytes ∧
        h.claimedFor (· == run.request.targetId)
            + 2 * admittedReservation settings.mirror run.request
          ≤ settings.mirror.perMirrorMaxBytes
  | _ => True

end

section

variable {settings : Settings} {h h' : Host} {s s' : State} {l : Label}

theorem Claimed.withinBudget (hclaimed : Claimed settings h) : WithinBudget settings h where
  host := Nat.le_trans (Nat.add_le_add_left reservedBytes_le_claimedBytes _) hclaimed.host
  mirror targetId :=
    Nat.le_trans (Nat.add_le_add_left reservedBytes_le_claimedBytes _) (hclaimed.mirror targetId)

/-- A step of the vault admits one reservation, or leaves some of those there are. -/
theorem reservations_step (hapart : RunsApart settings s)
    (hstep : (machine settings).step s l = some s') :
    s'.db.reservations.Sublist s.db.reservations ∨
      ∃ i input run, l = .exec i input ∧ (s.session i).loc = .mirror (.commitReservation run) ∧
        s'.db.reservations = s.db.reservations ++ [run.reservation settings.mirror] := by
  rcases Machine.step_db hstep with hdb | ⟨i, input, locks, writes, next, -, hact, hdb⟩ |
    ⟨i, input, next, rfl, hact, hdb⟩ | ⟨o, locks, writes, -, hop, hdb⟩
  · rw [hdb]
    exact Or.inl (List.Sublist.refl _)
  · have htables : (writes.foldl Db.apply s.db).mirrorRuns = s.db.mirrorRuns ∧
        (writes.foldl Db.apply s.db).reservations = s.db.reservations :=
      runs_of_leaves (act_auto hact).leavesRuns
    rw [hdb]
    exact Or.inl (htables.2 ▸ List.Sublist.refl _)
  · rw [hdb]
    rcases hapart.recorded.commit (act_commit hact) with ⟨-, hreservations, -⟩ |
      ⟨run, hloc, -, hview, -⟩ | ⟨job, row, -, -, -, hview, -⟩
    · exact Or.inl (hreservations ▸ List.Sublist.refl _)
    · exact Or.inr ⟨i, input, run, rfl, hloc, by rw [hview]; rfl⟩
    · rw [hview]
      exact Or.inl List.filter_sublist
  · have htables : (writes.foldl Db.apply s.db).mirrorRuns = s.db.mirrorRuns ∧
        (writes.foldl Db.apply s.db).reservations = s.db.reservations :=
      runs_of_leaves (operate_writes hop).leavesRuns
    rw [hdb]
    exact Or.inl (htables.2 ▸ List.Sublist.refl _)

/-- Bytes that are gone and reservations that have ended claim nothing. -/
theorem claimedFor_le {p : Uuid → Bool} (hgrown : h'.grown = h.grown)
    (hstored : h'.stored.Sublist h.stored)
    (hreservations : h'.vault.db.reservations.Sublist h.vault.db.reservations) :
    h'.claimedFor p ≤ h.claimedFor p := by
  have hbytes : h'.storedFor p ≤ h.storedFor p := storedBytes_sublist (hstored.filter _)
  unfold Host.claimedFor
  rw [hgrown]
  exact Nat.add_le_add hbytes (claimedBytes_sublist (hreservations.filter _))

/-- A reservation claims at most its bytes twice, and only in the budgets of its target. -/
theorem claimedFor_admit {p : Uuid → Bool} {row : MirrorQuotaReservation}
    (hgrown : h'.grown = h.grown) (hstored : h'.stored.Sublist h.stored)
    (hreservations : h'.vault.db.reservations = h.vault.db.reservations ++ [row]) :
    h'.claimedFor p ≤ h.claimedFor p + if p row.targetId then 2 * row.reservedBytes else 0 := by
  have hbytes : h'.storedFor p ≤ h.storedFor p := storedBytes_sublist (hstored.filter _)
  unfold Host.claimedFor
  rw [hgrown, hreservations, List.filter_append, claimedBytes_append]
  have hrow : claimedBytes h.grown ([row].filter fun row => p row.targetId)
      ≤ if p row.targetId then 2 * row.reservedBytes else 0 := by
    by_cases hp : p row.targetId = true
    · rw [List.filter_cons, if_pos hp, List.filter_nil, claimedBytes_cons, if_pos hp]
      simp only [MirrorQuotaReservation.claim, claimedBytes, List.map_nil, List.sum_nil]
      omega
    · rw [List.filter_cons, if_neg hp, List.filter_nil, if_neg hp]
      exact Nat.le_refl _
  omega

/-- Growth moves bytes from the claim of a reservation to the mirror. -/
theorem claimedFor_grow {p : Uuid → Bool} {row : MirrorQuotaReservation} {n : ℕ}
    (hrow : row ∈ h.vault.db.reservations) (hfits : h.grown row.runId + n ≤ row.reservedBytes) :
    Host.claimedFor
      { h with
        stored := h.stored ++ [{ targetId := row.targetId, bytes := n }]
        grown := Function.update h.grown row.runId (h.grown row.runId + n) } p
      ≤ h.claimedFor p := by
  unfold Host.claimedFor Host.storedFor
  show storedBytes ((h.stored ++ [_]).filter _) + _ ≤ _
  rw [List.filter_append, storedBytes_append]
  by_cases hp : p row.targetId = true
  · have hcounted : row ∈ h.vault.db.reservations.filter fun row => p row.targetId :=
      List.mem_filter.mpr ⟨hrow, hp⟩
    have hpaid := claimedBytes_grow hcounted hfits
    have hstored : storedBytes ([({ targetId := row.targetId, bytes := n } : StoredBytes)].filter
        fun entry => p entry.targetId) = n := by
      rw [List.filter_cons, if_pos hp]
      rfl
    rw [hstored]
    simp only at hpaid ⊢
    omega
  · have hstored : storedBytes ([({ targetId := row.targetId, bytes := n } : StoredBytes)].filter
        fun entry => p entry.targetId) = 0 := by
      rw [List.filter_cons, if_neg hp]
      rfl
    rw [hstored]
    exact Nat.add_le_add_left claimedBytes_grow_le _

/-- What is claimed stays within the budgets as long as every admission has room. -/
theorem claimed_step (h : Host) (l : HostLabel) (h' : Host)
    (hinv : RunsApart settings h.vault ∧ Claimed settings h) (hroom : HasRoom settings h l)
    (hstep : Host.step settings h l = some h') :
    RunsApart settings h'.vault ∧ Claimed settings h' := by
  obtain ⟨hapart, hclaimed⟩ := hinv
  cases l with
  | vault l =>
    obtain ⟨s, hs, rfl⟩ := Option.map_eq_some_iff.mp hstep
    refine ⟨runsApart_step _ _ _ hapart hs, ?_⟩
    rcases reservations_step hapart hs with hfewer | ⟨i, input, run, rfl, hloc, hadmitted⟩
    · constructor
      · exact Nat.le_trans (claimedFor_le (h := h) rfl List.filter_sublist hfewer) hclaimed.host
      · intro targetId
        refine Nat.le_trans (claimedFor_le (h := h) rfl List.filter_sublist hfewer) ?_
        exact hclaimed.mirror targetId
    · obtain ⟨hhost, hmirror⟩ := hroom run hloc
      constructor
      · refine Nat.le_trans ( claimedFor_admit (h := h) rfl List.filter_sublist hadmitted) ?_
        rw [if_pos rfl]
        exact hhost
      · intro targetId
        refine Nat.le_trans ( claimedFor_admit (h := h) rfl List.filter_sublist hadmitted) ?_
        by_cases hsame : run.request.targetId = targetId
        · subst hsame
          have hself : ((run.reservation settings.mirror).targetId == run.request.targetId) = true :=
            beq_self_eq_true run.request.targetId
          rw [if_pos hself]
          exact hmirror
        · rw [if_neg (by simpa [MirrorRun.reservation] using hsame)]
          exact hclaimed.mirror targetId
  | grow runId n =>
    simp only [Host.step] at hstep
    split at hstep
    · cases hstep
    · rename_i row hfind
      obtain rfl : row.runId = runId := by simpa using List.find?_some hfind
      have hrow := List.mem_of_find?_eq_some hfind
      split_ifs at hstep with hfits
      obtain rfl := Option.some.inj hstep
      refine ⟨hapart, ?_, fun targetId => ?_⟩
      · exact Nat.le_trans (claimedFor_grow hrow hfits.1) hclaimed.host
      · exact Nat.le_trans (claimedFor_grow hrow hfits.1) (hclaimed.mirror targetId)

/-- In every run whose admissions have room, the host and every mirror stay within their budgets. -/
theorem budget_respected {h₀ : Host} {db : Db} {storage : MirrorStorage} {clock fresh : ℕ}
    (hvault : h₀.vault = initial db storage clock fresh) (hnone : db.reservations = [])
    (hruns : ∀ row ∈ db.mirrorRuns, row.runId < fresh) (hwithin : WithinBudget settings h₀)
    (hreach : Reach (Host.step settings) (HasRoom settings) h₀ h) : WithinBudget settings h := by
  have hapart : RunsApart settings h₀.vault := by
    rw [hvault]
    refine runsApart_initial hruns ?_ ?_
    · intro row hrow
      rw [hnone] at hrow
      cases hrow
    · rw [hnone]
      exact List.nodup_nil
  have hreservations : h₀.vault.db.reservations = [] := by
    rw [hvault]
    exact hnone
  have hstored : ∀ p, h₀.claimedFor p = h₀.storedFor p + h₀.reservedFor p := by
    intro p
    unfold Host.claimedFor Host.reservedFor
    rw [hreservations]
    rfl
  have hclaimed : Claimed settings h₀ := by
    constructor
    · rw [hstored]
      exact hwithin.host
    · intro targetId
      rw [hstored]
      exact hwithin.mirror targetId
  have hinv : RunsApart settings h.vault ∧ Claimed settings h :=
    hreach.invariant (I := fun h => RunsApart settings h.vault ∧ Claimed settings h)
      ⟨hapart, hclaimed⟩ claimed_step
  exact hinv.2.withinBudget

end

namespace Sample

def host : Host := { vault := initial twoMirrors mirrored 0 10, stored := [], grown := fun _ => 0 }

/-- Session `i` fetches a target, from its admission to the call of Git. -/
def storing (i : ℕ) (targetId : Uuid) (reservationBytes : ℕ) : List HostLabel :=
  .vault (.start i (.mirror { request with targetId, reservationBytes })) ::
    List.replicate 8 (.vault (.exec i answered))

/-- Two fetches at a time, the first of which stores what it reserved and ends. -/
def storedRuns : List HostLabel :=
  storing 0 1 2 ++ [.grow 11 2] ++ storing 1 2 2 ++ List.replicate 13 (.vault (.exec 0 answered))

/-- A fetch that stores six bytes and ends, and another that reserves six. -/
def overcommitted : List HostLabel :=
  storing 0 1 6 ++ [.grow 11 6] ++ List.replicate 13 (.vault (.exec 0 answered)) ++ storing 0 2 6

def isRoomy (h : Host) : HostLabel → Bool
  | .vault (.exec i _) =>
    match (h.vault.session i).loc with
    | .mirror (.commitReservation run) =>
      decide (h.claimedFor (fun _ => true) + 2 * admittedReservation settings.mirror run.request
          ≤ settings.mirror.globalMaxBytes) &&
        decide (h.claimedFor (· == run.request.targetId)
            + 2 * admittedReservation settings.mirror run.request
          ≤ settings.mirror.perMirrorMaxBytes)
    | _ => true
  | _ => true

theorem hasRoom_of_isRoomy {h : Host} {l : HostLabel} (hroomy : isRoomy h l = true) :
    HasRoom settings h l := by
  unfold HasRoom
  split
  · intro run hloc
    simp only [isRoomy, hloc, Bool.and_eq_true, decide_eq_true_eq] at hroomy
    exact hroomy
  · trivial

theorem withinBudget_host : WithinBudget settings host where
  host := by decide
  mirror targetId := by
    show storedBytes [] + reservedBytes [] ≤ 10
    decide

end Sample

theorem budget_respected_storedRuns : ∃ h,
    run (Host.step Sample.settings) Sample.host Sample.storedRuns = some h ∧
      h.storedFor (fun _ => true) = 2 ∧ h.reservedFor (fun _ => true) = 2 ∧
      WithinBudget Sample.settings h := by
  obtain ⟨h, hrun, hbytes⟩ : ∃ h, run (Host.step Sample.settings) Sample.host Sample.storedRuns
      = some h ∧ decide (h.storedFor (fun _ => true) = 2 ∧ h.reservedFor (fun _ => true) = 2)
        = true :=
    exists_of_run_any (by decide +kernel)
  have hmeets : meets (Host.step Sample.settings) Sample.isRoomy Sample.host Sample.storedRuns
      = true := by decide +kernel
  have hroom : Along (Host.step Sample.settings) (HasRoom Sample.settings) Sample.host
      Sample.storedRuns :=
    along_of_meets (fun _ _ => Sample.hasRoom_of_isRoomy) hmeets
  have hsums := of_decide_eq_true hbytes
  exact ⟨h, hrun, hsums.1, hsums.2, budget_respected rfl rfl (by decide) Sample.withinBudget_host
    (Reach.of_run hrun hroom)⟩

/-- The bytes of an ended run hold no reservation any more, and the next run is admitted. -/
theorem stored_bytes_forgotten : ∃ h,
    run (Host.step Sample.settings) Sample.host Sample.overcommitted = some h ∧
      ¬ WithinBudget Sample.settings h := by
  obtain ⟨h, hrun, hbytes⟩ : ∃ h, run (Host.step Sample.settings) Sample.host Sample.overcommitted
      = some h ∧ decide (h.storedFor (fun _ => true) = 6 ∧ h.reservedFor (fun _ => true) = 6)
        = true :=
    exists_of_run_any (by decide +kernel)
  have hsums := of_decide_eq_true hbytes
  refine ⟨h, hrun, fun hwithin => ?_⟩
  have hhost := hwithin.host
  rw [hsums.1, hsums.2] at hhost
  exact absurd hhost (by decide)

end Vault

end RatatoskrVault
