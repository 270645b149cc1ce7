import RatatoskrVault.Core.Config
import RatatoskrVault.Lib.Solo
import RatatoskrVault.Mirror.Quota
import RatatoskrVault.Vault.System

/-! The work that an accepted configuration admits. Its budgets are compared with each other when
the process starts, and converted to signed numbers only when bytes are reserved. -/
namespace RatatoskrVault

open Lib

namespace MirrorQuota

abbrev procedure (limits : Limits) : Procedure Db Lock Write Loc :=
  { apply := Db.apply
    act := fun loc _ db => act limits db loc }

/-- A call that has written nothing yet, or has ended. -/
abbrev standing (loc : Loc) (db : Db) (fresh : ℕ) : Config Db Write Loc :=
  { loc, log := [], db, fresh }

/-- The call, executed by itself, comes to its reservation. -/
def Reserves (limits : Limits) (db : Db) (call : ReserveCall) : Prop :=
  ∀ clock fresh, ∃ c, c.loc = .reserved call ∧
    (procedure limits).Leads clock (standing (.reserve call .lock) db fresh) c

/-- A call whose bytes fit both budgets of a host that has reserved none, and both budgets fit a
signed number. -/
def FitsAlone (limits : Limits) (requestedBytes : ℕ) : Prop :=
  0 < requestedBytes ∧ requestedBytes ≤ limits.perMirrorMaxBytes ∧
    requestedBytes ≤ limits.globalMaxBytes ∧ limits.perMirrorMaxBytes ≤ i64Max ∧
    limits.globalMaxBytes ≤ i64Max

section

variable {limits : Limits} {db : Db} {call : ReserveCall} {clock : ℕ}
  {c c' : Config Db Write Loc}

theorem exec_of_idle (h : c.loc.isIdle = true) : (procedure limits).exec clock c = none := by
  obtain ⟨loc, log, db, fresh⟩ := c
  cases loc with
  | reserve call at_ => exact nomatch h
  | record call at_ => exact nomatch h
  | _ => rfl

/-- An ended call stays where it ended. -/
theorem eq_of_leads_idle (h : c.loc.isIdle = true) (hleads : (procedure limits).Leads clock c c') :
    c' = c := by
  obtain ⟨n, hn⟩ := hleads
  cases n with
  | zero => exact (Option.some.inj hn).symm
  | succ n =>
    rw [Procedure.execs, exec_of_idle h] at hn
    cases hn

/-- What fits is written, where the target is known and the run is new. -/
theorem key_leads (hnone : db.reservations = [])
    (htarget : (db.target? call.targetId).isSome = true) (fresh : ℕ) :
    (procedure limits).Leads clock (standing (.reserve call .key) db fresh)
      (standing (.reserved call) (db.apply (.insertReservation call.row)) (fresh + 2)) := by
  have hinsert : reserveMirrorQuota limits db call .insert =
      some (.stmt [] [.insertReservation call.row] (.reserve call .commit)) := by
    refine if_neg ?_
    rintro (hknown | hmissing)
    · rw [hnone] at hknown
      exact nomatch hknown
    · rw [Option.isNone_iff_eq_none.mp hmissing] at htarget
      exact nomatch htarget
  refine .head (standing (.reserve call .insert) db (fresh + 1)) (Procedure.exec_stmt rfl) ?_
  refine .head _ (Procedure.exec_stmt hinsert) ?_
  exact .head _ (Procedure.exec_commit rfl) .refl

/-- The sums are compared with the budgets. -/
theorem decision_ends (hnone : db.reservations = [])
    (htarget : (db.target? call.targetId).isSome = true)
    (hbytes : 0 < call.requestedBytes ∧ call.requestedBytes ≤ i64Max)
    (hper : limits.perMirrorMaxBytes ≤ i64Max) (hglobal : limits.globalMaxBytes ≤ i64Max)
    (fresh : ℕ) : ∃ c, c.loc.isIdle = true ∧
      (c.loc = .reserved call ↔ FitsAlone limits call.requestedBytes) ∧
      (procedure limits).Leads clock (standing (.reserve call (.globalReserved 0)) db fresh) c := by
  have hreserved : reservedBytes db.reservations = 0 := by
    rw [hnone]
    rfl
  have hsum : min i64Max (0 + call.requestedBytes) = call.requestedBytes := by omega
  by_cases hexceeds : limits.perMirrorMaxBytes < call.requestedBytes ∨
      limits.globalMaxBytes < call.requestedBytes
  · refine ⟨standing (.quotaExceeded call) db fresh, rfl, ?_, ?_⟩
    · refine iff_of_false (fun h => (nomatch h)) fun hfits => ?_
      obtain ⟨-, hper, hglobal, -, -⟩ := hfits
      omega
    · refine .head _ (Procedure.exec_rollback ?_) .refl
      show reserveMirrorQuota limits db call (.globalReserved 0) = _
      unfold reserveMirrorQuota
      dsimp only
      rw [hreserved, hsum, if_neg (by omega), if_pos hexceeds]
  · have hfits : FitsAlone limits call.requestedBytes :=
      ⟨hbytes.1, by omega, by omega, hper, hglobal⟩
    have hadmitted : reserveMirrorQuota limits db call (.globalReserved 0) =
        some (.stmt [] [] (.reserve call .key)) := by
      unfold reserveMirrorQuota
      dsimp only
      rw [hreserved, hsum, if_neg (by omega), if_neg hexceeds]
    exact ⟨_, rfl, iff_of_true rfl hfits, .head _ (Procedure.exec_stmt hadmitted)
      (key_leads hnone htarget (fresh + 1))⟩

/-- A call alone on a host without reservations comes to an end, and reserves what fits. -/
theorem reserve_ends (hnone : db.reservations = [])
    (htarget : (db.target? call.targetId).isSome = true) (fresh : ℕ) :
    ∃ c, c.loc.isIdle = true ∧ (c.loc = .reserved call ↔ FitsAlone limits call.requestedBytes) ∧
      (procedure limits).Leads clock (standing (.reserve call .lock) db fresh) c := by
  by_cases hvalid : 0 < call.requestedBytes ∧ call.requestedBytes ≤ i64Max ∧
      0 < limits.perMirrorMaxBytes ∧ limits.perMirrorMaxBytes ≤ i64Max ∧
      0 < limits.globalMaxBytes ∧ limits.globalMaxBytes ≤ i64Max
  · obtain ⟨c, hidle, hiff, hrest⟩ := decision_ends hnone htarget ⟨hvalid.1, hvalid.2.1⟩
      hvalid.2.2.2.1 hvalid.2.2.2.2.2 (fresh + 2)
    refine ⟨c, hidle, hiff, ?_⟩
    refine .head (standing (.reserve call .targetReserved) db (fresh + 1))
      (Procedure.exec_stmt (if_pos hvalid)) ?_
    have hreserved : targetReserved db call.targetId = 0 := by
      unfold targetReserved
      rw [hnone]
      rfl
    have hsum : reserveMirrorQuota limits db call .targetReserved =
        some (.stmt [] [] (.reserve call (.globalReserved 0))) := by
      unfold reserveMirrorQuota
      dsimp only
      rw [hreserved, if_pos (Nat.zero_le _)]
    exact .head _ (Procedure.exec_stmt hsum) hrest
  · -- a number that does not fit is refused
    refine ⟨standing (.failed .storageFailed) db fresh, rfl, ?_, ?_⟩
    · refine iff_of_false (fun h => (nomatch h)) fun hfits => hvalid ?_
      obtain ⟨hpos, hper, hglobal, hper', hglobal'⟩ := hfits
      omega
    · exact .head _ (Procedure.exec_rollback (if_neg hvalid)) .refl

/-- A call alone on a host without reservations is admitted if and only if it fits. -/
theorem reserves_iff (hnone : db.reservations = [])
    (htarget : (db.target? call.targetId).isSome = true) :
    Reserves limits db call ↔ FitsAlone limits call.requestedBytes := by
  constructor
  · intro h
    obtain ⟨c, hloc, hleads⟩ := h 0 0
    obtain ⟨c', hidle, hiff, hleads'⟩ := reserve_ends hnone htarget 0
    have hlater := hleads'.of_ended (exec_of_idle hidle) hleads
    have hsame := eq_of_leads_idle (by rw [hloc]; rfl) hlater
    rw [← hiff, hsame]
    exact hloc
  · intro h clock fresh
    obtain ⟨c, -, hiff, hleads⟩ := reserve_ends hnone htarget fresh
    exact ⟨c, hiff.mpr h, hleads⟩

end

end MirrorQuota

namespace VaultConfig

/-- The settings of the lifecycle under a configuration. -/
def lifecycleSettings (crypto : Crypto) (uuid : UuidFormat) (config : VaultConfig)
    (mirror : MirrorLifecycleConfig) : MirrorLifecycleSettings :=
  { crypto
    uuid
    perMirrorMaxBytes := mirror.perMirrorMaxBytes
    globalMaxBytes := mirror.globalMaxBytes
    lfsStageMaxBytes := config.lfs.map (·.stageMaxBytes) }

def limits (mirror : MirrorLifecycleConfig) : MirrorQuota.Limits :=
  { perMirrorMaxBytes := mirror.perMirrorMaxBytes, globalMaxBytes := mirror.globalMaxBytes }

/-- Some request is admitted and, where LFS is configured, some request with LFS is. -/
structure AdmitsWork (settings : MirrorLifecycleSettings) (config : VaultConfig)
    (mirror : MirrorLifecycleConfig) (db : Db) (targetId runId : Uuid) : Prop where
  mirrors : ∃ bytes, 0 < bytes ∧ bytes ≤ u64Max ∧
    MirrorQuota.Reserves (limits mirror) db { targetId, runId, requestedBytes := bytes }
  lfs : config.lfs.isSome = true → ∀ source, ∃ bytes, 0 < bytes ∧ bytes ≤ u64Max ∧
    MirrorQuota.Reserves (limits mirror) db
      { targetId
        runId
        requestedBytes := admittedReservation settings
          { targetId, source, reservationBytes := bytes, lfsEnabled := true } }

/-- The budgets fit a signed number, and leave a byte beside a full LFS stage. -/
def LeavesRoom (config : VaultConfig) (mirror : MirrorLifecycleConfig) : Prop :=
  mirror.perMirrorMaxBytes ≤ i64Max ∧ mirror.globalMaxBytes ≤ i64Max ∧
    ∀ lfs, config.lfs = some lfs →
      lfs.stageMaxBytes < mirror.perMirrorMaxBytes ∧ lfs.stageMaxBytes < mirror.globalMaxBytes

section

variable {readers : ConfigReaders} {config : VaultConfig} {mirror : MirrorLifecycleConfig}

/-- What startup has checked of the budgets: they are positive. -/
theorem positive_of_validate (h : validate readers config = [])
    (hmirror : config.mirror = some mirror) :
    0 < mirror.perMirrorMaxBytes ∧ 0 < mirror.globalMaxBytes := by
  have hviolations := mirrorViolations_of_validate h
  unfold mirrorViolations at hviolations
  rw [hmirror] at hviolations
  simp only [List.append_eq_nil_iff, positive_eq_nil] at hviolations
  exact ⟨hviolations.1.1.2, hviolations.1.2⟩

/-- An accepted configuration admits work if and only if its budgets leave room for it. -/
theorem admitsWork_iff {crypto : Crypto} {uuid : UuidFormat} {db : Db} {targetId runId : Uuid}
    (haccepted : validate readers config = []) (hmirror : config.mirror = some mirror)
    (hnone : db.reservations = []) (htarget : (db.target? targetId).isSome = true) :
    AdmitsWork (lifecycleSettings crypto uuid config mirror) config mirror db targetId runId ↔
      LeavesRoom config mirror := by
  have hpositive := positive_of_validate haccepted hmirror
  have hmax : i64Max < u64Max := by decide
  have hcall : ∀ bytes, MirrorQuota.Reserves (limits mirror) db
      { targetId, runId, requestedBytes := bytes } ↔ MirrorQuota.FitsAlone (limits mirror) bytes :=
    fun bytes => MirrorQuota.reserves_iff hnone htarget
  constructor
  · intro h
    obtain ⟨bytes, -, -, hreserves⟩ := h.mirrors
    obtain ⟨-, -, -, hper, hglobal⟩ := (hcall bytes).mp hreserves
    refine ⟨hper, hglobal, fun lfs hlfs => ?_⟩
    obtain ⟨bytes, hpos, -, hreserves⟩ := h.lfs (by rw [hlfs]; rfl) ""
    obtain ⟨-, hfits, hfits', -, -⟩ := (hcall _).mp hreserves
    unfold admittedReservation lifecycleSettings at hfits hfits'
    rw [hlfs] at hfits hfits'
    simp only [if_true, Option.map_some, Option.getD_some] at hfits hfits'
    unfold limits at hper hglobal hfits hfits'
    dsimp only at hper hglobal hfits hfits'
    omega
  · rintro ⟨hper, hglobal, hlfs⟩
    refine ⟨⟨1, by decide, by decide, (hcall 1).mpr ⟨by decide, ?_, ?_, hper, hglobal⟩⟩, ?_⟩
    · exact hpositive.1
    · exact hpositive.2
    · intro hsome source
      obtain ⟨lfs, hlfs'⟩ := Option.isSome_iff_exists.mp hsome
      obtain ⟨hstage, hstage'⟩ := hlfs lfs hlfs'
      have hadmitted : admittedReservation (lifecycleSettings crypto uuid config mirror)
          { targetId, source, reservationBytes := 1, lfsEnabled := true } =
            min u64Max (1 + lfs.stageMaxBytes) := by
        unfold admittedReservation lifecycleSettings
        rw [hlfs']
        rfl
      refine ⟨1, by decide, by decide, (hcall _).mpr ?_⟩
      rw [hadmitted]
      refine ⟨?_, ?_, ?_, hper, hglobal⟩
      · omega
      · show _ ≤ mirror.perMirrorMaxBytes
        omega
      · show _ ≤ mirror.globalMaxBytes
        omega

end

namespace Sample

def readers : ConfigReaders :=
  { envFilter := fun _ => true, url := fun _ => none, loopbackIp := fun _ => false }

def oneBudget (maxBytes : ℕ) : MirrorLifecycleConfig :=
  { root := ['/', 'm']
    workRoot := ['/', 'w']
    perMirrorMaxBytes := maxBytes
    globalMaxBytes := maxBytes }

/-- A configuration with one budget for everything, and an LFS stage. -/
def staged (maxBytes stageMaxBytes : ℕ) : VaultConfig :=
  { mirror := some (oneBudget maxBytes)
    lfs := some
      { binary := ['/', 'l'], stageMaxBytes, maxObjects := 1, operationTimeoutSeconds := 1 } }

/-- The settings under the configuration. -/
def settings (maxBytes stageMaxBytes : ℕ) : MirrorLifecycleSettings :=
  lifecycleSettings Retention.Sample.crypto Vault.Sample.uuid (staged maxBytes stageMaxBytes)
    (oneBudget maxBytes)

end Sample

open VaultConfig.Sample in
theorem admitsWork_iff_ten :
    AdmitsWork (settings 10 9) (staged 10 9) (oneBudget 10) Vault.Sample.oneTarget 1 7 :=
  (admitsWork_iff (show validate readers (staged 10 9) = [] by decide) rfl rfl rfl).mpr
    ⟨by decide, by decide, fun lfs h => by rw [← Option.some.inj h]; decide⟩

open VaultConfig.Sample in
/-- A stage of the size of the budgets leaves no byte for the mirror; a budget that is no signed
number admits nothing at all. -/
theorem accepted_without_work :
    (validate readers (staged 10 10) = [] ∧
      ¬ AdmitsWork (settings 10 10) (staged 10 10) (oneBudget 10) Vault.Sample.oneTarget 1 7) ∧
    validate readers (staged (2 ^ 63) 9) = [] ∧
      ¬ AdmitsWork (settings (2 ^ 63) 9) (staged (2 ^ 63) 9) (oneBudget (2 ^ 63))
        Vault.Sample.oneTarget 1 7 := by
  refine ⟨⟨by decide, fun h => ?_⟩, by decide, fun h => ?_⟩
  · obtain ⟨bytes, hpos, -, hreserves⟩ := h.lfs rfl ""
    obtain ⟨-, hfits, -⟩ := (MirrorQuota.reserves_iff rfl rfl).mp hreserves
    have hsum : admittedReservation (settings 10 10)
        { targetId := 1, source := "", reservationBytes := bytes, lfsEnabled := true } =
          min u64Max (bytes + 10) := rfl
    have hmax : 10 < u64Max := by decide
    have hbudget : (limits (oneBudget 10)).perMirrorMaxBytes = 10 := rfl
    rw [hbudget] at hfits
    dsimp only at hfits
    rw [hsum] at hfits
    omega
  · obtain ⟨bytes, -, -, hreserves⟩ := h.mirrors
    obtain ⟨-, -, -, hper, -⟩ := (MirrorQuota.reserves_iff rfl rfl).mp hreserves
    exact absurd hper (by decide)

end VaultConfig

end RatatoskrVault
