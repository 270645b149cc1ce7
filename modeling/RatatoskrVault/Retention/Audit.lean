import Mathlib.Data.List.Sort
import RatatoskrVault.Core.Delivery
import RatatoskrVault.Lib.Paging
import RatatoskrVault.Lib.Table

/-! The retention audit of a snapshot or a target, read page by page: the order is that of the
full timestamps, and the cursor carries whole seconds. -/
namespace RatatoskrVault

open Lib (Paging IsKey)

/-- A `timestamptz`: microseconds since the epoch, before it or after. -/
abbrev Timestamp := ℤ

/-- A row of `retention_audit`. -/
structure AuditRow where
  auditId : Uuid
  targetId : Uuid
  snapshotId : Option Uuid
  eventKind : String
  reason : String
  outcome : String
  correlationId : Uuid
  occurredAt : Timestamp
  deriving DecidableEq

/-- The rows, under their primary key. -/
structure RetentionAudit where
  rows : List AuditRow
  auditIds : (rows.map (·.auditId)).Nodup

structure RetentionAuditCursor where
  occurredAtEpochSeconds : ℤ
  auditId : Uuid
  deriving DecidableEq

structure RetentionAuditRecord where
  auditId : Uuid
  targetId : Uuid
  snapshotId : Option Uuid
  eventKind : String
  reason : String
  outcome : String
  correlationId : Uuid
  occurredAtEpochSeconds : ℤ
  deriving DecidableEq

def microsPerSecond : ℤ := 1000000

/-- `extract(epoch from occurred_at)::bigint`, which rounds half away from zero. -/
def epochSeconds (occurredAt : Timestamp) : ℤ :=
  if 0 ≤ occurredAt then (occurredAt + microsPerSecond / 2) / microsPerSecond
  else -((-occurredAt + microsPerSecond / 2) / microsPerSecond)

def toTimestamp (seconds : ℤ) : Timestamp := seconds * microsPerSecond

def mapAuditRow (row : AuditRow) : RetentionAuditRecord :=
  { auditId := row.auditId
    targetId := row.targetId
    snapshotId := row.snapshotId
    eventKind := row.eventKind
    reason := row.reason
    outcome := row.outcome
    correlationId := row.correlationId
    occurredAtEpochSeconds := epochSeconds row.occurredAt }

/-- The cursor formed from a record. -/
def RetentionAuditRecord.cursor (record : RetentionAuditRecord) : RetentionAuditCursor :=
  { occurredAtEpochSeconds := record.occurredAtEpochSeconds, auditId := record.auditId }

namespace AuditRow

/-- The order of `occurred_at, audit_id`. -/
def Before (a b : AuditRow) : Prop :=
  a.occurredAt < b.occurredAt ∨ (a.occurredAt = b.occurredAt ∧ a.auditId ≤ b.auditId)

instance : DecidableRel Before := fun _ _ => inferInstanceAs (Decidable (_ ∨ _))

/-- `(occurred_at, audit_id) > (to_timestamp($2), $3)`. -/
def isAfter (cursor : RetentionAuditCursor) (row : AuditRow) : Bool :=
  decide (toTimestamp cursor.occurredAtEpochSeconds < row.occurredAt) ||
    (decide (toTimestamp cursor.occurredAtEpochSeconds = row.occurredAt) &&
      decide (cursor.auditId < row.auditId))

end AuditRow

def validateAuditLimit (limit : ℕ) : Except VaultError Unit :=
  if 1 ≤ limit ∧ limit ≤ 1000 then .ok () else .error (.invalidDelivery "retention_audit_limit")

namespace RetentionAudit

variable (audit : RetentionAudit)

/-- One page of the rows a condition selects. -/
def page (selects : AuditRow → Bool) (after : Option RetentionAuditCursor) (limit : ℕ) :
    Except VaultError (List RetentionAuditRecord) :=
  match validateAuditLimit limit with
  | .error e => .error e
  | .ok () =>
    .ok
      ((((audit.rows.filter fun row => selects row && after.all fun cursor => row.isAfter cursor)
        |>.insertionSort AuditRow.Before).take limit).map mapAuditRow)

def snapshotRetentionAudit (snapshotId : Uuid) :
    Option RetentionAuditCursor → ℕ → Except VaultError (List RetentionAuditRecord) :=
  audit.page fun row => row.snapshotId == some snapshotId

def targetRetentionAudit (targetId : Uuid) :
    Option RetentionAuditCursor → ℕ → Except VaultError (List RetentionAuditRecord) :=
  audit.page fun row => row.targetId == targetId

/-- The selected rows in the order of the pages. -/
def selected (selects : AuditRow → Bool) : List AuditRow :=
  (audit.rows.filter selects).insertionSort AuditRow.Before

end RetentionAudit

/-- Calls of a query, each with the cursor of the last record before it, until a page is shorter
than the limit; nothing where the calls do not suffice. -/
def readPages (query : Option RetentionAuditCursor → ℕ → Except VaultError (List RetentionAuditRecord))
    (limit : ℕ) : ℕ → Option RetentionAuditCursor → Option (List RetentionAuditRecord)
  | 0, _ => none
  | calls + 1, after =>
    match query after limit with
    | .error _ => none
    | .ok page =>
      if page.length < limit then some page
      else
        match page.getLast? with
        | none => none
        | some last => (readPages query limit calls (some last.cursor)).map (page ++ ·)

/-- The calls end, and return the record of every row once and in order. -/
def VisitsEachRow
    (query : Option RetentionAuditCursor → ℕ → Except VaultError (List RetentionAuditRecord))
    (limit : ℕ) (rows : List AuditRow) : Prop :=
  ∃ calls, readPages query limit calls none = some (rows.map mapAuditRow)

/-- The last row of every full page is not after its own whole second, and every later row is
after that second and the row's identifier. -/
def SecondsSuffice (limit : ℕ) (rows : List AuditRow) : Prop :=
  ∀ k row, 0 < k → rows[k * limit - 1]? = some row →
    row.occurredAt ≤ toTimestamp (epochSeconds row.occurredAt) ∧
      ∀ later ∈ rows.drop (k * limit), later.isAfter (mapAuditRow row).cursor = true

/-- The cursors of the audit, over rows. -/
def auditPaging : Paging AuditRow RetentionAuditCursor where
  beyond cursor row := row.isAfter cursor
  cursorOf row := (mapAuditRow row).cursor

section

variable {audit : RetentionAudit} {selects : AuditRow → Bool} {limit : ℕ} {a b c : AuditRow}
  {cursor : RetentionAuditCursor}

namespace AuditRow

theorem Before.total (a b : AuditRow) : a.Before b ∨ b.Before a := by
  unfold Before
  rcases lt_trichotomy a.occurredAt b.occurredAt with hlt | heq | hgt
  · exact Or.inl (Or.inl hlt)
  · rcases Nat.le_total a.auditId b.auditId with hle | hle
    · exact Or.inl (Or.inr ⟨heq, hle⟩)
    · exact Or.inr (Or.inr ⟨heq.symm, hle⟩)
  · exact Or.inr (Or.inl hgt)

theorem Before.trans (h : a.Before b) (h' : b.Before c) : a.Before c := by
  rcases h with hlt | ⟨heq, hle⟩
  · rcases h' with hlt' | ⟨heq', -⟩
    · exact Or.inl (hlt.trans hlt')
    · exact Or.inl (heq' ▸ hlt)
  · rcases h' with hlt' | ⟨heq', hle'⟩
    · exact Or.inl (heq ▸ hlt')
    · exact Or.inr ⟨heq.trans heq', Nat.le_trans hle hle'⟩

instance : Std.Total Before := ⟨Before.total⟩
instance : IsTrans AuditRow Before := ⟨fun _ _ _ => Before.trans⟩

theorem Before.antisymm (h : a.Before b) (h' : b.Before a) : a.auditId = b.auditId := by
  rcases h with hlt | ⟨heq, hle⟩
  · rcases h' with hlt' | ⟨heq', -⟩
    · exact absurd (hlt.trans hlt') (lt_irrefl _)
    · exact absurd (heq' ▸ hlt) (lt_irrefl _)
  · rcases h' with hlt' | ⟨-, hle'⟩
    · exact absurd (heq ▸ hlt') (lt_irrefl _)
    · exact Nat.le_antisymm hle hle'

/-- What comes after a row beyond the cursor is beyond it too. -/
theorem Before.isAfter (h : a.Before b) (ha : a.isAfter cursor = true) : b.isAfter cursor = true := by
  unfold AuditRow.isAfter at ha ⊢
  simp only [Bool.or_eq_true, Bool.and_eq_true, decide_eq_true_eq] at ha ⊢
  rcases h with hlt | ⟨heq, hle⟩
  · refine Or.inl ?_
    rcases ha with hbeyond | ⟨hsame, -⟩
    · exact hbeyond.trans hlt
    · exact hsame ▸ hlt
  · rw [← heq]
    exact ha.imp_right fun ⟨hsame, hid⟩ => ⟨hsame, Nat.lt_of_lt_of_le hid hle⟩

/-- A row is not after its own cursor unless its second was rounded down. -/
theorem isAfter_self (row : AuditRow) :
    row.isAfter (mapAuditRow row).cursor = false ↔
      row.occurredAt ≤ toTimestamp (epochSeconds row.occurredAt) := by
  have hcursor : (mapAuditRow row).cursor
      = { occurredAtEpochSeconds := epochSeconds row.occurredAt, auditId := row.auditId } := rfl
  rw [hcursor]
  unfold isAfter
  simp

end AuditRow

namespace RetentionAudit

theorem mem_selected : a ∈ audit.selected selects → a ∈ audit.rows := fun h =>
  (List.mem_filter.mp ((List.mem_insertionSort _).mp h)).1

theorem isKey_auditId (audit : RetentionAudit) : IsKey (·.auditId) audit.rows :=
  fun _ ha _ hb hid => List.inj_on_of_nodup_map audit.auditIds ha hb hid

theorem nodup_selected : (audit.selected selects).Nodup := by
  have hrows : audit.rows.Nodup := List.Nodup.of_map _ audit.auditIds
  exact (List.perm_insertionSort _ _).nodup_iff.mpr (hrows.filter _)

theorem pairwise_selected : (audit.selected selects).Pairwise AuditRow.Before :=
  List.pairwise_insertionSort _ _

/-- Sorting the rows beyond a cursor, or taking those beyond it from the sorted ones. -/
theorem insertionSort_filter (keeps : AuditRow → Bool) :
    (audit.rows.filter fun row => selects row && keeps row).insertionSort AuditRow.Before
      = (audit.selected selects).filter keeps := by
  have hperm : ((audit.rows.filter fun row => selects row && keeps row).insertionSort
      AuditRow.Before).Perm ((audit.selected selects).filter keeps) := by
    have hboth : audit.rows.filter (fun row => selects row && keeps row)
        = (audit.rows.filter selects).filter keeps := by
      rw [List.filter_filter]
      simp only [Bool.and_comm]
    rw [hboth]
    exact (List.perm_insertionSort _ _).trans ((List.perm_insertionSort _ _).filter keeps).symm
  refine hperm.eq_of_pairwise (fun a b ha hb hab hba => ?_) (List.pairwise_insertionSort _ _)
    (pairwise_selected.filter _)
  have ha' : a ∈ audit.rows := (List.mem_filter.mp ((List.mem_insertionSort _).mp ha)).1
  exact audit.isKey_auditId a ha' b (mem_selected (List.mem_filter.mp hb).1) (hab.antisymm hba)

/-- A page is the first rows of what is left. -/
theorem page_eq (hlimit : 1 ≤ limit ∧ limit ≤ 1000) (after : Option RetentionAuditCursor) :
    audit.page selects after limit
      = .ok (((auditPaging.rest (audit.selected selects) after).take limit).map mapAuditRow) := by
  unfold page validateAuditLimit
  rw [if_pos hlimit]
  dsimp only
  rw [insertionSort_filter]
  cases after with
  | none => simp [Paging.rest]
  | some cursor => rfl

/-- The calls return the records of the rows that lie behind their cursors. -/
theorem readPages_eq (hlimit : 1 ≤ limit ∧ limit ≤ 1000) (calls : ℕ)
    (after : Option RetentionAuditCursor) :
    readPages (audit.page selects) limit calls after
      = (auditPaging.visit limit (audit.selected selects) calls after).map
          (List.map mapAuditRow) := by
  induction calls generalizing after with
  | zero => rfl
  | succ calls ih =>
    unfold readPages Paging.visit
    rw [page_eq hlimit]
    dsimp only
    rw [List.length_map]
    split_ifs with hshort
    · rfl
    · rw [List.getLast?_map]
      cases hlast : ((auditPaging.rest (audit.selected selects) after).take limit).getLast? with
      | none => rfl
      | some last =>
        show (readPages (audit.page selects) limit calls (some (mapAuditRow last).cursor)).map _ = _
        rw [ih]
        simp only [Option.map_map]
        congr 1
        funext later
        simp

theorem visitsEachRow_iff (hlimit : 1 ≤ limit ∧ limit ≤ 1000) :
    VisitsEachRow (audit.page selects) limit (audit.selected selects) ↔
      SecondsSuffice limit (audit.selected selects) := by
  have hup : auditPaging.Upward (audit.selected selects) := fun cursor =>
    pairwise_selected.imp fun hab ha => hab.isAfter ha
  have haligned : auditPaging.Aligned limit (audit.selected selects) ↔
      SecondsSuffice limit (audit.selected selects) := by
    unfold Paging.Aligned SecondsSuffice
    simp only [auditPaging, AuditRow.isAfter_self]
  rw [← haligned, ← Paging.visits_iff hlimit.1 nodup_selected hup]
  refine exists_congr fun calls => ?_
  rw [readPages_eq hlimit]
  constructor
  · intro h
    obtain ⟨out, hout, hrecords⟩ := Option.map_eq_some_iff.mp h
    rw [hout]
    refine congrArg some (audit.isKey_auditId.eq_of_map_eq
      (fun a ha => mem_selected (Paging.mem_of_visit hout a ha)) (fun a ha => mem_selected ha) ?_)
    simpa [mapAuditRow, Function.comp_def] using congrArg (List.map (·.auditId)) hrecords
  · intro h
    rw [h]
    rfl

end RetentionAudit

/-- The pages of a snapshot's audit, and those of a target's, return every row once and in order
where the whole seconds of the cursors suffice, and only there. -/
theorem audit_pages_iff (audit : RetentionAudit) {limit : ℕ} (hlimit : 1 ≤ limit ∧ limit ≤ 1000) :
    (∀ snapshotId, VisitsEachRow (audit.snapshotRetentionAudit snapshotId) limit
        (audit.selected fun row => row.snapshotId == some snapshotId) ↔
      SecondsSuffice limit (audit.selected fun row => row.snapshotId == some snapshotId)) ∧
    ∀ targetId, VisitsEachRow (audit.targetRetentionAudit targetId) limit
        (audit.selected fun row => row.targetId == targetId) ↔
      SecondsSuffice limit (audit.selected fun row => row.targetId == targetId) :=
  ⟨fun _ => RetentionAudit.visitsEachRow_iff hlimit, fun _ =>
    RetentionAudit.visitsEachRow_iff hlimit⟩

end

namespace RetentionAudit.Sample

/-- Rows of one snapshot, so many microseconds after the epoch. -/
def audit (occurredAt : ℕ → Timestamp) (n : ℕ) : RetentionAudit where
  rows := (List.range n).map fun auditId =>
    { auditId
      targetId := 1
      snapshotId := some 1
      eventKind := "evaluation"
      reason := "age"
      outcome := "retained"
      correlationId := 1
      occurredAt := occurredAt auditId }
  auditIds := by
    rw [List.map_map]
    exact List.nodup_range.map fun _ _ h => h

/-- Two rows in the second half of the first second. -/
def twoInOneSecond : RetentionAudit := audit (fun n => 600000 + 100000 * n) 2

/-- Three rows, of which the second ends the first page of two. -/
def threeInThreeSeconds : RetentionAudit := audit (fun n => 1000000 * n) 3

end RetentionAudit.Sample

open RetentionAudit.Sample in
/-- The cursor of the first row is the next whole second, and the second row lies before it. -/
theorem audit_pages_skip_a_row :
    ¬ ∀ (audit : RetentionAudit) (limit : ℕ) (snapshotId : Uuid), 1 ≤ limit ∧ limit ≤ 1000 →
      VisitsEachRow (audit.snapshotRetentionAudit snapshotId) limit
        (audit.selected fun row => row.snapshotId == some snapshotId) := by
  intro h
  obtain ⟨calls, hcalls⟩ := h twoInOneSecond 1 1 (by decide)
  match calls with
  | 0 => cases hcalls
  | 1 =>
    have hnone : readPages (twoInOneSecond.snapshotRetentionAudit 1) 1 1 none = none := by
      decide +kernel
    rw [hnone] at hcalls
    cases hcalls
  | calls + 2 =>
    have hone : ((readPages (twoInOneSecond.snapshotRetentionAudit 1) 1 (calls + 2) none).map
        List.length) = some 1 := rfl
    rw [hcalls] at hone
    have htwo : (twoInOneSecond.selected fun row => row.snapshotId == some 1).length = 2 := by
      decide +kernel
    simp [htwo] at hone

open RetentionAudit.Sample in
theorem audit_pages_iff_seconds :
    VisitsEachRow (threeInThreeSeconds.snapshotRetentionAudit 1) 2
      (threeInThreeSeconds.selected fun row => row.snapshotId == some 1) := by
  refine ((audit_pages_iff threeInThreeSeconds (by decide)).1 1).mpr fun k row hk hrow => ?_
  have hlength : (threeInThreeSeconds.selected fun row => row.snapshotId == some 1).length = 3 := by
    decide +kernel
  have hbound := (List.getElem?_eq_some_iff.mp hrow).1
  obtain rfl : k = 1 := by omega
  have hcheck : ((threeInThreeSeconds.selected fun row => row.snapshotId == some 1)[1]?.all
      fun row => decide (row.occurredAt ≤ toTimestamp (epochSeconds row.occurredAt)) &&
        ((threeInThreeSeconds.selected fun row => row.snapshotId == some 1).drop 2).all fun later =>
          later.isAfter (mapAuditRow row).cursor) = true := by
    decide +kernel
  rw [hrow] at hcheck
  simpa using hcheck

end RatatoskrVault
