import RatatoskrVault.Core.Retention

/-! What the retention engine answers: one decision for each snapshot in an order that the input
does not change, the newest restorable snapshots of a mirror kept, and under pressure the shortest
selection that frees enough. -/
namespace RatatoskrVault

open Lib

/-- One of the newest restorable snapshots of its mirror, as many as the policy keeps. -/
def IsNewestRestorable (snapshots : List RetentionSnapshot) (policy : RetentionPolicy)
    (s : RetentionSnapshot) : Prop :=
  s.restorable = true ∧
    (restorableByMirror snapshots s.mirrorId).countP (fun other => s.age < other.age)
      < max policy.keepLastRestorable 1

def SnapshotDecision.eligible (s : RetentionSnapshot) : SnapshotDecision :=
  { snapshotId := s.snapshotId, reason := .eligibleOrdinary }

/-- The decisions are what the policy asks for. -/
structure Classifies (snapshots : List RetentionSnapshot) (policy : RetentionPolicy)
    (evaluatedAt : ℕ) (decisions : List SnapshotDecision) : Prop where
  ordered : ∃ ordered : List RetentionSnapshot, ordered.Perm snapshots ∧
    ordered.Pairwise (fun a b => a.position < b.position) ∧
    decisions.map (·.snapshotId) = ordered.map (·.snapshotId)
  eligible : ∀ s ∈ snapshots, SnapshotDecision.eligible s ∈ decisions ↔
    s.activePins = ∅ ∧ policy.minimumAgeSeconds ≤ evaluatedAt - s.createdAtEpochSeconds ∧
      ¬ IsNewestRestorable snapshots policy s
  survivors : ∀ mirrorId,
    min (max policy.keepLastRestorable 1) (restorableByMirror snapshots mirrorId).length
      ≤ (restorableByMirror snapshots mirrorId).countP fun s =>
        decide (SnapshotDecision.eligible s ∉ decisions)

/-- The bytes that are freed, counted as the engine counts them. -/
def freed (selected : List RetentionSnapshot) : ℕ :=
  (selected.map (·.estimatedBytes)).foldl saturatingAdd 0

/-- What quota pressure may select: due by the policy, and past the deadline of its deletion. -/
def IsDue (snapshots : List RetentionSnapshot) (policy : RetentionPolicy) (evaluatedAt : ℕ)
    (s : RetentionSnapshot) : Prop :=
  SnapshotDecision.eligible s ∈ evaluateRetention snapshots policy evaluatedAt ∧
    ∃ deadline, s.deletionNotBeforeEpochSeconds = some deadline ∧ deadline ≤ evaluatedAt

instance (snapshots : List RetentionSnapshot) (policy : RetentionPolicy) (evaluatedAt : ℕ) :
    DecidablePred (IsDue snapshots policy evaluatedAt) := fun s =>
  decidable_of_iff
    (SnapshotDecision.eligible s ∈ evaluateRetention snapshots policy evaluatedAt ∧
      (s.deletionNotBeforeEpochSeconds.any fun deadline => decide (deadline ≤ evaluatedAt)) = true)
    (and_congr_right fun _ => by simp [Option.any_eq_true])

/-- The selection is the shortest part of the candidates, from the first on, that frees enough, or
all of them. -/
structure Escalates (requiredBytes : ℕ) (candidates : List RetentionSnapshot)
    (decision : QuotaPressureDecision) : Prop where
  ordered : candidates.Pairwise fun a b => a.escalation < b.escalation
  selected : ∃ n ≤ candidates.length,
    decision.selections = (candidates.take n).map RetentionSnapshot.selection ∧
    decision.freedBytes = freed (candidates.take n) ∧
    (n = candidates.length ∨ requiredBytes ≤ freed (candidates.take n)) ∧
    ∀ m < n, freed (candidates.take m) < requiredBytes
  required : decision.requiredBytes = requiredBytes
  refused : decision.allocationRefused = true ↔ freed candidates < requiredBytes

section

variable {snapshots snapshots' : List RetentionSnapshot} {policy : RetentionPolicy}
  {evaluatedAt requiredBytes : ℕ} {s : RetentionSnapshot}

section Keys

theorem nodup_newest (h : (snapshots.map (·.snapshotId)).Nodup) :
    (snapshots.map RetentionSnapshot.newest).Nodup := by
  refine List.Nodup.of_map (fun k : (ℕ ×ₗ Uuid)ᵒᵈ => (ofLex (OrderDual.ofDual k)).2) ?_
  rw [List.map_map]
  exact h

theorem nodup_position (h : (snapshots.map (·.snapshotId)).Nodup) :
    (snapshots.map RetentionSnapshot.position).Nodup := by
  refine List.Nodup.of_map (fun k : Uuid ×ₗ ℕ ×ₗ Uuid => (ofLex (ofLex k).2).2) ?_
  rw [List.map_map]
  exact h

theorem nodup_escalation (h : (snapshots.map (·.snapshotId)).Nodup) :
    (snapshots.map RetentionSnapshot.escalation).Nodup := by
  refine List.Nodup.of_map
    (fun k : Bool ×ₗ ℕ ×ₗ Uuid ×ₗ Uuid => (ofLex (ofLex (ofLex k).2).2).2) ?_
  rw [List.map_map]
  exact h

end Keys

section Evaluation

theorem mem_restorableByMirror {mirrorId : Uuid} : s ∈ restorableByMirror snapshots mirrorId ↔
    s ∈ snapshots ∧ s.restorable = true ∧ s.mirrorId = mirrorId := by
  simp [restorableByMirror]

theorem nodup_restorableByMirror (h : (snapshots.map (·.snapshotId)).Nodup) (mirrorId : Uuid) :
    ((restorableByMirror snapshots mirrorId).map RetentionSnapshot.newest).Nodup :=
  nodup_newest (h.sublist (List.filter_sublist.map _))

/-- The set that is kept holds the newest restorable snapshots of every mirror. -/
theorem mem_keepLast_iff (h : (snapshots.map (·.snapshotId)).Nodup) (hs : s ∈ snapshots) :
    s.snapshotId ∈ keepLast snapshots policy ↔ IsNewestRestorable snapshots policy s := by
  have hfirst : ∀ mirrorId r,
      r ∈ (sortBy RetentionSnapshot.newest (restorableByMirror snapshots mirrorId)).take
          (max policy.keepLastRestorable 1) ↔
        r ∈ restorableByMirror snapshots mirrorId ∧
          (restorableByMirror snapshots mirrorId).countP (fun other => r.age < other.age)
            < max policy.keepLastRestorable 1 := by
    intro mirrorId r
    exact mem_take_sortBy (nodup_restorableByMirror h mirrorId)
  unfold keepLast IsNewestRestorable
  simp only [List.mem_flatMap, List.mem_dedup, List.mem_map, List.mem_filter]
  constructor
  · rintro ⟨mirrorId, -, r, hr, hid⟩
    obtain ⟨hmem, hcount⟩ := (hfirst mirrorId r).mp hr
    obtain ⟨hr', hrestorable, hmirror⟩ := mem_restorableByMirror.mp hmem
    obtain rfl : r = s := List.inj_on_of_nodup_map h hr' hs hid
    exact ⟨hrestorable, hmirror ▸ hcount⟩
  · rintro ⟨hrestorable, hcount⟩
    refine ⟨s.mirrorId, ⟨s, ⟨hs, hrestorable⟩, rfl⟩, s, (hfirst s.mirrorId s).mpr ⟨?_, hcount⟩, rfl⟩
    exact mem_restorableByMirror.mpr ⟨hs, hrestorable, rfl⟩

theorem isNewestRestorable_perm (hperm : snapshots.Perm snapshots') :
    IsNewestRestorable snapshots policy s ↔ IsNewestRestorable snapshots' policy s := by
  have hgroup : (restorableByMirror snapshots s.mirrorId).Perm
      (restorableByMirror snapshots' s.mirrorId) := hperm.filter _
  unfold IsNewestRestorable
  rw [hgroup.countP_eq]

theorem decisionReason_eq_eligible (h : (snapshots.map (·.snapshotId)).Nodup)
    (hs : s ∈ snapshots) : decisionReason snapshots policy evaluatedAt s = .eligibleOrdinary ↔
      s.activePins = ∅ ∧ policy.minimumAgeSeconds ≤ evaluatedAt - s.createdAtEpochSeconds ∧
        ¬ IsNewestRestorable snapshots policy s := by
  rw [← mem_keepLast_iff h hs]
  unfold decisionReason
  split_ifs with hpins hage hkept
  · simp only [false_iff]
    exact fun hall => hpins hall.1
  · simp only [false_iff]
    exact fun hall => absurd hall.2.1 (Nat.not_le.mpr hage)
  · simp only [false_iff]
    exact fun hall => hall.2.2 hkept
  · simp only [true_iff]
    exact ⟨not_not.mp hpins, Nat.not_lt.mp hage, hkept⟩

/-- A decision stands in the answer for the snapshot it is about. -/
theorem mem_evaluateRetention (h : (snapshots.map (·.snapshotId)).Nodup) (hs : s ∈ snapshots)
    (reason : DecisionReason) :
    { snapshotId := s.snapshotId, reason } ∈ evaluateRetention snapshots policy evaluatedAt ↔
      decisionReason snapshots policy evaluatedAt s = reason := by
  unfold evaluateRetention
  simp only [List.mem_map, mem_sortBy, SnapshotDecision.mk.injEq]
  constructor
  · rintro ⟨r, hr, hid, hreason⟩
    obtain rfl : r = s := List.inj_on_of_nodup_map h hr hs hid
    exact hreason
  · intro hreason
    exact ⟨s, hs, rfl, hreason⟩

theorem mem_eligible_iff (h : (snapshots.map (·.snapshotId)).Nodup) (hs : s ∈ snapshots) :
    SnapshotDecision.eligible s ∈ evaluateRetention snapshots policy evaluatedAt ↔
      s.activePins = ∅ ∧ policy.minimumAgeSeconds ≤ evaluatedAt - s.createdAtEpochSeconds ∧
        ¬ IsNewestRestorable snapshots policy s :=
  (mem_evaluateRetention h hs .eligibleOrdinary).trans (decisionReason_eq_eligible h hs)

theorem decisionReason_perm (h : (snapshots.map (·.snapshotId)).Nodup)
    (hperm : snapshots.Perm snapshots') (hs : s ∈ snapshots) :
    decisionReason snapshots policy evaluatedAt s
      = decisionReason snapshots' policy evaluatedAt s := by
  have h' : (snapshots'.map (·.snapshotId)).Nodup := (hperm.map _).nodup_iff.mp h
  have hkept : s.snapshotId ∈ keepLast snapshots policy ↔
      s.snapshotId ∈ keepLast snapshots' policy := by
    rw [mem_keepLast_iff h hs, mem_keepLast_iff h' (hperm.mem_iff.mp hs),
      isNewestRestorable_perm hperm]
  unfold decisionReason
  simp only [hkept]

theorem evaluateRetention_perm (h : (snapshots.map (·.snapshotId)).Nodup)
    (hperm : snapshots.Perm snapshots') : evaluateRetention snapshots policy evaluatedAt
      = evaluateRetention snapshots' policy evaluatedAt := by
  have hkey : IsKey RetentionSnapshot.position snapshots := fun a ha b hb hab =>
    List.inj_on_of_nodup_map (nodup_position h) ha hb hab
  unfold evaluateRetention
  rw [← sortBy_eq_of_perm hkey hperm]
  refine List.map_congr_left fun s hs => ?_
  rw [decisionReason_perm h hperm (mem_sortBy.mp hs)]

/-- A scheduled evaluation classifies as the policy asks, whatever the order of its input. -/
theorem evaluateRetention_classifies (policy : RetentionPolicy) (evaluatedAt : ℕ)
    (h : (snapshots.map (·.snapshotId)).Nodup) :
    Classifies snapshots policy evaluatedAt (evaluateRetention snapshots policy evaluatedAt) ∧
      ∀ snapshots', snapshots.Perm snapshots' →
        evaluateRetention snapshots' policy evaluatedAt
          = evaluateRetention snapshots policy evaluatedAt := by
  refine ⟨⟨⟨sortBy RetentionSnapshot.position snapshots, perm_sortBy, ?_, ?_⟩, ?_, ?_⟩, ?_⟩
  · exact pairwise_lt_sortBy (nodup_position h)
  · unfold evaluateRetention
    rw [List.map_map]
    rfl
  · exact fun s hs => mem_eligible_iff h hs
  · intro mirrorId
    refine le_countP_first (nodup_restorableByMirror h mirrorId) fun s hs hcount => ?_
    obtain ⟨hs', hrestorable, rfl⟩ := mem_restorableByMirror.mp hs
    rw [decide_eq_true_eq, mem_eligible_iff h hs']
    exact fun hall => hall.2.2 ⟨hrestorable, hcount⟩
  · exact fun snapshots' hperm => (evaluateRetention_perm h hperm).symm

end Evaluation

section Pressure

variable {decisions : List SnapshotDecision} {candidates : List RetentionSnapshot}

theorem foldl_saturatingAdd {sizes : List ℕ} {total : ℕ} (h : total ≤ u64Max) :
    sizes.foldl saturatingAdd total = min (total + sizes.sum) u64Max := by
  induction sizes generalizing total with
  | nil =>
    rw [List.foldl_nil, List.sum_nil]
    omega
  | cons size sizes ih =>
    have hstep : saturatingAdd total size ≤ u64Max := Nat.min_le_right _ _
    rw [List.foldl_cons, ih hstep, List.sum_cons]
    unfold saturatingAdd
    omega

theorem freed_eq (selected : List RetentionSnapshot) :
    freed selected = min (selected.map (·.estimatedBytes)).sum u64Max := by
  have hzero : 0 ≤ u64Max := Nat.zero_le _
  rw [freed, foldl_saturatingAdd hzero, Nat.zero_add]

/-- More snapshots free no less. -/
theorem freed_take_le (n : ℕ) : freed (candidates.take n) ≤ freed candidates := by
  have hsum : (candidates.map (·.estimatedBytes)).sum
      = ((candidates.take n).map (·.estimatedBytes)).sum
        + ((candidates.drop n).map (·.estimatedBytes)).sum := by
    rw [← List.sum_append, ← List.map_append, List.take_append_drop]
  rw [freed_eq, freed_eq]
  omega

/-- The loop goes on until enough has been freed. -/
theorem selectPressure_spec (candidates : List RetentionSnapshot) (total : ℕ) :
    ∃ n ≤ candidates.length,
      selectPressure requiredBytes candidates total
        = ((candidates.take n).map RetentionSnapshot.selection,
          ((candidates.take n).map (·.estimatedBytes)).foldl saturatingAdd total) ∧
      (n = candidates.length ∨ requiredBytes
        ≤ ((candidates.take n).map (·.estimatedBytes)).foldl saturatingAdd total) ∧
      ∀ m < n, ((candidates.take m).map (·.estimatedBytes)).foldl saturatingAdd total
        < requiredBytes := by
  induction candidates generalizing total with
  | nil => exact ⟨0, Nat.le_refl _, rfl, Or.inl rfl, fun m hm => absurd hm (Nat.not_lt_zero m)⟩
  | cons s rest ih =>
    unfold selectPressure
    split_ifs with henough
    · exact ⟨0, Nat.zero_le _, rfl, Or.inr henough, fun m hm => absurd hm (Nat.not_lt_zero m)⟩
    · obtain ⟨n, hn, hloop, hend, hshort⟩ := ih (saturatingAdd total s.estimatedBytes)
      refine ⟨n + 1, Nat.succ_le_succ hn, ?_, ?_, fun m hm => ?_⟩
      · rw [hloop]
        rfl
      · exact hend.imp_left fun heq => by rw [heq, List.length_cons]
      · cases m with
        | zero => exact Nat.not_le.mp henough
        | succ m => exact hshort m (Nat.lt_of_succ_lt_succ hm)

/-- With one decision for each id, the collected map holds them all. -/
theorem decisionOf?_eq_some (h : (decisions.map (·.snapshotId)).Nodup) {snapshotId : Uuid}
    {reason : DecisionReason} :
    decisionOf? decisions snapshotId = some reason ↔ { snapshotId, reason } ∈ decisions := by
  have hkey : ∀ d ∈ decisions, ∀ d' ∈ decisions, d.snapshotId = d'.snapshotId → d = d' :=
    fun d hd d' hd' hid => List.inj_on_of_nodup_map h hd hd' hid
  unfold decisionOf?
  constructor
  · intro hfound
    obtain ⟨d, hd, rfl⟩ := Option.map_eq_some_iff.mp hfound
    have hid : d.snapshotId = snapshotId := by simpa using List.find?_some hd
    rw [← hid]
    exact List.mem_reverse.mp (List.mem_of_find?_eq_some hd)
  · intro hmem
    cases hfound : decisions.reverse.find? fun d => d.snapshotId == snapshotId with
    | none =>
      have hne := List.find?_eq_none.mp hfound _ (List.mem_reverse.mpr hmem)
      simp at hne
    | some d =>
      have hid : d.snapshotId = snapshotId := by simpa using List.find?_some hfound
      have hd : d ∈ decisions := List.mem_reverse.mp (List.mem_of_find?_eq_some hfound)
      rw [hkey d hd _ hmem hid]
      rfl

theorem nodup_evaluateRetention (h : (snapshots.map (·.snapshotId)).Nodup) :
    ((evaluateRetention snapshots policy evaluatedAt).map (·.snapshotId)).Nodup := by
  unfold evaluateRetention
  rw [List.map_map]
  exact (perm_sortBy.map _).nodup_iff.mpr h

/-- The candidates are the snapshots that are due, in the order of escalation. -/
theorem pressureCandidates_eq (h : (snapshots.map (·.snapshotId)).Nodup) :
    pressureCandidates snapshots policy evaluatedAt
      = sortBy RetentionSnapshot.escalation
        (snapshots.filter fun s => decide (IsDue snapshots policy evaluatedAt s)) := by
  unfold pressureCandidates
  simp only
  congr 1
  refine List.filter_congr fun s hs => ?_
  rw [Bool.eq_iff_iff, Bool.and_eq_true, beq_iff_eq, decide_eq_true_eq,
    decisionOf?_eq_some (nodup_evaluateRetention h)]
  exact and_congr_right fun _ => by simp [Option.any_eq_true]

theorem pressureCandidates_perm (h : (snapshots.map (·.snapshotId)).Nodup)
    (hperm : snapshots.Perm snapshots') : pressureCandidates snapshots policy evaluatedAt
      = pressureCandidates snapshots' policy evaluatedAt := by
  have hkey : IsKey RetentionSnapshot.escalation snapshots := fun a ha b hb hab =>
    List.inj_on_of_nodup_map (nodup_escalation h) ha hb hab
  unfold pressureCandidates
  rw [evaluateRetention_perm h hperm]
  refine sortBy_eq_of_perm (fun a ha b hb => ?_) (hperm.filter _)
  exact hkey a (List.mem_filter.mp ha).1 b (List.mem_filter.mp hb).1

/-- Quota pressure selects the shortest part of what is due, and refuses when all of it is not
enough. -/
theorem evaluateQuotaPressure_escalates (policy : RetentionPolicy)
    (evaluatedAt requiredBytes : ℕ) (h : (snapshots.map (·.snapshotId)).Nodup) :
    (∃ candidates : List RetentionSnapshot,
      candidates.Perm (snapshots.filter fun s => decide (IsDue snapshots policy evaluatedAt s)) ∧
      Escalates requiredBytes candidates
        (evaluateQuotaPressure snapshots policy evaluatedAt requiredBytes)) ∧
    ∀ snapshots', snapshots.Perm snapshots' →
      evaluateQuotaPressure snapshots' policy evaluatedAt requiredBytes
        = evaluateQuotaPressure snapshots policy evaluatedAt requiredBytes := by
  have hcandidates := @pressureCandidates_eq snapshots policy evaluatedAt h
  refine ⟨⟨pressureCandidates snapshots policy evaluatedAt, ?_, ?_⟩, fun snapshots' hperm => ?_⟩
  · rw [hcandidates]
    exact perm_sortBy
  · obtain ⟨n, hn, hloop, hend, hshort⟩ := @selectPressure_spec requiredBytes
      (pressureCandidates snapshots policy evaluatedAt) 0
    have hdecision : evaluateQuotaPressure snapshots policy evaluatedAt requiredBytes
        = { selections :=
              ((pressureCandidates snapshots policy evaluatedAt).take n).map
                RetentionSnapshot.selection
            freedBytes := freed ((pressureCandidates snapshots policy evaluatedAt).take n)
            requiredBytes
            allocationRefused := decide
              (freed ((pressureCandidates snapshots policy evaluatedAt).take n)
                < requiredBytes) } := by
      unfold evaluateQuotaPressure
      rw [hloop]
      rfl
    rw [hdecision]
    refine ⟨?_, ⟨n, hn, rfl, rfl, hend, hshort⟩, rfl, ?_⟩
    · rw [hcandidates]
      exact pairwise_lt_sortBy (nodup_escalation (h.sublist (List.filter_sublist.map _)))
    · rw [decide_eq_true_eq]
      constructor
      · intro hless
        have hall : n = (pressureCandidates snapshots policy evaluatedAt).length :=
          hend.resolve_right (Nat.not_le.mpr hless)
        rwa [hall, List.take_length] at hless
      · exact fun hless => Nat.lt_of_le_of_lt (freed_take_le n) hless
  · unfold evaluateQuotaPressure
    rw [pressureCandidates_perm h hperm]

end Pressure

end

namespace Sample

/-- Two snapshots of a mirror, of which the older one may go. -/
def retained : List RetentionSnapshot :=
  [{ snapshotId := 12, mirrorId := 1, createdAtEpochSeconds := 300, restorable := true
     activePins := ∅, targetInactive := false
     deletionNotBeforeEpochSeconds := none, estimatedBytes := 4 },
   { snapshotId := 11, mirrorId := 1, createdAtEpochSeconds := 100, restorable := true
     activePins := ∅, targetInactive := false
     deletionNotBeforeEpochSeconds := some 900, estimatedBytes := 4 }]

def retentionPolicy : RetentionPolicy :=
  { keepLastRestorable := 1, minimumAgeSeconds := 100, graceSeconds := 100 }

end Sample

theorem evaluateRetention_classifies_two :
    (Sample.retained.map (·.snapshotId)).Nodup ∧
      Classifies Sample.retained Sample.retentionPolicy 1000
        (evaluateRetention Sample.retained Sample.retentionPolicy 1000) := by
  have h : (Sample.retained.map (·.snapshotId)).Nodup := by decide
  exact ⟨h, (evaluateRetention_classifies Sample.retentionPolicy 1000 h).1⟩

theorem evaluateQuotaPressure_escalates_two :
    (Sample.retained.map (·.snapshotId)).Nodup ∧
      ∃ candidates, Escalates 4 candidates
        (evaluateQuotaPressure Sample.retained Sample.retentionPolicy 1000 4) := by
  have h : (Sample.retained.map (·.snapshotId)).Nodup := by decide
  obtain ⟨candidates, -, hescalates⟩ :=
    (evaluateQuotaPressure_escalates Sample.retentionPolicy 1000 4 h).1
  exact ⟨h, candidates, hescalates⟩

end RatatoskrVault
