import RatatoskrVault.Blobstore.Replica

/-! The deletion of a replica object: one DELETE at most, after a read of the very bytes, and no
success without a read that found nothing. -/
namespace RatatoskrVault.Adapter

open Lib

variable {ObjectPath : Type} {parse : String → Option ObjectPath} {cx : Crypto}
  {store : ReplicaStore} {reference : BlobRef} {location : ObjectPath}

def isDelete (e : RequestEvent ObjectPath) : Bool :=
  match e.1 with
  | .delete _ => true
  | _ => false

def FoundNothing (location : ObjectPath) (e : RequestEvent ObjectPath) : Prop :=
  e = ⟨.get location, some .notFound⟩

/-- The placement is the store's own placement of the reference, at a location. -/
def Identified (parse : String → Option ObjectPath) (store : ReplicaStore) (reference : BlobRef)
    (placement : ReplicaPlacement) (location : ObjectPath) : Prop :=
  store.validateReference reference = true ∧ placement.target = store.target ∧
    objectKey store.keyPrefix reference = .ok placement.objectKey ∧
    placement.sha256 = reference.sha256 ∧ placement.sizeBytes = reference.sizeBytes ∧
    parse placement.objectKey = some location

/-- What a deletion at the location may have asked, and what it returns then. -/
inductive Deletes (cx : Crypto) (reference : BlobRef) (location : ObjectPath) :
    List (RequestEvent ObjectPath) → Option (Except ReplicaError ReplicaDeleteOutcome) → Prop
  | absent : Deletes cx reference location [⟨.get location, some .notFound⟩]
      (some (.ok .alreadyAbsent))
  | untouched (t : List (RequestEvent ObjectPath)) (ht : ∀ e ∈ t, isDelete e = false)
      (r : Option (Except ReplicaError ReplicaDeleteOutcome)) (hr : ∀ outcome, r ≠ some (.ok outcome)) :
      Deletes cx reference location t r
  | deleted (e : RequestEvent ObjectPath) (he : ReadsBack cx reference location e)
      (a : Option Bool) (t : List (RequestEvent ObjectPath)) (ht : ∀ e ∈ t, isDelete e = false)
      (r : Option (Except ReplicaError ReplicaDeleteOutcome))
      (hr : ∀ outcome, r = some (.ok outcome) →
        outcome = .deleted ∧ ∃ e ∈ t, FoundNothing location e) :
      Deletes cx reference location (e :: ⟨.delete location, a⟩ :: t) r

theorem Verifies.isDelete_eq_false {t : List (RequestEvent ObjectPath)}
    {r : Option (Except ReplicaError Unit)} (h : Verifies cx reference location t r) :
    ∀ e ∈ t, isDelete e = false := by
  cases h with
  | intact e h =>
    obtain ⟨body, bytes, rfl, -⟩ := h
    simp [isDelete]
  | absent | refused | damaged | dropped | stalled => simp [isDelete]

/-- The reads after a DELETE. -/
theorem absenceChecks_holds (attempts : ℕ) :
    Asks.Holds (store.absenceChecks cx reference location attempts) fun t r =>
      (∀ e ∈ t, isDelete e = false) ∧ ∀ outcome, r = some (.ok outcome) →
        outcome = .deleted ∧ ∃ e ∈ t, FoundNothing location e := by
  induction attempts with
  | zero => exact Asks.holds_throw ⟨nofun, nofun⟩
  | succ attempts ih =>
    unfold ReplicaStore.absenceChecks
    -- what follows a read that still finds an object
    have hagain (t : List (RequestEvent ObjectPath)) (ht : ∀ e ∈ t, isDelete e = false) :
        Asks.Holds
          (if attempts = 0 then throw .remoteStillPresent
            else do
              yieldNow
              store.absenceChecks cx reference location attempts : Transfer ObjectPath _)
          fun t' r => (∀ e ∈ t ++ t', isDelete e = false) ∧ ∀ outcome, r = some (.ok outcome) →
            outcome = .deleted ∧ ∃ e ∈ t ++ t', FoundNothing location e := by
      split_ifs
      · refine Asks.holds_throw ⟨?_, nofun⟩
        simpa using ht
      · refine Asks.holds_question_bind (fun _ => ih.mono fun t' r h => ⟨?_, fun outcome hr => ?_⟩)
          ⟨?_, nofun⟩
        · intro e he
          simp only [List.mem_append, List.mem_cons] at he
          rcases he with he | rfl | he
          · exact ht e he
          · rfl
          · exact h.1 e he
        · obtain ⟨houtcome, e, he, hnothing⟩ := h.2 outcome hr
          exact ⟨houtcome, e, by simp [he], hnothing⟩
        · intro e he
          simp only [List.mem_append, List.mem_singleton] at he
          rcases he with he | rfl
          · exact ht e he
          · rfl
    refine Asks.holds_attempt_bind verifyRemote_holds (fun _ t h => hagain t h.isDelete_eq_false)
      (fun error t h => ?_) fun t h => ⟨h.isDelete_eq_false, nofun⟩
    have hfailed (e : ReplicaError) : Asks.Holds (throw e : Transfer ObjectPath ReplicaDeleteOutcome)
        fun t' r => (∀ e ∈ t ++ t', isDelete e = false) ∧ ∀ outcome, r = some (.ok outcome) →
          outcome = .deleted ∧ ∃ e ∈ t ++ t', FoundNothing location e := by
      refine Asks.holds_throw ⟨?_, nofun⟩
      simpa using h.isDelete_eq_false
    cases error with
    | notFound =>
      refine Asks.holds_pure ⟨by simpa using h.isDelete_eq_false, fun outcome houtcome => ?_⟩
      cases houtcome
      cases h with
      | absent => exact ⟨rfl, _, by simp, rfl⟩
      | damaged body e he => exact absurd rfl he
    | remoteChecksumMismatch | remoteTruncated | remoteOversized => exact hagain t h.isDelete_eq_false
    | invalidInput | sourceIo | remote | timeout | digestMismatch | remoteStillPresent
    | sizeLimitExceeded | cancelled => exact hfailed _

theorem deleteVerifiedInner_holds :
    Asks.Holds (store.deleteVerifiedInner cx reference location) (Deletes cx reference location) := by
  unfold ReplicaStore.deleteVerifiedInner
  refine Asks.holds_attempt_bind verifyRemote_holds (fun _ t h => ?_) (fun error t h => ?_)
    fun t h => .untouched t h.isDelete_eq_false none nofun
  · cases h with
    | intact e he =>
      refine Asks.holds_question_bind (fun acknowledged => ?_) (.deleted e he none [] nofun _ nofun)
      refine Asks.holds_ensure_bind (fun _ => ?_)
        fun _ => .deleted e he (some acknowledged) [] nofun _ nofun
      exact (absenceChecks_holds _).mono fun t r h =>
        .deleted e he (some acknowledged) t h.1 r h.2
  · have hfailed (e : ReplicaError) : Asks.Holds (throw e : Transfer ObjectPath ReplicaDeleteOutcome)
        fun t' r => Deletes cx reference location (t ++ t') r := by
      refine Asks.holds_throw (.untouched _ ?_ _ nofun)
      simpa using h.isDelete_eq_false
    cases error with
    | notFound =>
      cases h with
      | absent => exact Asks.holds_pure .absent
      | damaged body e he => exact absurd rfl he
    | remoteChecksumMismatch | remoteTruncated | remoteOversized | invalidInput | sourceIo | remote
    | timeout | digestMismatch | remoteStillPresent | sizeLimitExceeded | cancelled =>
      exact hfailed _

theorem objectKey_error {keyPrefix : String} {error : ReplicaError}
    (h : objectKey keyPrefix reference = .error error) : error = .invalidInput := by
  unfold objectKey at h
  split_ifs at h
  cases h
  rfl

/-- A deletion that passes its identity checks is the inner one at the store's own location. -/
theorem deleteVerified_cases (parse : String → Option ObjectPath) (cx : Crypto)
    (store : ReplicaStore) (reference : BlobRef) (placement : ReplicaPlacement) :
    (∃ location, Identified parse store reference placement location ∧
      store.deleteVerified parse cx reference placement =
        store.deleteVerifiedInner cx reference location) ∨
    ((∀ location, ¬Identified parse store reference placement location) ∧
      store.deleteVerified parse cx reference placement = throw .invalidInput) := by
  unfold ReplicaStore.deleteVerified
  by_cases hvalid : store.validateReference reference = true
  · cases hkey : objectKey store.keyPrefix reference with
    | error error =>
      rw [objectKey_error hkey]
      refine .inr ⟨fun location h => ?_, by simp [hvalid]⟩
      exact nomatch hkey.symm.trans h.2.2.1
    | ok expectedKey =>
      by_cases hplacement : placement.target ≠ store.target ∨ placement.objectKey ≠ expectedKey ∨
          placement.sha256 ≠ reference.sha256 ∨ placement.sizeBytes ≠ reference.sizeBytes
      · refine .inr ⟨fun location h => ?_, by simp [hvalid, hplacement]⟩
        obtain ⟨-, htarget, hkey', hdigest, hsize, -⟩ := h
        have hexpected : expectedKey = placement.objectKey := Except.ok.inj (hkey.symm.trans hkey')
        rcases hplacement with h | h | h | h
        · exact h htarget
        · exact h hexpected.symm
        · exact h hdigest
        · exact h hsize
      · have hsame := hplacement
        push Not at hsame
        obtain ⟨htarget, hexpected, hdigest, hsize⟩ := hsame
        cases hparse : parse placement.objectKey with
        | none =>
          refine .inr ⟨fun location h => ?_, by simp [hvalid, hplacement]⟩
          exact nomatch hparse.symm.trans h.2.2.2.2.2
        | some location =>
          refine .inl ⟨location, ⟨hvalid, htarget, ?_, hdigest, hsize, hparse⟩, ?_⟩
          · rw [hkey, hexpected]
          · simp [hvalid, hplacement]
  · refine .inr ⟨fun location h => hvalid h.1, ?_⟩
    simp [hvalid]

/-- After its last DELETE, the conversation holds a read that found nothing. -/
def AbsenceProved (location : ObjectPath) (t : List (RequestEvent ObjectPath)) : Prop :=
  ∃ before e after, t = before ++ e :: after ∧ FoundNothing location e ∧
    ∀ e ∈ after, isDelete e = false

theorem ReadsBack.isDelete_eq_false {e : RequestEvent ObjectPath}
    (h : ReadsBack cx reference location e) : isDelete e = false := by
  obtain ⟨body, bytes, rfl, -⟩ := h
  rfl

theorem Deletes.countP_le {t : List (RequestEvent ObjectPath)}
    {r : Option (Except ReplicaError ReplicaDeleteOutcome)} (h : Deletes cx reference location t r) :
    t.countP isDelete ≤ 1 := by
  cases h with
  | absent => exact Nat.zero_le 1
  | untouched t ht r hr =>
    have hzero : t.countP isDelete = 0 := List.countP_eq_zero.mpr (by simpa using ht)
    omega
  | deleted e he a t ht r hr =>
    have hzero : t.countP isDelete = 0 := List.countP_eq_zero.mpr (by simpa using ht)
    have hread : isDelete e = false := he.isDelete_eq_false
    have hdelete : isDelete (⟨.delete location, a⟩ : RequestEvent ObjectPath) = true := rfl
    simp [hread, hdelete, hzero]

/-- A DELETE goes to the location, after a read of the very bytes. -/
theorem Deletes.preceded {t : List (RequestEvent ObjectPath)}
    {r : Option (Except ReplicaError ReplicaDeleteOutcome)} (h : Deletes cx reference location t r)
    {before after : List (RequestEvent ObjectPath)} {location' : ObjectPath} {a : Option Bool}
    (ht : t = before ++ ⟨.delete location', a⟩ :: after) :
    location' = location ∧ ∃ e ∈ before, ReadsBack cx reference location e := by
  have hmem : (⟨.delete location', a⟩ : RequestEvent ObjectPath) ∈ t := by simp [ht]
  cases h with
  | absent => simp at hmem
  | untouched t hnone r hr => exact nomatch hnone _ hmem
  | deleted e he acknowledged rest hnone r hr =>
    cases before with
    | nil =>
      obtain ⟨rfl, -⟩ := List.cons.inj ht
      exact nomatch he.isDelete_eq_false
    | cons e' before =>
      obtain ⟨rfl, hrest⟩ := List.cons.inj ht
      refine ⟨?_, e, List.mem_cons_self, he⟩
      cases before with
      | nil =>
        obtain ⟨hevent, -⟩ := List.cons.inj hrest
        cases hevent
        rfl
      | cons e'' before =>
        obtain ⟨-, hrest⟩ := List.cons.inj hrest
        exact nomatch hnone ⟨.delete location', a⟩ (by simp [hrest])

theorem Deletes.absenceProved {t : List (RequestEvent ObjectPath)}
    {r : Option (Except ReplicaError ReplicaDeleteOutcome)} (h : Deletes cx reference location t r)
    {outcome : ReplicaDeleteOutcome} (hr : r = some (.ok outcome)) : AbsenceProved location t := by
  cases h with
  | absent => exact ⟨[], _, [], rfl, rfl, nofun⟩
  | untouched t ht r hfailed => exact absurd hr (hfailed outcome)
  | deleted e he a rest hnone r hproved =>
    obtain ⟨-, e', he', hnothing⟩ := hproved outcome hr
    obtain ⟨before, after, rfl⟩ := List.append_of_mem he'
    refine ⟨e :: ⟨.delete location, a⟩ :: before, e', after, rfl, hnothing, fun e hmem => ?_⟩
    exact hnone e (by simp [hmem])

/-- Whatever the provider answers and whenever the deadline expires: at most one DELETE, for the
store's own key and after a read of exactly the referenced bytes; success only with a read that
found nothing, after the DELETE when there was one; and no request for a foreign placement. -/
theorem delete_verified_proves_absence (parse : String → Option ObjectPath) (cx : Crypto)
    (store : ReplicaStore) (reference : BlobRef) (placement : ReplicaPlacement)
    (env : Surroundings (Request ObjectPath) Answer) :
    let out := timeout env (store.deleteVerified parse cx reference placement)
    out.1.countP isDelete ≤ 1 ∧
      (∀ before location a after, out.1 = before ++ ⟨.delete location, a⟩ :: after →
        (∃ key, objectKey store.keyPrefix reference = .ok key ∧ parse key = some location) ∧
          ∃ e ∈ before, ReadsBack cx reference location e) ∧
      (∀ outcome, out.2 = .ok outcome →
        ∃ location, Identified parse store reference placement location ∧
          AbsenceProved location out.1) ∧
      ((∀ location, Identified parse store reference placement location →
        ¬AbsenceProved location out.1) → ∃ error, out.2 = .error error) ∧
      ((∀ location, ¬Identified parse store reference placement location) →
        out.1 = [] ∧ out.2 = .error .invalidInput) := by
  intro out
  rcases deleteVerified_cases parse cx store reference placement with
    ⟨location, hidentified, hinner⟩ | ⟨hforeign, hrefused⟩
  · have hout : out = timeout env (store.deleteVerifiedInner cx reference location) :=
      congrArg (timeout env) hinner
    have hdeletes : Deletes cx reference location out.1
        ((store.deleteVerifiedInner cx reference location).exec env []).2 := by
      rw [hout]
      exact deleteVerifiedInner_holds.exec env []
    have habsent (outcome : ReplicaDeleteOutcome) (hok : out.2 = .ok outcome) :
        AbsenceProved location out.1 := by
      rw [hout] at hok
      exact hdeletes.absenceProved (returned_of_timeout hok)
    refine ⟨hdeletes.countP_le, fun before location' a after ht => ?_,
      fun outcome hok => ⟨location, hidentified, habsent outcome hok⟩, fun hnot => ?_,
      fun hforeign => absurd hidentified (hforeign location)⟩
    · obtain ⟨rfl, hread⟩ := hdeletes.preceded ht
      exact ⟨⟨_, hidentified.2.2.1, hidentified.2.2.2.2.2⟩, hread⟩
    · cases hr : out.2 with
      | error error => exact ⟨error, rfl⟩
      | ok outcome => exact absurd (habsent outcome hr) (hnot location hidentified)
  · have hout : out = ([], .error .invalidInput) := congrArg (timeout env) hrefused
    rw [hout]
    exact ⟨Nat.zero_le 1, by simp, nofun, fun _ => ⟨_, rfl⟩, fun _ => ⟨rfl, rfl⟩⟩

end RatatoskrVault.Adapter
