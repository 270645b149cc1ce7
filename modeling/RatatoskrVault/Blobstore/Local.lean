import Mathlib.Logic.Function.Basic
import RatatoskrVault.Core.Snapshot

/-! The local content-addressed store: one file for each digest, published by hard link,
re-read before it is trusted, and removed only by its exact reference. -/
namespace RatatoskrVault

inductive BlobStoreError
  | invalidInput | io | digestMismatch | sizeLimitExceeded | existingContentMismatch
  deriving DecidableEq

inductive LocalDeleteOutcome
  | deleted | alreadyAbsent
  deriving DecidableEq

/-- How the file system answers a call: it succeeds, fails before its effect, or reports a failure
after the effect took place. -/
inductive IoResult
  | ok | failedBefore | failedAfter
  deriving DecidableEq

structure LocalBlobStore where
  maxBytes : ℕ
  files : Digest → Option Bytes

namespace LocalBlobStore

variable (cx : Crypto) (store : LocalBlobStore)

def validateReference (reference : BlobRef) : Bool :=
  reference.owner == owner && !reference.mediaType.isEmpty

def referenceForFile (bytes : Bytes) (mediaType : String) : Except BlobStoreError BlobRef :=
  if store.maxBytes < bytes.length || mediaType.isEmpty then .error .invalidInput
  else .ok { owner, sha256 := cx.sha256 bytes, mediaType, sizeBytes := bytes.length }

def verify (reference : BlobRef) : Except BlobStoreError Unit :=
  if !validateReference reference then .error .invalidInput
  else
    match store.files reference.sha256 with
    | none => .error .io
    | some bytes =>
      if bytes.length != reference.sizeBytes || decide (store.maxBytes < bytes.length) then
        .error .digestMismatch
      else if cx.sha256 bytes == reference.sha256 then .ok ()
      else .error .digestMismatch

/-- A destination that exists is kept when its bytes match the reference. -/
def publishFile (expected : BlobRef) (bytes : Bytes) : Except BlobStoreError LocalBlobStore :=
  if !validateReference expected then .error .invalidInput
  else if store.maxBytes < bytes.length then .error .invalidInput
  else if bytes.length != expected.sizeBytes then .error .digestMismatch
  else if cx.sha256 bytes != expected.sha256 then .error .digestMismatch
  else
    match store.files expected.sha256 with
    | none => .ok { store with files := Function.update store.files expected.sha256 (some bytes) }
    | some existing =>
      if existing.length != expected.sizeBytes then .error .existingContentMismatch
      else if cx.sha256 existing == expected.sha256 then .ok store
      else .error .existingContentMismatch

def remove (digest : Digest) : LocalBlobStore :=
  { store with files := Function.update store.files digest none }

def deleteVerifiedBlob (reference : BlobRef) (io : IoResult) :
    LocalBlobStore × Except BlobStoreError LocalDeleteOutcome :=
  if !validateReference reference then (store, .error .invalidInput)
  else
    match store.files reference.sha256, io with
    | _, .failedBefore => (store, .error .io)
    | none, _ => (store, .ok .alreadyAbsent)
    | some _, io =>
      match store.verify cx reference with
      | .error e => (store, .error e)
      | .ok () =>
        (store.remove reference.sha256, if io = .ok then .ok .deleted else .error .io)

/-- A deletion touches nothing but the referenced digest, and success leaves it absent. -/
theorem deleteVerifiedBlob_spec (reference : BlobRef) (io : IoResult) :
    (∀ d, d ≠ reference.sha256 →
      (store.deleteVerifiedBlob cx reference io).1.files d = store.files d) ∧
    ((store.deleteVerifiedBlob cx reference io).1.files reference.sha256 = none ∨
      (store.deleteVerifiedBlob cx reference io).1.files reference.sha256
        = store.files reference.sha256) ∧
    (∀ outcome, (store.deleteVerifiedBlob cx reference io).2 = .ok outcome →
      (store.deleteVerifiedBlob cx reference io).1.files reference.sha256 = none) := by
  unfold deleteVerifiedBlob
  split_ifs with hv
  · simp
  · cases hf : store.files reference.sha256 with
    | none => cases io <;> simp [hf]
    | some bytes =>
      cases io <;> cases hvf : store.verify cx reference <;>
        simp +contextual [hf, remove]

theorem deleteVerifiedBlob_maxBytes (reference : BlobRef) (io : IoResult) :
    (store.deleteVerifiedBlob cx reference io).1.maxBytes = store.maxBytes := by
  unfold deleteVerifiedBlob
  split_ifs
  · rfl
  · cases hf : store.files reference.sha256 with
    | none => cases io <;> rfl
    | some bytes => cases io <;> cases hvf : store.verify cx reference <;> rfl

/-- Publication only adds the published bytes. -/
theorem publishFile_spec {expected : BlobRef} {bytes : Bytes} {store' : LocalBlobStore}
    (h : store.publishFile cx expected bytes = .ok store') :
    cx.sha256 bytes = expected.sha256 ∧ store'.maxBytes = store.maxBytes ∧
    (∃ stored, store'.files expected.sha256 = some stored ∧
      (stored = bytes ∨ store.files expected.sha256 = some stored)) ∧
    (∀ d, d ≠ expected.sha256 → store'.files d = store.files d) := by
  unfold publishFile at h
  split_ifs at h with h₁ h₂ h₃ h₄
  have hsha : cx.sha256 bytes = expected.sha256 := by simpa using h₄
  cases hf : store.files expected.sha256 with
  | none =>
    rw [hf] at h
    obtain rfl := Except.ok.inj h
    exact ⟨hsha, rfl, ⟨bytes, by simp, Or.inl rfl⟩, fun d hd => by simp [hd]⟩
  | some existing =>
    rw [hf] at h
    simp only at h
    split_ifs at h with h₅ h₆
    obtain rfl := Except.ok.inj h
    exact ⟨hsha, rfl, ⟨existing, hf, Or.inr rfl⟩, fun _ _ => rfl⟩

theorem sha256_of_verify {reference : BlobRef} {bytes : Bytes}
    (hfile : store.files reference.sha256 = some bytes)
    (h : store.verify cx reference = .ok ()) : cx.sha256 bytes = reference.sha256 := by
  unfold verify at h
  rw [hfile] at h
  simp only at h
  split_ifs at h with _ _ hsha
  exact beq_iff_eq.mp hsha

/-- Verification reads nothing but the referenced file. -/
theorem verify_congr {store store' : LocalBlobStore} {reference : BlobRef}
    (hmax : store'.maxBytes = store.maxBytes)
    (hfile : store'.files reference.sha256 = store.files reference.sha256) :
    store'.verify cx reference = store.verify cx reference := by
  unfold verify
  rw [hmax, hfile]

theorem file_of_verify {reference : BlobRef} (h : store.verify cx reference = .ok ()) :
    ∃ bytes, store.files reference.sha256 = some bytes ∧ cx.sha256 bytes = reference.sha256 := by
  cases hfile : store.files reference.sha256 with
  | some bytes => exact ⟨bytes, rfl, store.sha256_of_verify cx hfile h⟩
  | none =>
    unfold verify at h
    rw [hfile] at h
    simp only at h
    split_ifs at h

/-- A reference verifies where the file has its digest and length within the limit. -/
theorem verify_ok_iff {reference : BlobRef} :
    store.verify cx reference = .ok () ↔ validateReference reference = true ∧
      ∃ bytes, store.files reference.sha256 = some bytes ∧ bytes.length = reference.sizeBytes ∧
        bytes.length ≤ store.maxBytes ∧ cx.sha256 bytes = reference.sha256 := by
  unfold verify
  cases hvalid : validateReference reference with
  | false => simp
  | true =>
    cases hfile : store.files reference.sha256 with
    | none => simp
    | some bytes =>
      simp only [Bool.not_true, Bool.false_eq_true, if_false, Option.some.injEq, true_and,
        exists_eq_left']
      split_ifs with hsize hdigest
      · simp only [Bool.or_eq_true, bne_iff_ne, decide_eq_true_eq] at hsize
        simp only [false_iff]
        omega
      · simp only [Bool.or_eq_true, bne_iff_ne, decide_eq_true_eq] at hsize
        simp only [true_iff]
        exact ⟨by omega, by omega, beq_iff_eq.mp hdigest⟩
      · simp only [false_iff]
        rintro ⟨-, -, hsame⟩
        exact hdigest (beq_iff_eq.mpr hsame)

/-- A published file verifies. -/
theorem verify_publishFile {expected : BlobRef} {bytes : Bytes} {store' : LocalBlobStore}
    (h : store.publishFile cx expected bytes = .ok store') :
    store'.verify cx expected = .ok () := by
  unfold publishFile at h
  split_ifs at h with hvalid hmax hlength hsha
  have hlength' : bytes.length = expected.sizeBytes := by simpa using hlength
  have hsha' : cx.sha256 bytes = expected.sha256 := by simpa using hsha
  have hvalid' : validateReference expected = true := by simpa using hvalid
  unfold verify
  cases hfile : store.files expected.sha256 with
  | none =>
    rw [hfile] at h
    obtain rfl := Except.ok.inj h
    simp [hvalid', hlength', hsha', Nat.le_of_not_lt (hlength' ▸ hmax)]
  | some existing =>
    rw [hfile] at h
    simp only at h
    split_ifs at h with hexisting hdigest
    obtain rfl := Except.ok.inj h
    have hexisting' : existing.length = expected.sizeBytes := by simpa using hexisting
    have hdigest' : cx.sha256 existing = expected.sha256 := beq_iff_eq.mp hdigest
    simp [hvalid', hfile, hexisting', hdigest', Nat.le_of_not_lt (hlength' ▸ hmax)]

/-- Every file of the first store is in the second. -/
structure Kept (store store' : LocalBlobStore) : Prop where
  maxBytes : store'.maxBytes = store.maxBytes
  files : ∀ digest bytes, store.files digest = some bytes → store'.files digest = some bytes

theorem Kept.refl : Kept store store := ⟨rfl, fun _ _ h => h⟩

/-- A publication replaces no file. -/
theorem kept_publishFile {expected : BlobRef} {bytes : Bytes} {store' : LocalBlobStore}
    (h : store.publishFile cx expected bytes = .ok store') : Kept store store' := by
  unfold publishFile at h
  split_ifs at h
  cases hfile : store.files expected.sha256 with
  | none =>
    rw [hfile] at h
    obtain rfl := Except.ok.inj h
    refine ⟨rfl, fun digest stored hstored => ?_⟩
    have hne : digest ≠ expected.sha256 := by
      intro heq
      rw [heq, hfile] at hstored
      cases hstored
    exact (Function.update_of_ne hne _ _).trans hstored
  | some existing =>
    rw [hfile] at h
    simp only at h
    split_ifs at h
    obtain rfl := Except.ok.inj h
    exact Kept.refl store

theorem Kept.verify {store store' : LocalBlobStore} {reference : BlobRef} (h : Kept store store')
    (hverify : store.verify cx reference = .ok ()) : store'.verify cx reference = .ok () := by
  obtain ⟨bytes, hfile, -⟩ := store.file_of_verify cx hverify
  have hsame : store'.files reference.sha256 = store.files reference.sha256 :=
    (h.files _ _ hfile).trans hfile.symm
  rw [verify_congr cx h.maxBytes hsame]
  exact hverify

end LocalBlobStore

end RatatoskrVault
