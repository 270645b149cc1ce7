import RatatoskrVault.Blobstore.Local
import RatatoskrVault.Lib.Runs

/-! The calls of `LocalBlobStore` down to single file operations, each of which can fail: the
stream into a temporary file, the hard link, and the verified removal. -/
namespace RatatoskrVault

open Lib

/-- The files below `ratatoskr-vault/sha256`: blobs by digest and temporaries by name. -/
structure BlobFiles where
  blobs : Digest → Option Bytes
  temporaries : ℕ → Option Bytes

/-- One round of the copy loop: what the read returns, `none` where it fails, and after how many
bytes the write fails. -/
structure ChunkIo where
  read : Option Bytes
  writeFails : Option ℕ
  deriving DecidableEq

/-- How the file operations of a publication end. -/
structure PublishIo where
  /-- Whether the source is a regular file, and its length. -/
  source : Option (Bool × ℕ)
  parentsCreated : Bool
  sourceOpened : Bool
  temporaryCreated : Bool
  chunks : List ChunkIo
  synced : Bool
  linked : IoResult
  temporaryRemoved : Bool
  parentSynced : Bool
  existingRead : Bool

structure DeleteIo where
  inspected : Bool
  canonicalized : Bool
  verifyRead : Bool
  removed : IoResult
  rechecked : Bool
  parentSynced : Bool

namespace BlobFiles

/-- The blob of a digest, as `verify` re-reads it. -/
def verify (cx : Crypto) (maxBytes : ℕ) (files : BlobFiles) (reference : BlobRef)
    (readable : Bool) : Except BlobStoreError Unit :=
  if !LocalBlobStore.validateReference reference then .error .invalidInput
  else if !readable then .error .io
  else ({ maxBytes, files := files.blobs } : LocalBlobStore).verify cx reference

def link (files : BlobFiles) (digest : Digest) (bytes : Bytes) : BlobFiles :=
  { files with blobs := Function.update files.blobs digest (some bytes) }

def unlink (files : BlobFiles) (digest : Digest) : BlobFiles :=
  { files with blobs := Function.update files.blobs digest none }

def setTemporary (files : BlobFiles) (name : ℕ) (content : Option Bytes) : BlobFiles :=
  { files with temporaries := Function.update files.temporaries name content }

/-- The end of a temporary file, unless its removal fails. -/
def removeTemporary (files : BlobFiles) (name : ℕ) (removed : Bool) : BlobFiles :=
  if removed then files.setTemporary name none else files

/-- The copy loop: what has been written, and hashed, so far. -/
def copyChunks (maxBytes : ℕ) : List ChunkIo → Bytes → Bytes × Except BlobStoreError Unit
  | [], content => (content, .ok ())
  | chunk :: rest, content =>
    match chunk.read with
    | none => (content, .error .io)
    | some bytes =>
      if bytes.isEmpty then (content, .ok ())
      else if maxBytes < content.length + bytes.length then (content, .error .sizeLimitExceeded)
      else
        match chunk.writeFails with
        | some n => (content ++ bytes.take n, .error .io)
        | none => copyChunks maxBytes rest (content ++ bytes)

section

variable (cx : Crypto) (maxBytes : ℕ) (files : BlobFiles)

def streamToTemporary (expected : BlobRef) (temporary : ℕ) (io : PublishIo) :
    BlobFiles × Except BlobStoreError Bytes :=
  if !io.sourceOpened then (files, .error .io)
  else if !io.temporaryCreated || (files.temporaries temporary).isSome then (files, .error .io)
  else
    match copyChunks maxBytes io.chunks [] with
    | (content, .error e) => (files.setTemporary temporary (some content), .error e)
    | (content, .ok ()) =>
      let files := files.setTemporary temporary (some content)
      if !io.synced then (files, .error .io)
      else if content.length ≠ expected.sizeBytes ∨ cx.sha256 content ≠ expected.sha256 then
        (files, .error .digestMismatch)
      else (files, .ok content)

def verifyExisting (expected : BlobRef) (existing : Bytes) (readable : Bool) :
    Except BlobStoreError Unit :=
  if !readable then .error .io
  else if existing.length ≠ expected.sizeBytes then .error .existingContentMismatch
  else if cx.sha256 existing = expected.sha256 then .ok ()
  else .error .existingContentMismatch

def publishFile (expected : BlobRef) (temporary : ℕ) (io : PublishIo) :
    BlobFiles × Except BlobStoreError Unit :=
  if !LocalBlobStore.validateReference expected then (files, .error .invalidInput)
  else
    match io.source with
    | none => (files, .error .io)
    | some (regular, length) =>
      if !regular || decide (maxBytes < length) then (files, .error .invalidInput)
      else if length ≠ expected.sizeBytes then (files, .error .digestMismatch)
      else if !io.parentsCreated then (files, .error .io)
      else
        match streamToTemporary cx maxBytes files expected temporary io with
        | (files, .error e) => (files.removeTemporary temporary io.temporaryRemoved, .error e)
        | (files, .ok content) =>
          match io.linked, files.blobs expected.sha256 with
          | .failedBefore, _ => (files.removeTemporary temporary io.temporaryRemoved, .error .io)
          | _, some existing =>
            (files.removeTemporary temporary io.temporaryRemoved,
              verifyExisting cx expected existing io.existingRead)
          | .failedAfter, none =>
            ((files.link expected.sha256 content).removeTemporary temporary io.temporaryRemoved,
              .error .io)
          | .ok, none =>
            ((files.link expected.sha256 content).removeTemporary temporary io.temporaryRemoved,
              if io.temporaryRemoved && io.parentSynced then .ok () else .error .io)

def deleteVerifiedBlob (reference : BlobRef) (io : DeleteIo) :
    BlobFiles × Except BlobStoreError LocalDeleteOutcome :=
  if !LocalBlobStore.validateReference reference then (files, .error .invalidInput)
  else if !io.inspected then (files, .error .io)
  else
    match files.blobs reference.sha256 with
    | none => (files, .ok .alreadyAbsent)
    | some _ =>
      if !io.canonicalized then (files, .error .io)
      else
        match files.verify cx maxBytes reference io.verifyRead, io.removed with
        | .error e, _ => (files, .error e)
        | .ok (), .failedBefore => (files, .error .io)
        | .ok (), .failedAfter => (files.unlink reference.sha256, .error .io)
        | .ok (), .ok =>
          (files.unlink reference.sha256,
            if io.rechecked && io.parentSynced then .ok .deleted else .error .io)

end

end BlobFiles

/-- A call of the store, with how its file operations end. -/
inductive BlobCall
  | publishFile (expected : BlobRef) (temporary : ℕ) (io : PublishIo)
  | verify (reference : BlobRef) (readable : Bool)
  | deleteVerifiedBlob (reference : BlobRef) (io : DeleteIo)

namespace BlobCall

def reference : BlobCall → BlobRef
  | .publishFile expected _ _ => expected
  | .verify reference _ => reference
  | .deleteVerifiedBlob reference _ => reference

def deletes : BlobCall → Option Digest
  | .deleteVerifiedBlob reference _ => some reference.sha256
  | _ => none

variable (cx : Crypto) (maxBytes : ℕ)

/-- The files after the call, and whether it reports success. -/
def perform (files : BlobFiles) : BlobCall → BlobFiles × Except BlobStoreError Unit
  | .publishFile expected temporary io => files.publishFile cx maxBytes expected temporary io
  | .verify reference readable => (files, files.verify cx maxBytes reference readable)
  | .deleteVerifiedBlob reference io =>
    let (files, result) := files.deleteVerifiedBlob cx maxBytes reference io
    (files, result.map fun _ => ())

end BlobCall

namespace BlobFiles

def empty : BlobFiles := ⟨fun _ => none, fun _ => none⟩

/-- The files after the calls, each with its own failures. -/
def after (cx : Crypto) (maxBytes : ℕ) (files : BlobFiles) (calls : List BlobCall) : BlobFiles :=
  calls.foldl (fun files call => (call.perform cx maxBytes files).1) files

section

variable {cx : Crypto} {maxBytes : ℕ} {files : BlobFiles} {expected reference : BlobRef}
  {temporary : ℕ}

@[simp] theorem blobs_setTemporary (name : ℕ) (content : Option Bytes) :
    (files.setTemporary name content).blobs = files.blobs := rfl

@[simp] theorem blobs_removeTemporary (name : ℕ) (removed : Bool) :
    (files.removeTemporary name removed).blobs = files.blobs := by
  unfold removeTemporary
  split_ifs <;> rfl

@[simp] theorem blobs_link (digest : Digest) (bytes : Bytes) :
    (files.link digest bytes).blobs = Function.update files.blobs digest (some bytes) := rfl

@[simp] theorem blobs_unlink (digest : Digest) :
    (files.unlink digest).blobs = Function.update files.blobs digest none := rfl

/-- The bytes that a reference names. -/
def Names (cx : Crypto) (reference : BlobRef) (bytes : Bytes) : Prop :=
  bytes.length = reference.sizeBytes ∧ cx.sha256 bytes = reference.sha256

/-- Streaming writes a temporary file, and passes on what the reference names only. -/
theorem streamToTemporary_spec (io : PublishIo) :
    (streamToTemporary cx maxBytes files expected temporary io).1.blobs = files.blobs ∧
      ∀ content, (streamToTemporary cx maxBytes files expected temporary io).2 = .ok content →
        Names cx expected content := by
  unfold streamToTemporary
  split
  · exact ⟨rfl, fun _ h => by cases h⟩
  split
  · exact ⟨rfl, fun _ h => by cases h⟩
  split
  · exact ⟨rfl, fun _ h => by cases h⟩
  · dsimp only
    split_ifs with hsynced hnamed
    · exact ⟨rfl, fun _ h => by cases h⟩
    · exact ⟨rfl, fun _ h => by cases h⟩
    · refine ⟨rfl, fun content h => ?_⟩
      obtain rfl := Except.ok.inj h
      rw [not_or, not_not, not_not] at hnamed
      exact hnamed

theorem names_of_verifyExisting {existing : Bytes} {readable : Bool}
    (h : verifyExisting cx expected existing readable = .ok ()) : Names cx expected existing := by
  unfold verifyExisting at h
  split_ifs at h with _ hlength hdigest
  exact ⟨not_not.mp hlength, hdigest⟩

/-- What a publication does to the blobs: nothing, or one blob more. -/
inductive Publishes (cx : Crypto) (files : BlobFiles) (expected : BlobRef) (files' : BlobFiles) :
    Prop
  | kept (h : files'.blobs = files.blobs)
  | linked (content : Bytes) (hnames : Names cx expected content)
      (habsent : files.blobs expected.sha256 = none)
      (h : files'.blobs = Function.update files.blobs expected.sha256 (some content))

/-- What a publication that reports success has established. -/
structure Published (cx : Crypto) (maxBytes : ℕ) (files : BlobFiles) (expected : BlobRef) :
    Prop where
  valid : LocalBlobStore.validateReference expected = true
  limit : expected.sizeBytes ≤ maxBytes
  stored : ∃ bytes, files.blobs expected.sha256 = some bytes ∧ Names cx expected bytes

theorem publishFile_spec (io : PublishIo) :
    Publishes cx files expected (files.publishFile cx maxBytes expected temporary io).1 ∧
      ((files.publishFile cx maxBytes expected temporary io).2 = .ok () →
        Published cx maxBytes (files.publishFile cx maxBytes expected temporary io).1 expected) := by
  have hstreaming : (streamToTemporary cx maxBytes files expected temporary io).1.blobs
      = files.blobs ∧
        ∀ content, (streamToTemporary cx maxBytes files expected temporary io).2 = .ok content →
          Names cx expected content :=
    streamToTemporary_spec io
  obtain ⟨hblobs, hnames⟩ := hstreaming
  unfold publishFile
  split
  · exact ⟨.kept rfl, fun h => by cases h⟩
  rename_i hvalid
  split
  · exact ⟨.kept rfl, fun h => by cases h⟩
  rename_i regular length hsource
  split
  · exact ⟨.kept rfl, fun h => by cases h⟩
  rename_i hregular
  split
  · exact ⟨.kept rfl, fun h => by cases h⟩
  rename_i hlength
  split
  · exact ⟨.kept rfl, fun h => by cases h⟩
  have hvalid' : LocalBlobStore.validateReference expected = true := by simpa using hvalid
  have hlimit : expected.sizeBytes ≤ maxBytes := by
    simp only [Bool.or_eq_true, decide_eq_true_eq, not_or] at hregular
    omega
  split
  · rename_i streamed e hstream
    rw [hstream] at hblobs
    exact ⟨.kept (by rw [blobs_removeTemporary]; exact hblobs), fun h => by cases h⟩
  · rename_i streamed content hstream
    rw [hstream] at hblobs hnames
    have hcontent : Names cx expected content := hnames content rfl
    have hkept : ∀ removed, (streamed.removeTemporary temporary removed).blobs = files.blobs :=
      fun removed => (blobs_removeTemporary ..).trans hblobs
    split
    · exact ⟨.kept (hkept _), fun h => by cases h⟩
    · rename_i existing hexisting _
      refine ⟨.kept (hkept _), fun h => ⟨hvalid', hlimit, existing, ?_, names_of_verifyExisting h⟩⟩
      rw [blobs_removeTemporary]
      exact hexisting
    · rename_i habsent
      refine ⟨.linked content hcontent (hblobs ▸ habsent) ?_, fun h => by cases h⟩
      rw [blobs_removeTemporary, blobs_link, hblobs]
    · rename_i habsent
      refine ⟨.linked content hcontent (hblobs ▸ habsent) ?_, fun _ =>
        ⟨hvalid', hlimit, content, ?_, hcontent⟩⟩
      · rw [blobs_removeTemporary, blobs_link, hblobs]
      · rw [blobs_removeTemporary, blobs_link, Function.update_self]

/-- A deletion removes the referenced blob or none, and success leaves it absent. -/
theorem deleteVerifiedBlob_spec (io : DeleteIo) :
    ((files.deleteVerifiedBlob cx maxBytes reference io).1.blobs = files.blobs ∨
      (files.deleteVerifiedBlob cx maxBytes reference io).1.blobs
        = Function.update files.blobs reference.sha256 none) ∧
    ∀ outcome, (files.deleteVerifiedBlob cx maxBytes reference io).2 = .ok outcome →
      (files.deleteVerifiedBlob cx maxBytes reference io).1.blobs reference.sha256 = none := by
  unfold deleteVerifiedBlob
  split
  · exact ⟨.inl rfl, fun _ h => by cases h⟩
  split
  · exact ⟨.inl rfl, fun _ h => by cases h⟩
  split
  · rename_i habsent
    exact ⟨.inl rfl, fun _ _ => habsent⟩
  split
  · exact ⟨.inl rfl, fun _ h => by cases h⟩
  split
  · exact ⟨.inl rfl, fun _ h => by cases h⟩
  · exact ⟨.inl rfl, fun _ h => by cases h⟩
  · exact ⟨.inr rfl, fun _ h => by cases h⟩
  · exact ⟨.inr rfl, fun _ _ => Function.update_self ..⟩

theorem verify_of_published (h : Published cx maxBytes files expected) :
    files.verify cx maxBytes expected true = .ok () := by
  obtain ⟨bytes, hbytes, hlength, hdigest⟩ := h.stored
  have hpasses : ({ maxBytes, files := files.blobs } : LocalBlobStore).verify cx expected
      = .ok () := by
    rw [LocalBlobStore.verify_ok_iff]
    exact ⟨h.valid, bytes, hbytes, hlength, hlength ▸ h.limit, hdigest⟩
  unfold verify
  rw [hpasses]
  simp [h.valid]

variable (cx maxBytes files) in
/-- What a call does to the blobs, apart from its result: it keeps them, adds the blob of its
reference, or removes it. -/
theorem perform_blobs (call : BlobCall) :
    Publishes cx files call.reference (call.perform cx maxBytes files).1 ∨
      call.deletes = some call.reference.sha256 ∧ (call.perform cx maxBytes files).1.blobs
        = Function.update files.blobs call.reference.sha256 none := by
  cases call with
  | publishFile expected temporary io => exact .inl (publishFile_spec io).1
  | verify reference readable => exact .inl (.kept rfl)
  | deleteVerifiedBlob reference io =>
    have hdelete : (files.deleteVerifiedBlob cx maxBytes reference io).1.blobs = files.blobs ∨
        (files.deleteVerifiedBlob cx maxBytes reference io).1.blobs
          = Function.update files.blobs reference.sha256 none :=
      (deleteVerifiedBlob_spec io).1
    rcases hdelete with hkept | hremoved
    · exact .inl (.kept hkept)
    · exact .inr ⟨rfl, hremoved⟩

/-- Every blob has the bytes its name promises. -/
def Addressed (cx : Crypto) (files : BlobFiles) : Prop :=
  ∀ digest bytes, files.blobs digest = some bytes → cx.sha256 bytes = digest

theorem addressed_perform (h : Addressed cx files) (call : BlobCall) :
    Addressed cx (call.perform cx maxBytes files).1 := by
  intro digest bytes hbytes
  have hcall := perform_blobs cx maxBytes files call
  by_cases hown : digest = call.reference.sha256
  · rcases hcall with (hkept | ⟨content, hnames, -, hlinked⟩) | ⟨-, hremoved⟩
    · exact h digest bytes (hkept ▸ hbytes)
    · rw [hlinked, hown, Function.update_self] at hbytes
      rw [← Option.some.inj hbytes, hown]
      exact hnames.2
    · rw [hremoved, hown, Function.update_self] at hbytes
      cases hbytes
  · rcases hcall with (hkept | ⟨content, -, -, hlinked⟩) | ⟨-, hremoved⟩
    · exact h digest bytes (hkept ▸ hbytes)
    · rw [hlinked, Function.update_of_ne hown] at hbytes
      exact h digest bytes hbytes
    · rw [hremoved, Function.update_of_ne hown] at hbytes
      exact h digest bytes hbytes

variable (cx maxBytes) in
/-- Only a deletion of its own digest takes a stored blob away, and none replaces it. -/
theorem blob_perform (call : BlobCall) {digest : Digest} {bytes : Bytes}
    (hbytes : files.blobs digest = some bytes) :
    (call.perform cx maxBytes files).1.blobs digest = some bytes ∨
      call.deletes = some digest ∧ (call.perform cx maxBytes files).1.blobs digest = none := by
  have hcall := perform_blobs cx maxBytes files call
  by_cases hown : digest = call.reference.sha256
  · rcases hcall with (hkept | ⟨content, -, habsent, -⟩) | ⟨hdeletes, hremoved⟩
    · exact .inl (hkept ▸ hbytes)
    · rw [← hown, hbytes] at habsent
      cases habsent
    · right
      rw [hremoved, hown, Function.update_self]
      exact ⟨hdeletes, rfl⟩
  · left
    rcases hcall with (hkept | ⟨content, -, -, hlinked⟩) | ⟨-, hremoved⟩
    · exact hkept ▸ hbytes
    · rw [hlinked, Function.update_of_ne hown]
      exact hbytes
    · rw [hremoved, Function.update_of_ne hown]
      exact hbytes

theorem blob_perform_of_ne (call : BlobCall) {digest : Digest}
    (hne : digest ≠ call.reference.sha256) :
    (call.perform cx maxBytes files).1.blobs digest = files.blobs digest := by
  have hcall := perform_blobs cx maxBytes files call
  rcases hcall with (hkept | ⟨content, -, -, hlinked⟩) | ⟨-, hremoved⟩
  · rw [hkept]
  · rw [hlinked, Function.update_of_ne hne]
  · rw [hremoved, Function.update_of_ne hne]

theorem published_perform (h : Published cx maxBytes files expected) (call : BlobCall)
    (hdeletes : call.deletes ≠ some expected.sha256) :
    Published cx maxBytes (call.perform cx maxBytes files).1 expected := by
  obtain ⟨bytes, hbytes, hnames⟩ := h.stored
  rcases blob_perform cx maxBytes call hbytes with hkept | ⟨hdeleted, -⟩
  · exact ⟨h.valid, h.limit, bytes, hkept, hnames⟩
  · exact absurd hdeleted hdeletes

theorem published_after (h : Published cx maxBytes files expected) {calls : List BlobCall}
    (hdeletes : ∀ call ∈ calls, call.deletes ≠ some expected.sha256) :
    Published cx maxBytes (files.after cx maxBytes calls) expected :=
  foldl_invariant (I := fun files : BlobFiles => Published cx maxBytes files expected)
    (fun _ call hcall hkept => published_perform hkept call (hdeletes call hcall)) h

/-- No file operation of the publication fails, and the source file holds `bytes`. -/
structure Undisturbed (files : BlobFiles) (temporary : ℕ) (io : PublishIo) (bytes : Bytes) :
    Prop where
  source : io.source = some (true, bytes.length)
  parents : io.parentsCreated = true
  opened : io.sourceOpened = true
  created : io.temporaryCreated = true
  fresh : files.temporaries temporary = none
  chunks : ∃ parts : List Bytes, (∀ part ∈ parts, part ≠ []) ∧ parts.flatten = bytes ∧
    io.chunks = parts.map fun part => { read := some part, writeFails := none }
  synced : io.synced = true
  linked : io.linked = .ok
  removed : io.temporaryRemoved = true
  parentSynced : io.parentSynced = true
  existingRead : io.existingRead = true

theorem copyChunks_parts {parts : List Bytes} (hparts : ∀ part ∈ parts, part ≠ [])
    (content : Bytes) (hlimit : (content ++ parts.flatten).length ≤ maxBytes) :
    copyChunks maxBytes (parts.map fun part => { read := some part, writeFails := none }) content
      = (content ++ parts.flatten, .ok ()) := by
  induction parts generalizing content with
  | nil => simp [copyChunks]
  | cons part rest ih =>
    have hpart : part ≠ [] := hparts part (List.mem_cons_self ..)
    rw [List.flatten_cons, ← List.append_assoc] at hlimit ⊢
    have hrest := ih (fun other hmem => hparts other (List.mem_cons_of_mem _ hmem))
      (content ++ part) hlimit
    have hwithin : ¬ maxBytes < content.length + part.length := by
      simp only [List.length_append] at hlimit
      omega
    simp only [List.map_cons, copyChunks, List.isEmpty_iff, hpart, hwithin, if_false]
    exact hrest

variable (cx maxBytes expected) in
/-- Where no file operation fails, streaming passes on the source if the reference names it. -/
theorem streamToTemporary_undisturbed {io : PublishIo} {bytes : Bytes}
    (h : Undisturbed files temporary io bytes) (hlimit : bytes.length ≤ maxBytes) :
    (Names cx expected bytes → streamToTemporary cx maxBytes files expected temporary io
        = (files.setTemporary temporary (some bytes), .ok bytes)) ∧
      (¬ Names cx expected bytes → streamToTemporary cx maxBytes files expected temporary io
        = (files.setTemporary temporary (some bytes), .error .digestMismatch)) := by
  obtain ⟨parts, hparts, hflatten, hchunks⟩ := h.chunks
  have hcopied : copyChunks maxBytes io.chunks [] = (bytes, .ok ()) := by
    rw [hchunks, copyChunks_parts hparts [] (by simpa [hflatten] using hlimit)]
    rw [hflatten, List.nil_append]
  unfold streamToTemporary
  simp only [h.opened, h.created, h.fresh, h.synced, hcopied, Bool.not_true, Option.isSome_none,
    Bool.or_self, Bool.false_eq_true, if_false]
  constructor
  · intro hnames
    rw [if_neg (not_or.mpr ⟨not_not.mpr hnames.1, not_not.mpr hnames.2⟩)]
  · intro hnames
    rw [if_pos (not_and_or.mp hnames)]

/-- Where no file operation fails, a publication is that of the abstract store. -/
theorem publishFile_undisturbed {io : PublishIo} {bytes : Bytes}
    (h : Undisturbed files temporary io bytes) :
    (files.publishFile cx maxBytes expected temporary io).2.map
        (fun _ => (files.publishFile cx maxBytes expected temporary io).1.blobs)
      = (LocalBlobStore.publishFile cx { maxBytes, files := files.blobs } expected bytes).map
          (·.files) := by
  unfold publishFile LocalBlobStore.publishFile
  simp only [h.source, h.parents, Bool.not_true, Bool.false_or, Bool.false_eq_true, if_false,
    decide_eq_true_eq, bne_iff_ne]
  split
  · rfl
  split
  · rfl
  rename_i hlimit
  split
  · rfl
  rename_i hlength
  have hstream := streamToTemporary_undisturbed cx maxBytes expected h (Nat.le_of_not_lt hlimit)
  by_cases hdigest : cx.sha256 bytes = expected.sha256
  · rw [hstream.1 ⟨not_not.mp hlength, hdigest⟩, if_neg (not_not.mpr hdigest)]
    simp only [h.linked, h.removed, h.parentSynced, h.existingRead, blobs_setTemporary]
    cases hstored : files.blobs expected.sha256 with
    | none => rfl
    | some existing =>
      simp only [verifyExisting, Bool.not_true, Bool.false_eq_true, if_false, beq_iff_eq]
      split
      · rfl
      · split
        · simp [Except.map]
        · rfl
  · rw [hstream.2 fun hnames => hdigest hnames.2, if_pos hdigest]
    rfl

/-- Where no file operation fails, a deletion is that of the abstract store. -/
theorem deleteVerifiedBlob_undisturbed :
    let io : DeleteIo := ⟨true, true, true, .ok, true, true⟩
    let store : LocalBlobStore := { maxBytes, files := files.blobs }
    (files.deleteVerifiedBlob cx maxBytes reference io).2
        = (store.deleteVerifiedBlob cx reference .ok).2 ∧
      (files.deleteVerifiedBlob cx maxBytes reference io).1.blobs
        = (store.deleteVerifiedBlob cx reference .ok).1.files := by
  unfold deleteVerifiedBlob LocalBlobStore.deleteVerifiedBlob verify
  by_cases hvalid : LocalBlobStore.validateReference reference = true
  · cases hstored : files.blobs reference.sha256 with
    | none => simp [hvalid, hstored]
    | some bytes =>
      cases hverify : ({ maxBytes, files := files.blobs } : LocalBlobStore).verify cx reference with
      | error e => simp [hvalid, hstored, hverify]
      | ok _ => simp [hvalid, hstored, hverify, LocalBlobStore.remove]
  · simp [hvalid]

end

/-- What a store promises in a state: its content is addressed by digest, success means what it
says, and failure harms nothing. -/
structure ContentAddressed (cx : Crypto) (maxBytes : ℕ) (files : BlobFiles) : Prop where
  content : ∀ digest bytes, files.blobs digest = some bytes → cx.sha256 bytes = digest
  /-- A published reference verifies at once, and until its digest is deleted. -/
  published : ∀ expected temporary io,
    (files.publishFile cx maxBytes expected temporary io).2 = .ok () →
      ∀ calls : List BlobCall, (∀ call ∈ calls, call.deletes ≠ some expected.sha256) →
        ((files.publishFile cx maxBytes expected temporary io).1.after cx maxBytes calls).verify cx
          maxBytes expected true = .ok ()
  deleted : ∀ reference io outcome,
    (files.deleteVerifiedBlob cx maxBytes reference io).2 = .ok outcome →
      (files.deleteVerifiedBlob cx maxBytes reference io).1.blobs reference.sha256 = none
  /-- A failed call leaves every other blob, and replaces none: its own is kept or, where the
  deletion failed after the removal, gone. -/
  failed : ∀ (call : BlobCall) e, (call.perform cx maxBytes files).2 = .error e →
    (∀ digest, digest ≠ call.reference.sha256 →
      (call.perform cx maxBytes files).1.blobs digest = files.blobs digest) ∧
    ∀ bytes, files.blobs call.reference.sha256 = some bytes →
      (call.perform cx maxBytes files).1.blobs call.reference.sha256 = some bytes ∨
        call.deletes = some call.reference.sha256 ∧
          (call.perform cx maxBytes files).1.blobs call.reference.sha256 = none

/-- Whatever calls a store has served, and wherever their file operations failed, its content is
addressed by digest. -/
theorem content_addressed (cx : Crypto) (maxBytes : ℕ) (calls : List BlobCall) :
    ContentAddressed cx maxBytes (empty.after cx maxBytes calls) := by
  have hempty : Addressed cx empty := fun _ _ h => by cases h
  have haddressed : Addressed cx (empty.after cx maxBytes calls) :=
    foldl_invariant (I := Addressed cx) (fun _ call _ h => addressed_perform h call) hempty
  constructor
  · exact haddressed
  · intro expected temporary io hok later hdeletes
    have hpublished := (publishFile_spec io).2 hok
    exact verify_of_published (published_after hpublished hdeletes)
  · exact fun reference io => (deleteVerifiedBlob_spec io).2
  · intro call e _
    exact ⟨fun digest hne => blob_perform_of_ne call hne, fun _ => blob_perform cx maxBytes call⟩

end BlobFiles

end RatatoskrVault
