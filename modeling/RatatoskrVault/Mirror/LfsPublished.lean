import RatatoskrVault.Mirror.LfsCollection

/-! What a listing of Git LFS objects is read as, and when every listed object is published. -/
namespace RatatoskrVault

open Lib Manifest

/-- The object ids of a listing, line by line. -/
def listedOids (text : String) : List String :=
  ((strLines text).filter fun line => !line.isEmpty).filterMap firstWord

section

variable {maxObjects : ℕ} {unique oids : List String} {lines : List String} {listing : Bytes}

theorem parseLines_eq_ok (hnodup : unique.Nodup) (hcount : unique.length ≤ maxObjects) :
    parseLines maxObjects unique lines = .ok oids ↔
      (∀ line ∈ lines, ∃ oid, firstWord line = some oid ∧ isOid oid = true) ∧
        (unique ++ lines.filterMap firstWord).Nodup ∧
        (unique ++ lines.filterMap firstWord).length ≤ maxObjects ∧
        oids = unique ++ lines.filterMap firstWord := by
  induction lines generalizing unique with
  | nil =>
    rw [parseLines, Except.ok.injEq, List.filterMap_nil, List.append_nil]
    exact ⟨fun h => ⟨by simp, hnodup, hcount, h.symm⟩, fun h => h.2.2.2.symm⟩
  | cons line rest ih =>
    rw [parseLines, List.forall_mem_cons]
    cases hword : firstWord line with
    | none => simp
    | some oid =>
      rw [List.filterMap_cons_some hword, List.append_cons]
      dsimp only
      by_cases hrefused : (!isOid oid || unique.contains oid ||
          decide (maxObjects < unique.length + 1)) = true
      · rw [if_pos hrefused]
        refine ⟨fun h => (nomatch h), fun ⟨⟨⟨oid', hoid', hvalid⟩, _⟩, hdistinct, hlength, _⟩ => ?_⟩
        obtain rfl := Option.some.inj hoid'
        have hnew : oid ∉ unique := by
          have hpart := (List.nodup_append.mp hdistinct).1
          exact fun hmem => (List.nodup_append.mp hpart).2.2 oid hmem oid (by simp) rfl
        have hfits : unique.length + 1 ≤ maxObjects := by
          rw [List.length_append, List.length_append, List.length_singleton] at hlength
          omega
        simp [hvalid, hnew, Nat.not_lt.mpr hfits] at hrefused
      · rw [if_neg hrefused]
        simp only [Bool.or_eq_true, Bool.not_eq_true', decide_eq_true_eq, not_or,
          Bool.not_eq_false, List.contains_eq_mem, Nat.not_lt] at hrefused
        obtain ⟨⟨hvalid, hnew⟩, hfits⟩ := hrefused
        have hnodup' : (unique ++ [oid]).Nodup := by
          rw [List.nodup_append]
          exact ⟨hnodup, List.nodup_singleton _, fun a ha b hb heq =>
            hnew (List.mem_singleton.mp hb ▸ heq ▸ ha)⟩
        rw [ih hnodup' (by simpa using hfits)]
        have hline : ∃ oid', some oid = some oid' ∧ isOid oid' = true := ⟨oid, rfl, hvalid⟩
        simp only [hline, true_and]

/-- A listing is accepted when each line names an object, no object comes twice, and there are not
too many; then the ids come in ascending order. -/
theorem parseOids_eq_ok : parseOids listing maxObjects = .ok oids ↔
    ∃ text, fromUtf8 listing = some text ∧
      (∀ line ∈ strLines text, line.isEmpty = false →
        ∃ oid, firstWord line = some oid ∧ isOid oid = true) ∧
      (listedOids text).Nodup ∧ (listedOids text).length ≤ maxObjects ∧
      oids = sortBy id (listedOids text) := by
  unfold parseOids
  cases hutf : fromUtf8 listing with
  | none => simp
  | some text =>
    have hlines : ∀ out, parseLines maxObjects []
        ((strLines text).filter fun line => !line.isEmpty) = .ok out ↔
          (∀ line ∈ strLines text, line.isEmpty = false →
            ∃ oid, firstWord line = some oid ∧ isOid oid = true) ∧
          (listedOids text).Nodup ∧ (listedOids text).length ≤ maxObjects ∧
          out = listedOids text := by
      intro out
      rw [parseLines_eq_ok List.nodup_nil (Nat.zero_le _)]
      simp only [List.nil_append, List.mem_filter, Bool.not_eq_true', and_imp]
      rfl
    simp only [Option.some.injEq, exists_eq_left']
    constructor
    · intro h
      cases hparsed : parseLines maxObjects []
          ((strLines text).filter fun line => !line.isEmpty) with
      | error e =>
        rw [hparsed] at h
        cases h
      | ok out =>
        rw [hparsed] at h
        obtain ⟨hwords, hnodup, hcount, rfl⟩ := (hlines out).mp hparsed
        exact ⟨hwords, hnodup, hcount, (Except.ok.inj h).symm⟩
    · rintro ⟨hwords, hnodup, hcount, rfl⟩
      rw [(hlines _).mpr ⟨hwords, hnodup, hcount, rfl⟩]

end

/-- Stored bytes that hash to an object id. -/
def Stored (sha256 : Bytes → Digest) (blobs : Digest → Option Bytes) (oid : String) : Prop :=
  ∃ digest bytes, hexDigest digest = oid ∧ blobs digest = some bytes ∧ sha256 bytes = digest

/-- A staged object is present and correct, and the store has nothing else under its id. -/
def Present (sha256 : Bytes → Digest) (limit maxBytes : ℕ) (disk : Disk)
    (storage : List FileName) (oid : String) : Prop :=
  ∃ bytes, objectFile limit disk.tree storage oid = .ok bytes ∧ bytes.length ≤ maxBytes ∧
    hexDigest (sha256 bytes) = oid ∧
    ∀ stored, disk.blobs (sha256 bytes) = some stored →
      stored.length = bytes.length ∧ sha256 stored = sha256 bytes

/-- The file tree stays, and no blob is lost. -/
structure Disk.Grows (disk after : Disk) : Prop where
  tree : after.tree = disk.tree
  blobs : ∀ digest bytes, disk.blobs digest = some bytes → after.blobs digest = some bytes

theorem Disk.Grows.trans {a b c : Disk} (hab : a.Grows b) (hbc : b.Grows c) : a.Grows c :=
  ⟨hbc.tree.trans hab.tree, fun digest bytes h => hbc.blobs digest bytes (hab.blobs digest bytes h)⟩

theorem Stored.mono {sha256 : Bytes → Digest} {disk after : Disk} {oid : String}
    (h : Stored sha256 disk.blobs oid) (hgrows : disk.Grows after) :
    Stored sha256 after.blobs oid := by
  obtain ⟨digest, bytes, hdigest, hblob, hsha⟩ := h
  exact ⟨digest, bytes, hdigest, hgrows.blobs digest bytes hblob, hsha⟩

namespace LfsCollector

section

variable {KeyPair : Type} {primitives : Primitives KeyPair} {limit : ℕ} {collector : LfsCollector}
  {storage : List FileName} {oid : String} {oids : List String} {disk after : Disk}
  {object : Manifest.LfsObjectEvidence} {objects : List Manifest.LfsObjectEvidence}

/-- The reference that a staged file is published under. -/
def objectReference (sha256 : Bytes → Digest) (bytes : Bytes) : BlobRef :=
  { owner
    sha256 := sha256 bytes
    mediaType := "application/octet-stream"
    sizeBytes := bytes.length }

/-- What a publication makes of the store. -/
theorem publishFile_eq_ok (sha256 : Bytes → Digest) (maxBytes : ℕ)
    (files : Digest → Option Bytes) (bytes : Bytes) (store : LocalBlobStore) :
    LocalBlobStore.publishFile (hashing sha256) { maxBytes, files } (objectReference sha256 bytes)
        bytes = .ok store ↔
      bytes.length ≤ maxBytes ∧
        (∀ stored, files (sha256 bytes) = some stored →
          stored.length = bytes.length ∧ sha256 stored = sha256 bytes) ∧
        store =
          { maxBytes
            files := if (files (sha256 bytes)).isSome then files
              else Function.update files (sha256 bytes) (some bytes) } := by
  have hvalid : (!LocalBlobStore.validateReference (objectReference sha256 bytes)) = false := by
    show (!(owner == owner && !"application/octet-stream".isEmpty)) = false
    decide
  unfold LocalBlobStore.publishFile
  rw [hvalid, if_neg Bool.false_ne_true]
  simp only [objectReference, hashing, bne_self_eq_false, Bool.false_eq_true, if_false]
  by_cases hlarge : maxBytes < bytes.length
  · rw [if_pos hlarge]
    exact ⟨fun h => (nomatch h), fun h => absurd h.1 (Nat.not_le.mpr hlarge)⟩
  · rw [if_neg hlarge]
    have hfits := Nat.not_lt.mp hlarge
    cases hfile : files (sha256 bytes) with
    | none =>
      rw [Option.isSome_none, if_neg Bool.false_ne_true, Except.ok.injEq]
      exact ⟨fun h => ⟨hfits, fun _ hstored => (nomatch hstored), h.symm⟩, fun h => h.2.2.symm⟩
    | some stored =>
      rw [Option.isSome_some, if_pos rfl]
      simp only [bne_iff_ne, ne_eq, beq_iff_eq, Option.some.injEq, forall_eq']
      by_cases hlength : stored.length = bytes.length
      · rw [if_neg (not_not.mpr hlength)]
        by_cases hsha : sha256 stored = sha256 bytes
        · rw [if_pos hsha, Except.ok.injEq]
          exact ⟨fun h => ⟨hfits, ⟨hlength, hsha⟩, h.symm⟩, fun h => h.2.2.symm⟩
        · rw [if_neg hsha]
          exact ⟨fun h => (nomatch h), fun h => absurd h.2.1.2 hsha⟩
      · rw [if_pos hlength]
        exact ⟨fun h => (nomatch h), fun h => absurd h.2.1.1 hlength⟩

theorem referenceForFile_eq (sha256 : Bytes → Digest) (maxBytes : ℕ)
    (files : Digest → Option Bytes) (bytes : Bytes) :
    LocalBlobStore.referenceForFile (hashing sha256) { maxBytes, files } bytes
        "application/octet-stream" =
      if maxBytes < bytes.length then .error .invalidInput
      else .ok (objectReference sha256 bytes) := by
  unfold LocalBlobStore.referenceForFile
  have hmedia : "application/octet-stream".isEmpty = false := by decide
  simp only [hmedia, Bool.or_false, decide_eq_true_eq]
  rfl

/-- What a publication makes of a disk on which the object is present. -/
def published (sha256 : Bytes → Digest) (disk : Disk) (bytes : Bytes) : Disk :=
  { disk with
    blobs := if (disk.blobs (sha256 bytes)).isSome then disk.blobs
      else Function.update disk.blobs (sha256 bytes) (some bytes) }

/-- One object is published exactly if it is present and correct. -/
theorem publishObject_eq_ok :
    collector.publishObject primitives limit storage oid disk = (.ok object, after) ↔
      ∃ bytes, objectFile limit disk.tree storage oid = .ok bytes ∧
        bytes.length ≤ collector.storeMaxBytes ∧ hexDigest (primitives.sha256 bytes) = oid ∧
        (∀ stored, disk.blobs (primitives.sha256 bytes) = some stored →
          stored.length = bytes.length ∧ primitives.sha256 stored = primitives.sha256 bytes) ∧
        object =
          { oid
            blob :=
              { owner
                sha256 := hexDigest (primitives.sha256 bytes)
                mediaType := "application/octet-stream"
                sizeBytes := bytes.length } } ∧
        after = published primitives.sha256 disk bytes := by
  unfold publishObject
  cases hfile : objectFile limit disk.tree storage oid with
  | error e => simp
  | ok bytes =>
    simp only [Except.ok.injEq, exists_eq_left', referenceForFile_eq]
    by_cases hlarge : collector.storeMaxBytes < bytes.length
    · rw [if_pos hlarge]
      exact ⟨fun h => by simp at h, fun h => absurd h.1 (Nat.not_le.mpr hlarge)⟩
    · rw [if_neg hlarge]
      dsimp only
      by_cases hoid : hexDigest (primitives.sha256 bytes) = oid
      · have hpublish := publishFile_eq_ok primitives.sha256 collector.storeMaxBytes disk.blobs bytes
        have hsame : ¬ (hexDigest (objectReference primitives.sha256 bytes).sha256 ≠ oid) :=
          not_not_intro hoid
        rw [if_neg hsame]
        cases hstore : LocalBlobStore.publishFile (hashing primitives.sha256)
            { maxBytes := collector.storeMaxBytes, files := disk.blobs }
            (objectReference primitives.sha256 bytes) bytes with
        | error e =>
          rw [hstore] at hpublish
          refine ⟨fun h => by simp at h, fun ⟨hlength, _, hstored, _⟩ => ?_⟩
          exact nomatch (hpublish _).mpr ⟨hlength, hstored, rfl⟩
        | ok store' =>
          obtain ⟨hlength, hstored, rfl⟩ := (hpublish store').mp hstore
          simp only [Prod.mk.injEq, Except.ok.injEq]
          constructor
          · rintro ⟨rfl, rfl⟩
            exact ⟨hlength, hoid, hstored, rfl, rfl⟩
          · rintro ⟨-, -, -, rfl, rfl⟩
            exact ⟨rfl, rfl⟩
      · rw [if_pos (show hexDigest (objectReference primitives.sha256 bytes).sha256 ≠ oid from hoid)]
        exact ⟨fun h => by simp at h, fun h => absurd h.2.1 hoid⟩

theorem grows_published {sha256 : Bytes → Digest} {bytes : Bytes} :
    disk.Grows (published sha256 disk bytes) := by
  refine ⟨rfl, fun digest stored hstored => ?_⟩
  unfold published
  by_cases hexists : (disk.blobs (sha256 bytes)).isSome = true
  · rwa [if_pos hexists]
  · rw [if_neg hexists]
    have hne : digest ≠ sha256 bytes := by
      rintro rfl
      exact hexists (by rw [hstored]; rfl)
    exact (Function.update_of_ne hne ..).trans hstored

theorem stored_published {sha256 : Bytes → Digest} {bytes : Bytes}
    (hstored : ∀ stored, disk.blobs (sha256 bytes) = some stored →
      stored.length = bytes.length ∧ sha256 stored = sha256 bytes) :
    ∃ stored, (published sha256 disk bytes).blobs (sha256 bytes) = some stored ∧
      stored.length = bytes.length ∧ sha256 stored = sha256 bytes := by
  unfold published
  cases hblob : disk.blobs (sha256 bytes) with
  | none => exact ⟨bytes, by simp, rfl, rfl⟩
  | some stored => exact ⟨stored, by simpa using hblob, hstored stored hblob⟩

/-- What one publication leaves present for another. -/
theorem present_published {sha256 : Bytes → Digest} {maxBytes : ℕ} {oid other : String} {bytes : Bytes}
    (h : Present sha256 limit maxBytes disk storage other)
    (hstored : ∀ stored, disk.blobs (sha256 bytes) = some stored →
      stored.length = bytes.length ∧ sha256 stored = sha256 bytes)
    (hbytes : objectFile limit disk.tree storage oid = .ok bytes)
    (hoid : hexDigest (sha256 bytes) = oid) :
    Present sha256 limit maxBytes (published sha256 disk bytes) storage other := by
  obtain ⟨found, hfile, hlength, hother, hclean⟩ := h
  refine ⟨found, hfile, hlength, hother, fun stored hafter => ?_⟩
  by_cases hsame : sha256 found = sha256 bytes
  · -- one digest names one id, so both are the same staged file
    obtain rfl : found = bytes := by
      rw [← hother, hsame, hoid, hbytes] at hfile
      exact (Except.ok.inj hfile).symm
    obtain ⟨kept, hkept, hkeptLength, hkeptSha⟩ := stored_published hstored
    obtain rfl : stored = kept := Option.some.inj (hafter.symm.trans hkept)
    exact ⟨hkeptLength, hkeptSha⟩
  · refine hclean stored ?_
    unfold published at hafter
    dsimp only at hafter
    split_ifs at hafter with hexists
    · exact hafter
    · rwa [Function.update_of_ne hsame] at hafter

/-- Every object is published when all are present and correct. -/
theorem publishObjects_isOk
    (h : ∀ oid ∈ oids, Present primitives.sha256 limit collector.storeMaxBytes disk storage oid) :
    ∃ objects after, collector.publishObjects primitives limit storage oids disk
      = (.ok objects, after) := by
  induction oids generalizing disk with
  | nil => exact ⟨[], disk, rfl⟩
  | cons oid rest ih =>
    obtain ⟨bytes, hfile, hlength, hoid, hclean⟩ := h oid List.mem_cons_self
    obtain ⟨object, hobject⟩ : ∃ object,
        collector.publishObject primitives limit storage oid disk
          = (.ok object, published primitives.sha256 disk bytes) :=
      ⟨_, publishObject_eq_ok.mpr ⟨bytes, hfile, hlength, hoid, hclean, rfl, rfl⟩⟩
    obtain ⟨objects, after, hrest⟩ : ∃ objects after,
        collector.publishObjects primitives limit storage rest
          (published primitives.sha256 disk bytes) = (.ok objects, after) :=
      ih fun other hother =>
        present_published (h other (List.mem_cons_of_mem _ hother)) hclean hfile hoid
    refine ⟨object :: objects, after, ?_⟩
    rw [publishObjects, hobject]
    dsimp only
    rw [hrest]

/-- Each object that is published is stored under its id. -/
theorem publishObjects_eq_ok
    (h : collector.publishObjects primitives limit storage oids disk = (.ok objects, after)) :
    objects.map (·.oid) = oids ∧ disk.Grows after ∧
      ∀ object ∈ objects,
        object.blob.sha256 = object.oid ∧ Stored primitives.sha256 after.blobs object.oid := by
  induction oids generalizing disk objects with
  | nil =>
    obtain ⟨rfl, rfl⟩ : [] = objects ∧ disk = after := by simpa [publishObjects] using h
    exact ⟨rfl, ⟨rfl, fun _ _ hblob => hblob⟩, by simp⟩
  | cons oid rest ih =>
    rw [publishObjects] at h
    cases hobject : collector.publishObject primitives limit storage oid disk with
    | mk result between =>
      rw [hobject] at h
      cases result with
      | error e => simp at h
      | ok object =>
        obtain ⟨bytes, -, -, hoid, hclean, rfl, rfl⟩ := publishObject_eq_ok.mp hobject
        dsimp only at h
        cases hrest : collector.publishObjects primitives limit storage rest
            (published primitives.sha256 disk bytes) with
        | mk result' last =>
          rw [hrest] at h
          cases result' with
          | error e => simp at h
          | ok others =>
            obtain ⟨hresult, rfl⟩ := Prod.mk.inj h
            obtain rfl := Except.ok.inj hresult
            obtain ⟨hmap, hgrows, hothers⟩ := ih hrest
            obtain ⟨stored, hblob, -, hsha⟩ := stored_published hclean
            have hhead : Stored primitives.sha256
                (published primitives.sha256 disk bytes).blobs oid :=
              ⟨_, stored, hoid, hblob, hsha⟩
            refine ⟨congrArg (oid :: ·) hmap, grows_published.trans hgrows, ?_⟩
            exact List.forall_mem_cons.mpr ⟨⟨hoid, hhead.mono hgrows⟩, hothers⟩

end

end LfsCollector

end RatatoskrVault
