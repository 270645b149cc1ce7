import Mathlib.Logic.Equiv.List
import Mathlib.Tactic.DeriveEncodable
import RatatoskrVault.Core.ManifestChain

/-! What a signed manifest promises: one document for every arrangement of what was observed, which
is read back as it was written, and which its signature fits alone. -/
namespace RatatoskrVault.Manifest

open Lib

variable {KeyPair : Type} {primitives : Primitives KeyPair} {signer : KeyPair}
  {generatorVersion createdAt toolVersion : String} {refs refs' : List RefEvidence}
  {bundles : List BlobRef} {parentManifest : Option BlobRef} {lfs : Option LfsEvidence}
  {objects objects' : List LfsObjectEvidence} {manifest : SnapshotManifest}

/-- What is documented of the JSON codec and of Ed25519. -/
structure Primitives.Sound (primitives : Primitives KeyPair) : Prop where
  encodes : ∀ unsigned, ∃ bytes, primitives.toVec unsigned = some bytes
  injective : ∀ left right bytes, primitives.toVec left = some bytes →
    primitives.toVec right = some bytes → left = right
  parses : ∀ manifest, primitives.parse (primitives.serialize manifest) = some manifest
  accepts : ∀ signer message,
    primitives.verify (primitives.publicKey signer) message (primitives.sign signer message) = true
  acceptsOnly : ∀ signer message other,
    primitives.verify (primitives.publicKey signer) other (primitives.sign signer message) = true →
      other = message

section Canonical

theorem LfsEvidence.new_of_perm (hoids : (objects.map (·.oid)).Nodup) (h : objects.Perm objects') :
    LfsEvidence.new primitives toolVersion objects =
      LfsEvidence.new primitives toolVersion objects' := by
  have hkey : IsKey (·.oid) objects := List.inj_on_of_nodup_map hoids
  have hsorted : sortBy (·.oid) objects = sortBy (·.oid) objects' := sortBy_eq_of_perm hkey h
  unfold LfsEvidence.new
  rw [hsorted]

theorem new_of_perm (hnames : (refs.map (·.name)).Nodup) (h : refs.Perm refs') :
    SnapshotManifest.new primitives generatorVersion refs bundles parentManifest createdAt lfs
        signer =
      SnapshotManifest.new primitives generatorVersion refs' bundles parentManifest createdAt lfs
        signer := by
  have hkey : IsKey (·.name) refs := List.inj_on_of_nodup_map hnames
  have hsorted : sortBy (·.name) refs = sortBy (·.name) refs' := sortBy_eq_of_perm hkey h
  unfold SnapshotManifest.new
  rw [hsorted]

/-- An object of the collector: the pointer's id is the digest of what the Vault stores. -/
def Collected (object : LfsObjectEvidence) : Prop :=
  object.oid = object.blob.sha256 ∧ object.oid.toList.length = 64 ∧
    (∀ c ∈ object.oid.toList, isHex c = true) ∧ object.blob.owner = owner ∧
    object.blob.mediaType = "application/octet-stream"

theorem validLfsObjects_iff : ∀ {previous : Option String} {objects : List LfsObjectEvidence},
    validLfsObjects previous objects = true ↔ (∀ object ∈ objects, Collected object) ∧
      (previous.toList ++ objects.map (·.oid)).IsChain (· < ·)
  | none, [] => by simp [validLfsObjects]
  | some _, [] => by simp [validLfsObjects]
  | previous, object :: rest => by
    have hrest : validLfsObjects (some object.oid) rest = true ↔
        (∀ object ∈ rest, Collected object) ∧
          ((some object.oid).toList ++ rest.map (·.oid)).IsChain (· < ·) := validLfsObjects_iff
    have hchain : (previous.toList ++ (object :: rest).map (·.oid)).IsChain (· < ·) ↔
        (previous.all fun value => decide (value < object.oid)) = true ∧
          ((some object.oid).toList ++ rest.map (·.oid)).IsChain (· < ·) := by
      cases previous with
      | none => simp
      | some value => simp
    have hobject : (object.oid == object.blob.sha256 && object.oid.toList.length == 64 &&
        object.oid.toList.all isHex && object.blob.owner == owner &&
        object.blob.mediaType == "application/octet-stream") = true ↔ Collected object := by
      simp only [Collected, Bool.and_eq_true, beq_iff_eq, List.all_eq_true, and_assoc]
    rw [validLfsObjects, hchain, Bool.and_eq_true, Bool.and_eq_true, hobject, hrest,
      List.forall_mem_cons]
    tauto

/-- The evidence of a collection is valid exactly if each of its objects is, in whatever order
they were observed. -/
theorem validLfs_new (hoids : (objects.map (·.oid)).Nodup) :
    validLfs primitives (LfsEvidence.new primitives toolVersion objects) = true ↔
      toolVersion ≠ "" ∧ ∀ object ∈ objects, Collected object := by
  have hpairwise : (sortBy (·.oid) objects).Pairwise fun a b => a.oid < b.oid :=
    pairwise_lt_sortBy hoids
  have hchain : ((none : Option String).toList ++ (sortBy (·.oid) objects).map (·.oid)).IsChain
      (· < ·) := by
    rw [Option.toList_none, List.nil_append, List.isChain_iff_pairwise]
    exact List.pairwise_map.mpr hpairwise
  have hall : (∀ object ∈ sortBy (·.oid) objects, Collected object) ↔
      ∀ object ∈ objects, Collected object := by simp only [mem_sortBy]
  unfold validLfs LfsEvidence.new
  simp only [beq_self_eq_true, Bool.and_true, Bool.and_eq_true, validLfsObjects_iff, hall, hchain,
    and_true, Bool.not_eq_true', ← Bool.not_eq_true, String.isEmpty_iff, ne_eq]

end Canonical

section Signed

/-- What is built: a canonical document, signed over all but its signature. -/
theorem new_eq_ok (h : SnapshotManifest.new primitives generatorVersion refs bundles parentManifest
      createdAt lfs signer = .ok manifest) :
    ∃ unsigned, primitives.toVec manifest.unsigned = some unsigned ∧
      manifest.signingKeyId = (verificationKey primitives signer).keyId ∧
      manifest.signature = encodeHex (primitives.sign signer unsigned) := by
  unfold SnapshotManifest.new at h
  simp only at h
  split_ifs at h with hlfs
  split at h
  · exact nomatch h
  · rename_i unsigned hunsigned
    have hmanifest := Except.ok.inj h
    subst hmanifest
    refine ⟨unsigned, ?_, rfl, rfl⟩
    unfold SnapshotManifest.unsignedBytes at hunsigned
    split at hunsigned
    · exact nomatch hunsigned
    · rename_i bytes hbytes
      rw [← Except.ok.inj hunsigned]
      exact hbytes

/-- Only the evidence can be refused. -/
theorem exists_new (hsound : primitives.Sound) :
    (∃ manifest, SnapshotManifest.new primitives generatorVersion refs bundles parentManifest
      createdAt lfs signer = .ok manifest) ↔
        ∀ evidence ∈ lfs, validLfs primitives evidence = true := by
  have hvalid : (lfs.any fun evidence => !validLfs primitives evidence) = true ↔
      ¬∀ evidence ∈ lfs, validLfs primitives evidence = true := by
    cases lfs <;> simp
  unfold SnapshotManifest.new
  simp only [hvalid]
  constructor
  · rintro ⟨manifest, h⟩
    by_contra hinvalid
    rw [if_pos hinvalid] at h
    exact nomatch h
  · intro h
    rw [if_neg (not_not_intro h)]
    unfold SnapshotManifest.unsignedBytes
    obtain ⟨bytes, hbytes⟩ := hsound.encodes (SnapshotManifest.unsigned
      { schemaVersion := 1
        refs := sortBy (·.name) refs
        generatorVersion
        createdAt
        parentManifest
        bundles
        lfs
        refSetSha256 := canonicalRefDigest primitives (sortBy (·.name) refs)
        signingKeyId := (verificationKey primitives signer).keyId
        signature := "" })
    rw [hbytes]
    exact ⟨_, rfl⟩

/-- The unsigned view repeats every other field. -/
theorem eq_of_unsigned {other : SnapshotManifest} (h : other.unsigned = manifest.unsigned)
    (hsignature : other.signature = manifest.signature) : other = manifest := by
  cases other
  cases manifest
  simp only [SnapshotManifest.unsigned, UnsignedManifest.mk.injEq] at h hsignature
  simp only [SnapshotManifest.mk.injEq]
  tauto

theorem trusted_of_new (hsound : primitives.Sound)
    (h : SnapshotManifest.new primitives generatorVersion refs bundles parentManifest createdAt lfs
      signer = .ok manifest) :
    Trusted primitives [verificationKey primitives signer] manifest := by
  obtain ⟨unsigned, hunsigned, hkeyId, hsignature⟩ := new_eq_ok h
  refine ⟨verificationKey primitives signer, primitives.sign signer unsigned, unsigned, ?_, ?_,
    hunsigned, hsound.accepts signer unsigned⟩
  · rw [List.find?_singleton, hkeyId, beq_self_eq_true, if_pos rfl]
  · rw [hsignature, decodeHex_encodeHex]

/-- A signature that is kept is valid for the manifest it was made for, and for no other. -/
theorem eq_of_trusted (hsound : primitives.Sound)
    (h : SnapshotManifest.new primitives generatorVersion refs bundles parentManifest createdAt lfs
      signer = .ok manifest) {other : SnapshotManifest}
    (hsignature : other.signature = manifest.signature)
    (htrusted : Trusted primitives [verificationKey primitives signer] other) :
    other = manifest := by
  obtain ⟨unsigned, hunsigned, hkeyId, hsigned⟩ := new_eq_ok h
  obtain ⟨key, signature, otherUnsigned, hkey, hdecoded, hother, hverify⟩ := htrusted
  have hsigner : key = verificationKey primitives signer :=
    List.mem_singleton.mp (List.mem_of_find?_eq_some hkey)
  have hsame : signature = primitives.sign signer unsigned := by
    rw [hsignature, hsigned, decodeHex_encodeHex] at hdecoded
    exact (Option.some.inj hdecoded).symm
  rw [hsigner, hsame] at hverify
  have hbytes : otherUnsigned = unsigned := hsound.acceptsOnly signer unsigned otherUnsigned hverify
  rw [hbytes] at hother
  exact eq_of_unsigned (hsound.injective _ _ unsigned hother hunsigned) hsignature

end Signed

/-- The manifest does not depend on the order of the refs and of the objects; it is built whenever
every object is the collector's; it is read back with a signature that is valid under the signer's
key, and that signature is valid for no other manifest. -/
theorem signed_manifests_are_canonical (primitives : Primitives KeyPair)
    (hsound : primitives.Sound) (signer : KeyPair)
    (generatorVersion toolVersion createdAt : String) (bundles : List BlobRef)
    (parentManifest : Option BlobRef) (refs refs' : List RefEvidence)
    (hnames : (refs.map (·.name)).Nodup) (hrefs : refs.Perm refs')
    (lfs lfs' : Option (List LfsObjectEvidence))
    (hoids : ∀ objects ∈ lfs, (objects.map (·.oid)).Nodup) (hlfs : Option.Rel List.Perm lfs lfs') :
    let build refs lfs := SnapshotManifest.new primitives generatorVersion refs bundles
      parentManifest createdAt (Option.map (LfsEvidence.new primitives toolVersion) lfs) signer
    let keys := [verificationKey primitives signer]
    build refs lfs = build refs' lfs' ∧
      ((∃ manifest, build refs lfs = .ok manifest) ↔
        ∀ objects ∈ lfs, toolVersion ≠ "" ∧ ∀ object ∈ objects, Collected object) ∧
      ∀ manifest, build refs lfs = .ok manifest →
        (∃ parsed, primitives.parse (primitives.serialize manifest) = some parsed ∧
          parsed = manifest ∧ parsed.verifySignature primitives keys = .ok ()) ∧
        ∀ other : SnapshotManifest, other ≠ manifest → other.signature = manifest.signature →
          ∃ e, other.verifySignature primitives keys = .error e := by
  intro build keys
  refine ⟨?_, ?_, fun manifest h => ⟨⟨manifest, hsound.parses manifest, rfl, ?_⟩, ?_⟩⟩
  · have hevidence : Option.map (LfsEvidence.new primitives toolVersion) lfs =
        Option.map (LfsEvidence.new primitives toolVersion) lfs' := by
      cases hlfs with
      | none => rfl
      | some hobjects => exact congrArg some (LfsEvidence.new_of_perm (hoids _ rfl) hobjects)
    show SnapshotManifest.new _ _ _ _ _ _ _ _ = SnapshotManifest.new _ _ _ _ _ _ _ _
    rw [hevidence]
    exact new_of_perm hnames hrefs
  · refine (exists_new hsound).trans ?_
    cases lfs with
    | none => simp
    | some objects =>
      have hvalid : validLfs primitives (LfsEvidence.new primitives toolVersion objects) = true ↔
          toolVersion ≠ "" ∧ ∀ object ∈ objects, Collected object := validLfs_new (hoids objects rfl)
      simpa using hvalid
  · exact verifySignature_eq_ok.mpr (trusted_of_new hsound h)
  · intro other hne hsignature
    cases hverify : other.verifySignature primitives keys with
    | error e => exact ⟨e, rfl⟩
    | ok u =>
      have htrusted := verifySignature_eq_ok.mp hverify
      exact absurd (eq_of_trusted hsound h hsignature htrusted) hne

namespace Sample

section Document

def quoted (text : String) : List Char := '"' :: text.toList ++ ['"']

def number (n : ℕ) : List Char := (toString n).toList

def field (name : String) (value : List Char) : List Char := quoted name ++ ':' :: value

def record (fields : List (List Char)) : List Char := '{' :: [','].intercalate fields ++ ['}']

def array (elements : List (List Char)) : List Char := '[' :: [','].intercalate elements ++ [']']

def refJson (reference : RefEvidence) : List Char :=
  record [field "name" (quoted reference.name), field "oid" (quoted reference.oid)]

def blobJson (reference : BlobRef) : List Char :=
  record [field "owner" (quoted reference.owner), field "sha256" (quoted reference.sha256),
    field "media_type" (quoted reference.mediaType),
    field "size_bytes" (number reference.sizeBytes)]

def lfsJson (evidence : LfsEvidence) : List Char :=
  record [field "tool_version" (quoted evidence.toolVersion),
    field "objects" (array (evidence.objects.map fun object =>
      record [field "oid" (quoted object.oid), field "blob" (blobJson object.blob)])),
    field "total_bytes" (number evidence.totalBytes),
    field "aggregate_sha256" (quoted evidence.aggregateSha256)]

def null : List Char := ['n', 'u', 'l', 'l']

def unsignedFields (unsigned : UnsignedManifest) : List (List Char) :=
  [field "schema_version" (number unsigned.schemaVersion),
    field "refs" (array (unsigned.refs.map refJson)),
    field "generator_version" (quoted unsigned.generatorVersion),
    field "created_at" (quoted unsigned.createdAt),
    field "parent_manifest" (unsigned.parentManifest.elim null blobJson),
    field "bundles" (array (unsigned.bundles.map blobJson)),
    field "lfs" (unsigned.lfs.elim null lfsJson),
    field "ref_set_sha256" (quoted unsigned.refSetSha256),
    field "signing_key_id" (quoted unsigned.signingKeyId)]

def branch (name : String) (digit : Char) : RefEvidence :=
  { name, oid := String.ofList (List.replicate 40 digit) }

def blob (mediaType : String) (digit : Char) (sizeBytes : ℕ) : BlobRef :=
  { owner := owner
    sha256 := String.ofList (List.replicate 64 digit)
    mediaType
    sizeBytes }

def object (digit : Char) (sizeBytes : ℕ) : LfsObjectEvidence :=
  { oid := String.ofList (List.replicate 64 digit)
    blob := blob "application/octet-stream" digit sizeBytes }

/-- What is signed: two refs, one bundle and two large files. -/
def unsigned : UnsignedManifest :=
  { schemaVersion := 1
    refs := [branch "refs/heads/main" '1', branch "refs/tags/v1" '2']
    generatorVersion := "0.1.0"
    createdAt := "2026-08-26T00:00:00Z"
    parentManifest := none
    bundles := [blob "application/x-git-bundle" '3' 42]
    lfs := some
      { toolVersion := "git-lfs/3.7.0"
        objects := [object '4' 5, object '5' 7]
        totalBytes := 12
        aggregateSha256 := "5cb49539801b1a55be5066e82e57e41efceb2fc4520a5bf8fd91e4808c11621f" }
    refSetSha256 := "7337c74fb44e8f44b50afa81008a24d2def1da131dfb11fe943107d3a22955f0"
    signingKeyId := "fe812c12f3ab4ce6ac5db69ac352f906cb1b11ef43fb33e252ef7ff552263889" }

def signature : String :=
  "7406092f092ee4d2689a9ca5ad807482767157be8275bd8778ca86a6a802b992" ++
    "4e07861cedbc9d04a2ddf1b0f5e79c82cffd9f3a45eb5146d5d0e161ae8c140c"

def signed : SnapshotManifest :=
  { schemaVersion := unsigned.schemaVersion
    refs := unsigned.refs
    generatorVersion := unsigned.generatorVersion
    createdAt := unsigned.createdAt
    parentManifest := unsigned.parentManifest
    bundles := unsigned.bundles
    lfs := unsigned.lfs
    refSetSha256 := unsigned.refSetSha256
    signingKeyId := unsigned.signingKeyId
    signature }

end Document

section Encodings

instance encodableChar : Encodable Char := Encodable.ofLeftInverse Char.toNat Char.ofNat Char.ofNat_toNat

instance encodableString : Encodable String :=
  Encodable.ofLeftInverse String.toList String.ofList fun _ => String.ofList_toList

deriving instance Encodable for RefEvidence
deriving instance Encodable for BlobRef
deriving instance Encodable for LfsObjectEvidence
deriving instance Encodable for LfsEvidence
deriving instance Encodable for UnsignedManifest
deriving instance Encodable for SnapshotManifest

/-- The sample has its own bytes, anything else those of its code. -/
def written {α : Type} [DecidableEq α] (sample : α) (bytes : Bytes) (code : α → Bytes) (a : α) :
    Bytes :=
  if a = sample then bytes else 0 :: code a

theorem written_injective {α : Type} [DecidableEq α] {sample : α} {bytes : Bytes}
    {code : α → Bytes} (hbytes : bytes.head? ≠ some 0) (hcode : code.Injective) :
    (written sample bytes code).Injective := by
  have hother : ∀ a, 0 :: code a ≠ bytes := by
    rintro a rfl
    exact hbytes rfl
  intro a b hab
  unfold written at hab
  split_ifs at hab with ha hb hb
  · exact ha.trans hb.symm
  · exact absurd hab.symm (hother b)
  · exact absurd hab (hother a)
  · exact hcode (List.cons.inj hab).2

/-- As many zeros as the number says. -/
def zeros {α : Type} [Encodable α] (a : α) : Bytes := List.replicate (Encodable.encode a) 0

theorem zeros_injective {α : Type} [Encodable α] : (zeros : α → Bytes).Injective := by
  intro a b hab
  have hlength := congrArg List.length hab
  unfold zeros at hlength
  rw [List.length_replicate, List.length_replicate] at hlength
  exact Encodable.encode_injective hlength

end Encodings

section Primitives

def unsignedJson : Bytes := (record (unsignedFields unsigned)).flatMap String.utf8EncodeChar

def signedJson : Bytes :=
  (record (unsignedFields unsigned ++ [field "signature" (quoted signature)])).flatMap
    String.utf8EncodeChar

def publicKey : Bytes :=
  (decodeHex "ea4a6c63e29c520abef5507b132ec5f9954776aebebe7b92421eea691446d22c").getD []

def sign (message : Bytes) : Bytes :=
  written unsignedJson ((decodeHex signature).getD []) id message

/-- The key pair of the seed of 32 sevens. -/
def vault : Primitives Unit :=
  { sha256 := fun bytes =>
      if bytes = publicKey then
        0xfe812c12f3ab4ce6ac5db69ac352f906cb1b11ef43fb33e252ef7ff552263889#256
      else if bytes = asBytes ("1111111111111111111111111111111111111111\trefs/heads/main\n" ++
          "2222222222222222222222222222222222222222\trefs/tags/v1\n") then
        0x7337c74fb44e8f44b50afa81008a24d2def1da131dfb11fe943107d3a22955f0#256
      else if bytes = asBytes ((object '4' 5).oid ++ " 5 " ++ (object '4' 5).oid ++ "\n" ++
          (object '5' 7).oid ++ " 7 " ++ (object '5' 7).oid ++ "\n") then
        0x5cb49539801b1a55be5066e82e57e41efceb2fc4520a5bf8fd91e4808c11621f#256
      else 0
    toVec := fun manifest => some (written unsigned unsignedJson zeros manifest)
    serialize := written signed signedJson zeros
    parse := fun bytes =>
      if bytes = signedJson then some signed else Encodable.decode (bytes.length - 1)
    publicKey := fun _ => publicKey
    sign := fun _ => sign
    verify := fun key message signature => key == publicKey && signature == sign message }

theorem sign_injective : sign.Injective :=
  written_injective (by decide +kernel) Function.injective_id

theorem vault_sound : vault.Sound := by
  have hunsigned : unsignedJson.head? ≠ some 0 := by decide +kernel
  have hsigned : signedJson.head? ≠ some 0 := by decide +kernel
  constructor
  · intro manifest
    exact ⟨_, rfl⟩
  · intro left right bytes hleft hright
    have hsame : written unsigned unsignedJson zeros left = written unsigned unsignedJson zeros right :=
      (Option.some.inj hleft).trans (Option.some.inj hright).symm
    exact written_injective hunsigned zeros_injective hsame
  · intro manifest
    show (if written signed signedJson zeros manifest = signedJson then some signed
      else Encodable.decode ((written signed signedJson zeros manifest).length - 1)) = _
    unfold written
    by_cases hmanifest : manifest = signed
    · rw [if_pos hmanifest, if_pos rfl, hmanifest]
    · have hother : 0 :: zeros manifest ≠ signedJson := by
        intro h
        rw [← h] at hsigned
        exact hsigned rfl
      rw [if_neg hmanifest, if_neg hother, List.length_cons, Nat.add_sub_cancel, zeros,
        List.length_replicate, Encodable.encodek]
  · intro signer message
    show (publicKey == publicKey && sign message == sign message) = true
    rw [beq_self_eq_true, beq_self_eq_true]
    rfl
  · intro signer message other h
    have hsign : (publicKey == publicKey && sign message == sign other) = true := h
    rw [beq_self_eq_true, Bool.true_and, beq_iff_eq] at hsign
    exact (sign_injective hsign).symm

theorem collected_object {digit : Char} (h : isHex digit = true) (sizeBytes : ℕ) :
    Collected (object digit sizeBytes) := by
  unfold Collected object blob
  rw [String.toList_ofList, List.length_replicate]
  exact ⟨rfl, rfl, fun c hc => (List.eq_of_mem_replicate hc).symm ▸ h, rfl, rfl⟩

end Primitives

end Sample

/-- Two refs and two large files, in both orders, and a manifest that someone has changed. -/
theorem signed_manifests_are_canonical_sample :
    let build refs objects := SnapshotManifest.new Sample.vault "0.1.0" refs
      [Sample.blob "application/x-git-bundle" '3' 42] none "2026-08-26T00:00:00Z"
      (some (LfsEvidence.new Sample.vault "git-lfs/3.7.0" objects)) ()
    let main := Sample.branch "refs/heads/main" '1'
    let tag := Sample.branch "refs/tags/v1" '2'
    let first := Sample.object '4' 5
    let second := Sample.object '5' 7
    build [tag, main] [second, first] = build [main, tag] [first, second] ∧
      ∃ manifest, build [tag, main] [second, first] = .ok manifest ∧
        ∀ other : SnapshotManifest, other ≠ manifest → other.signature = manifest.signature →
          ∃ e, other.verifySignature Sample.vault [verificationKey Sample.vault ()] = .error e := by
  intro build main tag first second
  obtain ⟨hsame, hbuilds, hsigned⟩ := signed_manifests_are_canonical Sample.vault
    Sample.vault_sound () "0.1.0" "git-lfs/3.7.0" "2026-08-26T00:00:00Z"
    [Sample.blob "application/x-git-bundle" '3' 42] none [tag, main] [main, tag]
    (by decide +kernel) (List.Perm.swap main tag []) (some [second, first]) (some [first, second])
    (by rintro _ ⟨⟩; decide +kernel) (.some (List.Perm.swap first second []))
  have hcollected : ∀ object ∈ [second, first], Collected object := by
    simpa [first, second] using ⟨Sample.collected_object (by decide) 7,
      Sample.collected_object (by decide) 5⟩
  obtain ⟨manifest, hmanifest⟩ := hbuilds.mpr (by rintro _ ⟨⟩; exact ⟨by decide, hcollected⟩)
  exact ⟨hsame, manifest, hmanifest, (hsigned manifest hmanifest).2⟩

end RatatoskrVault.Manifest
