import Mathlib.Algebra.GroupWithZero.Nat
import RatatoskrVault.Core.Delivery

/-! Immutable snapshot manifests: references, signed evidence, and the walk along parent
manifests. Hashing, serialization and signatures are the parameters of `Crypto`. -/
namespace RatatoskrVault

/-- A SHA-256 value. -/
abbrev Digest := BitVec 256

abbrev Bytes := List UInt8

def owner : String := "ratatoskr-vault"

structure BlobRef where
  owner : String
  sha256 : Digest
  mediaType : String
  sizeBytes : ℕ
  deriving DecidableEq

structure RefEvidence where
  name : String
  oid : String
  deriving DecidableEq

structure LfsObjectEvidence where
  oid : Digest
  blob : BlobRef
  deriving DecidableEq

structure LfsEvidence where
  toolVersion : String
  objects : List LfsObjectEvidence
  totalBytes : ℕ
  aggregateSha256 : Digest
  deriving DecidableEq

/-- What the signature of a manifest covers. -/
structure UnsignedManifest where
  schemaVersion : ℕ
  refs : List RefEvidence
  generatorVersion : String
  createdAt : String
  parentManifest : Option BlobRef
  bundles : List BlobRef
  lfs : Option LfsEvidence
  refSetSha256 : Digest
  signingKeyId : String
  deriving DecidableEq

structure SnapshotManifest extends UnsignedManifest where
  signature : String
  deriving DecidableEq

structure ManifestVerificationKey where
  keyId : String
  publicKey : Bytes
  deriving DecidableEq

inductive ManifestError
  | unknownSigningKey | invalidSignature | serialization | invalidLfsEvidence
  | missingManifest | chainCycle | chainTooDeep
  deriving DecidableEq

/-- The primitives the manifests rest on: SHA-256, the JSON codec and Ed25519. -/
structure Crypto where
  sha256 : Bytes → Digest
  encode : SnapshotManifest → Bytes
  decode : Bytes → Option SnapshotManifest
  sign : UnsignedManifest → String
  verifies : Bytes → UnsignedManifest → String → Bool

def utf8 (text : String) : Bytes := text.toUTF8.toList

def hexDigit (value : ℕ) : Char :=
  if value < 10 then Char.ofNat (48 + value) else Char.ofNat (87 + value)

/-- The 64 lowercase hexadecimal digits of a digest. -/
def hexDigest (digest : Digest) : String :=
  String.ofList ((List.range 64).map fun i => hexDigit (digest.toNat / 16 ^ (63 - i) % 16))

theorem hexDigit_injective {a b : ℕ} (ha : a < 16) (hb : b < 16) (h : hexDigit a = hexDigit b) :
    a = b := by
  have hall : ∀ a < 16, ∀ b < 16, hexDigit a = hexDigit b → a = b := by decide
  exact hall a ha b hb h

/-- The digits below a position determine the number modulo its weight. -/
theorem mod_pow_of_digits {a b k : ℕ} (h : ∀ i < k, a / 16 ^ i % 16 = b / 16 ^ i % 16) :
    a % 16 ^ k = b % 16 ^ k := by
  induction k with
  | zero => rw [Nat.pow_zero, Nat.mod_one, Nat.mod_one]
  | succ k ih =>
    have hlow : a % 16 ^ k = b % 16 ^ k := ih fun i hi => h i (Nat.lt_succ_of_lt hi)
    rw [Nat.mod_pow_succ, Nat.mod_pow_succ, hlow, h k (Nat.lt_succ_self k)]

theorem hexDigest_length (digest : Digest) : (hexDigest digest).toList.length = 64 := by
  simp [hexDigest]

theorem hexDigest_injective {d d' : Digest} (h : (hexDigest d).toList = (hexDigest d').toList) :
    d = d' := by
  simp only [hexDigest, String.toList_ofList] at h
  have hdigits : ∀ i < 64, d.toNat / 16 ^ i % 16 = d'.toNat / 16 ^ i % 16 := by
    intro i hi
    have hat := List.map_inj_left.mp h (63 - i) (List.mem_range.mpr (by omega))
    rw [show 63 - (63 - i) = i by omega] at hat
    exact hexDigit_injective (Nat.mod_lt _ (by decide)) (Nat.mod_lt _ (by decide)) hat
  have hmod := mod_pow_of_digits hdigits
  have hsize : (16 : ℕ) ^ 64 = 2 ^ 256 := by decide
  rw [hsize, Nat.mod_eq_of_lt d.isLt, Nat.mod_eq_of_lt d'.isLt] at hmod
  exact BitVec.eq_of_toNat_eq hmod

variable (cx : Crypto)

def canonicalRefDigest (refs : List RefEvidence) : Digest :=
  cx.sha256 (refs.flatMap fun reference =>
    utf8 reference.oid ++ utf8 "\t" ++ utf8 reference.name ++ utf8 "\n")

def canonicalLfsDigest (objects : List LfsObjectEvidence) : Digest :=
  cx.sha256 (objects.flatMap fun object =>
    utf8 (hexDigest object.oid) ++ utf8 " " ++ utf8 (toString object.blob.sizeBytes) ++
      utf8 " " ++ utf8 (hexDigest object.blob.sha256) ++ utf8 "\n")

def SnapshotManifest.verifySignature (manifest : SnapshotManifest)
    (trustedKeys : List ManifestVerificationKey) : Except ManifestError Unit :=
  match trustedKeys.find? fun key => key.keyId == manifest.signingKeyId with
  | none => .error .unknownSigningKey
  | some key =>
    if cx.verifies key.publicKey manifest.toUnsignedManifest manifest.signature then .ok ()
    else .error .invalidSignature

/-- Strictly increasing object ids, each the digest of its own reference. -/
def validLfsObjects : Option Digest → List LfsObjectEvidence → Bool
  | _, [] => true
  | previous, object :: rest =>
    object.oid == object.blob.sha256 && object.blob.owner == owner &&
      object.blob.mediaType == "application/octet-stream" &&
      (previous.all fun value => decide (value < object.oid)) &&
      validLfsObjects (some object.oid) rest

def u64Max : ℕ := 18446744073709551615

/-- Addition of `u64` that fails instead of wrapping. -/
def checkedAdd (a b : ℕ) : Option ℕ := if a + b ≤ u64Max then some (a + b) else none

theorem checkedAdd_eq_some {a b sum : ℕ} :
    checkedAdd a b = some sum ↔ a + b ≤ u64Max ∧ a + b = sum := by
  unfold checkedAdd
  split_ifs with hfits
  · simp [hfits]
  · simp [hfits]

def saturatingTotal (objects : List LfsObjectEvidence) : ℕ :=
  objects.foldl (fun total object => min (total + object.blob.sizeBytes) u64Max) 0

def validLfs (evidence : LfsEvidence) : Bool :=
  !evidence.toolVersion.isEmpty && evidence.totalBytes == saturatingTotal evidence.objects &&
    evidence.aggregateSha256 == canonicalLfsDigest cx evidence.objects &&
    validLfsObjects none evidence.objects

structure ManifestSigningKey where
  keyId : String
  deriving DecidableEq

def SnapshotManifest.new (generatorVersion : String) (refs : List RefEvidence)
    (bundles : List BlobRef) (parentManifest : Option BlobRef) (createdAt : String)
    (lfs : Option LfsEvidence) (signer : ManifestSigningKey) :
    Except ManifestError SnapshotManifest :=
  let sorted := refs.mergeSort fun left right => decide (left.name ≤ right.name)
  if lfs.any fun evidence => !validLfs cx evidence then .error .invalidLfsEvidence
  else
    let unsigned : UnsignedManifest :=
      { schemaVersion := 1
        refs := sorted
        generatorVersion
        createdAt
        parentManifest
        bundles
        lfs
        refSetSha256 := canonicalRefDigest cx sorted
        signingKeyId := signer.keyId }
    .ok { toUnsignedManifest := unsigned, signature := cx.sign unsigned }

/-- A new manifest holds what it is made of, under its signer's signature. -/
theorem SnapshotManifest.new_spec {cx : Crypto} {generatorVersion createdAt : String}
    {refs : List RefEvidence} {bundles : List BlobRef} {parentManifest : Option BlobRef}
    {lfs : Option LfsEvidence} {signer : ManifestSigningKey} {evidence : SnapshotManifest}
    (h : SnapshotManifest.new cx generatorVersion refs bundles parentManifest createdAt lfs signer
      = .ok evidence) :
    evidence.refs = refs.mergeSort (fun left right => decide (left.name ≤ right.name)) ∧
      evidence.bundles = bundles ∧ evidence.parentManifest = parentManifest ∧
      evidence.lfs = lfs ∧ evidence.signingKeyId = signer.keyId ∧
      evidence.signature = cx.sign evidence.toUnsignedManifest := by
  unfold SnapshotManifest.new at h
  simp only at h
  split_ifs at h
  cases h
  exact ⟨rfl, rfl, rfl, rfl, rfl, rfl⟩

/-- The walk from `current` along parent links; `visited` holds the references passed so far. -/
def verifyManifestChainFrom (trustedKeys : List ManifestVerificationKey)
    (load : BlobRef → Except ManifestError SnapshotManifest) :
    ℕ → List BlobRef → BlobRef → Except ManifestError (List BlobRef)
  | 0, _, _ => .error .chainTooDeep
  | depth + 1, chain, current =>
    if chain.any fun reference => reference.sha256 == current.sha256 then .error .chainCycle
    else
      match load current with
      | .error e => .error e
      | .ok manifest =>
        match manifest.verifySignature cx trustedKeys with
        | .error e => .error e
        | .ok () =>
          match manifest.parentManifest with
          | none => .ok (chain ++ [current])
          | some parent => verifyManifestChainFrom trustedKeys load depth (chain ++ [current]) parent

def verifyManifestChain (head : BlobRef) (trustedKeys : List ManifestVerificationKey)
    (maxDepth : ℕ) (load : BlobRef → Except ManifestError SnapshotManifest) :
    Except ManifestError (List BlobRef) :=
  verifyManifestChainFrom cx trustedKeys load maxDepth [] head

section Chain

variable {cx} {trustedKeys : List ManifestVerificationKey}
  {load load' : BlobRef → Except ManifestError SnapshotManifest} {depth : ℕ}
  {chain references : List BlobRef} {current : BlobRef}

/-- The walk keeps what it has passed and passes where it stands. -/
theorem mem_of_verifyManifestChainFrom
    (h : verifyManifestChainFrom cx trustedKeys load depth chain current = .ok references) :
    (∀ reference ∈ chain, reference ∈ references) ∧ current ∈ references := by
  induction depth generalizing chain current with
  | zero => cases h
  | succ depth ih =>
    simp only [verifyManifestChainFrom] at h
    split_ifs at h
    split at h
    · cases h
    · split at h
      · cases h
      · split at h
        · obtain rfl := Except.ok.inj h
          exact ⟨fun reference hmem => List.mem_append_left _ hmem, by simp⟩
        · obtain ⟨hchain, -⟩ := ih h
          exact ⟨fun reference hmem => hchain reference (List.mem_append_left _ hmem),
            hchain current (by simp)⟩

/-- A walk that succeeds needs only the manifests it passes. -/
theorem verifyManifestChainFrom_congr
    (h : verifyManifestChainFrom cx trustedKeys load depth chain current = .ok references)
    (hload : ∀ reference ∈ references, load' reference = load reference) :
    verifyManifestChainFrom cx trustedKeys load' depth chain current = .ok references := by
  induction depth generalizing chain current with
  | zero => cases h
  | succ depth ih =>
    have hcurrent := hload current (mem_of_verifyManifestChainFrom h).2
    simp only [verifyManifestChainFrom] at h ⊢
    split_ifs at h ⊢
    rw [hcurrent]
    cases hloaded : load current with
    | error e => rw [hloaded] at h; cases h
    | ok manifest =>
      rw [hloaded] at h
      simp only at h ⊢
      cases hsignature : manifest.verifySignature cx trustedKeys with
      | error e => rw [hsignature] at h; cases h
      | ok _ =>
        rw [hsignature] at h
        simp only at h ⊢
        cases hparent : manifest.parentManifest with
        | none => rw [hparent] at h; exact h
        | some parent => rw [hparent] at h; exact ih h

/-- Newest first: each manifest is loaded with a trusted signature and names the next one as its
parent, the last one none. -/
def Links (cx : Crypto) (trustedKeys : List ManifestVerificationKey)
    (load : BlobRef → Except ManifestError SnapshotManifest) : List BlobRef → Prop
  | [] => True
  | current :: older =>
    (∃ manifest, load current = .ok manifest ∧
      manifest.verifySignature cx trustedKeys = .ok () ∧
      manifest.parentManifest = older.head?) ∧ Links cx trustedKeys load older

variable {older : List BlobRef}

theorem Links.of_append {newer : List BlobRef} (h : Links cx trustedKeys load (newer ++ older)) :
    Links cx trustedKeys load older := by
  induction newer with
  | nil => exact h
  | cons current newer ih => exact ih h.2

/-- Links are kept where what they load is. -/
theorem Links.mono {references : List BlobRef} (h : Links cx trustedKeys load references)
    (hload : ∀ reference manifest, load reference = .ok manifest →
      load' reference = .ok manifest) : Links cx trustedKeys load' references := by
  induction references with
  | nil => trivial
  | cons current older ih =>
    obtain ⟨⟨manifest, hloaded, htrusted⟩, hrest⟩ := h
    exact ⟨⟨manifest, hload current manifest hloaded, htrusted⟩, ih hrest⟩

/-- Where a digest fixes its manifest, two chains from one digest are equally long. -/
theorem Links.length_eq {other : BlobRef} {others : List BlobRef}
    (hdigest : ∀ a b m n, load a = .ok m → load b = .ok n → a.sha256 = b.sha256 → m = n)
    (h : Links cx trustedKeys load (current :: older))
    (h' : Links cx trustedKeys load (other :: others)) (hsha : current.sha256 = other.sha256) :
    older.length = others.length := by
  induction older generalizing current other others with
  | nil =>
    obtain ⟨⟨manifest, hload, -, hparent⟩, -⟩ := h
    obtain ⟨⟨manifest', hload', -, hparent'⟩, -⟩ := h'
    have hsame : manifest = manifest' := hdigest _ _ _ _ hload hload' hsha
    have hnone : others.head? = none := by rw [← hparent', ← hsame, hparent, List.head?_nil]
    rw [List.head?_eq_none_iff.mp hnone]
  | cons parent older ih =>
    obtain ⟨⟨manifest, hload, -, hparent⟩, hrest⟩ := h
    obtain ⟨⟨manifest', hload', -, hparent'⟩, hrest'⟩ := h'
    have hsame : manifest = manifest' := hdigest _ _ _ _ hload hload' hsha
    have hhead : others.head? = some parent := by
      rw [← hparent', ← hsame, hparent, List.head?_cons]
    obtain ⟨others, rfl⟩ := List.head?_eq_some_iff.mp hhead
    have hlength := ih hrest hrest' rfl
    rw [List.length_cons, List.length_cons, hlength]

/-- No digest occurs twice on a chain. -/
theorem Links.nodup {references : List BlobRef}
    (hdigest : ∀ a b m n, load a = .ok m → load b = .ok n → a.sha256 = b.sha256 → m = n)
    (h : Links cx trustedKeys load references) : (references.map (·.sha256)).Nodup := by
  induction references with
  | nil => exact List.nodup_nil
  | cons current older ih =>
    rw [List.map_cons, List.nodup_cons]
    refine ⟨fun hmem => ?_, ih h.2⟩
    obtain ⟨other, hother, hsha⟩ := List.mem_map.mp hmem
    obtain ⟨newer, rest, rfl⟩ := List.append_of_mem hother
    have hlength := Links.length_eq hdigest h h.2.of_append hsha.symm
    rw [List.length_append, List.length_cons] at hlength
    omega

/-- The walk along linked manifests ends exactly when it is deep enough for all of them. -/
theorem verifyManifestChainFrom_links (h : Links cx trustedKeys load (current :: older))
    (hnodup : ((current :: older).map (·.sha256)).Nodup)
    (hnew : ∀ visited ∈ chain, ∀ reference ∈ current :: older,
      visited.sha256 ≠ reference.sha256) :
    verifyManifestChainFrom cx trustedKeys load depth chain current
      = if older.length < depth then .ok (chain ++ current :: older) else .error .chainTooDeep := by
  induction depth generalizing chain current older with
  | zero => simp [verifyManifestChainFrom]
  | succ depth ih =>
    obtain ⟨⟨manifest, hload, htrusted, hparent⟩, hrest⟩ := h
    have hfirst : (chain.any fun reference => reference.sha256 == current.sha256) = false := by
      rw [List.any_eq_false]
      intro visited hvisited
      simpa using hnew visited hvisited current (List.mem_cons_self ..)
    simp only [verifyManifestChainFrom, hfirst, hload, htrusted, hparent, Bool.false_eq_true,
      if_false]
    cases older with
    | nil => simp
    | cons parent older =>
      rw [List.map_cons, List.nodup_cons] at hnodup
      simp only [List.head?_cons]
      rw [ih hrest hnodup.2 ?_]
      · simp [List.append_assoc]
      · -- the manifest passed last is not met again
        intro visited hvisited reference hreference
        rcases List.mem_append.mp hvisited with hold | hlast
        · exact hnew visited hold reference (List.mem_cons_of_mem _ hreference)
        · rw [List.mem_singleton.mp hlast]
          intro hsame
          exact hnodup.1 (List.mem_map.mpr ⟨reference, hreference, hsame.symm⟩)

end Chain

end RatatoskrVault
