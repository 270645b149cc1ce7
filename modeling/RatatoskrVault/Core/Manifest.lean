import RatatoskrVault.Core.Hex
import RatatoskrVault.Lib.Sorting
import RatatoskrVault.Lib.Walk
import Mathlib.Data.String.Basic

/-! Signed manifests as the documents they are: digests, key ids and signatures are texts that
nobody has checked. -/
namespace RatatoskrVault.Manifest

open Lib

/-- A durable reference to bytes. -/
structure BlobRef where
  owner : String
  sha256 : String
  mediaType : String
  sizeBytes : ℕ
  deriving DecidableEq

structure LfsObjectEvidence where
  oid : String
  blob : BlobRef
  deriving DecidableEq

structure LfsEvidence where
  toolVersion : String
  objects : List LfsObjectEvidence
  totalBytes : ℕ
  aggregateSha256 : String
  deriving DecidableEq

/-- What a signature covers. -/
structure UnsignedManifest where
  schemaVersion : ℕ
  refs : List RefEvidence
  generatorVersion : String
  createdAt : String
  parentManifest : Option BlobRef
  bundles : List BlobRef
  lfs : Option LfsEvidence
  refSetSha256 : String
  signingKeyId : String
  deriving DecidableEq

structure SnapshotManifest where
  schemaVersion : ℕ
  refs : List RefEvidence
  generatorVersion : String
  createdAt : String
  parentManifest : Option BlobRef
  bundles : List BlobRef
  lfs : Option LfsEvidence
  refSetSha256 : String
  signingKeyId : String
  signature : String
  deriving DecidableEq

/-- The primitives a manifest rests on: SHA-256, the JSON codec and Ed25519. -/
structure Primitives (KeyPair : Type) where
  sha256 : Bytes → Digest
  toVec : UnsignedManifest → Option Bytes
  serialize : SnapshotManifest → Bytes
  parse : Bytes → Option SnapshotManifest
  publicKey : KeyPair → Bytes
  sign : KeyPair → Bytes → Bytes
  verify : Bytes → Bytes → Bytes → Bool

variable {KeyPair : Type} (primitives : Primitives KeyPair)

def canonicalRefDigest (refs : List RefEvidence) : String :=
  hexDigest (primitives.sha256 (refs.flatMap fun reference =>
    asBytes reference.oid ++ asBytes "\t" ++ asBytes reference.name ++ asBytes "\n"))

def canonicalLfsDigest (objects : List LfsObjectEvidence) : String :=
  hexDigest (primitives.sha256 (objects.flatMap fun object =>
    asBytes object.oid ++ asBytes " " ++ asBytes (toString object.blob.sizeBytes) ++ asBytes " " ++
      asBytes object.blob.sha256 ++ asBytes "\n"))

def saturatingTotal (objects : List LfsObjectEvidence) : ℕ :=
  objects.foldl (fun total object => min (total + object.blob.sizeBytes) u64Max) 0

def LfsEvidence.new (toolVersion : String) (objects : List LfsObjectEvidence) : LfsEvidence :=
  let sorted := sortBy (·.oid) objects
  { toolVersion
    objects := sorted
    totalBytes := saturatingTotal sorted
    aggregateSha256 := canonicalLfsDigest primitives sorted }

/-- Strictly increasing object ids, each the digest of its own reference. -/
def validLfsObjects : Option String → List LfsObjectEvidence → Bool
  | _, [] => true
  | previous, object :: rest =>
    object.oid == object.blob.sha256 && object.oid.toList.length == 64 &&
      object.oid.toList.all isHex && object.blob.owner == owner &&
      object.blob.mediaType == "application/octet-stream" &&
      (previous.all fun value => decide (value < object.oid)) &&
      validLfsObjects (some object.oid) rest

def validLfs (evidence : LfsEvidence) : Bool :=
  !evidence.toolVersion.isEmpty && evidence.totalBytes == saturatingTotal evidence.objects &&
    evidence.aggregateSha256 == canonicalLfsDigest primitives evidence.objects &&
    validLfsObjects none evidence.objects

/-- A trusted public key, under the identifier it is found by. -/
structure ManifestVerificationKey where
  keyId : String
  publicKey : Bytes
  deriving DecidableEq

def verificationKey (signer : KeyPair) : ManifestVerificationKey :=
  let publicKey := primitives.publicKey signer
  { keyId := hexDigest (primitives.sha256 publicKey), publicKey }

namespace SnapshotManifest

def unsigned (manifest : SnapshotManifest) : UnsignedManifest :=
  { schemaVersion := manifest.schemaVersion
    refs := manifest.refs
    generatorVersion := manifest.generatorVersion
    createdAt := manifest.createdAt
    parentManifest := manifest.parentManifest
    bundles := manifest.bundles
    lfs := manifest.lfs
    refSetSha256 := manifest.refSetSha256
    signingKeyId := manifest.signingKeyId }

def unsignedBytes (manifest : SnapshotManifest) : Except ManifestError Bytes :=
  match primitives.toVec manifest.unsigned with
  | none => .error .serialization
  | some bytes => .ok bytes

def new (generatorVersion : String) (refs : List RefEvidence) (bundles : List BlobRef)
    (parentManifest : Option BlobRef) (createdAt : String) (lfs : Option LfsEvidence)
    (signer : KeyPair) : Except ManifestError SnapshotManifest :=
  let sorted := sortBy (·.name) refs
  if lfs.any fun evidence => !validLfs primitives evidence then .error .invalidLfsEvidence
  else
    let manifest : SnapshotManifest :=
      { schemaVersion := 1
        refs := sorted
        generatorVersion
        createdAt
        parentManifest
        bundles
        lfs
        refSetSha256 := canonicalRefDigest primitives sorted
        signingKeyId := (verificationKey primitives signer).keyId
        signature := "" }
    match manifest.unsignedBytes primitives with
    | .error e => .error e
    | .ok unsigned => .ok { manifest with signature := encodeHex (primitives.sign signer unsigned) }

def verifySignature (manifest : SnapshotManifest) (trustedKeys : List ManifestVerificationKey) :
    Except ManifestError Unit :=
  match trustedKeys.find? fun key => key.keyId == manifest.signingKeyId with
  | none => .error .unknownSigningKey
  | some trustedKey =>
    match decodeHex manifest.signature with
    | none => .error .invalidSignature
    | some signature =>
      match manifest.unsignedBytes primitives with
      | .error e => .error e
      | .ok unsigned =>
        if primitives.verify trustedKey.publicKey unsigned signature then .ok ()
        else .error .invalidSignature

end SnapshotManifest

/-- One step of the walk: the manifest is loaded, its signature is checked, and its parent is
named. -/
def parentOf (trustedKeys : List ManifestVerificationKey)
    (loaded : Except ManifestError SnapshotManifest) : Except ManifestError (Option BlobRef) :=
  match loaded with
  | .error e => .error e
  | .ok manifest =>
    match manifest.verifySignature primitives trustedKeys with
    | .error e => .error e
    | .ok () => .ok manifest.parentManifest

/-- The resolver `load` may have effects of its own. -/
def verifyManifestChain {m : Type → Type} [Monad m] (head : BlobRef)
    (trustedKeys : List ManifestVerificationKey) (maxDepth : ℕ)
    (load : BlobRef → m (Except ManifestError SnapshotManifest)) :
    m (Except ManifestError (List BlobRef)) :=
  walkM (·.sha256) .chainCycle .chainTooDeep
    (fun current => do return parentOf primitives trustedKeys (← load current)) maxDepth [] head

end RatatoskrVault.Manifest
