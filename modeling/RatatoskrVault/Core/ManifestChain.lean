import RatatoskrVault.Core.Manifest

/-! The verification of a manifest and its parents: which chains it accepts, what it loads, and when
it reports a cycle. -/
namespace RatatoskrVault.Manifest

open Lib

variable {KeyPair : Type} {primitives : Primitives KeyPair}
  {trustedKeys : List ManifestVerificationKey}
  {load : BlobRef → Except ManifestError SnapshotManifest} {manifest : SnapshotManifest}

/-- The signature is valid under the trusted key that the manifest names. -/
def Trusted (primitives : Primitives KeyPair) (trustedKeys : List ManifestVerificationKey)
    (manifest : SnapshotManifest) : Prop :=
  ∃ key signature unsigned,
    trustedKeys.find? (fun key => key.keyId == manifest.signingKeyId) = some key ∧
      decodeHex manifest.signature = some signature ∧
      primitives.toVec manifest.unsigned = some unsigned ∧
      primitives.verify key.publicKey unsigned signature = true

theorem verifySignature_eq_ok :
    manifest.verifySignature primitives trustedKeys = .ok () ↔
      Trusted primitives trustedKeys manifest := by
  unfold SnapshotManifest.verifySignature SnapshotManifest.unsignedBytes Trusted
  constructor
  · intro h
    cases hkey : trustedKeys.find? fun key => key.keyId == manifest.signingKeyId with
    | none => simp [hkey] at h
    | some key =>
      cases hsignature : decodeHex manifest.signature with
      | none => simp [hkey, hsignature] at h
      | some signature =>
        cases hunsigned : primitives.toVec manifest.unsigned with
        | none => simp [hkey, hsignature, hunsigned] at h
        | some unsigned =>
          refine ⟨key, signature, unsigned, rfl, rfl, rfl, ?_⟩
          simpa [hkey, hsignature, hunsigned] using h
  · rintro ⟨key, signature, unsigned, hkey, hsignature, hunsigned, hverify⟩
    simp [hkey, hsignature, hunsigned, hverify]

/-- The check of a signature never speaks of the chain. -/
theorem verifySignature_ne_chainCycle :
    manifest.verifySignature primitives trustedKeys ≠ .error .chainCycle := by
  unfold SnapshotManifest.verifySignature SnapshotManifest.unsignedBytes
  cases trustedKeys.find? fun key => key.keyId == manifest.signingKeyId with
  | none => simp
  | some key =>
    cases decodeHex manifest.signature with
    | none => simp
    | some signature =>
      cases primitives.toVec manifest.unsigned with
      | none => simp
      | some unsigned =>
        simp only
        split_ifs <;> exact nofun

/-- Newest first: each manifest is loaded with a trusted signature and names the next one as its
parent, the last one none. -/
def Links (primitives : Primitives KeyPair) (trustedKeys : List ManifestVerificationKey)
    (load : BlobRef → Except ManifestError SnapshotManifest) : List BlobRef → Prop
  | [] => True
  | current :: older =>
    (∃ manifest, load current = .ok manifest ∧ Trusted primitives trustedKeys manifest ∧
      manifest.parentManifest = older.head?) ∧ Links primitives trustedKeys load older

/-- Each manifest is loaded and names the next one as its parent. -/
def Follows (load : BlobRef → Except ManifestError SnapshotManifest) : List BlobRef → Prop
  | current :: parent :: rest =>
    (∃ manifest, load current = .ok manifest ∧ manifest.parentManifest = some parent) ∧
      Follows load (parent :: rest)
  | _ => True

theorem parentOf_eq_ok {parent? : Option BlobRef} {current : BlobRef} :
    parentOf primitives trustedKeys (load current) = .ok parent? ↔
      ∃ manifest, load current = .ok manifest ∧ Trusted primitives trustedKeys manifest ∧
        manifest.parentManifest = parent? := by
  unfold parentOf
  cases hload : load current with
  | error e => simp
  | ok manifest =>
    cases hsignature : manifest.verifySignature primitives trustedKeys with
    | error e =>
      have huntrusted : ¬Trusted primitives trustedKeys manifest := by
        rw [← verifySignature_eq_ok, hsignature]
        exact nofun
      simp [hsignature, huntrusted]
    | ok u =>
      have htrusted : Trusted primitives trustedKeys manifest := verifySignature_eq_ok.mp hsignature
      simp [hsignature, htrusted]

theorem load_eq_chainCycle {current : BlobRef}
    (h : parentOf primitives trustedKeys (load current) = .error .chainCycle) :
    load current = .error .chainCycle := by
  unfold parentOf at h
  cases hload : load current with
  | error e => simpa [hload] using h
  | ok manifest =>
    rw [hload] at h
    cases hsignature : manifest.verifySignature primitives trustedKeys with
    | error e =>
      simp only [hsignature, Except.error.injEq] at h
      rw [h] at hsignature
      exact absurd hsignature verifySignature_ne_chainCycle
    | ok u => simp [hsignature] at h

theorem complete_iff_links {chain : List BlobRef} :
    Complete (fun current => parentOf primitives trustedKeys (load current)) chain ↔
      chain ≠ [] ∧ Links primitives trustedKeys load chain := by
  induction chain with
  | nil => simp [Complete]
  | cons current older ih =>
    cases older with
    | nil =>
      simp only [Complete, Links, parentOf_eq_ok, List.head?_nil, and_true, ne_eq, reduceCtorEq,
        not_false_eq_true, true_and]
    | cons parent older =>
      simp only [Complete, ih, Links, parentOf_eq_ok, List.head?_cons, ne_eq, reduceCtorEq,
        not_false_eq_true, true_and]

theorem follows_of_linked : ∀ {walk : List BlobRef},
    Linked (fun current => parentOf primitives trustedKeys (load current)) walk → Follows load walk
  | [], _ => trivial
  | [_], _ => trivial
  | current :: parent :: rest, h => by
    obtain ⟨manifest, hload, -, hparent⟩ := parentOf_eq_ok.mp h.1
    exact ⟨⟨manifest, hload, hparent⟩, follows_of_linked h.2⟩

/-- Whatever the resolver answers: it is asked at most `maxDepth` times; the verification returns
the chain from the head exactly if it is complete, trusted, without a digest twice and no longer
than allowed; and it reports a cycle only for a walk with a digest twice, or in the resolver's own
name. -/
theorem verify_manifest_chain_exact (primitives : Primitives KeyPair) (head : BlobRef)
    (trustedKeys : List ManifestVerificationKey) (maxDepth : ℕ)
    (load : BlobRef → Except ManifestError SnapshotManifest) :
    let out := (verifyManifestChain primitives head trustedKeys maxDepth (logged load)).run []
    out.2.length ≤ maxDepth ∧
      (∀ chain, out.1 = .ok chain ↔
        chain.head? = some head ∧ Links primitives trustedKeys load chain ∧
          (chain.map (·.sha256)).Nodup ∧ chain.length ≤ maxDepth) ∧
      (out.1 = .error .chainCycle → ∃ walk, walk.head? = some head ∧ Follows load walk ∧
        (¬(walk.map (·.sha256)).Nodup ∨ ∃ reference ∈ walk, load reference = .error .chainCycle)) := by
  intro out
  let next : BlobRef → Except ManifestError (Option BlobRef) :=
    fun current => parentOf primitives trustedKeys (load current)
  have hrun : out = (walk (·.sha256) .chainCycle .chainTooDeep next maxDepth [] head,
      [] ++ lookups (·.sha256) next maxDepth [] head) := walkM_logged []
  rw [hrun]
  refine ⟨length_lookups_le, fun chain => ?_, fun h => ?_⟩
  · rw [walk_eq_ok_iff]
    constructor
    · rintro ⟨rest, rfl, hhead, hcomplete, hnodup, -, hlength⟩
      exact ⟨hhead, (complete_iff_links.mp hcomplete).2, hnodup, hlength⟩
    · rintro ⟨hhead, hlinks, hnodup, hlength⟩
      have hne : chain ≠ [] := by
        rintro rfl
        exact nomatch hhead
      exact ⟨chain, rfl, hhead, complete_iff_links.mpr ⟨hne, hlinks⟩, hnodup, by simp, hlength⟩
  · rcases walk_eq_error h with htooDeep | ⟨rest, hhead, hlinked, hwhy⟩
    · exact nomatch htooDeep
    · refine ⟨rest, hhead, follows_of_linked hlinked, ?_⟩
      rcases hwhy with ⟨-, hnodup⟩ | ⟨last, hlast, herror⟩
      · exact .inl hnodup
      · exact .inr ⟨last, hlast, load_eq_chainCycle herror⟩

namespace Sample

/-- Nothing is parsed, signed or verified. -/
def idle : Primitives Unit :=
  { sha256 := fun _ => 0
    toVec := fun _ => none
    serialize := fun _ => []
    parse := fun _ => none
    publicKey := fun _ => []
    sign := fun _ _ => []
    verify := fun _ _ _ => false }

def head : BlobRef :=
  { owner := owner
    sha256 := "1111111111111111111111111111111111111111111111111111111111111111"
    mediaType := "application/json"
    sizeBytes := 10 }

end Sample

/-- A resolver that answers with the error of a cycle: the walk is its head alone. -/
theorem resolver_names_a_cycle :
    ((verifyManifestChain Sample.idle Sample.head [] 4
        (logged fun _ => .error .chainCycle)).run []).1 = .error .chainCycle ∧
      ∀ walk, walk.head? = some Sample.head → Follows (fun _ => .error .chainCycle) walk →
        (walk.map (·.sha256)).Nodup := by
  refine ⟨rfl, fun walk hhead hfollows => ?_⟩
  obtain ⟨rest, rfl⟩ := List.head?_eq_some_iff.mp hhead
  cases rest with
  | nil => exact List.nodup_singleton _
  | cons parent rest =>
    obtain ⟨⟨manifest, hload, -⟩, -⟩ := hfollows
    exact nomatch hload

end RatatoskrVault.Manifest
