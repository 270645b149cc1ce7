import RatatoskrVault.Core.Manifest
import RatatoskrVault.Lib.Delimited
import RatatoskrVault.Verification.RefAgreement

/-! The byte streams of the canonical digests. Their fields are only separated, so what the streams
say rests on the characters that the validators admit. -/
namespace RatatoskrVault.Manifest

open Lib

section

variable {KeyPair : Type} (primitives : Primitives KeyPair)

/-- What `canonical_ref_digest` hashes of one ref. -/
def refFields (reference : RefEvidence) : Bytes :=
  asBytes reference.oid ++ asBytes "\t" ++ asBytes reference.name ++ asBytes "\n"

def refStream (refs : List RefEvidence) : Bytes := refs.flatMap refFields

/-- What `canonical_lfs_digest` hashes of one object. -/
def lfsFields (object : LfsObjectEvidence) : Bytes :=
  asBytes object.oid ++ asBytes " " ++ asBytes (toString object.blob.sizeBytes) ++ asBytes " " ++
    asBytes object.blob.sha256 ++ asBytes "\n"

def lfsStream (objects : List LfsObjectEvidence) : Bytes := objects.flatMap lfsFields

theorem canonicalRefDigest_eq (refs : List RefEvidence) :
    canonicalRefDigest primitives refs = hexDigest (primitives.sha256 (refStream refs)) := rfl

theorem canonicalLfsDigest_eq (objects : List LfsObjectEvidence) :
    canonicalLfsDigest primitives objects = hexDigest (primitives.sha256 (lfsStream objects)) :=
  rfl

/-- Some listing is accepted with this entry. -/
def ParsedRef (reference : RefEvidence) : Prop :=
  ∃ text parsed, parseRefs (strLines text) = .ok parsed ∧ reference ∈ parsed

/-- Some evidence with these objects is accepted. -/
def AcceptedObjects (objects : List LfsObjectEvidence) : Prop :=
  ∃ evidence, validLfs primitives evidence = true ∧ evidence.objects = objects

end

section

variable {text text' : String} {reference : RefEvidence}

theorem asBytes_injective (h : asBytes text = asBytes text') : text = text' := by
  have hread := fromUtf8_asBytes text
  rw [h, fromUtf8_asBytes] at hread
  exact (Option.some.inj hread).symm

/-- A text without a character of seven bits has no byte of it. -/
theorem not_mem_asBytes {c : Char} {byte : UInt8} (hbyte : byte.toNat = c.toNat)
    (hc : c.toNat < 128) (h : c ∉ text.toList) : byte ∉ asBytes text := by
  intro hmem
  obtain ⟨c', hc', hencode⟩ := List.mem_flatMap.mp hmem
  have hchar := toNat_eq_of_mem_utf8EncodeChar (by omega) hencode
  have hsame : c' = c := Char.toNat_inj.mp (by omega)
  exact h (hsame ▸ hc')

/-- An entry of a listing has a plain object id and a name without control characters. -/
theorem plain_of_parseRefsFrom {names lines : List String} {parsed : List RefEvidence}
    (h : parseRefsFrom names lines = .ok parsed) : ∀ reference ∈ parsed,
      validOid reference.oid = true ∧ reference.name.toList.any isAsciiControl = false := by
  induction lines generalizing names parsed with
  | nil =>
    rw [parseRefsFrom, Except.ok.injEq] at h
    simp [← h]
  | cons line rest ih =>
    unfold parseRefsFrom at h
    cases hline : parseLine line with
    | none => simp [hline] at h
    | some reference =>
      simp only [hline] at h
      split_ifs at h with hinvalid hduplicate
      cases hrest : parseRefsFrom (names ++ [reference.name]) rest with
      | error e => simp [hrest] at h
      | ok references =>
        simp only [hrest, Except.ok.injEq] at h
        simp only [Bool.or_eq_true, Bool.not_eq_true', not_or, Bool.not_eq_false,
          Bool.not_eq_true] at hinvalid
        rw [← h, List.forall_mem_cons]
        exact ⟨⟨hinvalid.1.1, hinvalid.2⟩, ih hrest⟩

/-- The separators stand in no field. -/
structure PlainRef (reference : RefEvidence) : Prop where
  oid : 9 ∉ asBytes reference.oid
  name : 10 ∉ asBytes reference.name

theorem plainRef_of_parsed (h : ParsedRef reference) : PlainRef reference := by
  obtain ⟨text, parsed, hparsed, hmem⟩ := h
  obtain ⟨hoid, hname⟩ := plain_of_parseRefsFrom hparsed reference hmem
  unfold validOid at hoid
  rw [Bool.and_eq_true, List.all_eq_true] at hoid
  rw [List.any_eq_false] at hname
  constructor
  · refine not_mem_asBytes (c := '\t') (by decide) (by decide) fun htab => ?_
    exact absurd (hoid.2 '\t' htab) (by decide)
  · refine not_mem_asBytes (c := '\n') (by decide) (by decide) fun hline => ?_
    exact hname '\n' hline (by decide)

theorem refFields_delimits :
    Delimits refFields (fun reference => (asBytes reference.oid, asBytes reference.name))
      PlainRef := by
  have hoid := Delimits.terminated (9 : UInt8) fun reference : RefEvidence => asBytes reference.oid
  have hname := Delimits.terminated (10 : UInt8) fun reference : RefEvidence =>
    asBytes reference.name
  have hfields : refFields = fun reference =>
      (asBytes reference.oid ++ [9]) ++ (asBytes reference.name ++ [10]) := by
    funext reference
    exact List.append_assoc _ _ _
  rw [hfields]
  exact (hoid.mono fun reference h => h.oid).append (hname.mono fun reference h => h.name)

/-- The stream of the refs says which refs they are. -/
theorem refStream_injective {refs refs' : List RefEvidence} (h : ∀ r ∈ refs, ParsedRef r)
    (h' : ∀ r ∈ refs', ParsedRef r) (heq : refStream refs = refStream refs') : refs = refs' := by
  have hread := refFields_delimits.flatMap (fun reference _ => by simp [refFields, asBytes])
    (fun r hr => plainRef_of_parsed (h r hr)) (fun r hr => plainRef_of_parsed (h' r hr)) heq
  have hinjective : Function.Injective fun reference : RefEvidence =>
      (asBytes reference.oid, asBytes reference.name) := by
    rintro ⟨name, oid⟩ ⟨name', oid'⟩ hpair
    obtain ⟨hoid, hname⟩ := Prod.mk.inj hpair
    have hoid' : oid = oid' := asBytes_injective hoid
    have hname' : name = name' := asBytes_injective hname
    rw [hoid', hname']
  exact hinjective.list_map hread

end

section

variable {objects objects' : List LfsObjectEvidence} {object : LfsObjectEvidence}

/-- An accepted object is the blob of its own digest. -/
structure PlainObject (object : LfsObjectEvidence) : Prop where
  digest : object.oid = object.blob.sha256
  digits : ∀ c ∈ object.oid.toList, isHex c = true
  owner : object.blob.owner = RatatoskrVault.owner
  mediaType : object.blob.mediaType = "application/octet-stream"

theorem plainObject_of_validLfsObjects {previous : Option String}
    (h : validLfsObjects previous objects = true) : ∀ object ∈ objects, PlainObject object := by
  induction objects generalizing previous with
  | nil => simp
  | cons object rest ih =>
    simp only [validLfsObjects, Bool.and_eq_true, beq_iff_eq, List.all_eq_true] at h
    rw [List.forall_mem_cons]
    exact ⟨⟨h.1.1.1.1.1.1, h.1.1.1.1.2, h.1.1.1.2, h.1.1.2⟩, ih h.2⟩

theorem plainObject_of_accepted {KeyPair : Type} {primitives : Primitives KeyPair}
    (h : AcceptedObjects primitives objects) : ∀ object ∈ objects, PlainObject object := by
  obtain ⟨evidence, hvalid, rfl⟩ := h
  unfold validLfs at hvalid
  rw [Bool.and_eq_true] at hvalid
  exact plainObject_of_validLfsObjects hvalid.2

theorem toString_injective {n n' : ℕ} (h : toString n = toString n') : n = n' := by
  have hdigits : Nat.toDigits 10 n = Nat.toDigits 10 n' := by
    rw [← Nat.toList_repr, ← Nat.toList_repr]
    exact congrArg String.toList h
  rw [← Nat.ofDigitChars_toDigits (b := 10) (n := n) (by decide) (by decide), hdigits,
    Nat.ofDigitChars_toDigits (by decide) (by decide)]

theorem space_not_mem_toString (n : ℕ) : ' ' ∉ (toString n).toList := by
  intro hmem
  have hdigits : (toString n).toList = Nat.toDigits 10 n := Nat.toList_repr
  rw [hdigits] at hmem
  exact absurd (Nat.isDigit_of_mem_toDigits (by decide) (by decide) hmem) (by decide)

theorem PlainObject.not_mem (h : PlainObject object) {c : Char} {byte : UInt8}
    (hbyte : byte.toNat = c.toNat) (hc : c.toNat < 128) (hhex : isHex c = false) :
    byte ∉ asBytes object.oid :=
  not_mem_asBytes hbyte hc fun hmem => absurd (h.digits c hmem) (by rw [hhex]; decide)

theorem lfsFields_delimits :
    Delimits lfsFields
      (fun object => (asBytes object.oid, asBytes (toString object.blob.sizeBytes),
        asBytes object.blob.sha256)) PlainObject := by
  have hoid := Delimits.terminated (32 : UInt8) fun object : LfsObjectEvidence =>
    asBytes object.oid
  have hsize := Delimits.terminated (32 : UInt8) fun object : LfsObjectEvidence =>
    asBytes (toString object.blob.sizeBytes)
  have hsha := Delimits.terminated (10 : UInt8) fun object : LfsObjectEvidence =>
    asBytes object.blob.sha256
  have hfields : lfsFields = fun object => (asBytes object.oid ++ [32]) ++
      ((asBytes (toString object.blob.sizeBytes) ++ [32]) ++ (asBytes object.blob.sha256 ++ [10])) := by
    funext object
    show _ ++ [32] ++ _ ++ [32] ++ _ ++ [10] = _
    simp only [List.append_assoc]
  rw [hfields]
  refine (hoid.mono fun object h => ?_).append
    ((hsize.mono fun object _ => ?_).append (hsha.mono fun object h => ?_))
  · exact h.not_mem (c := ' ') (by decide) (by decide) (by decide)
  · exact not_mem_asBytes (c := ' ') (by decide) (by decide) (space_not_mem_toString _)
  · rw [← h.digest]
    exact h.not_mem (c := '\n') (by decide) (by decide) (by decide)

/-- An accepted object is known by its digest and its size. -/
theorem PlainObject.ext {object' : LfsObjectEvidence} (h : PlainObject object)
    (h' : PlainObject object') (hoid : object.oid = object'.oid)
    (hsize : object.blob.sizeBytes = object'.blob.sizeBytes) : object = object' := by
  have hsha : object.blob.sha256 = object'.blob.sha256 := by
    rw [← h.digest, ← h'.digest, hoid]
  have howner : object.blob.owner = object'.blob.owner := by rw [h.owner, h'.owner]
  have hmedia : object.blob.mediaType = object'.blob.mediaType := by
    rw [h.mediaType, h'.mediaType]
  obtain ⟨oid, owner, sha256, mediaType, sizeBytes⟩ := object
  obtain ⟨oid', owner', sha256', mediaType', sizeBytes'⟩ := object'
  dsimp only at hoid hsize hsha howner hmedia
  rw [hoid, hsize, hsha, howner, hmedia]

/-- The stream of the objects says which objects they are. -/
theorem lfsStream_injective (h : ∀ o ∈ objects, PlainObject o) (h' : ∀ o ∈ objects', PlainObject o)
    (heq : lfsStream objects = lfsStream objects') : objects = objects' := by
  have hread := lfsFields_delimits.flatMap (fun object _ => by simp [lfsFields, asBytes]) h h' heq
  have hlength := congrArg List.length hread
  rw [List.length_map, List.length_map] at hlength
  refine List.ext_getElem hlength fun i hi hi' => ?_
  have hat := congrArg (·[i]?) hread
  rw [List.getElem?_map, List.getElem?_map, List.getElem?_eq_getElem hi,
    List.getElem?_eq_getElem hi'] at hat
  obtain ⟨hoid, hrest⟩ := Prod.mk.inj (Option.some.inj hat)
  obtain ⟨hsize, -⟩ := Prod.mk.inj hrest
  exact (h _ (List.getElem_mem hi)).ext (h' _ (List.getElem_mem hi')) (asBytes_injective hoid)
    (toString_injective (asBytes_injective hsize))

end

/-- The streams are unambiguous, and so are the digests, but for two streams with one hash. -/
theorem canonical_streams_injective {KeyPair : Type} (primitives : Primitives KeyPair) :
    (∀ refs refs', (∀ r ∈ refs, ParsedRef r) → (∀ r ∈ refs', ParsedRef r) →
      (refStream refs = refStream refs' → refs = refs') ∧
      (canonicalRefDigest primitives refs = canonicalRefDigest primitives refs' → refs = refs' ∨
        refStream refs ≠ refStream refs' ∧
          primitives.sha256 (refStream refs) = primitives.sha256 (refStream refs'))) ∧
    (∀ objects objects', AcceptedObjects primitives objects → AcceptedObjects primitives objects' →
      (lfsStream objects = lfsStream objects' → objects = objects') ∧
      (canonicalLfsDigest primitives objects = canonicalLfsDigest primitives objects' →
        objects = objects' ∨ lfsStream objects ≠ lfsStream objects' ∧
          primitives.sha256 (lfsStream objects) = primitives.sha256 (lfsStream objects'))) := by
  have hhash : ∀ d d' : Digest, hexDigest d = hexDigest d' → d = d' := fun d d' h =>
    hexDigest_injective (congrArg String.toList h)
  constructor
  · intro refs refs' h h'
    refine ⟨refStream_injective h h', fun heq => ?_⟩
    by_cases hstream : refStream refs = refStream refs'
    · exact Or.inl (refStream_injective h h' hstream)
    · exact Or.inr ⟨hstream, hhash _ _ heq⟩
  · intro objects objects' h h'
    have hplain := plainObject_of_accepted h
    have hplain' := plainObject_of_accepted h'
    refine ⟨lfsStream_injective hplain hplain', fun heq => ?_⟩
    by_cases hstream : lfsStream objects = lfsStream objects'
    · exact Or.inl (lfsStream_injective hplain hplain' hstream)
    · exact Or.inr ⟨hstream, hhash _ _ heq⟩

end RatatoskrVault.Manifest
