import RatatoskrVault.Blobstore.Replica
import RatatoskrVault.Core.Delivery
import RatatoskrVault.Replication.System

/-! The key of a replica object, as the adapter derives it, as the claim of a replication attempt
writes it in SQL, as a deletion claim names it, and as the placements table constrains it. -/
namespace RatatoskrVault.Adapter

open Lib

section Digests

def digestError : VaultError := .invalidDelivery "replica_digest"

def decodeDigest (encoded : String) : Except VaultError Bytes :=
  let bytes := asBytes encoded
  if bytes.length ≠ 64 then .error digestError
  else
    match decodePairs bytes with
    | none => .error digestError
    | some hash => .ok hash

end Digests

section Expressions

/-- `substr(text, 1, count)`. -/
def substr (text : String) (count : ℕ) : String := String.ofList (text.toList.take count)

/-- The key expression of `claim_replication_attempt`, where `encode(…, 'hex')` is `encodeHex`. -/
def claimedKey (keyPrefix : String) (sha256Hash : Bytes) : String :=
  (if keyPrefix = "" then "" else keyPrefix ++ "/") ++ "sha256/" ++
    substr (encodeHex sha256Hash) 2 ++ "/" ++ encodeHex sha256Hash

/-- What the claim of an attempt looks up among the physical claims, under a target's id. -/
def attemptIdentity (replicaTargetId keyPrefix : String) (sha256Hash : Bytes) : String :=
  replicaTargetId ++ ":" ++ claimedKey keyPrefix sha256Hash

/-- What the claim of an attempt locks. -/
def attemptLock (replicaTargetId keyPrefix : String) (sha256Hash : Bytes) : String :=
  "replica_key:" ++ replicaTargetId ++ ":" ++ claimedKey keyPrefix sha256Hash

/-- The `identity_key` of a deletion claim for a placement. -/
def deletionIdentity (replicaTargetId objectKey : String) : String :=
  replicaTargetId ++ ":" ++ objectKey

/-- `lock_physical_identity`. -/
def physicalLock (identityKind identityKey : String) : String := identityKind ++ ":" ++ identityKey

end Expressions

section Checks

def matchesClasses : List (Char → Bool) → List Char → Bool
  | [], [] => true
  | isClass :: classes, c :: text => isClass c && matchesClasses classes text
  | _, _ => false

/-- `sha256/[0-9a-f]{2}/[0-9a-f]{64}`. -/
def contentClasses : List (Char → Bool) :=
  ['s', 'h', 'a', '2', '5', '6', '/'].map (fun c => (· == c)) ++ List.replicate 2 isHex ++
    [(· == '/')] ++ List.replicate 64 isHex

/-- `(^|/)sha256/[0-9a-f]{2}/[0-9a-f]{64}$`. -/
def endsInContent (text : List Char) : Bool :=
  let front := text.take (text.length - 74)
  matchesClasses contentClasses (text.drop (text.length - 74)) &&
    (front.isEmpty || front.getLast? == some '/')

/-- `(^|/)\.\.(/|$)`. -/
def hasParentSegment (text : List Char) : Bool :=
  (text.splitOn '/').any fun segment => segment == ['.', '.']

/-- The check `replica_placements_object_key_is_content_derived`. -/
def objectKeyIsContentDerived (objectKey : String) : Bool :=
  let text := objectKey.toList
  decide (75 ≤ text.length ∧ text.length ≤ 512) && endsInContent text && !hasParentSegment text

def isNameStart (c : Char) : Bool := ('a' ≤ c && c ≤ 'z') || ('0' ≤ c && c ≤ '9')

/-- The checks of a row of `replica_targets`. -/
def replicaTargetChecks (row : ReplicaTarget) : Bool :=
  let name := row.name.toList
  let origin := row.endpointOrigin.toList
  let keyPrefix := row.keyPrefix.toList
  name.head?.any isNameStart && decide (name.length ≤ 63) &&
    (name.all fun c => isNameStart c || c == '_' || c == '-') &&
    decide (8 ≤ origin.length ∧ origin.length ≤ 512) &&
    !(origin.any fun c => c == '@' || c == '?' || c == '#') &&
    decide (1 ≤ row.bucket.toList.length ∧ row.bucket.toList.length ≤ 255) &&
    decide (keyPrefix.length ≤ 255) && !hasParentSegment keyPrefix &&
    keyPrefix.head? != some '/' && keyPrefix.getLast? != some '/'

/-- `observe_replica_target` writes the row. -/
def observes (observation : ReplicaTarget) : Bool :=
  Replication.validateTarget observation && replicaTargetChecks observation

/-- `record_verified_replica` has nothing against the key. -/
def recordsKey (objectKey : String) : Bool :=
  !objectKey.isEmpty && objectKeyIsContentDerived objectKey

end Checks

/-- All derivations of the key of an uploaded object agree, and its placement can be recorded. -/
def KeysAgree (replicaTargetId keyPrefix : String) (reference : BlobRef) : Prop :=
  ∃ key hash, objectKey (trimSlashes keyPrefix) reference = .ok key ∧
    decodeDigest reference.sha256 = .ok hash ∧ claimedKey keyPrefix hash = key ∧
    deletionIdentity replicaTargetId key = attemptIdentity replicaTargetId keyPrefix hash ∧
    physicalLock "replica_key" (deletionIdentity replicaTargetId key) =
      attemptLock replicaTargetId keyPrefix hash ∧
    recordsKey key = true

/-- No segment of the prefix is empty or stands for the directory itself. -/
def PlainSegments (keyPrefix : String) : Prop :=
  ∀ segment ∈ keyPrefix.toList.splitOn '/', segment ≠ [] ∧ segment ≠ ['.']

section Digests

theorem decodeDigest_of_valid {text : String} (h : validDigest text = true) :
    ∃ hash, decodeDigest text = .ok hash ∧ encodeHex hash = text := by
  unfold validDigest at h
  simp only [Bool.and_eq_true, beq_iff_eq, List.all_eq_true] at h
  obtain ⟨hlength, hhex⟩ := h
  obtain ⟨hash, hhash, hdigits⟩ := decodePairs_digits text.toList hhex (by omega)
  refine ⟨hash, ?_, String.toList_inj.mp hdigits⟩
  unfold decodeDigest asBytes
  simp only [length_bytes_of_digits hhex, hlength, hhash, ne_eq, not_true, if_false]

end Digests

section Prefixes

theorem dropWhile_eq_self {α : Type} {p : α → Bool} {a : α} (hp : ∀ x, p x = true → x = a) :
    ∀ {text : List α}, text.head? ≠ some a → text.dropWhile p = text
  | [], _ => rfl
  | x :: text, h => by
    have hx : p x = false := by
      by_contra hne
      rw [Bool.not_eq_false] at hne
      exact h (congrArg some (hp x hne))
    rw [List.dropWhile_cons_of_neg (by simp [hx])]

theorem trimSlashes_eq {text : String} (hhead : text.toList.head? ≠ some '/')
    (hlast : text.toList.getLast? ≠ some '/') : trimSlashes text = text := by
  have hslash (c : Char) (h : (c == '/') = true) : c = '/' := by simpa using h
  have hreverse : text.toList.reverse.head? ≠ some '/' := by rwa [List.head?_reverse]
  unfold trimSlashes
  simp only [dropWhile_eq_self hslash hhead, dropWhile_eq_self hslash hreverse, List.reverse_reverse,
    String.ofList_toList]

/-- The content part of a key. -/
def contentPart (digest : String) : List Char :=
  ['s', 'h', 'a', '2', '5', '6', '/'] ++ digest.toList.take 2 ++ '/' :: digest.toList

theorem matchesClasses_append {classes classes' : List (Char → Bool)} {text text' : List Char}
    (h : matchesClasses classes text = true) (h' : matchesClasses classes' text' = true) :
    matchesClasses (classes ++ classes') (text ++ text') = true := by
  induction classes generalizing text with
  | nil =>
    cases text with
    | nil => exact h'
    | cons c text => exact nomatch h
  | cons isClass classes ih =>
    cases text with
    | nil => exact nomatch h
    | cons c text =>
      simp only [matchesClasses, Bool.and_eq_true] at h
      simp only [List.cons_append, matchesClasses, Bool.and_eq_true]
      exact ⟨h.1, ih h.2⟩

theorem matchesClasses_replicate {isClass : Char → Bool} {text : List Char}
    (h : ∀ c ∈ text, isClass c = true) :
    matchesClasses (List.replicate text.length isClass) text = true := by
  induction text with
  | nil => rfl
  | cons c text ih =>
    simp only [List.length_cons, List.replicate_succ, matchesClasses, Bool.and_eq_true]
    exact ⟨h c (by simp), ih fun c' hc => h c' (by simp [hc])⟩

variable {digest : String}

theorem length_of_validDigest (h : validDigest digest = true) : digest.toList.length = 64 := by
  unfold validDigest at h
  simp only [Bool.and_eq_true, beq_iff_eq] at h
  exact h.1

theorem isHex_of_validDigest (h : validDigest digest = true) :
    ∀ c ∈ digest.toList, isHex c = true := by
  unfold validDigest at h
  simp only [Bool.and_eq_true, List.all_eq_true] at h
  exact h.2

theorem length_contentPart (h : validDigest digest = true) : (contentPart digest).length = 74 := by
  have hlength := length_of_validDigest h
  rw [contentPart, List.length_append, List.length_append, List.length_take, List.length_cons (a := '/'),
    hlength]
  rfl

theorem matchesClasses_contentPart (h : validDigest digest = true) :
    matchesClasses contentClasses (contentPart digest) = true := by
  have hlength := length_of_validDigest h
  have hhex := isHex_of_validDigest h
  have hshard : (digest.toList.take 2).length = 2 := by
    rw [List.length_take, hlength]
    rfl
  have hname : matchesClasses (['s', 'h', 'a', '2', '5', '6', '/'].map fun c => (· == c))
      ['s', 'h', 'a', '2', '5', '6', '/'] = true := rfl
  have hfirst : matchesClasses (List.replicate (digest.toList.take 2).length isHex)
      (digest.toList.take 2) = true :=
    matchesClasses_replicate fun c hc => hhex c (List.mem_of_mem_take hc)
  have hall : matchesClasses (List.replicate digest.toList.length isHex) digest.toList = true :=
    matchesClasses_replicate hhex
  rw [hshard] at hfirst
  rw [hlength] at hall
  have hslash : matchesClasses [(· == '/')] ['/'] = true := rfl
  have hcontent := matchesClasses_append
    (matchesClasses_append (matchesClasses_append hname hfirst) hslash) hall
  rw [List.append_assoc _ ['/']] at hcontent
  exact hcontent

theorem isHex_ne_slash {c : Char} (h : isHex c = true) : (c == '/') = false := by
  by_contra hne
  rw [Bool.not_eq_false, beq_iff_eq] at hne
  rw [hne] at h
  exact nomatch h

/-- The segments of the content part: the directory, the shard and the digest. -/
theorem splitOn_contentPart (h : validDigest digest = true) :
    (contentPart digest).splitOn '/' =
      [['s', 'h', 'a', '2', '5', '6'], digest.toList.take 2, digest.toList] := by
  have hhex := isHex_of_validDigest h
  have hdirectory : ∀ c ∈ ['s', 'h', 'a', '2', '5', '6'], (c == '/') = false := by simp
  have hcontent : contentPart digest =
      ['s', 'h', 'a', '2', '5', '6'] ++ '/' :: (digest.toList.take 2 ++ '/' :: digest.toList) := rfl
  rw [List.splitOn_eq_splitOnP, hcontent,
    List.splitOnP_append_cons_of_forall_mem hdirectory '/' rfl,
    List.splitOnP_append_cons_of_forall_mem
      (fun c hc => isHex_ne_slash (hhex c (List.mem_of_mem_take hc))) '/' rfl,
    List.splitOnP_eq_singleton fun c hc => isHex_ne_slash (hhex c hc)]

theorem hasParentSegment_contentPart (h : validDigest digest = true) :
    hasParentSegment (contentPart digest) = false := by
  have hlength := length_of_validDigest h
  have hhex := isHex_of_validDigest h
  have hdirectory : (['s', 'h', 'a', '2', '5', '6'] == ['.', '.']) = false := rfl
  have hnotHex {text : List Char} (htext : ∀ c ∈ text, isHex c = true) :
      (text == ['.', '.']) = false := by
    by_contra hne
    rw [Bool.not_eq_false, beq_iff_eq] at hne
    have hdot := htext '.' (by simp [hne])
    exact nomatch hdot
  unfold hasParentSegment
  simp only [splitOn_contentPart h, List.any_cons, List.any_nil, hdirectory, hnotHex hhex,
    hnotHex fun c hc => hhex c (List.mem_of_mem_take hc), Bool.or_false]

theorem hasParentSegment_append (front rest : List Char) :
    hasParentSegment (front ++ '/' :: rest) = (hasParentSegment front || hasParentSegment rest) := by
  have hslash : ('/' == '/') = true := rfl
  unfold hasParentSegment
  rw [List.splitOn_eq_splitOnP, List.splitOn_eq_splitOnP, List.splitOn_eq_splitOnP,
    List.splitOnP_append_cons (p := (· == '/')) front rest hslash, List.any_append]

theorem endsInContent_append (h : validDigest digest = true) (front : List Char) :
    endsInContent (front ++ ['/'] ++ contentPart digest) = true := by
  have hfront : (front ++ ['/'] ++ contentPart digest).length - 74 = (front ++ ['/']).length := by
    rw [List.length_append, length_contentPart h, Nat.add_sub_cancel]
  unfold endsInContent
  rw [hfront, List.take_left, List.drop_left, matchesClasses_contentPart h]
  simp

end Prefixes

section Agreement

variable {keyPrefix : String} {reference : BlobRef}

/-- What the table of targets has checked of a stored prefix. -/
theorem checked_of_observes {observation : ReplicaTarget} (h : observes observation = true) :
    observation.keyPrefix.toList.length ≤ 255 ∧
      hasParentSegment observation.keyPrefix.toList = false ∧
      observation.keyPrefix.toList.head? ≠ some '/' ∧
      observation.keyPrefix.toList.getLast? ≠ some '/' := by
  unfold observes replicaTargetChecks at h
  simp only [Bool.and_eq_true, decide_eq_true_eq, Bool.not_eq_true', bne_iff_ne] at h
  exact ⟨h.2.1.1.1.2, h.2.1.1.2, h.2.1.2, h.2.2⟩

theorem validKeyPrefix_iff (hparent : hasParentSegment keyPrefix.toList = false) :
    validKeyPrefix keyPrefix = true ↔ keyPrefix = "" ∨ PlainSegments keyPrefix := by
  unfold validKeyPrefix PlainSegments
  unfold hasParentSegment at hparent
  simp only [Bool.or_eq_true, String.isEmpty_iff, List.all_eq_true, Bool.and_eq_true, bne_iff_ne]
  refine or_congr_right (forall₂_congr fun segment hsegment => ?_)
  have hne : segment ≠ ['.', '.'] := by
    have hall := List.any_eq_false.mp hparent segment hsegment
    simpa using hall
  simp [hne]

/-- The two texts of one key. -/
theorem claimedKey_eq {hash : Bytes} (hhash : encodeHex hash = reference.sha256)
    (hvalid : validKeyPrefix keyPrefix = true) :
    objectKey keyPrefix reference = .ok (claimedKey keyPrefix hash) := by
  unfold objectKey claimedKey substr
  rw [if_pos hvalid, hhash]
  by_cases hempty : keyPrefix = ""
  · simp [hempty, String.append_assoc]
  · simp [hempty, String.append_assoc]

/-- The characters of a key. -/
theorem claimedKey_toList {hash : Bytes} (hhash : encodeHex hash = reference.sha256) :
    (claimedKey keyPrefix hash).toList =
      (if keyPrefix = "" then [] else keyPrefix.toList ++ ['/']) ++ contentPart reference.sha256 := by
  have hname : "sha256/".toList = ['s', 'h', 'a', '2', '5', '6', '/'] := by decide +kernel
  have hslash : "/".toList = ['/'] := by decide +kernel
  unfold claimedKey substr contentPart
  rw [hhash]
  split_ifs
  · simp [hname, hslash]
  · simp [hname, hslash]

/-- A key can be recorded exactly if it has a prefix. -/
theorem recordsKey_iff {hash : Bytes} (hhash : encodeHex hash = reference.sha256)
    (hdigest : validDigest reference.sha256 = true) (hlength : keyPrefix.toList.length ≤ 255)
    (hparent : hasParentSegment keyPrefix.toList = false) :
    recordsKey (claimedKey keyPrefix hash) = true ↔ keyPrefix ≠ "" := by
  have hcontent := length_contentPart hdigest
  have hkey : (claimedKey keyPrefix hash).toList =
      (if keyPrefix = "" then [] else keyPrefix.toList ++ ['/']) ++ contentPart reference.sha256 :=
    claimedKey_toList hhash
  unfold recordsKey objectKeyIsContentDerived
  constructor
  · intro h hempty
    rw [if_pos hempty, List.nil_append] at hkey
    simp only [hkey, hcontent, Bool.and_eq_true, decide_eq_true_eq] at h
    omega
  · intro hne
    rw [if_neg hne] at hkey
    have hpositive : 0 < keyPrefix.toList.length := by
      refine List.length_pos_iff.mpr fun hnil => hne (String.toList_inj.mp ?_)
      simpa using hnil
    have htext : (claimedKey keyPrefix hash).toList.length = keyPrefix.toList.length + 1 + 74 := by
      rw [hkey, List.length_append, List.length_append, hcontent]
      rfl
    have hnonempty : (claimedKey keyPrefix hash).isEmpty = false := by
      rw [← Bool.not_eq_true, String.isEmpty_iff]
      intro hempty
      rw [hempty] at htext
      simp at htext
    have hends : endsInContent (claimedKey keyPrefix hash).toList = true := by
      rw [hkey]
      exact endsInContent_append hdigest _
    have hnone : hasParentSegment (claimedKey keyPrefix hash).toList = false := by
      rw [hkey, List.append_assoc, List.singleton_append, hasParentSegment_append, hparent,
        hasParentSegment_contentPart hdigest]
      rfl
    simp only [hnonempty, hends, hnone, Bool.not_false, Bool.true_and, Bool.and_true,
      decide_eq_true_eq]
    omega

/-- The startup rules and the observation of a target accept the prefix. -/
def AcceptedPrefix (loopbackIp : String → Bool) (keyPrefix : String) : Prop :=
  (∃ targets, replicaViolations loopbackIp targets = [] ∧
    ∃ target ∈ targets, target.enabled = true ∧ target.keyPrefix = keyPrefix) ∧
  ∃ observation, observes observation = true ∧ observation.keyPrefix = keyPrefix

/-- For every prefix that is accepted, the derivations of an object's key agree and its placement
can be recorded exactly if the prefix is not empty and its segments are plain. -/
theorem keys_agree_iff (loopbackIp : String → Bool) (keyPrefix : String)
    (haccepted : AcceptedPrefix loopbackIp keyPrefix) (reference : BlobRef)
    (hdigest : validDigest reference.sha256 = true) (replicaTargetId : String) :
    KeysAgree replicaTargetId keyPrefix reference ↔
      keyPrefix ≠ "" ∧ PlainSegments keyPrefix := by
  obtain ⟨-, observation, hobserves, hnamed⟩ := haccepted
  obtain ⟨hlength, hparent, hhead, hlast⟩ := checked_of_observes hobserves
  rw [hnamed] at hlength hparent hhead hlast
  obtain ⟨hash, hdecode, hhash⟩ := decodeDigest_of_valid hdigest
  have htrim := trimSlashes_eq hhead hlast
  have hrecords : recordsKey (claimedKey keyPrefix hash) = true ↔ keyPrefix ≠ "" :=
    recordsKey_iff hhash hdigest hlength hparent
  constructor
  · rintro ⟨key, hash', hkey, hdecode', hclaimed, -, -, hrecorded⟩
    have hsame : hash' = hash := Except.ok.inj (hdecode'.symm.trans hdecode)
    rw [← hclaimed, hsame] at hrecorded
    have hne := hrecords.mp hrecorded
    refine ⟨hne, ?_⟩
    rw [htrim] at hkey
    have hvalid : validKeyPrefix keyPrefix = true := by
      unfold objectKey at hkey
      split_ifs at hkey <;> assumption
    exact ((validKeyPrefix_iff hparent).mp hvalid).resolve_left hne
  · rintro ⟨hne, hplain⟩
    have hvalid := (validKeyPrefix_iff hparent).mpr (.inr hplain)
    refine ⟨claimedKey keyPrefix hash, hash, ?_, hdecode, rfl, rfl, ?_, hrecords.mpr hne⟩
    · rw [htrim]
      exact claimedKey_eq hhash hvalid
    · unfold physicalLock deletionIdentity attemptLock
      simp [String.append_assoc]

end Agreement

namespace Sample

/-- A target that is configured like the example of the environment file, but for its prefix. -/
def target (keyPrefix : String) : ReplicaTargetConfig :=
  { endpoint :=
      { scheme := "https"
        username := ""
        password := none
        host := some "replica.example"
        path := "/"
        query := none
        fragment := none }
    bucket := "vault"
    region := "eu-1"
    keyPrefix
    accessKey := "key"
    secretAccessKey := "secret"
    connectTimeoutSeconds := 5
    requestTimeoutSeconds := 60
    attemptTimeoutSeconds := 30
    maxObjectBytes := 1000
    maxBacklogItems := 10
    maxBacklogBytes := 1000
    maxConcurrent := 1 }

def observation (keyPrefix : String) : ReplicaTarget :=
  { replicaTargetId := 0
    name := "offsite"
    endpointOrigin := "https://replica.example"
    bucket := "vault"
    keyPrefix
    required := true
    enabled := true }

def bundle : BlobRef :=
  { owner := owner
    sha256 := hexDigest 0
    mediaType := "application/x-git-bundle"
    sizeBytes := 2 }

end Sample

theorem keys_agree_iff_vault :
    KeysAgree "t" "vault" Sample.bundle ↔ "vault" ≠ "" ∧ PlainSegments "vault" :=
  keys_agree_iff (fun _ => false) "vault"
    ⟨⟨[Sample.target "vault"], by decide +kernel, _, List.mem_singleton_self _, rfl, rfl⟩,
      Sample.observation "vault", by decide +kernel, rfl⟩
    Sample.bundle (by decide +kernel) "t"

/-- Without a prefix the key has 74 characters, and the table asks for 75. -/
theorem no_prefix_is_refused :
    AcceptedPrefix (fun _ => false) "" ∧ validDigest Sample.bundle.sha256 = true ∧
      ¬KeysAgree "t" "" Sample.bundle := by
  refine ⟨⟨⟨[Sample.target ""], by decide +kernel, _, List.mem_singleton_self _, rfl, rfl⟩,
    Sample.observation "", by decide +kernel, rfl⟩, by decide +kernel, ?_⟩
  rintro ⟨key, hash, hkey, -, -, -, -, hrecords⟩
  have hrefused : (objectKey (trimSlashes "") Sample.bundle).toOption.all recordsKey = false := by
    decide +kernel
  simp [hkey, Except.toOption, hrecords] at hrefused

end RatatoskrVault.Adapter
