import RatatoskrVault.Persistence.LfsRecords
import RatatoskrVault.Replication.ObjectKeys

/-! The copies of the digest codec: each module of the tables reads and writes digests with its
own, and the core with another. They are one codec. -/
namespace RatatoskrVault

section Bytes

def isAsciiDigit (byte : UInt8) : Bool := decide (48 ≤ byte ∧ byte ≤ 57)

def isAsciiLowercase (byte : UInt8) : Bool := decide (97 ≤ byte ∧ byte ≤ 122)

def isAsciiUppercase (byte : UInt8) : Bool := decide (65 ≤ byte ∧ byte ≤ 90)

def isAsciiHexdigit (byte : UInt8) : Bool :=
  isAsciiDigit byte || decide (65 ≤ byte ∧ byte ≤ 70) || decide (97 ≤ byte ∧ byte ≤ 102)

/-- The loop that pushes one byte for each pair of digits. -/
def pushPairs (bytes : Bytes) : List UInt8 → Option Bytes
  | high :: low :: rest =>
    match hexValue high with
    | none => none
    | some high =>
      match hexValue low with
      | none => none
      | some low => pushPairs (bytes ++ [(high <<< 4) ||| low]) rest
  | _ => some bytes

/-- 64 bytes of a kind, read by pairs. -/
def decodeGuarded (guarded : UInt8 → Bool) (pairs : List UInt8 → Option Bytes) (field : String)
    (text : String) : Except VaultError Bytes :=
  let digits := asBytes text
  if digits.length ≠ 64 || !digits.all guarded then .error (.invalidDelivery field)
  else
    match pairs digits with
    | none => .error (.invalidDelivery field)
    | some bytes => .ok bytes

/-- The digits of 32 bytes. -/
def encodeSized (bytes : Bytes) : Except VaultError String :=
  if bytes.length ≠ 32 then .error .storageFailed else .ok (encodeHex bytes)

end Bytes

namespace SnapshotRows

def decodeDigest : String → Except VaultError Bytes :=
  decodeGuarded (fun byte => isAsciiLowercase byte || isAsciiDigit byte) (pushPairs [])
    "snapshot_digest"

def encodeDigest : Bytes → Except VaultError String := encodeSized

end SnapshotRows

namespace ReplicationRows

def decodeDigest : String → Except VaultError Bytes := Adapter.decodeDigest

def encodeDigest : Bytes → Except VaultError String := encodeSized

end ReplicationRows

namespace RestoreRows

def decodeDigest : String → Except VaultError Bytes :=
  decodeGuarded (fun byte => isAsciiHexdigit byte && !isAsciiUppercase byte) decodePairs
    "restore_drill_report"

def encodeDigest : Bytes → Except VaultError String := encodeSized

end RestoreRows

namespace LfsRows

def decodeDigest : String → Except VaultError Bytes :=
  decodeGuarded (fun byte => isAsciiDigit byte || decide (97 ≤ byte ∧ byte ≤ 102)) decodePairs
    "lfs_collection_evidence"

end LfsRows

namespace RetentionRows

/-- `encode_hex` of the retention records and of their execution. -/
def encodeHex (bytes : Bytes) : String := RatatoskrVault.encodeHex bytes

end RetentionRows

/-- The copies of `decode_digest`. -/
def digestDecoders : List (String → Except VaultError Bytes) :=
  [SnapshotRows.decodeDigest, ReplicationRows.decodeDigest, RestoreRows.decodeDigest,
    LfsRows.decodeDigest]

/-- The copies of `encode_digest` and `encode_hex`. -/
def digestEncoders : List (Bytes → Except VaultError String) :=
  [fun bytes => .ok (encodeHex bytes), SnapshotRows.encodeDigest, ReplicationRows.encodeDigest,
    RestoreRows.encodeDigest, fun bytes => .ok (RetentionRows.encodeHex bytes)]

/-- 64 lowercase hexadecimal digits. -/
def IsDigestText (text : String) : Prop :=
  text.toList.length = 64 ∧ ∀ c ∈ text.toList, isHex c = true

section

variable {text : String} {bytes digits acc : Bytes} {guarded : UInt8 → Bool} {field : String}

theorem pushPairs_eq : pushPairs acc digits = (decodePairs digits).map (acc ++ ·) := by
  induction acc, digits using pushPairs.induct with
  | case1 acc high low rest hhigh => simp [pushPairs, decodePairs, hhigh]
  | case2 acc high low rest high' hhigh hlow => simp [pushPairs, decodePairs, hhigh, hlow]
  | case3 acc high low rest high' hhigh low' hlow ih =>
    rw [pushPairs, hhigh, hlow, decodePairs, hhigh, hlow]
    dsimp only
    rw [ih, Option.map_map]
    refine congrArg (Option.map · _) (funext fun bytes => ?_)
    exact List.append_assoc ..
  | case4 acc digits hshort =>
    rw [pushPairs, decodePairs]
    · simp
    · exact hshort
    · exact hshort

/-- A byte with a value is one of the sixteen digits. -/
theorem hexValue_isSome_iff {byte : UInt8} :
    (hexValue byte).isSome = true ↔ 48 ≤ byte ∧ byte ≤ 57 ∨ 97 ≤ byte ∧ byte ≤ 102 := by
  unfold hexValue
  split_ifs with hdigit hletter
  · simp [hdigit]
  · simp [hletter]
  · simp [hdigit, hletter]

theorem decodePairs_isSome_iff : ∀ {digits : List UInt8}, digits.length % 2 = 0 →
    ((decodePairs digits).isSome = true ↔ ∀ byte ∈ digits, (hexValue byte).isSome = true)
  | [], _ => by simp [decodePairs]
  | [_], hlength => by simp at hlength
  | high :: low :: rest, hlength => by
    have hrest : rest.length % 2 = 0 := by
      simp only [List.length_cons] at hlength
      omega
    have ih := decodePairs_isSome_iff hrest
    rw [decodePairs, List.forall_mem_cons, List.forall_mem_cons, ← ih]
    cases hexValue high with
    | none => simp
    | some high =>
      cases hexValue low with
      | none => simp
      | some low => simp

theorem isHex_iff {c : Char} : isHex c = true ↔
    ∀ byte ∈ String.utf8EncodeChar c, (hexValue byte).isSome = true := by
  constructor
  · intro h
    obtain ⟨n, hn, rfl⟩ := exists_hexDigit h
    obtain ⟨byte, hbyte, hvalue⟩ := hexValue_hexDigit n hn
    rw [hbyte, List.forall_mem_singleton, hvalue]
    rfl
  · intro h
    obtain ⟨byte, hmem⟩ := List.exists_mem_of_ne_nil _ (String.utf8EncodeChar_ne_nil (c := c))
    have hdigit := hexValue_isSome_iff.mp (h byte hmem)
    simp only [UInt8.le_iff_toNat_le] at hdigit
    have hbyte : byte.toNat < 128 := by
      rcases hdigit with ⟨-, hhigh⟩ | ⟨-, hhigh⟩ <;> exact Nat.lt_of_le_of_lt hhigh (by decide)
    have hchar := toNat_eq_of_mem_utf8EncodeChar hbyte hmem
    unfold isHex
    simp only [Bool.or_eq_true, Bool.and_eq_true, decide_eq_true_eq]
    rcases hdigit with ⟨hlow, hhigh⟩ | ⟨hlow, hhigh⟩
    · rw [← hchar] at hlow hhigh
      exact Or.inl ⟨hlow, hhigh⟩
    · rw [← hchar] at hlow hhigh
      exact Or.inr ⟨hlow, hhigh⟩

/-- A digest text in bytes. -/
theorem isDigestText_iff : IsDigestText text ↔
    (asBytes text).length = 64 ∧ ∀ byte ∈ asBytes text, (hexValue byte).isSome = true := by
  have hbytes : (∀ byte ∈ asBytes text, (hexValue byte).isSome = true) ↔
      ∀ c ∈ text.toList, isHex c = true := by
    unfold asBytes
    simp only [List.mem_flatMap, isHex_iff]
    exact ⟨fun h c hc byte hbyte => h byte ⟨c, hc, hbyte⟩,
      fun h byte ⟨c, hc, hbyte⟩ => h c hc byte hbyte⟩
  unfold IsDigestText
  rw [hbytes]
  constructor
  · rintro ⟨hlength, hhex⟩
    refine ⟨?_, hhex⟩
    rw [← hlength]
    exact length_bytes_of_digits hhex
  · rintro ⟨hlength, hhex⟩
    refine ⟨?_, hhex⟩
    rw [← hlength]
    exact (length_bytes_of_digits hhex).symm

theorem decodeHex_of_length (h : (asBytes text).length = 64) :
    decodeHex text = decodePairs (asBytes text) := by
  unfold decodeHex
  dsimp only
  rw [h, if_pos (by decide)]

/-- 64 bytes that are read by pairs are digits. -/
theorem isDigestText_of_decodePairs (hlength : (asBytes text).length = 64)
    (h : decodePairs (asBytes text) = some bytes) : IsDigestText text := by
  refine isDigestText_iff.mpr ⟨hlength, (decodePairs_isSome_iff (by rw [hlength])).mp ?_⟩
  rw [h]
  rfl

/-- A guard that every digit passes decides nothing. -/
theorem decodeGuarded_eq_ok {pairs : List UInt8 → Option Bytes}
    (hpairs : ∀ digits, pairs digits = decodePairs digits)
    (hguarded : ∀ byte, (hexValue byte).isSome = true → guarded byte = true) :
    decodeGuarded guarded pairs field text = .ok bytes ↔
      IsDigestText text ∧ decodeHex text = some bytes := by
  unfold decodeGuarded
  dsimp only
  rw [hpairs]
  constructor
  · intro h
    split_ifs at h with hrefused
    simp only [Bool.or_eq_true, decide_eq_true_eq, not_or, not_not] at hrefused
    cases hdecode : decodePairs (asBytes text) with
    | none =>
      rw [hdecode] at h
      exact nomatch h
    | some found =>
      rw [hdecode] at h
      rw [decodeHex_of_length hrefused.1, hdecode, Except.ok.inj h]
      exact ⟨isDigestText_of_decodePairs hrefused.1 hdecode, rfl⟩
  · rintro ⟨hdigest, hdecode⟩
    obtain ⟨hlength, hdigits⟩ := isDigestText_iff.mp hdigest
    have hall : (asBytes text).all guarded = true :=
      List.all_eq_true.mpr fun byte hbyte => hguarded byte (hdigits byte hbyte)
    rw [decodeHex_of_length hlength] at hdecode
    rw [hlength, hall, hdecode]
    rfl

theorem adapter_decodeDigest_eq_ok : Adapter.decodeDigest text = .ok bytes ↔
    IsDigestText text ∧ decodeHex text = some bytes := by
  unfold Adapter.decodeDigest
  dsimp only
  constructor
  · intro h
    split_ifs at h with hlength
    rw [not_not] at hlength
    cases hdecode : decodePairs (asBytes text) with
    | none =>
      rw [hdecode] at h
      exact nomatch h
    | some found =>
      rw [hdecode] at h
      rw [decodeHex_of_length hlength, hdecode, Except.ok.inj h]
      exact ⟨isDigestText_of_decodePairs hlength hdecode, rfl⟩
  · rintro ⟨hdigest, hdecode⟩
    obtain ⟨hlength, -⟩ := isDigestText_iff.mp hdigest
    rw [decodeHex_of_length hlength] at hdecode
    rw [if_neg (not_not.mpr hlength), hdecode]

/-- The numbers of the digits. -/
theorem toNat_of_hexValue {byte : UInt8} (h : (hexValue byte).isSome = true) :
    48 ≤ byte.toNat ∧ byte.toNat ≤ 57 ∨ 97 ≤ byte.toNat ∧ byte.toNat ≤ 102 :=
  hexValue_isSome_iff.mp h

theorem snapshot_guard {byte : UInt8} (h : (hexValue byte).isSome = true) :
    (isAsciiLowercase byte || isAsciiDigit byte) = true := by
  have hbyte := toNat_of_hexValue h
  unfold isAsciiLowercase isAsciiDigit
  simp only [Bool.or_eq_true, decide_eq_true_eq, UInt8.le_iff_toNat_le, UInt8.reduceToNat]
  omega

theorem restore_guard {byte : UInt8} (h : (hexValue byte).isSome = true) :
    (isAsciiHexdigit byte && !isAsciiUppercase byte) = true := by
  have hbyte := toNat_of_hexValue h
  unfold isAsciiHexdigit isAsciiDigit isAsciiUppercase
  simp only [Bool.and_eq_true, Bool.or_eq_true, Bool.not_eq_true', decide_eq_true_eq,
    decide_eq_false_iff_not, UInt8.le_iff_toNat_le, UInt8.reduceToNat]
  omega

theorem lfs_guard {byte : UInt8} (h : (hexValue byte).isSome = true) :
    (isAsciiDigit byte || decide (97 ≤ byte ∧ byte ≤ 102)) = true := by
  have hbyte := toNat_of_hexValue h
  unfold isAsciiDigit
  simp only [Bool.or_eq_true, decide_eq_true_eq, UInt8.le_iff_toNat_le, UInt8.reduceToNat]
  omega

/-- Every copy reads exactly the digests, as the core does. -/
theorem digestDecoders_eq_ok {decode : String → Except VaultError Bytes}
    (h : decode ∈ digestDecoders) :
    decode text = .ok bytes ↔ IsDigestText text ∧ decodeHex text = some bytes := by
  have hpush : ∀ digits, pushPairs [] digits = decodePairs digits := by
    intro digits
    rw [pushPairs_eq]
    exact Option.map_id'
  simp only [digestDecoders, List.mem_cons, List.not_mem_nil, or_false] at h
  rcases h with rfl | rfl | rfl | rfl
  · exact decodeGuarded_eq_ok hpush fun byte => snapshot_guard
  · exact adapter_decodeDigest_eq_ok
  · exact decodeGuarded_eq_ok (fun _ => rfl) fun byte => restore_guard
  · exact decodeGuarded_eq_ok (fun _ => rfl) fun byte => lfs_guard

theorem length_encodeHex (bytes : Bytes) :
    (encodeHex bytes).toList.length = 2 * bytes.length := by
  unfold encodeHex
  rw [String.toList_ofList]
  induction bytes with
  | nil => rfl
  | cons byte bytes ih =>
    rw [List.flatMap_cons, List.length_append, ih, List.length_cons]
    show 2 + 2 * bytes.length = 2 * (bytes.length + 1)
    omega

theorem isHex_of_mem_encodeHex {c : Char} (h : c ∈ (encodeHex bytes).toList) :
    isHex c = true := by
  have hdigit : ∀ n < 16, isHex (hexDigit n) = true := by decide
  unfold encodeHex at h
  rw [String.toList_ofList] at h
  obtain ⟨byte, -, hc⟩ := List.mem_flatMap.mp h
  have hbyte := byte.toNat_lt
  rcases List.mem_pair.mp hc with rfl | rfl
  · exact hdigit _ (by omega)
  · exact hdigit _ (by omega)

/-- What is written of 32 bytes is a digest text. -/
theorem isDigestText_encodeHex (h : bytes.length = 32) : IsDigestText (encodeHex bytes) := by
  refine ⟨?_, fun c => isHex_of_mem_encodeHex⟩
  rw [length_encodeHex, h]

/-- The core reads every digest text, and writes back the same text. -/
theorem decodeHex_of_isDigestText (h : IsDigestText text) :
    ∃ bytes, bytes.length = 32 ∧ decodeHex text = some bytes ∧ encodeHex bytes = text := by
  obtain ⟨hlength, hhex⟩ := h
  obtain ⟨bytes, hbytes, hdigits⟩ := decodePairs_digits text.toList hhex (by rw [hlength])
  have hlong : (asBytes text).length = 64 := by
    rw [← hlength]
    exact length_bytes_of_digits hhex
  refine ⟨bytes, ?_, ?_, String.toList_inj.mp hdigits⟩
  · have hcount := congrArg List.length hdigits
    rw [hlength, length_encodeHex] at hcount
    omega
  · rw [decodeHex_of_length hlong]
    exact hbytes

/-- Every copy writes 32 bytes as the core does. -/
theorem digestEncoders_eq_ok {encode : Bytes → Except VaultError String}
    (h : encode ∈ digestEncoders) (hlength : bytes.length = 32) :
    encode bytes = .ok (encodeHex bytes) := by
  have hsized : encodeSized bytes = .ok (encodeHex bytes) := if_neg (not_not.mpr hlength)
  simp only [digestEncoders, List.mem_cons, List.not_mem_nil, or_false] at h
  rcases h with rfl | rfl | rfl | rfl | rfl
  · rfl
  · exact hsized
  · exact hsized
  · exact hsized
  · rfl

end

/-- The number that 32 bytes are, most significant first. -/
def digestOfBytes (bytes : Bytes) : Digest :=
  BitVec.ofNat 256 (bytes.foldl (fun n byte => 256 * n + byte.toNat) 0)

/-- Two digits weigh as much as their byte. -/
theorem foldl_digits : ∀ {digits : List Char} (acc : ℕ), (∀ c ∈ digits, isHex c = true) →
    digits.length % 2 = 0 → ∃ values bytes, digits.mapM hexValue? = some values ∧
      decodePairs (digits.flatMap String.utf8EncodeChar) = some bytes ∧
      values.foldl (fun n value => 16 * n + value) acc =
        bytes.foldl (fun n byte => 256 * n + byte.toNat) acc
  | [], acc, _, _ => ⟨[], [], rfl, rfl, rfl⟩
  | [_], _, _, hlength => by simp at hlength
  | first :: second :: rest, acc, hhex, hlength => by
    obtain ⟨high, hhigh, rfl⟩ := exists_hexDigit (hhex first (by simp))
    obtain ⟨low, hlow, rfl⟩ := exists_hexDigit (hhex second (by simp))
    have hrest : rest.length % 2 = 0 := by
      simp only [List.length_cons] at hlength
      omega
    obtain ⟨values, bytes, hvalues, hbytes, hsum⟩ :=
      foldl_digits (16 * (16 * acc + high) + low) (fun c hc => hhex c (by simp [hc])) hrest
    obtain ⟨highByte, hhighByte, hhighValue⟩ := hexValue_hexDigit high hhigh
    obtain ⟨lowByte, hlowByte, hlowValue⟩ := hexValue_hexDigit low hlow
    obtain ⟨hdiv, hmod⟩ := nibbles high hhigh low hlow
    refine ⟨high :: low :: values, ((UInt8.ofNat high <<< 4) ||| UInt8.ofNat low) :: bytes,
      ?_, ?_, ?_⟩
    · simp [hexValue?_hexDigit hhigh, hexValue?_hexDigit hlow, hvalues]
    · simp only [List.flatMap_cons, hhighByte, hlowByte, List.cons_append, List.nil_append,
        decodePairs, hhighValue, hlowValue, hbytes, Option.map_some]
    · rw [List.foldl_cons, List.foldl_cons, List.foldl_cons, hsum]
      refine congrArg (List.foldl _ · bytes) ?_
      omega

/-- The codec of the typed tables is the same codec, up to the number of a digest. -/
theorem decodeDigest_eq (text : String) :
    decodeDigest text = (RestoreRows.decodeDigest text).toOption.map digestOfBytes := by
  have hdecode : RestoreRows.decodeDigest ∈ digestDecoders := by simp [digestDecoders]
  by_cases hdigest : IsDigestText text
  · obtain ⟨hlength, hhex⟩ := hdigest
    obtain ⟨values, bytes, hvalues, hbytes, hsum⟩ := foldl_digits 0 hhex (by rw [hlength])
    have hread : RestoreRows.decodeDigest text = .ok bytes := by
      refine (digestDecoders_eq_ok hdecode).mpr ⟨⟨hlength, hhex⟩, ?_⟩
      rw [decodeHex_of_length ((length_bytes_of_digits hhex).trans hlength)]
      exact hbytes
    unfold decodeDigest
    rw [if_pos hlength, hvalues, Option.map_some, hsum, hread]
    rfl
  · have hnone : decodeDigest text = none := by
      rw [← Option.not_isSome_iff_eq_none, Manifest.decodeDigest_isSome_iff]
      exact hdigest
    rw [hnone]
    cases hread : RestoreRows.decodeDigest text with
    | error e => rfl
    | ok bytes => exact absurd ((digestDecoders_eq_ok hdecode).mp hread).1 hdigest
/-- All copies of the digest codec are one codec: they read the digest texts and nothing else, to
the 32 bytes that the core reads, and what is written of 32 bytes is read back and written again
as it was. -/
theorem one_digest_codec :
    (∀ text, IsDigestText text ↔ ∃ bytes, bytes.length = 32 ∧ ∀ decode ∈ digestDecoders,
      decode text = .ok bytes) ∧
    (∀ decode ∈ digestDecoders, ∀ text bytes, decode text = .ok bytes →
      IsDigestText text ∧ bytes.length = 32 ∧ decodeHex text = some bytes ∧
        ∀ encode ∈ digestEncoders, encode bytes = .ok text) ∧
    (∀ encode ∈ digestEncoders, ∀ bytes, bytes.length = 32 → ∃ text,
      encode bytes = .ok text ∧ IsDigestText text ∧ decodeHex text = some bytes ∧
        ∀ decode ∈ digestDecoders, decode text = .ok bytes) := by
  refine ⟨fun text => ⟨fun h => ?_, fun h => ?_⟩, fun decode hmem text bytes h => ?_,
    fun encode hmem bytes hlength => ?_⟩
  · obtain ⟨bytes, hlength, hdecode, -⟩ := decodeHex_of_isDigestText h
    exact ⟨bytes, hlength, fun decode hmem => (digestDecoders_eq_ok hmem).mpr ⟨h, hdecode⟩⟩
  · obtain ⟨bytes, -, hall⟩ := h
    have hsnapshot := hall SnapshotRows.decodeDigest List.mem_cons_self
    exact ((digestDecoders_eq_ok List.mem_cons_self).mp hsnapshot).1
  · obtain ⟨hdigest, hdecode⟩ := (digestDecoders_eq_ok hmem).mp h
    obtain ⟨found, hlength, hfound, htext⟩ := decodeHex_of_isDigestText hdigest
    rw [hdecode] at hfound
    rw [← Option.some.inj hfound] at hlength htext
    refine ⟨hdigest, hlength, hdecode, fun encode hencode => ?_⟩
    rw [digestEncoders_eq_ok hencode hlength, htext]
  · have hdigest := isDigestText_encodeHex hlength
    have hread := decodeHex_encodeHex bytes
    exact ⟨encodeHex bytes, digestEncoders_eq_ok hmem hlength, hdigest, hread,
      fun decode hdecode => (digestDecoders_eq_ok hdecode).mpr ⟨hdigest, hread⟩⟩

end RatatoskrVault
