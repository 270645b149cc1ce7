import RatatoskrVault.Core.Snapshot

/-! Lowercase hexadecimal texts: digit pairs are bytes, and reading and writing undo each other. -/
namespace RatatoskrVault

def hexValue (byte : UInt8) : Option UInt8 :=
  if 48 ≤ byte ∧ byte ≤ 57 then some (byte - 48)
  else if 97 ≤ byte ∧ byte ≤ 102 then some (byte - 97 + 10)
  else none

def decodePairs : List UInt8 → Option Bytes
  | high :: low :: rest =>
    match hexValue high, hexValue low with
    | some high, some low => (decodePairs rest).map (((high <<< 4) ||| low) :: ·)
    | _, _ => none
  | _ => some []

/-- The bytes of a text. -/
def asBytes (text : String) : Bytes := text.toList.flatMap String.utf8EncodeChar

def decodeHex (encoded : String) : Option Bytes :=
  let bytes := asBytes encoded
  if bytes.length % 2 = 0 then decodePairs bytes else none

/-- Two digits for each byte. -/
def encodeHex (bytes : Bytes) : String :=
  String.ofList (bytes.flatMap fun byte =>
    [hexDigit (byte.toNat / 16), hexDigit (byte.toNat % 16)])

def isHex (c : Char) : Bool := ('0' ≤ c && c ≤ '9') || ('a' ≤ c && c ≤ 'f')

theorem exists_hexDigit {c : Char} (h : isHex c = true) : ∃ n < 16, c = hexDigit n := by
  have hchar : c = Char.ofNat c.toNat := (Char.ofNat_toNat c).symm
  simp only [isHex, Bool.or_eq_true, Bool.and_eq_true, decide_eq_true_eq] at h
  rcases h with ⟨hlow, hhigh⟩ | ⟨hlow, hhigh⟩
  · have hlow' : 48 ≤ c.toNat := hlow
    have hhigh' : c.toNat ≤ 57 := hhigh
    refine ⟨c.toNat - 48, by omega, ?_⟩
    rw [hexDigit, if_pos (by omega), Nat.add_sub_cancel' hlow']
    exact hchar
  · have hlow' : 97 ≤ c.toNat := hlow
    have hhigh' : c.toNat ≤ 102 := hhigh
    refine ⟨c.toNat - 87, by omega, ?_⟩
    rw [hexDigit, if_neg (by omega), Nat.add_sub_cancel' (by omega)]
    exact hchar

/-- A byte below 128 of an encoded character is the character. -/
theorem toNat_eq_of_mem_utf8EncodeChar {c : Char} {b : UInt8} (hb : b.toNat < 128)
    (h : b ∈ String.utf8EncodeChar c) : c.toNat = b.toNat := by
  have hlead : ∀ n k : ℕ, n % 64 + 128 = k → (UInt8.ofNat k).toNat < 128 → False := by
    intro n k hk hlt
    rw [UInt8.toNat_ofNat'] at hlt
    omega
  unfold String.utf8EncodeChar at h
  simp only at h
  split_ifs at h with h1 h2 h3
  · rw [List.mem_singleton] at h
    rw [h, UInt8.toNat_ofNat', Nat.mod_eq_of_lt (by omega)]
    rfl
  · simp only [List.mem_cons, List.not_mem_nil, or_false] at h
    exfalso
    rcases h with rfl | rfl
    · rw [UInt8.toNat_ofNat'] at hb
      omega
    · exact hlead _ _ rfl hb
  · simp only [List.mem_cons, List.not_mem_nil, or_false] at h
    exfalso
    rcases h with rfl | rfl | rfl
    · rw [UInt8.toNat_ofNat'] at hb
      omega
    · exact hlead _ _ rfl hb
    · exact hlead _ _ rfl hb
  · simp only [List.mem_cons, List.not_mem_nil, or_false] at h
    exfalso
    rcases h with rfl | rfl | rfl | rfl
    · rw [UInt8.toNat_ofNat'] at hb
      omega
    · exact hlead _ _ rfl hb
    · exact hlead _ _ rfl hb
    · exact hlead _ _ rfl hb

theorem hexValue_hexDigit : ∀ n < 16, ∃ byte, String.utf8EncodeChar (hexDigit n) = [byte] ∧
    hexValue byte = some (UInt8.ofNat n) := by
  intro n hn
  have hall : ∀ n < 16, String.utf8EncodeChar (hexDigit n) = [UInt8.ofNat (hexDigit n).toNat] ∧
      hexValue (UInt8.ofNat (hexDigit n).toNat) = some (UInt8.ofNat n) := by decide
  exact ⟨_, hall n hn⟩

theorem nibbles : ∀ high < 16, ∀ low < 16,
    ((UInt8.ofNat high <<< 4) ||| UInt8.ofNat low).toNat / 16 = high ∧
      ((UInt8.ofNat high <<< 4) ||| UInt8.ofNat low).toNat % 16 = low := by decide

/-- Hexadecimal digits are decoded to bytes that are encoded to the same digits. -/
theorem decodePairs_digits : ∀ (digits : List Char), (∀ c ∈ digits, isHex c = true) →
    digits.length % 2 = 0 → ∃ bytes, decodePairs (digits.flatMap String.utf8EncodeChar) = some bytes ∧
      (encodeHex bytes).toList = digits
  | [], _, _ => ⟨[], rfl, rfl⟩
  | [_], _, hlength => by simp at hlength
  | first :: second :: rest, hhex, hlength => by
    obtain ⟨high, hhigh, rfl⟩ := exists_hexDigit (hhex first (by simp))
    obtain ⟨low, hlow, rfl⟩ := exists_hexDigit (hhex second (by simp))
    have hrest : rest.length % 2 = 0 := by
      simp only [List.length_cons] at hlength
      omega
    obtain ⟨bytes, hbytes, hdigits⟩ :=
      decodePairs_digits rest (fun c hc => hhex c (by simp [hc])) hrest
    obtain ⟨highByte, hhighByte, hhighValue⟩ := hexValue_hexDigit high hhigh
    obtain ⟨lowByte, hlowByte, hlowValue⟩ := hexValue_hexDigit low hlow
    obtain ⟨hdiv, hmod⟩ := nibbles high hhigh low hlow
    refine ⟨((UInt8.ofNat high <<< 4) ||| UInt8.ofNat low) :: bytes, ?_, ?_⟩
    · simp only [List.flatMap_cons, hhighByte, hlowByte, List.cons_append, List.nil_append,
        decodePairs, hhighValue, hlowValue, hbytes, Option.map_some]
    · simp only [encodeHex, String.toList_ofList] at hdigits
      simp only [encodeHex, String.toList_ofList, List.flatMap_cons, hdiv, hmod, hdigits,
        List.cons_append, List.nil_append]

theorem length_bytes_of_digits {digits : List Char} (h : ∀ c ∈ digits, isHex c = true) :
    (digits.flatMap String.utf8EncodeChar).length = digits.length := by
  induction digits with
  | nil => rfl
  | cons c digits ih =>
    obtain ⟨n, hn, rfl⟩ := exists_hexDigit (h c (by simp))
    obtain ⟨byte, hbyte, -⟩ := hexValue_hexDigit n hn
    rw [List.flatMap_cons, hbyte, List.length_append, ih fun c hc => h c (by simp [hc])]
    simp [Nat.add_comm]

theorem byte_of_nibbles (byte : UInt8) :
    (UInt8.ofNat (byte.toNat / 16) <<< 4) ||| UInt8.ofNat (byte.toNat % 16) = byte := by
  have hbyte := byte.toNat_lt
  obtain ⟨hdiv, hmod⟩ := nibbles (byte.toNat / 16) (by omega) (byte.toNat % 16) (by omega)
  refine UInt8.toNat_inj.mp ?_
  omega

/-- What is written is read back. -/
theorem decodeHex_encodeHex (bytes : Bytes) : decodeHex (encodeHex bytes) = some bytes := by
  have hpairs : (asBytes (encodeHex bytes)).length = 2 * bytes.length ∧
      decodePairs (asBytes (encodeHex bytes)) = some bytes := by
    unfold asBytes encodeHex
    rw [String.toList_ofList]
    induction bytes with
    | nil => exact ⟨rfl, rfl⟩
    | cons byte bytes ih =>
      have hbyte := byte.toNat_lt
      obtain ⟨high, hhigh, hhighValue⟩ := hexValue_hexDigit (byte.toNat / 16) (by omega)
      obtain ⟨low, hlow, hlowValue⟩ := hexValue_hexDigit (byte.toNat % 16) (by omega)
      simp only [List.flatMap_cons, hhigh, hlow, List.cons_append, List.nil_append,
        List.length_cons, decodePairs, hhighValue, hlowValue, ih.2, Option.map_some,
        byte_of_nibbles]
      exact ⟨by omega, trivial⟩
  unfold decodeHex
  simp only [hpairs.1, Nat.mul_mod_right, if_true]
  exact hpairs.2

end RatatoskrVault
