import RatatoskrVault.Gitrunner.Runner
import RatatoskrVault.Lib.Utf8

/-! The excerpt of an output that a typed failure carries. -/
namespace RatatoskrVault

open Lib Utf8
open String (utf8EncodeChar)

/-- `String::from_utf8_lossy`. -/
def fromUtf8Lossy (bytes : Bytes) : String := String.ofList (lossy bytes)

/-- The longest valid prefix within the bound; where no valid prefix has a byte, all that the bound
admits, read without refusal. -/
def boundedExcerpt (captured : Bytes) (maxBytes : ℕ) : String :=
  let stop := min captured.length maxBytes
  let longestValid := (List.range (stop + 1)).reverse.find? fun cut =>
    (fromUtf8 (captured.take cut)).isSome
  match longestValid with
  | some cut =>
    if 0 < cut then fromUtf8Lossy (captured.take cut) else fromUtf8Lossy (captured.take stop)
  | none => fromUtf8Lossy (captured.take stop)

/-- No character of the capture begins before the cut and ends after it. -/
def CutsBetween (captured : Bytes) (cut : ℕ) : Prop :=
  ∀ before c after, captured = before ++ (utf8EncodeChar c ++ after) →
    cut ≤ before.length ∨ before.length + (utf8EncodeChar c).length ≤ cut

/-- A text within the bound that shows a prefix of the capture, cut between characters. -/
structure IsExcerpt (captured : Bytes) (maxBytes : ℕ) (text : String) : Prop where
  bounded : (asBytes text).length ≤ maxBytes
  shows : ∃ cut ≤ captured.length, text = fromUtf8Lossy (captured.take cut) ∧
    CutsBetween captured cut

/-- The capture begins with a character within the bound; or what the bound admits is cut between
characters and leaves room for the replacement characters in it. -/
def Excerptable (captured : Bytes) (maxBytes : ℕ) : Prop :=
  (∃ c after, captured = utf8EncodeChar c ++ after ∧ (utf8EncodeChar c).length ≤ maxBytes) ∨
    (captured.take maxBytes).length + growth (captured.take maxBytes) ≤ maxBytes ∧
      CutsBetween captured maxBytes

theorem asBytes_fromUtf8Lossy (bytes : Bytes) :
    asBytes (fromUtf8Lossy bytes) = (lossy bytes).flatMap utf8EncodeChar := by
  unfold asBytes fromUtf8Lossy
  rw [String.toList_ofList]

theorem length_asBytes_fromUtf8Lossy (bytes : Bytes) :
    (asBytes (fromUtf8Lossy bytes)).length = bytes.length + growth bytes := by
  rw [asBytes_fromUtf8Lossy, length_lossy]

theorem lossy_eq_of_fromUtf8Lossy {bytes bytes' : Bytes}
    (h : fromUtf8Lossy bytes = fromUtf8Lossy bytes') : lossy bytes = lossy bytes' := by
  have hlist := congrArg String.toList h
  unfold fromUtf8Lossy at hlist
  rwa [String.toList_ofList, String.toList_ofList] at hlist

theorem isSome_fromUtf8 {bytes : Bytes} :
    (fromUtf8 bytes).isSome ↔ ∃ chars : List Char, pieces bytes = chars.map Piece.char := by
  constructor
  · intro h
    obtain ⟨text, htext⟩ := Option.isSome_iff_exists.mp h
    exact ⟨text.toList, pieces_eq_map_char.mpr (eq_flatMap_of_fromUtf8 htext)⟩
  · rintro ⟨chars, hchars⟩
    have hvalid := fromUtf8_asBytes (String.ofList chars)
    unfold asBytes at hvalid
    rw [String.toList_ofList, ← pieces_eq_map_char.mp hchars] at hvalid
    rw [hvalid]
    rfl

/-- The two ways to an excerpt. -/
theorem boundedExcerpt_cases (captured : Bytes) (maxBytes : ℕ) :
    (∃ (cut : ℕ) (chars : List Char), 0 < cut ∧ cut ≤ min captured.length maxBytes ∧
        pieces (captured.take cut) = chars.map Piece.char ∧
        boundedExcerpt captured maxBytes = fromUtf8Lossy (captured.take cut)) ∨
      (∀ (cut : ℕ) (chars : List Char), 0 < cut → cut ≤ min captured.length maxBytes →
        pieces (captured.take cut) ≠ chars.map Piece.char) ∧
        boundedExcerpt captured maxBytes = fromUtf8Lossy (captured.take maxBytes) := by
  unfold boundedExcerpt
  simp only
  rw [List.range_succ_eq_map, List.reverse_cons, List.find?_append]
  cases hfind : (List.map Nat.succ (List.range (min captured.length maxBytes))).reverse.find?
      fun cut => (fromUtf8 (captured.take cut)).isSome with
  | some cut =>
    left
    have hmem := List.mem_of_find?_eq_some hfind
    rw [List.mem_reverse, List.mem_map] at hmem
    obtain ⟨n, hn, rfl⟩ := hmem
    have hvalid := List.find?_some hfind
    obtain ⟨chars, hchars⟩ := isSome_fromUtf8.mp hvalid
    exact ⟨n + 1, chars, n.succ_pos, List.mem_range.mp hn, hchars, if_pos n.succ_pos⟩
  | none =>
    right
    constructor
    · intro cut chars hpos hle hchars
      refine List.find?_eq_none.mp hfind cut ?_ (isSome_fromUtf8.mpr ⟨chars, hchars⟩)
      rw [List.mem_reverse, List.mem_map]
      exact ⟨cut - 1, List.mem_range.mpr (by omega), by omega⟩
    · have htake : captured.take (min captured.length maxBytes) = captured.take maxBytes := by
        rw [List.take_eq_take_iff]
        omega
      rw [Option.none_or, htake]
      cases hzero : [0].find? fun cut => (fromUtf8 (captured.take cut)).isSome with
      | none => rfl
      | some cut =>
        have hcut := List.mem_singleton.mp (List.mem_of_find?_eq_some hzero)
        exact if_neg (by omega)

/-- What a cut inside a character leaves of the text. -/
theorem pieces_take_inside {before after : Bytes} {c : Char} {cut : ℕ} (hlt : before.length < cut)
    (hlt' : cut < before.length + (utf8EncodeChar c).length) :
    pieces ((before ++ (utf8EncodeChar c ++ after)).take cut) =
      pieces before ++ [.invalid ((utf8EncodeChar c).take (cut - before.length))] := by
  have hsplit := (List.take_append_drop (cut - before.length) (utf8EncodeChar c)).symm
  have htake : (before ++ (utf8EncodeChar c ++ after)).take cut =
      before ++ (utf8EncodeChar c).take (cut - before.length) := by
    rw [List.take_append, List.take_of_length_le (Nat.le_of_lt hlt), List.take_append_of_le_length (by omega)]
  rw [htake]
  refine pieces_append_part hsplit ?_ ?_ before
  · intro hnil
    have hlength := congrArg List.length hnil
    rw [List.length_take, List.length_nil] at hlength
    omega
  · intro hnil
    have hlength := congrArg List.length hnil
    rw [List.length_drop, List.length_nil] at hlength
    omega

/-- A valid prefix ends between characters. -/
theorem cutsBetween_of_valid {captured : Bytes} {cut : ℕ} {chars : List Char}
    (h : pieces (captured.take cut) = chars.map Piece.char) : CutsBetween captured cut := by
  intro before c after hcaptured
  by_contra hinside
  rw [hcaptured, pieces_take_inside (by omega) (by omega)] at h
  have hmem : Piece.invalid ((utf8EncodeChar c).take (cut - before.length)) ∈
      chars.map Piece.char := by
    rw [← h]
    exact List.mem_append_right _ List.mem_cons_self
  obtain ⟨_, -, heq⟩ := List.mem_map.mp hmem
  exact nomatch heq

/-- A text that shows a cut inside a character is longer than what it shows, or shows no prefix that
is cut between characters. -/
theorem not_isExcerpt_of_inside {before after : Bytes} {c : Char} {maxBytes : ℕ}
    (hlt : before.length < maxBytes) (hlt' : maxBytes < before.length + (utf8EncodeChar c).length) :
    ¬IsExcerpt (before ++ (utf8EncodeChar c ++ after)) maxBytes
      (fromUtf8Lossy ((before ++ (utf8EncodeChar c ++ after)).take maxBytes)) := by
  intro h
  have hpieces := @pieces_take_inside before after c maxBytes hlt hlt'
  obtain ⟨cut, -, hshows, hcut⟩ := h.shows
  have hlossy := lossy_eq_of_fromUtf8Lossy hshows
  unfold lossy at hlossy
  rw [hpieces, List.map_append, List.map_singleton] at hlossy
  rcases hcut before c after rfl with hbefore | hafter
  · -- the replacement character is missing
    have htake : (before ++ (utf8EncodeChar c ++ after)).take cut = before.take cut :=
      List.take_append_of_le_length hbefore
    have hle := length_scan_le (before.take cut) (before.drop cut) none
    rw [List.take_append_drop] at hle
    have hlength := congrArg List.length hlossy
    rw [htake, List.length_append, List.length_map, List.length_map, List.length_singleton]
      at hlength
    unfold pieces at hlength
    omega
  · -- the character is itself the replacement character, of three bytes
    have htake : (before ++ (utf8EncodeChar c ++ after)).take cut =
        before ++ (utf8EncodeChar c ++ after.take (cut - before.length - (utf8EncodeChar c).length)) := by
      rw [List.take_append, List.take_of_length_le (by omega), List.take_append,
        List.take_of_length_le (by omega)]
    rw [htake, pieces_append_encode, List.map_append, List.map_cons] at hlossy
    have hc : '\uFFFD' = c := (List.cons.inj (List.append_cancel_left hlossy)).1
    have hthree : (utf8EncodeChar c).length = 3 := by rw [← hc]; rfl
    have hbounded := h.bounded
    rw [length_asBytes_fromUtf8Lossy] at hbounded
    unfold growth at hbounded
    rw [hpieces, List.map_append, List.sum_append, List.map_singleton, List.sum_singleton,
      Piece.growth, List.length_take, List.length_take, List.length_append, List.length_append]
      at hbounded
    omega

/-- The excerpt is one exactly when the capture begins with a character within the bound, or the
replacement characters find room. -/
theorem boundedExcerpt_iff (captured : Bytes) (maxBytes : ℕ) :
    IsExcerpt captured maxBytes (boundedExcerpt captured maxBytes) ↔
      Excerptable captured maxBytes := by
  rcases boundedExcerpt_cases captured maxBytes with
    ⟨cut, chars, hpos, hcut, hchars, hshows⟩ | ⟨hnone, hshows⟩
  · have hprefix := pieces_eq_map_char.mp hchars
    constructor
    · intro _
      left
      cases chars with
      | nil =>
        have hlength := congrArg List.length hprefix
        rw [List.length_take, List.flatMap_nil, List.length_nil] at hlength
        omega
      | cons c chars =>
        rw [List.flatMap_cons] at hprefix
        refine ⟨c, chars.flatMap utf8EncodeChar ++ captured.drop cut, ?_, ?_⟩
        · rw [← List.append_assoc, ← hprefix, List.take_append_drop]
        · have hlength := congrArg List.length hprefix
          rw [List.length_take, List.length_append] at hlength
          omega
    · intro _
      rw [hshows]
      refine ⟨?_, cut, by omega, rfl, cutsBetween_of_valid hchars⟩
      have hlossy : lossy (captured.take cut) = chars := by
        unfold lossy
        rw [hchars, List.map_map]
        exact List.map_id chars
      rw [asBytes_fromUtf8Lossy, hlossy, ← hprefix, List.length_take]
      omega
  · rw [hshows]
    constructor
    · intro hexcerpt
      right
      have hbounded := hexcerpt.bounded
      rw [length_asBytes_fromUtf8Lossy] at hbounded
      refine ⟨hbounded, fun before c after hcaptured => ?_⟩
      by_contra hinside
      rw [hcaptured] at hexcerpt
      exact not_isExcerpt_of_inside (by omega) (by omega) hexcerpt
    · rintro (⟨c, after, hcaptured, hle⟩ | ⟨hbounded, hcut⟩)
      · have htake : captured.take (utf8EncodeChar c).length = utf8EncodeChar c := by
          rw [hcaptured, List.take_left]
        have hpos := List.length_pos_of_ne_nil (String.utf8EncodeChar_ne_nil (c := c))
        have hwithin : (utf8EncodeChar c).length ≤ min captured.length maxBytes := by
          rw [hcaptured, List.length_append]
          omega
        have hvalid := pieces_flatMap [c]
        rw [List.flatMap_singleton, ← htake] at hvalid
        exact absurd hvalid (hnone _ [c] hpos hwithin)
      · rw [← length_asBytes_fromUtf8Lossy] at hbounded
        refine ⟨hbounded, min captured.length maxBytes, Nat.min_le_left _ _, ?_, ?_⟩
        · have htake : captured.take (min captured.length maxBytes) = captured.take maxBytes := by
            rw [List.take_eq_take_iff]
            omega
          rw [htake]
        · intro before c after hcaptured
          have hends := hcut before c after hcaptured
          have hlength := congrArg List.length hcaptured
          rw [List.length_append, List.length_append] at hlength
          omega

/-- A byte that begins no character is shown as three. -/
theorem boundedExcerpt_exceeds :
    ¬∀ (captured : Bytes) (maxBytes : ℕ),
      IsExcerpt captured maxBytes (boundedExcerpt captured maxBytes) := by
  intro hall
  have hbounded := (hall [0xFF] 1).bounded
  have hempty : (fromUtf8 []).isSome = true := by decide
  have hinvalid : (fromUtf8 [0xFF]).isSome = false := by decide
  have hshows : boundedExcerpt [0xFF] 1 = fromUtf8Lossy [0xFF] := by
    simp [boundedExcerpt, List.range_succ, hempty, hinvalid]
  rw [hshows, length_asBytes_fromUtf8Lossy] at hbounded
  exact absurd hbounded (by decide)

end RatatoskrVault
