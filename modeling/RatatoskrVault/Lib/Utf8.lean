import Mathlib.Algebra.GroupWithZero.Nat
import Mathlib.Data.List.Forall2
import Mathlib.Algebra.BigOperators.Group.List.Basic

/-! UTF-8 read without refusal: a text is cut into characters and into parts that begin no
character or break one off. Each such part is shown as one replacement character. -/
namespace RatatoskrVault.Lib.Utf8

open String (utf8EncodeChar)

/-- The bytes that may continue a character at one place. -/
structure Range where
  low : ℕ
  high : ℕ
  le_low : 0x80 ≤ low := by decide
  high_le : high ≤ 0xBF := by decide

namespace Range

def tail : Range := { low := 0x80, high := 0xBF }

def Holds (r : Range) (b : UInt8) : Prop := r.low ≤ b.toNat ∧ b.toNat ≤ r.high

instance (r : Range) (b : UInt8) : Decidable (r.Holds b) := instDecidableAnd

end Range

/-- What a first byte adds to the value of a character, and where the other bytes lie. -/
def lead (b : ℕ) : Option (ℕ × List Range) :=
  if b ≤ 0x7F then some (b, [])
  else if 0xC2 ≤ b ∧ b ≤ 0xDF then some (b - 0xC0, [.tail])
  -- no overlong forms, no surrogates and nothing past the last character
  else if b = 0xE0 then some (0, [{ low := 0xA0, high := 0xBF }, .tail])
  else if 0xE1 ≤ b ∧ b ≤ 0xEC then some (b - 0xE0, [.tail, .tail])
  else if b = 0xED then some (0xD, [{ low := 0x80, high := 0x9F }, .tail])
  else if 0xEE ≤ b ∧ b ≤ 0xEF then some (b - 0xE0, [.tail, .tail])
  else if b = 0xF0 then some (0, [{ low := 0x90, high := 0xBF }, .tail, .tail])
  else if 0xF1 ≤ b ∧ b ≤ 0xF3 then some (b - 0xF0, [.tail, .tail, .tail])
  else if b = 0xF4 then some (4, [{ low := 0x80, high := 0x8F }, .tail, .tail])
  else none

/-- The value of a character after one more byte. -/
def extend (value : ℕ) (b : UInt8) : ℕ := value * 64 + b.toNat % 64

inductive Piece
  | char (c : Char)
  | invalid (bytes : List UInt8)
  deriving DecidableEq

namespace Piece

def bytes : Piece → List UInt8
  | char c => utf8EncodeChar c
  | invalid bytes => bytes

def shown : Piece → Char
  | char c => c
  | invalid _ => '\uFFFD'

/-- What a piece gains by being shown; a replacement character takes three bytes. -/
def growth : Piece → ℕ
  | char _ => 0
  | invalid bytes => 3 - bytes.length

end Piece

/-- A character of which the first bytes are read. -/
structure Opened where
  bytes : List UInt8
  value : ℕ
  next : Range
  rest : List Range

def enter (bytes : List UInt8) (value : ℕ) : List Range → List Piece × Option Opened
  | [] => ([.char (Char.ofNat value)], none)
  | next :: rest => ([], some { bytes, value, next, rest })

def start (b : UInt8) : List Piece × Option Opened :=
  match lead b.toNat with
  | none => ([.invalid [b]], none)
  | some (value, ranges) => enter [b] value ranges

/-- The pieces that a byte ends, and the character it leaves open. -/
def step : Option Opened → UInt8 → List Piece × Option Opened
  | none, b => start b
  | some o, b =>
    if o.next.Holds b then enter (o.bytes ++ [b]) (extend o.value b) o.rest
    -- the byte that breaks a character off begins another piece
    else (.invalid o.bytes :: (start b).1, (start b).2)

def scan : Option Opened → List UInt8 → List Piece
  | none, [] => []
  | some o, [] => [.invalid o.bytes]
  | opened, b :: text => (step opened b).1 ++ scan (step opened b).2 text

def pieces (text : List UInt8) : List Piece := scan none text

def lossy (text : List UInt8) : List Char := (pieces text).map Piece.shown

def growth (text : List UInt8) : ℕ := ((pieces text).map Piece.growth).sum

@[simp] theorem scan_cons (opened : Option Opened) (b : UInt8) (text : List UInt8) :
    scan opened (b :: text) = (step opened b).1 ++ scan (step opened b).2 text := by
  cases opened <;> rfl

theorem step_of_holds {o : Opened} {b : UInt8} (h : o.next.Holds b) :
    step (some o) b = enter (o.bytes ++ [b]) (extend o.value b) o.rest := if_pos h

theorem step_of_not_holds {o : Opened} {b : UInt8} (h : ¬o.next.Holds b) :
    step (some o) b = (.invalid o.bytes :: (start b).1, (start b).2) := if_neg h

/-! The table of first bytes against the encoding of a character. -/

theorem ofNat_eq {b : UInt8} {n : ℕ} (h : b.toNat = n) : UInt8.ofNat n = b := by
  rw [← h, UInt8.ofNat_toNat]

theorem encode_one {c : Char} {b : UInt8} (h : c.toNat ≤ 0x7F) (hb : b.toNat = c.toNat) :
    utf8EncodeChar c = [b] := by
  unfold utf8EncodeChar
  simp only [Char.toNat_val]
  rw [if_pos h, ofNat_eq hb]

theorem encode_two {c : Char} {b b₁ : UInt8} (h : 0x80 ≤ c.toNat) (h' : c.toNat ≤ 0x7FF)
    (hb : b.toNat = c.toNat / 64 + 0xC0) (hb₁ : b₁.toNat = c.toNat % 64 + 0x80) :
    utf8EncodeChar c = [b, b₁] := by
  unfold utf8EncodeChar
  simp only [Char.toNat_val]
  rw [if_neg (by omega), if_pos h', ofNat_eq (b := b) (by omega), ofNat_eq hb₁]

theorem encode_three {c : Char} {b b₁ b₂ : UInt8} (h : 0x800 ≤ c.toNat) (h' : c.toNat ≤ 0xFFFF)
    (hb : b.toNat = c.toNat / 4096 + 0xE0) (hb₁ : b₁.toNat = c.toNat / 64 % 64 + 0x80)
    (hb₂ : b₂.toNat = c.toNat % 64 + 0x80) : utf8EncodeChar c = [b, b₁, b₂] := by
  unfold utf8EncodeChar
  simp only [Char.toNat_val]
  rw [if_neg (by omega), if_neg (by omega), if_pos h', ofNat_eq (b := b) (by omega), ofNat_eq hb₁,
    ofNat_eq hb₂]

theorem encode_four {c : Char} {b b₁ b₂ b₃ : UInt8} (h : 0x10000 ≤ c.toNat)
    (hb : b.toNat = c.toNat / 262144 + 0xF0) (hb₁ : b₁.toNat = c.toNat / 4096 % 64 + 0x80)
    (hb₂ : b₂.toNat = c.toNat / 64 % 64 + 0x80) (hb₃ : b₃.toNat = c.toNat % 64 + 0x80) :
    utf8EncodeChar c = [b, b₁, b₂, b₃] := by
  have hlt : c.toNat < 0x110000 := by
    have hvalid : c.toNat.isValidChar := c.valid
    omega
  unfold utf8EncodeChar
  simp only [Char.toNat_val]
  rw [if_neg (by omega), if_neg (by omega), if_neg (by omega), ofNat_eq (b := b) (by omega),
    ofNat_eq hb₁, ofNat_eq hb₂, ofNat_eq hb₃]

/-- The bytes of a text lie in the ranges, in order. -/
abbrev Fits : List Range → List UInt8 → Prop := List.Forall₂ Range.Holds

theorem fits_one {r : Range} {text : List UInt8} (h : Fits [r] text) :
    ∃ b, text = [b] ∧ r.low ≤ b.toNat ∧ b.toNat ≤ r.high := by
  cases h with
  | cons hb hrest =>
    cases hrest
    exact ⟨_, rfl, hb⟩

theorem fits_two {r r₁ : Range} {text : List UInt8} (h : Fits [r, r₁] text) :
    ∃ b b₁, text = [b, b₁] ∧ (r.low ≤ b.toNat ∧ b.toNat ≤ r.high) ∧
      r₁.low ≤ b₁.toNat ∧ b₁.toNat ≤ r₁.high := by
  cases h with
  | cons hb hrest =>
    obtain ⟨b₁, rfl, hb₁⟩ := fits_one hrest
    exact ⟨_, b₁, rfl, hb, hb₁⟩

theorem fits_three {r r₁ r₂ : Range} {text : List UInt8} (h : Fits [r, r₁, r₂] text) :
    ∃ b b₁ b₂, text = [b, b₁, b₂] ∧ (r.low ≤ b.toNat ∧ b.toNat ≤ r.high) ∧
      (r₁.low ≤ b₁.toNat ∧ b₁.toNat ≤ r₁.high) ∧ r₂.low ≤ b₂.toNat ∧ b₂.toNat ≤ r₂.high := by
  cases h with
  | cons hb hrest =>
    obtain ⟨b₁, b₂, rfl, hb₁, hb₂⟩ := fits_two hrest
    exact ⟨_, b₁, b₂, rfl, hb, hb₁, hb₂⟩

theorem toNat_ofNat {n : ℕ} (h : n.isValidChar) : (Char.ofNat n).toNat = n := by
  unfold Char.ofNat
  rw [dif_pos h]
  rfl

/-- The entries of the table by the number of the bytes that follow. -/
theorem encode_of_two {b : UInt8} {value : ℕ} {r : Range} {text : List UInt8}
    (hvalue : value + 0xE0 = b.toNat) (hlt : value < 16) (hfits : Fits [r, .tail] text)
    (hlow : value = 0 → 0xA0 ≤ r.low) (hsurrogate : value = 0xD → r.high ≤ 0x9F) :
    utf8EncodeChar (Char.ofNat (text.foldl extend value)) = b :: text := by
  have hlow' := r.le_low
  have hhigh' := r.high_le
  obtain ⟨b₁, b₂, rfl, hb₁, hb₂⟩ := fits_two hfits
  simp only [Range.tail, List.foldl_cons, List.foldl_nil, extend] at hb₂ ⊢
  have hn := toNat_ofNat (n := (value * 64 + b₁.toNat % 64) * 64 + b₂.toNat % 64) (by omega)
  apply encode_three <;> omega

theorem encode_of_three {b : UInt8} {value : ℕ} {r : Range} {text : List UInt8}
    (hvalue : value + 0xF0 = b.toNat) (hle : value ≤ 4) (hfits : Fits [r, .tail, .tail] text)
    (hlow : value = 0 → 0x90 ≤ r.low) (hlast : value = 4 → r.high ≤ 0x8F) :
    utf8EncodeChar (Char.ofNat (text.foldl extend value)) = b :: text := by
  have hlow' := r.le_low
  have hhigh' := r.high_le
  obtain ⟨b₁, b₂, b₃, rfl, hb₁, hb₂, hb₃⟩ := fits_three hfits
  simp only [Range.tail, List.foldl_cons, List.foldl_nil, extend] at hb₂ hb₃ ⊢
  have hn := toNat_ofNat
    (n := ((value * 64 + b₁.toNat % 64) * 64 + b₂.toNat % 64) * 64 + b₃.toNat % 64) (by omega)
  apply encode_four <;> omega

/-- What the table accepts is an encoding. -/
theorem utf8EncodeChar_of_lead {b : UInt8} {value : ℕ} {ranges : List Range} {text : List UInt8}
    (hlead : lead b.toNat = some (value, ranges)) (hfits : Fits ranges text) :
    utf8EncodeChar (Char.ofNat (text.foldl extend value)) = b :: text := by
  unfold lead at hlead
  split_ifs at hlead with h1 h2 h3 h4 h5 h6 h7 h8 h9
  · obtain ⟨rfl, rfl⟩ := Prod.mk.inj (Option.some.inj hlead)
    cases hfits
    have hn := toNat_ofNat (n := b.toNat) (by omega)
    exact encode_one (by simp only [List.foldl_nil]; omega) hn.symm
  · obtain ⟨rfl, rfl⟩ := Prod.mk.inj (Option.some.inj hlead)
    obtain ⟨c, rfl, hc⟩ := fits_one hfits
    simp only [Range.tail, List.foldl_cons, List.foldl_nil, extend] at hc ⊢
    have hn := toNat_ofNat (n := (b.toNat - 192) * 64 + c.toNat % 64) (by omega)
    apply encode_two <;> omega
  · obtain ⟨rfl, rfl⟩ := Prod.mk.inj (Option.some.inj hlead)
    exact encode_of_two (by omega) (by omega) hfits (fun _ => Nat.le_refl _) (by omega)
  · obtain ⟨rfl, rfl⟩ := Prod.mk.inj (Option.some.inj hlead)
    exact encode_of_two (by omega) (by omega) hfits (by omega) (by omega)
  · obtain ⟨rfl, rfl⟩ := Prod.mk.inj (Option.some.inj hlead)
    exact encode_of_two (by omega) (by omega) hfits (by omega) (fun _ => Nat.le_refl _)
  · obtain ⟨rfl, rfl⟩ := Prod.mk.inj (Option.some.inj hlead)
    exact encode_of_two (by omega) (by omega) hfits (by omega) (by omega)
  · obtain ⟨rfl, rfl⟩ := Prod.mk.inj (Option.some.inj hlead)
    exact encode_of_three (by omega) (by omega) hfits (fun _ => Nat.le_refl _) (by omega)
  · obtain ⟨rfl, rfl⟩ := Prod.mk.inj (Option.some.inj hlead)
    exact encode_of_three (by omega) (by omega) hfits (by omega) (by omega)
  · obtain ⟨rfl, rfl⟩ := Prod.mk.inj (Option.some.inj hlead)
    exact encode_of_three (by omega) (by omega) hfits (by omega) (fun _ => Nat.le_refl _)

/-- A text is a first byte of the table and the bytes it asks for. -/
def Tabled (text : List UInt8) : Prop :=
  ∃ b rest value ranges, text = b :: rest ∧ lead b.toNat = some (value, ranges) ∧ Fits ranges rest

theorem tabled_three {b b₁ b₂ : UInt8} (hb : 0xE0 ≤ b.toNat ∧ b.toNat ≤ 0xEF)
    (hb₁ : Range.tail.Holds b₁) (hb₂ : Range.tail.Holds b₂)
    (hlow : b.toNat = 0xE0 → 0xA0 ≤ b₁.toNat) (hsurrogate : b.toNat = 0xED → b₁.toNat ≤ 0x9F) :
    Tabled [b, b₁, b₂] := by
  have hfits : ∀ r : Range, r.Holds b₁ → Fits [r, .tail] [b₁, b₂] := fun r hr =>
    .cons hr (.cons hb₂ .nil)
  by_cases hE0 : b.toNat = 0xE0
  · refine ⟨b, _, 0, _, rfl, ?_, hfits { low := 0xA0, high := 0xBF } ⟨hlow hE0, hb₁.2⟩⟩
    unfold lead
    rw [if_neg (by omega), if_neg (by omega), if_pos hE0]
  by_cases hED : b.toNat = 0xED
  · refine ⟨b, _, 0xD, _, rfl, ?_,
      hfits { low := 0x80, high := 0x9F } ⟨hb₁.1, hsurrogate hED⟩⟩
    unfold lead
    rw [if_neg (by omega), if_neg (by omega), if_neg hE0, if_neg (by omega), if_pos hED]
  refine ⟨b, _, b.toNat - 0xE0, _, rfl, ?_, hfits .tail hb₁⟩
  unfold lead
  rw [if_neg (by omega), if_neg (by omega), if_neg hE0]
  by_cases hEC : b.toNat ≤ 0xEC
  · rw [if_pos (by omega)]
  · rw [if_neg (by omega), if_neg hED, if_pos (by omega)]

theorem tabled_four {b b₁ b₂ b₃ : UInt8} (hb : 0xF0 ≤ b.toNat ∧ b.toNat ≤ 0xF4)
    (hb₁ : Range.tail.Holds b₁) (hb₂ : Range.tail.Holds b₂) (hb₃ : Range.tail.Holds b₃)
    (hlow : b.toNat = 0xF0 → 0x90 ≤ b₁.toNat) (hlast : b.toNat = 0xF4 → b₁.toNat ≤ 0x8F) :
    Tabled [b, b₁, b₂, b₃] := by
  have hfits : ∀ r : Range, r.Holds b₁ → Fits [r, .tail, .tail] [b₁, b₂, b₃] := fun r hr =>
    .cons hr (.cons hb₂ (.cons hb₃ .nil))
  have hlead : lead b.toNat =
      if b.toNat = 0xF0 then some (0, [{ low := 0x90, high := 0xBF }, .tail, .tail])
      else if 0xF1 ≤ b.toNat ∧ b.toNat ≤ 0xF3 then some (b.toNat - 0xF0, [.tail, .tail, .tail])
      else if b.toNat = 0xF4 then some (4, [{ low := 0x80, high := 0x8F }, .tail, .tail])
      else none := by
    unfold lead
    rw [if_neg (by omega), if_neg (by omega), if_neg (by omega), if_neg (by omega),
      if_neg (by omega), if_neg (by omega)]
  by_cases hF0 : b.toNat = 0xF0
  · refine ⟨b, _, 0, _, rfl, ?_, hfits { low := 0x90, high := 0xBF } ⟨hlow hF0, hb₁.2⟩⟩
    rw [hlead, if_pos hF0]
  by_cases hF4 : b.toNat = 0xF4
  · refine ⟨b, _, 4, _, rfl, ?_, hfits { low := 0x80, high := 0x8F } ⟨hb₁.1, hlast hF4⟩⟩
    rw [hlead, if_neg hF0, if_neg (by omega), if_pos hF4]
  refine ⟨b, _, b.toNat - 0xF0, _, rfl, ?_, hfits .tail hb₁⟩
  rw [hlead, if_neg hF0, if_pos (by omega)]

/-- Every encoding is accepted by the table. -/
theorem tabled_utf8EncodeChar (c : Char) : Tabled (utf8EncodeChar c) := by
  have hvalid : c.toNat.isValidChar := c.valid
  have hbyte : ∀ n < 256, ∃ b : UInt8, b.toNat = n := fun n hn =>
    ⟨UInt8.ofNat n, by rw [UInt8.toNat_ofNat', Nat.mod_eq_of_lt hn]⟩
  have htail : ∀ (n : ℕ) (b : UInt8), b.toNat = n % 64 + 0x80 → Range.tail.Holds b :=
    fun n b hb => ⟨by simp only [Range.tail]; omega, by simp only [Range.tail]; omega⟩
  by_cases h1 : c.toNat ≤ 0x7F
  · obtain ⟨b, hb⟩ := hbyte c.toNat (by omega)
    refine ⟨b, [], b.toNat, _, encode_one h1 hb, ?_, .nil⟩
    unfold lead
    rw [if_pos (by omega)]
  obtain ⟨last, hlast⟩ := hbyte (c.toNat % 64 + 0x80) (by omega)
  by_cases h2 : c.toNat ≤ 0x7FF
  · obtain ⟨b, hb⟩ := hbyte (c.toNat / 64 + 0xC0) (by omega)
    refine ⟨b, [last], b.toNat - 0xC0, _, encode_two (by omega) h2 hb hlast, ?_,
      .cons (htail _ _ hlast) .nil⟩
    unfold lead
    rw [if_neg (by omega), if_pos (by omega)]
  obtain ⟨b₂, hb₂⟩ := hbyte (c.toNat / 64 % 64 + 0x80) (by omega)
  by_cases h3 : c.toNat ≤ 0xFFFF
  · obtain ⟨b, hb⟩ := hbyte (c.toNat / 4096 + 0xE0) (by omega)
    rw [encode_three (by omega) h3 hb hb₂ hlast]
    exact tabled_three (by omega) (htail _ _ hb₂) (htail _ _ hlast) (by omega) (by omega)
  · obtain ⟨b, hb⟩ := hbyte (c.toNat / 262144 + 0xF0) (by omega)
    obtain ⟨b₁, hb₁⟩ := hbyte (c.toNat / 4096 % 64 + 0x80) (by omega)
    rw [encode_four (by omega) hb hb₁ hb₂ hlast]
    exact tabled_four (by omega) (htail _ _ hb₁) (htail _ _ hb₂) (htail _ _ hlast) (by omega)
      (by omega)

theorem utf8EncodeChar_injective : Function.Injective utf8EncodeChar := by
  intro c c' h
  have hbytes : (String.ofList [c]).toByteArray = (String.ofList [c']).toByteArray := by
    rw [String.toByteArray_ofList, String.toByteArray_ofList, List.utf8Encode_singleton,
      List.utf8Encode_singleton, h]
  have hlist := congrArg String.toList (String.toByteArray_inj.mp hbytes)
  rw [String.toList_ofList, String.toList_ofList] at hlist
  exact (List.cons.inj hlist).1

theorem not_holds_of_lead {b : UInt8} {entry : ℕ × List Range} (h : lead b.toNat = some entry)
    (r : Range) : ¬r.Holds b := by
  have hlow := r.le_low
  have hhigh := r.high_le
  rintro ⟨hlow', hhigh'⟩
  unfold lead at h
  rw [if_neg (by omega), if_neg (by omega), if_neg (by omega), if_neg (by omega),
    if_neg (by omega), if_neg (by omega), if_neg (by omega), if_neg (by omega),
    if_neg (by omega)] at h
  exact nomatch h

/-! Reading what is left of a character. -/

theorem scan_enter {ranges : List Range} {rest : List UInt8} (hfits : Fits ranges rest)
    (bytes : List UInt8) (value : ℕ) (text : List UInt8) :
    (enter bytes value ranges).1 ++ scan (enter bytes value ranges).2 (rest ++ text) =
      .char (Char.ofNat (rest.foldl extend value)) :: scan none text := by
  induction hfits generalizing bytes value with
  | nil => rfl
  | @cons r b ranges rest hb _ ih =>
    have hstep := ih (bytes ++ [b]) (extend value b)
    rw [List.foldl_cons, ← hstep, enter, List.nil_append, List.cons_append, scan_cons,
      step_of_holds hb]

/-- A character that breaks off. -/
theorem scan_enter_part {ranges : List Range} {part rest : List UInt8}
    (hfits : Fits ranges (part ++ rest)) (hrest : rest ≠ []) (bytes : List UInt8) (value : ℕ) :
    (enter bytes value ranges).1 ++ scan (enter bytes value ranges).2 part =
      [.invalid (bytes ++ part)] := by
  induction part generalizing ranges bytes value with
  | nil =>
    cases hfits with
    | nil => exact absurd rfl hrest
    | cons hb hrest => rw [List.append_nil]; rfl
  | cons b part ih =>
    cases hfits with
    | cons hb hfits =>
      have hstep := ih hfits (bytes ++ [b]) (extend value b)
      rw [List.append_assoc, List.singleton_append] at hstep
      rw [← hstep, enter, List.nil_append, scan_cons, step_of_holds hb]

@[simp] theorem pieces_encode_append (c : Char) (text : List UInt8) :
    pieces (utf8EncodeChar c ++ text) = .char c :: pieces text := by
  obtain ⟨b, rest, value, ranges, hencode, hlead, hfits⟩ := tabled_utf8EncodeChar c
  have hchar : Char.ofNat (rest.foldl extend value) = c :=
    utf8EncodeChar_injective ((utf8EncodeChar_of_lead hlead hfits).trans hencode.symm)
  have hscan := scan_enter hfits [b] value text
  rw [hchar] at hscan
  unfold pieces
  rw [hencode, List.cons_append, scan_cons, step, start, hlead, ← hscan]

theorem pieces_part {c : Char} {part rest : List UInt8} (h : utf8EncodeChar c = part ++ rest)
    (hpart : part ≠ []) (hrest : rest ≠ []) : pieces part = [.invalid part] := by
  obtain ⟨b, tail, value, ranges, hencode, hlead, hfits⟩ := tabled_utf8EncodeChar c
  cases part with
  | nil => exact absurd rfl hpart
  | cons b' part =>
    obtain ⟨rfl, htail⟩ := List.cons.inj (hencode.symm.trans h)
    rw [htail] at hfits
    have hscan := scan_enter_part hfits hrest [b] value
    unfold pieces
    rw [scan_cons, step, start, hlead]
    exact hscan

/-- A first byte ends the piece before it. -/
theorem scan_append_cons {b : UInt8} {entry : ℕ × List Range} (hb : lead b.toNat = some entry)
    (before text : List UInt8) (opened : Option Opened) :
    scan opened (before ++ b :: text) = scan opened before ++ scan none (b :: text) := by
  induction before generalizing opened with
  | nil =>
    cases opened with
    | none => rfl
    | some o =>
      rw [List.nil_append, scan_cons, scan_cons, step_of_not_holds (not_holds_of_lead hb _)]
      rfl
  | cons b' before ih =>
    rw [List.cons_append, scan_cons, scan_cons, ih, List.append_assoc]

theorem pieces_append_encode (c : Char) (before text : List UInt8) :
    pieces (before ++ (utf8EncodeChar c ++ text)) = pieces before ++ .char c :: pieces text := by
  obtain ⟨b, rest, value, ranges, hencode, hlead, -⟩ := tabled_utf8EncodeChar c
  rw [← pieces_encode_append c text]
  unfold pieces
  rw [hencode]
  exact scan_append_cons hlead before (rest ++ text) none

theorem pieces_append_part {c : Char} {part rest : List UInt8} (h : utf8EncodeChar c = part ++ rest)
    (hpart : part ≠ []) (hrest : rest ≠ []) (before : List UInt8) :
    pieces (before ++ part) = pieces before ++ [.invalid part] := by
  obtain ⟨b, tail, value, ranges, hencode, hlead, -⟩ := tabled_utf8EncodeChar c
  rw [← pieces_part h hpart hrest]
  cases part with
  | nil => exact absurd rfl hpart
  | cons b' part =>
    obtain ⟨rfl, -⟩ := List.cons.inj (hencode.symm.trans h)
    exact scan_append_cons hlead before part none

/-- A text of characters is read as these. -/
theorem pieces_flatMap (chars : List Char) :
    pieces (chars.flatMap utf8EncodeChar) = chars.map Piece.char := by
  induction chars with
  | nil => rfl
  | cons c chars ih => rw [List.flatMap_cons, pieces_encode_append, ih, List.map_cons]

theorem length_scan_opened_pos (o : Opened) (text : List UInt8) :
    0 < (scan (some o) text).length := by
  induction text generalizing o with
  | nil => exact Nat.one_pos
  | cons b text ih =>
    rw [scan_cons, List.length_append]
    by_cases hb : o.next.Holds b
    · rw [step_of_holds hb]
      cases hrest : o.rest with
      | nil => exact Nat.add_pos_left Nat.one_pos _
      | cons next rest => exact Nat.add_pos_right _ (ih _)
    · rw [step_of_not_holds hb]
      exact Nat.add_pos_left (Nat.succ_pos _) _

/-- A longer text has no fewer pieces. -/
theorem length_scan_le (before text : List UInt8) (opened : Option Opened) :
    (scan opened before).length ≤ (scan opened (before ++ text)).length := by
  induction before generalizing opened with
  | nil =>
    cases opened with
    | none => exact Nat.zero_le _
    | some o => exact length_scan_opened_pos o text
  | cons b before ih =>
    rw [List.cons_append, scan_cons, scan_cons, List.length_append, List.length_append]
    exact Nat.add_le_add_left (ih _) _

/-! The pieces of a text make up the text. -/

def openBytes : Option Opened → List UInt8
  | none => []
  | some o => o.bytes

/-- An open character is completed by what it asks for, and by no more than four bytes. -/
structure Opened.Sound (o : Opened) : Prop where
  short : o.bytes.length + o.rest.length ≤ 3
  encodes : ∀ text, Fits (o.next :: o.rest) text →
    utf8EncodeChar (Char.ofNat (text.foldl extend o.value)) = o.bytes ++ text

/-- What is made of some bytes keeps them. -/
structure Keeps (bytes : List UInt8) (result : List Piece × Option Opened) : Prop where
  bytes_eq : result.1.flatMap Piece.bytes ++ openBytes result.2 = bytes
  sound : ∀ o, result.2 = some o → o.Sound
  short : ∀ part, .invalid part ∈ result.1 → part.length ≤ 3

theorem keeps_enter {bytes : List UInt8} {value : ℕ} {ranges : List Range}
    (hshort : bytes.length + ranges.length ≤ 4)
    (hencodes : ∀ text, Fits ranges text →
      utf8EncodeChar (Char.ofNat (text.foldl extend value)) = bytes ++ text) :
    Keeps bytes (enter bytes value ranges) := by
  cases ranges with
  | nil =>
    have hchar := hencodes [] .nil
    rw [List.foldl_nil, List.append_nil] at hchar
    constructor
    · simp [enter, openBytes, Piece.bytes, hchar]
    · intro o ho
      exact nomatch ho
    · intro part hpart
      exact nomatch List.mem_singleton.mp hpart
  | cons next rest =>
    rw [List.length_cons] at hshort
    constructor
    · rfl
    · intro o ho
      obtain rfl := Option.some.inj ho
      have hlength : bytes.length + rest.length ≤ 3 := by omega
      exact ⟨hlength, hencodes⟩
    · intro part hpart
      exact nomatch hpart

theorem keeps_start (b : UInt8) : Keeps [b] (start b) := by
  unfold start
  cases hlead : lead b.toNat with
  | none =>
    constructor
    · rfl
    · intro o ho
      exact nomatch ho
    · intro part hpart
      rw [Piece.invalid.inj (List.mem_singleton.mp hpart), List.length_singleton]
      omega
  | some entry =>
    have hshort : entry.2.length ≤ 3 := by
      unfold lead at hlead
      split_ifs at hlead <;> obtain rfl := Option.some.inj hlead <;> simp
    exact keeps_enter (by rw [List.length_singleton]; omega)
      fun text => utf8EncodeChar_of_lead hlead

theorem keeps_step {opened : Option Opened} (hsound : ∀ o, opened = some o → o.Sound) (b : UInt8) :
    Keeps (openBytes opened ++ [b]) (step opened b) := by
  cases opened with
  | none => exact keeps_start b
  | some o =>
    have ho := hsound o rfl
    by_cases hb : o.next.Holds b
    · rw [step_of_holds hb]
      refine keeps_enter ?_ fun text htext => ?_
      · have hshort := ho.short
        rw [List.length_append, openBytes, List.length_singleton]
        omega
      · rw [openBytes, List.append_assoc]
        exact ho.encodes (b :: text) (.cons hb htext)
    · have hstart := keeps_start b
      rw [step_of_not_holds hb]
      constructor
      · rw [List.flatMap_cons, List.append_assoc, hstart.bytes_eq]
        rfl
      · exact hstart.sound
      · intro part hpart
        rcases List.mem_cons.mp hpart with heq | hmem
        · have hshort := ho.short
          rw [Piece.invalid.inj heq]
          omega
        · exact hstart.short part hmem

theorem flatMap_scan {opened : Option Opened} (hsound : ∀ o, opened = some o → o.Sound)
    (text : List UInt8) :
    (scan opened text).flatMap Piece.bytes = openBytes opened ++ text ∧
      ∀ part, .invalid part ∈ scan opened text → part.length ≤ 3 := by
  induction text generalizing opened with
  | nil =>
    cases opened with
    | none => exact ⟨rfl, fun part hpart => nomatch hpart⟩
    | some o =>
      refine ⟨by simp [scan, openBytes, Piece.bytes], fun part hpart => ?_⟩
      have hshort := (hsound o rfl).short
      rw [Piece.invalid.inj (List.mem_singleton.mp hpart)]
      omega
  | cons b text ih =>
    have hstep := keeps_step hsound b
    obtain ⟨hbytes, hshort⟩ := ih hstep.sound
    rw [scan_cons]
    constructor
    · rw [List.flatMap_append, hbytes, ← List.append_assoc, hstep.bytes_eq, List.append_assoc,
        List.singleton_append]
    · intro part hpart
      rcases List.mem_append.mp hpart with hmem | hmem
      · exact hstep.short part hmem
      · exact hshort part hmem

theorem sound_none : ∀ o, none = some o → Opened.Sound o := by
  intro o h
  exact nomatch h

theorem flatMap_pieces (text : List UInt8) : (pieces text).flatMap Piece.bytes = text :=
  (flatMap_scan sound_none text).1

theorem length_le_of_invalid {part text : List UInt8} (h : .invalid part ∈ pieces text) :
    part.length ≤ 3 :=
  (flatMap_scan sound_none text).2 part h

/-- A text of characters is read as these, and no other text is. -/
theorem pieces_eq_map_char {text : List UInt8} {chars : List Char} :
    pieces text = chars.map Piece.char ↔ text = chars.flatMap utf8EncodeChar := by
  constructor
  · intro h
    rw [← flatMap_pieces text, h, List.flatMap_map]
    rfl
  · rintro rfl
    exact pieces_flatMap chars

theorem length_lossy (text : List UInt8) :
    ((lossy text).flatMap utf8EncodeChar).length = text.length + growth text := by
  have hpieces : ∀ ps : List Piece, (∀ part, .invalid part ∈ ps → part.length ≤ 3) →
      ((ps.map Piece.shown).flatMap utf8EncodeChar).length =
        (ps.flatMap Piece.bytes).length + (ps.map Piece.growth).sum := by
    intro ps
    induction ps with
    | nil => exact fun _ => rfl
    | cons p ps ih =>
      intro hshort
      have hps := ih fun part hpart => hshort part (List.mem_cons_of_mem _ hpart)
      have hp : (utf8EncodeChar p.shown).length = p.bytes.length + p.growth := by
        cases p with
        | char c => rfl
        | invalid part =>
          have hpart := hshort part List.mem_cons_self
          show 3 = part.length + (3 - part.length)
          omega
      rw [List.map_cons, List.flatMap_cons, List.length_append, List.flatMap_cons,
        List.length_append, List.map_cons, List.sum_cons, hps, hp]
      omega
  unfold lossy growth
  rw [hpieces _ fun part hpart => length_le_of_invalid hpart, flatMap_pieces]

end RatatoskrVault.Lib.Utf8
