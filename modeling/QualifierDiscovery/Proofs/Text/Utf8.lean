import QualifierDiscovery.Proofs.Text.Order
import QualifierDiscovery.Text.Utf8

/-!
# `Proofs.Text.Utf8` — a text is read back from its bytes

Reading bytes with replacement gives back the text whose UTF-8 form they are (`decodeLossy_utf8Bytes`), so
different texts have different bytes. It is enough that one character is read from its own bytes
(`exists_utf8Step`): there is one case for each number of bytes, and in each the first byte decides how many
follow, and the payload bits put together are the code point.
-/

namespace QualifierDiscovery.Text

/-! ## One character -/

section Steps

variable {a b c d : UInt8} {rest : List UInt8}

theorem byteWithin_iff {low high : UInt8} :
    byteWithin low high b = true ↔ low.toNat ≤ b.toNat ∧ b.toNat ≤ high.toNat := by
  unfold byteWithin
  rw [Bool.and_eq_true, decide_eq_true_eq, decide_eq_true_eq, UInt8.le_iff_toNat_le, UInt8.le_iff_toNat_le]

theorem not_byteWithin_of_lt {low high : UInt8} (h : high.toNat < b.toNat) : ¬ byteWithin low high b = true :=
  fun hwithin => Nat.not_le.mpr h (byteWithin_iff.mp hwithin).2

theorem not_lt_of_toNat_le {n : UInt8} (h : n.toNat ≤ b.toNat) : ¬ b < n :=
  fun hlt => Nat.not_le.mpr (UInt8.lt_iff_toNat_lt.mp hlt) h

/-- A byte that goes on with a character. -/
def IsContinuation (b : UInt8) : Prop := 0x80 ≤ b.toNat ∧ b.toNat ≤ 0xBF

theorem utf8Step_one (ha : a.toNat < 0x80) : utf8Step a rest = .char (Char.ofNat a.toNat) rest := by
  unfold utf8Step
  exact if_pos (UInt8.lt_iff_toNat_lt.mpr ha)

theorem utf8Step_two (ha : 0xC2 ≤ a.toNat ∧ a.toNat ≤ 0xDF) (hb : IsContinuation b) :
    utf8Step a (b :: rest) = .char (Char.ofNat (a.toNat % 32 * 64 + b.toNat % 64)) rest := by
  have hfirst : byteWithin 0xC2 0xDF a = true := byteWithin_iff.mpr ha
  have hsecond : byteWithin 0x80 0xBF b = true := byteWithin_iff.mpr hb
  unfold utf8Step
  rw [if_neg (not_lt_of_toNat_le (Nat.le_trans (by decide) ha.1)), if_pos hfirst]
  dsimp only
  rw [if_pos hsecond]
  rfl

/-- The second of three bytes is bounded so that the character is neither one of two bytes nor a
    surrogate. -/
theorem utf8Step_three (ha : 0xE0 ≤ a.toNat ∧ a.toNat ≤ 0xEF) (hb : IsContinuation b)
    (hc : IsContinuation c) (hlow : a.toNat = 0xE0 → 0xA0 ≤ b.toNat)
    (hhigh : a.toNat = 0xED → b.toNat ≤ 0x9F) :
    utf8Step a (b :: c :: rest) =
      .char (Char.ofNat (a.toNat % 16 * 4096 + b.toNat % 64 * 64 + c.toNat % 64)) rest := by
  have hrange : byteWithin (if a = 0xE0 then 0xA0 else 0x80) (if a = 0xED then 0x9F else 0xBF) b = true := by
    rw [byteWithin_iff]
    constructor
    · split
      · next h => exact hlow (congrArg UInt8.toNat h)
      · exact hb.1
    · split
      · next h => exact hhigh (congrArg UInt8.toNat h)
      · exact hb.2
  have hfirst : byteWithin 0xE0 0xEF a = true := byteWithin_iff.mpr ha
  have hlonger : ¬ byteWithin 0xC2 0xDF a = true := not_byteWithin_of_lt (Nat.lt_of_lt_of_le (by decide) ha.1)
  have hthird : byteWithin 0x80 0xBF c = true := byteWithin_iff.mpr hc
  unfold utf8Step
  rw [if_neg (not_lt_of_toNat_le (Nat.le_trans (by decide) ha.1)), if_neg hlonger, if_pos hfirst]
  dsimp only
  rw [if_pos hrange, if_pos hthird]
  rfl

/-- The second of four bytes is bounded so that the character is neither one of three bytes nor past the
    last code point. -/
theorem utf8Step_four (ha : 0xF0 ≤ a.toNat ∧ a.toNat ≤ 0xF4) (hb : IsContinuation b)
    (hc : IsContinuation c) (hd : IsContinuation d) (hlow : a.toNat = 0xF0 → 0x90 ≤ b.toNat)
    (hhigh : a.toNat = 0xF4 → b.toNat ≤ 0x8F) :
    utf8Step a (b :: c :: d :: rest) =
      .char (Char.ofNat (a.toNat % 8 * 262144 + b.toNat % 64 * 4096 + c.toNat % 64 * 64 +
        d.toNat % 64)) rest := by
  have hrange : byteWithin (if a = 0xF0 then 0x90 else 0x80) (if a = 0xF4 then 0x8F else 0xBF) b = true := by
    rw [byteWithin_iff]
    constructor
    · split
      · next h => exact hlow (congrArg UInt8.toNat h)
      · exact hb.1
    · split
      · next h => exact hhigh (congrArg UInt8.toNat h)
      · exact hb.2
  have hfirst : byteWithin 0xF0 0xF4 a = true := byteWithin_iff.mpr ha
  have hlonger : ¬ byteWithin 0xC2 0xDF a = true := not_byteWithin_of_lt (Nat.lt_of_lt_of_le (by decide) ha.1)
  have hlongest : ¬ byteWithin 0xE0 0xEF a = true :=
    not_byteWithin_of_lt (Nat.lt_of_lt_of_le (by decide) ha.1)
  have hthird : byteWithin 0x80 0xBF c = true := byteWithin_iff.mpr hc
  have hfourth : byteWithin 0x80 0xBF d = true := byteWithin_iff.mpr hd
  unfold utf8Step
  rw [if_neg (not_lt_of_toNat_le (Nat.le_trans (by decide) ha.1)), if_neg hlonger, if_neg hlongest,
    if_pos hfirst]
  dsimp only
  rw [if_pos hrange, if_pos hthird, if_pos hfourth]
  rfl

end Steps

/-- The last bits of a code point after the mark of a continuation byte. -/
theorem isContinuation_ofNat (n : Nat) :
    (UInt8.ofNat (n % 64 + 128)).toNat = n % 64 + 128 ∧ IsContinuation (UInt8.ofNat (n % 64 + 128)) := by
  have hbyte : (UInt8.ofNat (n % 64 + 128)).toNat = n % 64 + 128 := toNat_byte (by omega)
  refine ⟨hbyte, ?_⟩
  rw [IsContinuation, hbyte]
  omega

/-- **A character is read from its bytes**, whatever follows them. -/
theorem exists_utf8Step (c : Char) (rest : List UInt8) :
    ∃ first more, String.utf8EncodeChar c = first :: more ∧
      utf8Step first (more ++ rest) = .char c rest := by
  have hc : c.val.toNat < 0xD800 ∨ 0xDFFF < c.val.toNat ∧ c.val.toNat < 0x110000 := c.valid
  have hchar : Char.ofNat c.val.toNat = c := Char.ofNat_toNat c
  unfold String.utf8EncodeChar
  generalize c.val.toNat = v at hc hchar
  dsimp only
  -- one case for each number of bytes; that there is no shorter form bounds the first byte, or the second
  split_ifs with hone htwo hthree
  · refine ⟨_, _, rfl, ?_⟩
    have ha : (UInt8.ofNat v).toNat = v := toNat_byte (by omega)
    rw [List.nil_append, utf8Step_one (by omega), ha, hchar]
  · refine ⟨_, _, rfl, ?_⟩
    have ha : (UInt8.ofNat (v / 64 % 32 + 192)).toNat = v / 64 % 32 + 192 := toNat_byte (by omega)
    obtain ⟨hb, hcontinues⟩ := isContinuation_ofNat v
    rw [List.singleton_append, utf8Step_two (by omega) hcontinues, ha, hb]
    rw [show (v / 64 % 32 + 192) % 32 * 64 + (v % 64 + 128) % 64 = v by omega, hchar]
  · refine ⟨_, _, rfl, ?_⟩
    have ha : (UInt8.ofNat (v / 4096 % 16 + 224)).toNat = v / 4096 % 16 + 224 := toNat_byte (by omega)
    obtain ⟨hb, hsecond⟩ := isContinuation_ofNat (v / 64)
    obtain ⟨hc, hthird⟩ := isContinuation_ofNat v
    rw [List.cons_append, List.singleton_append,
      utf8Step_three (by omega) hsecond hthird (by omega) (by omega), ha, hb, hc]
    rw [show (v / 4096 % 16 + 224) % 16 * 4096 + (v / 64 % 64 + 128) % 64 * 64 + (v % 64 + 128) % 64 = v by
      omega, hchar]
  · refine ⟨_, _, rfl, ?_⟩
    have ha : (UInt8.ofNat (v / 262144 % 8 + 240)).toNat = v / 262144 % 8 + 240 := toNat_byte (by omega)
    obtain ⟨hb, hsecond⟩ := isContinuation_ofNat (v / 4096)
    obtain ⟨hc, hthird⟩ := isContinuation_ofNat (v / 64)
    obtain ⟨hd, hfourth⟩ := isContinuation_ofNat v
    rw [List.cons_append, List.cons_append, List.singleton_append,
      utf8Step_four (by omega) hsecond hthird hfourth (by omega) (by omega), ha, hb, hc, hd]
    rw [show (v / 262144 % 8 + 240) % 8 * 262144 + (v / 4096 % 64 + 128) % 64 * 4096 +
      (v / 64 % 64 + 128) % 64 * 64 + (v % 64 + 128) % 64 = v by omega, hchar]

/-! ## Whole texts -/

theorem length_le_flatMap_utf8EncodeChar (chars : List Char) :
    chars.length ≤ (chars.flatMap String.utf8EncodeChar).length := by
  induction chars with
  | nil => exact Nat.le_refl _
  | cons c chars ih =>
    have hpos := List.length_pos_iff.mpr (String.utf8EncodeChar_ne_nil (c := c))
    rw [List.flatMap_cons, List.length_append, List.length_cons]
    omega

theorem decodeLossyWithin_flatMap {chars : List Char} {count : Nat} (h : chars.length ≤ count) :
    decodeLossyWithin count (chars.flatMap String.utf8EncodeChar) = chars := by
  induction chars generalizing count with
  | nil => cases count <;> rfl
  | cons c chars ih =>
    obtain ⟨count, rfl⟩ : ∃ n, count = n + 1 := ⟨count - 1, by rw [List.length_cons] at h; omega⟩
    obtain ⟨first, more, hbytes, hstep⟩ := exists_utf8Step c (chars.flatMap String.utf8EncodeChar)
    rw [List.flatMap_cons, hbytes, List.cons_append, decodeLossyWithin, hstep]
    simp only [ih (by simpa using h)]

/-- **A text is read back from its bytes.** -/
theorem decodeLossy_utf8Bytes (text : String) : decodeLossy (utf8Bytes text) = text := by
  unfold decodeLossy utf8Bytes
  rw [decodeLossyWithin_flatMap (length_le_flatMap_utf8EncodeChar _), String.ofList_toList]

theorem utf8Bytes_injective {text other : String} (h : utf8Bytes text = utf8Bytes other) : text = other := by
  rw [← decodeLossy_utf8Bytes text, h, decodeLossy_utf8Bytes]

/-- An ASCII character is one byte. -/
theorem utf8EncodeChar_ascii {c : Char} (h : c.toNat < 0x80) :
    String.utf8EncodeChar c = [UInt8.ofNat c.toNat] := by
  have hle : c.val.toNat ≤ 127 := Nat.le_of_lt_succ h
  unfold String.utf8EncodeChar
  exact if_pos hle

end QualifierDiscovery.Text
