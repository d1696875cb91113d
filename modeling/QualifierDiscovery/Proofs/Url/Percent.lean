import QualifierDiscovery.Proofs.Text.Utf8
import QualifierDiscovery.Url.Percent

/-!
# `Proofs.Url.Percent` — names are read back from what is written for them

Each byte of a name is written by itself or as three characters, all of them ASCII. Decoding takes either
form back to the byte (`decode_encodeByte`), and so a segment back to the bytes of the name it was written
for (`segmentBytes_encodeSegment`). A percent sign of the name is escaped itself, so text that looks encoded
comes back as it was. None of the characters written is a blank, ends a segment or ends a path
(`isSegmentChar_of_mem_encodeSegment`).
-/

namespace QualifierDiscovery.Url

/-! ## Decoding bytes -/

section Decoding

variable {a b c : UInt8} {rest : List UInt8}

theorem decode_cons_of_ne (ha : a ≠ 0x25) (rest : List UInt8) : decode (a :: rest) = a :: decode rest := by
  match rest with
  | [] => rfl
  | [_] => rfl
  | _ :: _ :: _ => rw [decode, if_neg ha]

theorem decode_percent {high low : Nat} (hhigh : hexValue? b = some high) (hlow : hexValue? c = some low) :
    decode (0x25 :: b :: c :: rest) = UInt8.ofNat (high * 16 + low) :: decode rest := by
  rw [decode, if_pos rfl, hhigh, hlow]

end Decoding

/-! ## Bytes -/

/-- A character that can stand in a segment as it is written: none that a reader drops, and none that ends
    the segment or the path. -/
structure IsSegmentChar (c : Char) : Prop where
  notBlank : 0x20 < c.toNat
  ascii : c.toNat < 0x7F
  notSlash : c ≠ '/' ∧ c ≠ '\\'
  notEnd : c ≠ '?' ∧ c ≠ '#'

instance (c : Char) : Decidable (IsSegmentChar c) :=
  decidable_of_iff (0x20 < c.toNat ∧ c.toNat < 0x7F ∧ (c ≠ '/' ∧ c ≠ '\\') ∧ c ≠ '?' ∧ c ≠ '#')
    ⟨fun ⟨hblank, hascii, hslash, hend⟩ => ⟨hblank, hascii, hslash, hend⟩,
      fun ⟨hblank, hascii, hslash, hend⟩ => ⟨hblank, hascii, hslash, hend⟩⟩

/-- A hexadecimal digit can stand in a segment, and its byte is read as the digit. -/
theorem hexDigit_read {n : Nat} (h : n < 16) :
    IsSegmentChar (hexDigit n) ∧ hexValue? (UInt8.ofNat (hexDigit n).toNat) = some n := by
  revert n
  decide

/-- A byte that stands by itself is the code of a character, which is neither escaped nor a percent
    sign. -/
theorem toNat_of_not_isEscapedByte {b : UInt8} (h : ¬ isEscapedByte b = true) :
    (0x20 < b.toNat ∧ b.toNat < 0x7F) ∧ b.toNat ≠ 0x25 ∧ (b.toNat ≠ 0x2F ∧ b.toNat ≠ 0x5C) ∧
      b.toNat ≠ 0x3F ∧ b.toNat ≠ 0x23 := by
  rw [Bool.not_eq_true] at h
  simp only [isEscapedByte, Bool.or_eq_false_iff, decide_eq_false_iff_not, beq_eq_false_iff_ne, ne_eq,
    UInt8.lt_iff_toNat_lt, UInt8.le_iff_toNat_le, ← UInt8.toNat_inj, UInt8.reduceToNat] at h
  omega

theorem toNat_ofNat_byte {n : Nat} (h : n < 0x7F) : (Char.ofNat n).toNat = n := by
  have hvalid : n.isValidChar := Or.inl (by omega)
  unfold Char.ofNat
  rw [dif_pos hvalid]
  rfl

theorem isSegmentChar_of_mem_encodeByte {b : UInt8} {c : Char} (h : c ∈ encodeByte b) : IsSegmentChar c := by
  have hbyte := b.toNat_lt
  unfold encodeByte at h
  split at h
  · simp only [List.mem_cons, List.not_mem_nil, or_false] at h
    rcases h with rfl | rfl | rfl
    · decide
    · exact (hexDigit_read (by omega)).1
    · exact (hexDigit_read (by omega)).1
  · next hplain =>
    obtain ⟨⟨hblank, hascii⟩, -, ⟨hslash, hbackslash⟩, hquestion, hnumber⟩ :=
      toNat_of_not_isEscapedByte hplain
    have hchar := toNat_ofNat_byte hascii
    rw [List.mem_singleton.mp h]
    have hne : ∀ d : Char, b.toNat ≠ d.toNat → Char.ofNat b.toNat ≠ d := by
      rintro _ hd rfl
      exact hd hchar.symm
    exact ⟨by omega, by omega, ⟨hne _ hslash, hne _ hbackslash⟩, hne _ hquestion, hne _ hnumber⟩

/-- **A byte is read back from what is written for it.** -/
theorem decode_encodeByte (b : UInt8) (rest : List UInt8) :
    decode ((encodeByte b).flatMap String.utf8EncodeChar ++ rest) = b :: decode rest := by
  have hbyte := b.toNat_lt
  unfold encodeByte
  split
  · -- the two digits behind the percent sign make the byte
    obtain ⟨hhigh, hhighValue⟩ := hexDigit_read (n := b.toNat / 16) (by omega)
    obtain ⟨hlow, hlowValue⟩ := hexDigit_read (n := b.toNat % 16) (by omega)
    have hpercent : String.utf8EncodeChar '%' = [0x25] := by decide
    simp only [List.flatMap_cons, List.flatMap_nil, hpercent,
      Text.utf8EncodeChar_ascii (Nat.lt_succ_of_lt hhigh.ascii),
      Text.utf8EncodeChar_ascii (Nat.lt_succ_of_lt hlow.ascii), List.cons_append, List.nil_append]
    rw [decode_percent hhighValue hlowValue, show b.toNat / 16 * 16 + b.toNat % 16 = b.toNat by omega,
      UInt8.ofNat_toNat]
  · -- a byte that stands by itself is no percent sign, so no digits are taken with it
    next hplain =>
    obtain ⟨⟨-, hascii⟩, hpercent, -⟩ := toNat_of_not_isEscapedByte hplain
    have hchar := toNat_ofNat_byte hascii
    have hne : b ≠ 0x25 := fun h => hpercent (congrArg UInt8.toNat h)
    rw [List.flatMap_singleton, Text.utf8EncodeChar_ascii (by omega), hchar, UInt8.ofNat_toNat,
      List.singleton_append, decode_cons_of_ne hne]

theorem decode_flatMap_encodeByte (bytes : List UInt8) :
    decode ((bytes.flatMap encodeByte).flatMap String.utf8EncodeChar) = bytes := by
  induction bytes with
  | nil => rfl
  | cons b bytes ih => rw [List.flatMap_cons, List.flatMap_append, decode_encodeByte, ih]

/-! ## Segments -/

/-- The bytes that a segment stands for. -/
def segmentBytes (segment : List Char) : List UInt8 := decode (Text.utf8Bytes (String.ofList segment))

/-- **The bytes of a name are read back from its segment.** -/
theorem segmentBytes_encodeSegment (name : String) :
    segmentBytes (encodeSegment name) = Text.utf8Bytes name := by
  unfold segmentBytes encodeSegment
  rw [Text.utf8Bytes, String.toList_ofList]
  exact decode_flatMap_encodeByte _

theorem isSegmentChar_of_mem_encodeSegment {name : String} {c : Char} (h : c ∈ encodeSegment name) :
    IsSegmentChar c := by
  obtain ⟨b, -, hc⟩ := List.mem_flatMap.mp h
  exact isSegmentChar_of_mem_encodeByte hc

/-- A segment stands for the name it was written for and for no other. -/
theorem eq_of_segmentBytes_encodeSegment {name other : String}
    (h : segmentBytes (encodeSegment name) = Text.utf8Bytes other) : name = other := by
  rw [segmentBytes_encodeSegment] at h
  exact Text.utf8Bytes_injective h

theorem encodeSegment_ne_nil {name : String} (h : name ≠ "") : encodeSegment name ≠ [] := by
  intro hnil
  apply h
  apply eq_of_segmentBytes_encodeSegment
  rw [hnil]
  rfl

end QualifierDiscovery.Url
