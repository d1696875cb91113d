import Mathlib.Data.List.DropRight
import QualifierDiscovery.Json.Printer
import QualifierDiscovery.Json.Reader

/-!
# `Proofs.Json.Scalars` — strings and integers are read as they were written

What is written for a string is read back character by character (`readString_written`), whatever the
characters are: each one is escaped to something that an escape reads (`readChars_escaped`). What is
written for an integer is its decimal digits without zeros in front, and they are read back as the integer
(`readNumber_toDigits`) wherever the text does not go on with a number (`EndsNumber`).
-/

namespace QualifierDiscovery.Json

variable {text rest : List Char}

/-- Reading on and only making something of what was read cannot fail. -/
theorem bind_ok_eq_map {α β : Type} (made : α → β) (result : Except Error α) :
    (result >>= fun x => .ok (made x)) = result.map made := by
  cases result <;> rfl

/-! ## Blanks -/

theorem skipBlanks_cons {c : Char} (h : isBlank c = false) : skipBlanks (c :: text) = c :: text :=
  List.dropWhile_cons_of_neg (by simp [h])

theorem skipBlanks_append {blanks : List Char} (h : ∀ c ∈ blanks, isBlank c = true) :
    skipBlanks (blanks ++ text) = skipBlanks text :=
  List.dropWhile_append_of_pos h

theorem skipBlanks_idem (text : List Char) : skipBlanks (skipBlanks text) = skipBlanks text :=
  List.dropWhile_idempotent _ _

theorem isBlank_of_mem_newLine {level : Nat} : ∀ c ∈ newLine level, isBlank c = true := by
  intro c hc
  rcases List.mem_cons.mp hc with rfl | hc
  · decide
  · rw [List.eq_of_mem_replicate hc]
    decide

/-! ## Strings -/

theorem hexValue?_hexDigit {n : Nat} (h : n < 16) : hexValue? (hexDigit n) = some n := by
  revert n
  decide

/-- A control character is read from its four digits. -/
theorem readEscape_control {c : Char} (h : c.toNat < 0x20) :
    readEscape ('u' :: '0' :: '0' :: hexDigit (c.toNat / 16) :: hexDigit (c.toNat % 16) :: rest) =
      .ok (c, rest) := by
  have hquad : hexQuad? '0' '0' (hexDigit (c.toNat / 16)) (hexDigit (c.toNat % 16)) = some c.toNat := by
    have hzero : hexValue? '0' = some 0 := rfl
    rw [hexQuad?, hzero, hexValue?_hexDigit (by omega), hexValue?_hexDigit (by omega)]
    simp only [Option.some.injEq]
    omega
  have htrailing : isTrailingSurrogate c.toNat = false := by
    simp only [isTrailingSurrogate, Bool.and_eq_false_iff, decide_eq_false_iff_not]
    omega
  have hleading : isLeadingSurrogate c.toNat = false := by
    simp only [isLeadingSurrogate, Bool.and_eq_false_iff, decide_eq_false_iff_not]
    omega
  simp [readEscape, readUnicodeEscape, readHexQuad, hquad, htrailing, hleading, bind, Except.bind]

/-- **A character is read from what is written for it**, and reading goes on after it. The cases are those
    of the writing: the two escaped marks, the five short escapes, the other control characters, and the
    characters that stand for themselves. -/
theorem readChars_escaped (c : Char) (count : Nat) (text : List Char) :
    readChars (count + 1) (escapedChar c ++ text) =
      (readChars count text).map fun (chars, rest) => (c :: chars, rest) := by
  rw [← bind_ok_eq_map]
  by_cases hescape : c ∈ ['"', '\\', '\x08', '\x0c', '\n', '\r', '\t']
  · simp only [List.mem_cons, List.not_mem_nil, or_false] at hescape
    rcases hescape with rfl | rfl | rfl | rfl | rfl | rfl | rfl <;> rfl
  · simp only [List.mem_cons, List.not_mem_nil, or_false, not_or] at hescape
    obtain ⟨hquote, hbackslash, hb, hf, hn, hr, ht⟩ := hescape
    unfold escapedChar
    rw [if_neg hquote, if_neg hbackslash, if_neg hb, if_neg hf, if_neg hn, if_neg hr, if_neg ht]
    split
    · next hcontrol =>
      show (readEscape ('u' :: '0' :: '0' :: hexDigit (c.toNat / 16) :: hexDigit (c.toNat % 16) :: text)
        >>= _) = _
      rw [readEscape_control hcontrol]
      rfl
    · next hplain =>
      rw [List.singleton_append, readChars, if_neg hquote, if_neg hbackslash, if_neg hplain]

theorem readChars_written {chars : List Char} {count : Nat} (h : chars.length < count) :
    readChars count (chars.flatMap escapedChar ++ '"' :: rest) = .ok (chars, rest) := by
  induction chars generalizing count with
  | nil =>
    obtain ⟨count, rfl⟩ := Nat.exists_eq_add_of_lt h
    rfl
  | cons c chars ih =>
    obtain ⟨count, rfl⟩ : ∃ n, count = n + 1 := ⟨count - 1, by omega⟩
    rw [List.flatMap_cons, List.append_assoc, readChars_escaped, ih (by simpa using h)]
    rfl

theorem escapedChar_ne_nil (c : Char) : escapedChar c ≠ [] := by
  unfold escapedChar
  split_ifs <;> simp

theorem length_le_flatMap_escapedChar (chars : List Char) :
    chars.length ≤ (chars.flatMap escapedChar).length := by
  induction chars with
  | nil => exact Nat.le_refl _
  | cons c chars ih =>
    have hpos := List.length_pos_iff.mpr (escapedChar_ne_nil c)
    rw [List.flatMap_cons, List.length_append, List.length_cons]
    omega

/-- **A string is read back from what is written for it.** -/
theorem readString_written (s : String) (rest : List Char) :
    readString (s.toList.flatMap escapedChar ++ '"' :: rest) = .ok (s, rest) := by
  have hlength := length_le_flatMap_escapedChar s.toList
  unfold readString
  rw [readChars_written (by rw [List.length_append]; omega)]
  simp [bind, Except.bind]

theorem writeString_append (s : String) (rest : List Char) :
    writeString s ++ rest = '"' :: (s.toList.flatMap escapedChar ++ '"' :: rest) := by
  simp [writeString]

/-! ## Integers -/

/-- The text does not go on with a number. -/
def EndsNumber (text : List Char) : Prop :=
  ∀ c rest, text = c :: rest → isDigit c = false ∧ c ≠ '.' ∧ c ≠ 'e' ∧ c ≠ 'E'

theorem endsNumber_nil : EndsNumber [] := fun _ _ h => absurd h (by simp)

theorem endsNumber_cons {c : Char} (h : isDigit c = false ∧ c ≠ '.' ∧ c ≠ 'e' ∧ c ≠ 'E') :
    EndsNumber (c :: text) := by
  intro first rest hfirst
  obtain ⟨rfl, -⟩ := List.cons.inj hfirst
  exact h

theorem isDigit_eq (c : Char) : isDigit c = c.isDigit := rfl

theorem splitDigits_append {digits : List Char} (hdigits : ∀ c ∈ digits, isDigit c = true)
    (hrest : EndsNumber rest) : splitDigits (digits ++ rest) = (digits, rest) := by
  have hstop : rest.takeWhile isDigit = [] ∧ rest.dropWhile isDigit = rest := by
    cases rest with
    | nil => exact ⟨rfl, rfl⟩
    | cons c rest =>
      have hc : ¬ isDigit c = true := by simp [(hrest c rest rfl).1]
      exact ⟨List.takeWhile_cons_of_neg hc, List.dropWhile_cons_of_neg hc⟩
  rw [splitDigits, List.takeWhile_append_of_pos hdigits, List.dropWhile_append_of_pos hdigits, hstop.1,
    hstop.2, List.append_nil]

theorem le_ofDigitChars (digits : List Char) (significand : Nat) :
    significand ≤ Nat.ofDigitChars 10 digits significand := by
  rw [Nat.ofDigitChars_eq_ofDigitChars_zero]
  exact Nat.le_trans (Nat.le_mul_of_pos_left _ (Nat.pow_pos (by decide))) (Nat.le_add_right _ _)

/-- Digits whose number fits 64 bits are all appended. -/
theorem appendDigits_eq {digits : List Char} {significand : Nat}
    (h : Nat.ofDigitChars 10 digits significand < 0x10000000000000000) :
    appendDigits significand digits = (Nat.ofDigitChars 10 digits significand, []) := by
  induction digits generalizing significand with
  | nil => rw [appendDigits, Nat.ofDigitChars_nil]
  | cons digit digits ih =>
    have hnext : significand * 10 + digitValue digit = 10 * significand + (digit.toNat - '0'.toNat) := by
      rw [Nat.mul_comm, digitValue]
    rw [Nat.ofDigitChars_cons] at h ⊢
    have hle := le_ofDigitChars digits (10 * significand + (digit.toNat - '0'.toNat))
    rw [appendDigits, hnext, if_pos (by omega), ih h]

/-- Only the digits of zero begin with a zero. -/
theorem toDigits_eq_zero_cons {n : Nat} {digits : List Char} (h : Nat.toDigits 10 n = '0' :: digits) :
    n = 0 ∧ digits = [] := by
  induction n using Nat.base_induction 10 (by decide) generalizing digits with
  | single m hm =>
    rw [Nat.toDigits_of_lt_base hm] at h
    obtain ⟨hdigit, hnil⟩ := List.cons.inj h
    exact ⟨Nat.digitChar_eq_zero.mp hdigit, hnil.symm⟩
  | digit m k hk hm ih =>
    rw [← Nat.toDigits_append_toDigits (by decide) hm hk] at h
    obtain ⟨first, others, hfirst⟩ := List.exists_cons_of_ne_nil (Nat.toDigits_ne_nil (n := m) (b := 10))
    rw [hfirst, List.cons_append] at h
    rw [(List.cons.inj h).1] at hfirst
    exact absurd (ih hfirst).1 (by omega)

theorem readAfterDigits_of_endsNumber {negative : Bool} {significand : Nat} (hrest : EndsNumber rest) :
    readAfterDigits negative significand 0 rest =
      (integerNumber negative significand).map fun n => (n, rest) := by
  rw [← bind_ok_eq_map]
  unfold readAfterDigits
  split
  · exact absurd rfl (hrest _ _ rfl).2.1
  · exact absurd rfl (hrest _ _ rfl).2.2.1
  · exact absurd rfl (hrest _ _ rfl).2.2.2
  · rfl

/-- **The digits of a number that fits 64 bits are read back.** -/
theorem readNumber_toDigits {n : Nat} (negative : Bool) (hn : n < 0x10000000000000000)
    (hrest : EndsNumber rest) :
    readNumber negative (Nat.toDigits 10 n ++ rest) = (integerNumber negative n).map fun x => (x, rest) := by
  have hdigits : ∀ c ∈ Nat.toDigits 10 n, isDigit c = true :=
    fun c hc => (isDigit_eq c).trans (Nat.isDigit_of_mem_toDigits (by decide) (by decide) hc)
  unfold readNumber
  rw [splitDigits_append hdigits hrest]
  split
  · next h => exact absurd (Prod.mk.inj h).1 Nat.toDigits_ne_nil
  · next h => exact absurd (Prod.mk.inj h).1 Nat.toDigits_ne_nil
  · next h =>
    obtain ⟨hzero, rfl⟩ := Prod.mk.inj h
    rw [(toDigits_eq_zero_cons hzero).1]
    exact readAfterDigits_of_endsNumber hrest
  · next hsingle h =>
    obtain ⟨hzero, -⟩ := Prod.mk.inj h
    exact absurd (toDigits_eq_zero_cons hzero).2 hsingle
  · next h =>
    obtain ⟨rfl, rfl⟩ := Prod.mk.inj h
    rw [appendDigits_eq (by rwa [Nat.ofDigitChars_ten_toDigits]), Nat.ofDigitChars_ten_toDigits]
    exact readAfterDigits_of_endsNumber hrest

/-- An integer is written as its digits, after a minus sign if it is negative. -/
theorem write_integer (n : WideInteger) :
    (Number.integer n).write =
      if 0 ≤ n.value then Nat.toDigits 10 n.value.toNat
      else '-' :: Nat.toDigits 10 (-n.value).toNat := by
  rw [Number.write, Number.text, Int.toString_eq_repr, Int.repr_eq_if]
  split
  · rw [Nat.toList_repr]
  · rw [String.toList_append, Nat.toList_repr]
    rfl

theorem integerNumber_of_nonneg {n : WideInteger} (h : 0 ≤ n.value) :
    integerNumber false n.value.toNat = .ok (.integer n) := by
  have hfits := n.fits
  rw [integerNumber, if_neg (by simp), dif_pos (by omega)]
  cases n
  simp only [Except.ok.injEq, Number.integer.injEq, WideInteger.mk.injEq]
  exact Int.toNat_of_nonneg h

theorem integerNumber_of_neg {n : WideInteger} (h : n.value < 0) :
    integerNumber true (-n.value).toNat = .ok (.integer n) := by
  have hfits := n.fits
  rw [integerNumber, if_pos rfl, dif_pos (by omega)]
  cases n
  simp only [Except.ok.injEq, Number.integer.injEq, WideInteger.mk.injEq] at h ⊢
  omega

end QualifierDiscovery.Json
