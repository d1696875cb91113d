import QualifierDiscovery.Text.Alphabetic
import QualifierDiscovery.Text.Digits
import QualifierDiscovery.Text.Numeric
import QualifierDiscovery.Text.Unprintable

/-!
# Classes of characters

The Unicode classes that names, version numbers and quoted texts are made of. A character up to
U+007F is decided directly, every other one by the table of its class.

- `isAlphabetic_of_isAlpha` and `isNumeric_of_isDigit`: the classes contain the core library's.
-/

namespace QualifierDiscovery.Text

/-- The character is a letter: it has the Unicode property Alphabetic. -/
def isAlphabetic (c : Char) : Bool :=
  if c.toNat < 0x80 then c.isAlpha else inRanges alphabeticRanges c.toNat

/-- The character stands for a number: its general category is Nd, Nl or No. -/
def isNumeric (c : Char) : Bool :=
  if c.toNat < 0x80 then c.isDigit else inRanges numericRanges c.toNat

/-- The character is a decimal digit of any script: its general category is Nd. -/
def isDecimalDigit (c : Char) : Bool :=
  if c.toNat < 0x80 then c.isDigit else inRanges digitRanges c.toNat

/-- The character does not show by itself inside quotes: it is a control, format, private,
unassigned or separator character other than the space, or it extends the character before it. -/
def isUnprintable (c : Char) : Bool :=
  if c.toNat < 0x80 then c.toNat < 0x20 || c.toNat = 0x7F else inRanges unprintableRanges c.toNat

theorem toNat_lt_of_isAlpha {c : Char} (h : c.isAlpha = true) : c.toNat < 0x80 := by
  have code : c.toNat = c.val.toNat := rfl
  have upperOrLower : c.isUpper = true ∨ c.isLower = true := by
    rw [← Bool.or_eq_true]
    exact h
  rcases upperOrLower with upper | lower
  · have atMost : c.val ≤ 90 := (of_decide_eq_true upper).2
    have : c.val.toNat ≤ 90 := UInt32.le_iff_toNat_le.1 atMost
    omega
  · have atMost : c.val ≤ 122 := of_decide_eq_true (Bool.and_eq_true _ _ ▸ lower : _ ∧ _).2
    have : c.val.toNat ≤ 122 := UInt32.le_iff_toNat_le.1 atMost
    omega

theorem isAlphabetic_of_isAlpha {c : Char} (h : c.isAlpha = true) : isAlphabetic c = true := by
  simp [isAlphabetic, toNat_lt_of_isAlpha h, h]

theorem toNat_lt_of_isDigit {c : Char} (h : c.isDigit = true) : c.toNat < 0x80 := by
  simp only [Char.isDigit, Bool.and_eq_true, decide_eq_true_eq, UInt32.le_iff_toNat_le] at h
  have : c.toNat = c.val.toNat := rfl
  have nine : ('9' : Char).val.toNat = 57 := rfl
  have := h.2
  omega

theorem isNumeric_of_isDigit {c : Char} (h : c.isDigit = true) : isNumeric c = true := by
  simp [isNumeric, toNat_lt_of_isDigit h, h]

end QualifierDiscovery.Text
