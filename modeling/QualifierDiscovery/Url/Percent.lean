import QualifierDiscovery.Text.Utf8

/-!
# Percent encoding

A byte that may not stand in a URL by itself is written as a percent sign and two hexadecimal
digits.

- `encodeSegment` writes the name of a file as one segment of a URL's path.
- `decode` reads a segment back as bytes; a percent sign without two digits stands for itself.
-/

namespace QualifierDiscovery.Url

/-- The byte may not stand by itself in a segment of a path: controls, bytes past U+007F and the
characters that would end the segment or the path or that some reader changes. -/
def isEscapedByte (b : UInt8) : Bool :=
  b < 0x20 || 0x7F ≤ b || b == 0x20 || b == 0x22 || b == 0x23 || b == 0x25 || b == 0x2F || b == 0x3C
    || b == 0x3E || b == 0x3F || b == 0x5C || b == 0x60 || b == 0x7B || b == 0x7D

/-- A hexadecimal digit in upper case. -/
def hexDigit (n : Nat) : Char := Char.ofNat (if n < 10 then 0x30 + n else 0x41 + (n - 10))

/-- A byte as it is written in a segment. -/
def encodeByte (b : UInt8) : List Char :=
  if isEscapedByte b then ['%', hexDigit (b.toNat / 16), hexDigit (b.toNat % 16)]
  else [Char.ofNat b.toNat]

/-- A name as one segment of a path. -/
def encodeSegment (name : String) : List Char :=
  (Text.utf8Bytes name).flatMap encodeByte

/-- The value of a hexadecimal digit given as a byte. -/
def hexValue? (b : UInt8) : Option Nat :=
  if 0x30 ≤ b ∧ b ≤ 0x39 then some (b.toNat - 0x30)
  else if 0x41 ≤ b ∧ b ≤ 0x46 then some (b.toNat - 0x41 + 10)
  else if 0x61 ≤ b ∧ b ≤ 0x66 then some (b.toNat - 0x61 + 10)
  else none

/-- The bytes with each percent sign and the two digits after it read as one byte. -/
def decode : List UInt8 → List UInt8
  | [] => []
  | [a] => [a]
  | [a, b] => [a, b]
  | a :: b :: c :: rest =>
    if a = 0x25 then
      match hexValue? b, hexValue? c with
      | some high, some low => UInt8.ofNat (high * 16 + low) :: decode rest
      | _, _ => a :: decode (b :: c :: rest)
    else a :: decode (b :: c :: rest)

end QualifierDiscovery.Url
