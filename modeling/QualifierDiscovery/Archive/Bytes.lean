/-!
# Numbers in bytes

Archives hold their numbers with the lowest byte first. Nothing is read past the end of the bytes.
-/

namespace QualifierDiscovery.Archive

/-- The number of `width` bytes at an offset, lowest byte first. -/
def numberAt? (bytes : ByteArray) : Nat → Nat → Option Nat
  | _, 0 => some 0
  | offset, width + 1 => do
    let low ← bytes.data[offset]?
    let high ← numberAt? bytes (offset + 1) width
    some (low.toNat + 256 * high)

/-- The bytes of a given length at an offset. -/
def bytesAt? (bytes : ByteArray) (offset length : Nat) : Option (List UInt8) :=
  if offset + length ≤ bytes.size then some (bytes.extract offset (offset + length)).data.toList
  else none

/-- The number of `width` bytes that a list begins with, lowest byte first, and the bytes after
it. -/
def takeNumber? : Nat → List UInt8 → Option (Nat × List UInt8)
  | 0, rest => some (0, rest)
  | _ + 1, [] => none
  | width + 1, low :: rest => do
    let (high, rest) ← takeNumber? width rest
    some (low.toNat + 256 * high, rest)

/-- As many bytes as asked for from the start of a list, and the bytes after them. -/
def takeBytes? (length : Nat) (bytes : List UInt8) : Option (List UInt8 × List UInt8) :=
  if length ≤ bytes.length then some (bytes.take length, bytes.drop length) else none

/-- The first offset from `offset` on, among the next `count`, where the four bytes are the given
number. -/
def findForward? (bytes : ByteArray) (signature : Nat) : Nat → Nat → Option Nat
  | _, 0 => none
  | offset, count + 1 =>
    if numberAt? bytes offset 4 = some signature then some offset
    else findForward? bytes signature (offset + 1) count

end QualifierDiscovery.Archive
