import QualifierDiscovery.Archive.Bytes
import QualifierDiscovery.Archive.Checksum
import QualifierDiscovery.Archive.CodePage437
import QualifierDiscovery.Text.Utf8

/-!
# Extra fields of archive entries

An entry of an archive may carry extra fields, each with a kind, a length and a content. Some bear
on the entry's name; others are only checked for their form. An entry with a malformed field is
refused.

- `Entry.readExtra?` applies all extra fields to an entry.
-/

namespace QualifierDiscovery.Archive

/-- An entry of an archive's directory, as far as it bears on the entry's name. -/
structure Entry where
  /-- The name as it is stored, which tells entries apart. -/
  rawName : List UInt8
  name : String
  /-- The texts of the entry are UTF-8, not code page 437. -/
  isUtf8 : Bool
  comment : String
  compressionMethod : Nat
  encrypted : Bool
  uncompressedSize : Nat
  compressedSize : Nat
  headerOffset : Nat

/-- The compression method that stands for encryption, with the true one in an extra field. -/
def encryptedMethod : Nat := 99

/-- The value of 32 bits that refers to an extra field for the true one. -/
def seeExtraField : Nat := 0xFFFFFFFF

/-- Reads the sizes and the offset of a large entry. A field of full length holds all three, a
shorter one those that the entry refers to it for. -/
def Entry.readLarge? (entry : Entry) (length : Nat) (bytes : List UInt8) :
    Option (Entry × List UInt8) := do
  let full := 24 ≤ length
  let take (wanted : Bool) (old : Nat) (used : Nat) (bytes : List UInt8) :
      Option (Nat × Nat × List UInt8) :=
    if wanted then do
      let (n, bytes) ← takeNumber? 8 bytes
      some (n, used + 8, bytes)
    else some (old, used, bytes)
  let (uncompressed, used, bytes) ←
    take (full || entry.uncompressedSize == seeExtraField) entry.uncompressedSize 0 bytes
  let (compressed, used, bytes) ←
    take (full || entry.compressedSize == seeExtraField) entry.compressedSize used bytes
  let (offset, used, bytes) ←
    take (full || entry.headerOffset == seeExtraField) entry.headerOffset used bytes
  guard (used ≤ length)
  let (_, bytes) ← takeBytes? (length - used) bytes
  some ({ entry with
    uncompressedSize := uncompressed, compressedSize := compressed, headerOffset := offset }, bytes)

/-- Checks a field of file times in units of 100 nanoseconds. -/
def skipFileTimes? (length : Nat) (bytes : List UInt8) : Option (List UInt8) := do
  guard (length == 32)
  let (_, bytes) ← takeNumber? 4 bytes
  let (tag, bytes) ← takeNumber? 2 bytes
  let (size, bytes) ← takeNumber? 2 bytes
  guard (tag == 1 && size == 24)
  let (_, bytes) ← takeBytes? 24 bytes
  some bytes

/-- Checks a field of times in seconds: one for each flag, or the first one alone. -/
def skipTimestamps? (length : Nat) (bytes : List UInt8) : Option (List UInt8) := do
  let (flags, bytes) ← takeNumber? 1 bytes
  let isSet (i : Nat) : Bool := flags.testBit i
  guard (length == 5 || length == 1 + 4 * ((List.range 8).filter isSet).length)
  let size := (if isSet 0 || length == 5 then 4 else 0)
    + (if isSet 1 && 5 < length then 4 else 0) + (if isSet 2 && 5 < length then 4 else 0)
  let (_, bytes) ← takeBytes? size bytes
  some bytes

/-- Reads a field of encryption, which tells the true compression method. -/
def Entry.readEncryption? (entry : Entry) (length : Nat) (bytes : List UInt8) :
    Option (Entry × List UInt8) := do
  guard (length == 7)
  let (version, bytes) ← takeNumber? 2 bytes
  let (vendor, bytes) ← takeNumber? 2 bytes
  let (strength, bytes) ← takeNumber? 1 bytes
  let (method, bytes) ← takeNumber? 2 bytes
  guard (vendor == 0x4541 && (version == 1 || version == 2) && 1 ≤ strength && strength ≤ 3)
  some ({ entry with compressionMethod := method, encrypted := true }, bytes)

/-- Reads a field with the UTF-8 form of a text of the entry. It names the checksum of the form that
it is to replace. -/
def readUnicodeText? (replaced : List UInt8) (length : Nat) (bytes : List UInt8) :
    Option (List UInt8 × String × List UInt8) := do
  let (_, bytes) ← takeNumber? 1 bytes
  let (sum, bytes) ← takeNumber? 4 bytes
  guard (5 ≤ length)
  let (content, bytes) ← takeBytes? (length - 5) bytes
  guard (sum == (checksum replaced).toNat)
  let text ← Text.decode? content.toByteArray
  some (content, text, bytes)

/-- Applies the field that the bytes begin with to an entry. -/
def Entry.readField? (entry : Entry) (bytes : List UInt8) : Option (Entry × List UInt8) := do
  let (kind, bytes) ← takeNumber? 2 bytes
  let (length, bytes) ← takeNumber? 2 bytes
  if kind = 0x0001 then entry.readLarge? length bytes
  else if kind = 0x000A then do some (entry, ← skipFileTimes? length bytes)
  else if kind = 0x9901 then entry.readEncryption? length bytes
  else if kind = 0x5455 then do some (entry, ← skipTimestamps? length bytes)
  else if kind = 0x6375 && !entry.isUtf8 then do
    let (_, text, bytes) ← readUnicodeText? (Text.utf8Bytes entry.comment) length bytes
    some ({ entry with comment := text }, bytes)
  else if kind = 0x7075 && !entry.isUtf8 then do
    let (content, text, bytes) ← readUnicodeText? entry.rawName length bytes
    some ({ entry with rawName := content, name := text, isUtf8 := true }, bytes)
  else do
    let (_, bytes) ← takeBytes? length bytes
    some (entry, bytes)

/-- Applies less than `count` extra fields to an entry, to the end of the bytes. -/
def Entry.readFields? (entry : Entry) : Nat → List UInt8 → Option Entry
  | _, [] => some entry
  | 0, _ :: _ => none
  | count + 1, bytes => do
    let (entry, bytes) ← entry.readField? bytes
    entry.readFields? count bytes

/-- Applies all extra fields to an entry. A field takes four bytes at least. -/
def Entry.readExtra? (entry : Entry) (bytes : List UInt8) : Option Entry :=
  entry.readFields? bytes.length bytes

end QualifierDiscovery.Archive
