import QualifierDiscovery.Archive.ExtraFields

/-!
# The directory of an archive

An archive in ZIP format ends in a record that tells where its directory of entries is and how many
entries that has. The record is looked for from the end of the file backwards, since a comment may
follow it; a record whose directory cannot be read gives way to one before it. Bytes in front of the
archive shift its offsets.

- `entryNames?` lists the names of the entries; a file that is no archive has none.
-/

namespace QualifierDiscovery.Archive

/-- Where a directory is and what must hold of it. -/
structure DirectoryEnd where
  start : Nat
  entryCount : Nat
  disk : Nat
  directoryDisk : Nat

/-- The signature of the header of an entry in the directory. -/
def entrySignature : Nat := 0x02014B50

/-- The signature of the record at the end. -/
def endSignature : Nat := 0x06054B50

/-- The signature of the record at the end of a large archive. -/
def largeEndSignature : Nat := 0x06064B50

/-- The signature of the record that tells where the one of a large archive is. -/
def locatorSignature : Nat := 0x07064B50

/-- Reads the record of a large archive at `offset`, for the locator at `locator` that names
`directoryDisk` and the offset `named`. -/
def largeEndAt? (bytes : ByteArray) (locator directoryDisk named offset : Nat) :
    Option (Option DirectoryEnd) := do
  let number := numberAt? bytes
  let recordSize ← number (offset + 4) 8
  let madeBy ← number (offset + 12) 2
  let needed ← number (offset + 14) 2
  let disk ← number (offset + 16) 4
  let endDirectoryDisk ← number (offset + 20) 4
  let entriesOnDisk ← number (offset + 24) 8
  let entries ← number (offset + 32) 8
  let _ ← number (offset + 40) 8
  let directoryOffset ← number (offset + 48) 8
  guard (44 ≤ recordSize && recordSize + 12 == locator - offset)
  guard (endDirectoryDisk == directoryDisk)
  guard (directoryOffset + entries * 46 ≤ offset)
  if entries < entriesOnDisk ∨ madeBy < needed then some none
  else some (some ⟨directoryOffset + (offset - named), entries, disk, endDirectoryDisk⟩)

/-- The first record of a large archive, from `offset` on among the next `count` offsets, that
agrees with its locator. -/
def findLargeEnd? (bytes : ByteArray) (locator directoryDisk named : Nat) :
    Nat → Nat → Option DirectoryEnd
  | _, 0 => none
  | offset, count + 1 =>
    let found :=
      if numberAt? bytes offset 4 = some largeEndSignature then
        largeEndAt? bytes locator directoryDisk named offset
      else none
    match found with
    | some result => result
    | none => findLargeEnd? bytes locator directoryDisk named (offset + 1) count

/-- Reads the record at `offset` and, if it refers to one, the record of a large archive. -/
def directoryEndAt? (bytes : ByteArray) (offset : Nat) : Option DirectoryEnd := do
  let number := numberAt? bytes
  let signature ← number offset 4
  guard (signature == endSignature)
  let disk ← number (offset + 4) 2
  let directoryDisk ← number (offset + 6) 2
  let entriesOnDisk ← number (offset + 8) 2
  let entries ← number (offset + 10) 2
  let directoryOffset ← number (offset + 16) 4
  let commentLength ← number (offset + 20) 2
  guard (offset + 22 + commentLength ≤ bytes.size)
  let mayBeLarge := entries == 0xFFFF || directoryOffset == 0xFFFFFFFF
  if mayBeLarge && 20 ≤ offset && number (offset - 20) 4 == some locatorSignature then do
    let locator := offset - 20
    let locatorDisk ← number (locator + 4) 4
    let named ← number (locator + 8) 8
    let disks ← number (locator + 16) 4
    guard (named < locator && disks ≤ 1)
    findLargeEnd? bytes locator locatorDisk named named (locator - named - 3)
  else if entries = 0 then
    some ⟨directoryOffset + (offset - directoryOffset), entriesOnDisk, disk, directoryDisk⟩
  else do
    guard (directoryOffset < offset)
    let start ← findForward? bytes entrySignature directoryOffset (offset - directoryOffset - 3)
    some ⟨start, entriesOnDisk, disk, directoryDisk⟩

/-- Reads the header of an entry at an offset; gives the entry and the offset after it. -/
def entryAt? (bytes : ByteArray) (offset : Nat) : Option (Entry × Nat) := do
  let number := numberAt? bytes
  let signature ← number offset 4
  guard (signature == entrySignature)
  let flags ← number (offset + 8) 2
  let method ← number (offset + 10) 2
  let compressedSize ← number (offset + 20) 4
  let uncompressedSize ← number (offset + 24) 4
  let nameLength ← number (offset + 28) 2
  let extraLength ← number (offset + 30) 2
  let commentLength ← number (offset + 32) 2
  let headerOffset ← number (offset + 42) 4
  let rawName ← bytesAt? bytes (offset + 46) nameLength
  let extra ← bytesAt? bytes (offset + 46 + nameLength) extraLength
  let rawComment ← bytesAt? bytes (offset + 46 + nameLength + extraLength) commentLength
  let isUtf8 := flags.testBit 11
  let decode (raw : List UInt8) : String :=
    if isUtf8 then Text.decodeLossy raw else decodeCodePage437 raw
  let stored : Entry :=
    { rawName, name := decode rawName, isUtf8, comment := decode rawComment,
      compressionMethod := method, encrypted := false, uncompressedSize, compressedSize,
      headerOffset }
  let entry ← stored.readExtra? extra
  guard (entry.encrypted || entry.compressionMethod != encryptedMethod)
  some (entry, offset + 46 + nameLength + extraLength + commentLength)

/-- The entries with one more; it takes the place of the one with the same stored name. -/
def putEntry (entry : Entry) : List Entry → List Entry
  | [] => [entry]
  | first :: rest =>
    if first.rawName = entry.rawName then entry :: rest else first :: putEntry entry rest

/-- Reads a number of entries from an offset on. -/
def entriesFrom? (bytes : ByteArray) : Nat → Nat → Option (List Entry)
  | 0, _ => some []
  | count + 1, offset => do
    let (entry, next) ← entryAt? bytes offset
    let entries ← entriesFrom? bytes count next
    some (entry :: entries)

/-- The names in the directory that the record at an offset tells of. -/
def namesAt? (bytes : ByteArray) (offset : Nat) : Option (List String) := do
  let directoryEnd ← directoryEndAt? bytes offset
  guard (directoryEnd.disk == directoryEnd.directoryDisk)
  let entries ← entriesFrom? bytes directoryEnd.entryCount directoryEnd.start
  let distinct := entries.foldl (fun known entry => putEntry entry known) []
  some (distinct.map Entry.name)

/-- The names told of by the last readable record that begins before an offset. -/
def namesBefore? (bytes : ByteArray) : Nat → Option (List String)
  | 0 => none
  | offset + 1 =>
    match namesAt? bytes offset with
    | some names => some names
    | none => namesBefore? bytes offset

/-- The names of the entries of an archive, in the order of its directory; none if the bytes are not
an archive. -/
def entryNames? (bytes : ByteArray) : Option (List String) := namesBefore? bytes bytes.size

end QualifierDiscovery.Archive
