/-!
# Cyclic redundancy checksum

The checksum of 32 bits with the reversed polynomial 0xEDB88320 that archives keep of their
contents.
-/

namespace QualifierDiscovery.Archive

/-- One bit's step of the checksum. -/
def checksumBit (sum : UInt32) : UInt32 :=
  if sum &&& 1 = 1 then (sum >>> 1) ^^^ 0xEDB88320 else sum >>> 1

/-- One byte's step of the checksum. -/
def checksumByte (sum : UInt32) (b : UInt8) : UInt32 :=
  (List.range 8).foldl (fun sum _ => checksumBit sum) (sum ^^^ b.toUInt32)

/-- The checksum of a list of bytes. -/
def checksum (bytes : List UInt8) : UInt32 :=
  ~~~(bytes.foldl checksumByte 0xFFFFFFFF)

end QualifierDiscovery.Archive
