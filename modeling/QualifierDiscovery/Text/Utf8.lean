/-!
# Reading UTF-8 with replacement

Bytes that are not UTF-8 can still be read as a text: every maximal sequence that could have begun a
character, or a byte that could not, is read as one replacement character U+FFFD.

- `decodeLossy` reads any bytes.
- `decode?` reads bytes that are UTF-8 and refuses all others.
-/

namespace QualifierDiscovery.Text

/-- What a list of bytes begins with: a character or a broken sequence, and the bytes after it. -/
inductive Utf8Step
  | char (c : Char) (rest : List UInt8)
  | broken (rest : List UInt8)

/-- `b` lies between `low` and `high`. -/
def byteWithin (low high b : UInt8) : Bool := low ≤ b && b ≤ high

/-- The six payload bits of a continuation byte. -/
def continuationBits (b : UInt8) : Nat := b.toNat % 64

/-- The first step in reading `first :: rest`. The second byte's range depends on the first, so that
overlong forms, surrogates and values past U+10FFFF are broken at the second byte. -/
def utf8Step (first : UInt8) (rest : List UInt8) : Utf8Step :=
  if first < 0x80 then .char (Char.ofNat first.toNat) rest
  else if byteWithin 0xC2 0xDF first then
    match rest with
    | b :: rest' =>
      if byteWithin 0x80 0xBF b then
        .char (Char.ofNat (first.toNat % 32 * 64 + continuationBits b)) rest'
      else .broken rest
    | [] => .broken rest
  else if byteWithin 0xE0 0xEF first then
    let low : UInt8 := if first = 0xE0 then 0xA0 else 0x80
    let high : UInt8 := if first = 0xED then 0x9F else 0xBF
    match rest with
    | b :: rest' =>
      if byteWithin low high b then
        match rest' with
        | c :: rest'' =>
          if byteWithin 0x80 0xBF c then
            .char (Char.ofNat (first.toNat % 16 * 4096 + continuationBits b * 64
              + continuationBits c)) rest''
          else .broken rest'
        | [] => .broken rest'
      else .broken rest
    | [] => .broken rest
  else if byteWithin 0xF0 0xF4 first then
    let low : UInt8 := if first = 0xF0 then 0x90 else 0x80
    let high : UInt8 := if first = 0xF4 then 0x8F else 0xBF
    match rest with
    | b :: rest' =>
      if byteWithin low high b then
        match rest' with
        | c :: rest'' =>
          if byteWithin 0x80 0xBF c then
            match rest'' with
            | d :: rest''' =>
              if byteWithin 0x80 0xBF d then
                .char (Char.ofNat (first.toNat % 8 * 262144 + continuationBits b * 4096
                  + continuationBits c * 64 + continuationBits d)) rest'''
              else .broken rest''
            | [] => .broken rest''
          else .broken rest'
        | [] => .broken rest'
      else .broken rest
    | [] => .broken rest
  else .broken rest

/-- The characters of at most `count` steps. -/
def decodeLossyWithin : Nat → List UInt8 → List Char
  | 0, _ => []
  | _, [] => []
  | count + 1, first :: rest =>
    match utf8Step first rest with
    | .char c rest' => c :: decodeLossyWithin count rest'
    | .broken rest' => '\uFFFD' :: decodeLossyWithin count rest'

/-- Any bytes read as a text, with U+FFFD for what is not UTF-8. Each step takes at least one byte,
so as many steps as there are bytes read them all. -/
def decodeLossy (bytes : List UInt8) : String :=
  String.ofList (decodeLossyWithin bytes.length bytes)

/-- The text that the bytes are the UTF-8 form of. -/
def decode? (bytes : ByteArray) : Option String :=
  String.fromUTF8? bytes

/-- The UTF-8 form of a text. -/
def encode (text : String) : ByteArray := text.toUTF8

/-- The UTF-8 form of a text as a list of bytes. -/
def utf8Bytes (text : String) : List UInt8 :=
  text.toList.flatMap String.utf8EncodeChar

end QualifierDiscovery.Text
