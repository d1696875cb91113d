import QualifierDiscovery.Number.Binary64

/-!
# JSON values

The values that a JSON text can hold. An integer that fits 64 bits, signed or unsigned, is kept
exactly; every other number is a floating-point number. The members of an object stand in the order
in which they are written out.
-/

namespace QualifierDiscovery.Json

/-- An integer that fits 64 bits, as a signed or as an unsigned one. -/
structure WideInteger where
  value : Int
  fits : -0x8000000000000000 ≤ value ∧ value < 0x10000000000000000
  deriving DecidableEq

/-- A number: an integer of 64 bits, or a floating-point number, whose zero has a sign too. -/
inductive Number
  | integer (n : WideInteger)
  | floating (negative : Bool) (magnitude : Binary64)
  deriving DecidableEq

/-- A JSON value. -/
inductive Value
  | null
  | bool (b : Bool)
  | number (n : Number)
  | string (s : String)
  | array (items : List Value)
  | object (members : List (String × Value))

/-- A natural number as a value; one past 64 bits counts as the greatest integer. -/
def Value.ofNat (n : Nat) : Value :=
  .number (.integer ⟨min n 0xFFFFFFFFFFFFFFFF, by omega⟩)

/-- A list of texts as a value. -/
def Value.ofStrings (texts : List String) : Value := .array (texts.map .string)

/-- A text as a value, and no text as null. -/
def Value.ofString? : Option String → Value
  | some text => .string text
  | none => .null

end QualifierDiscovery.Json
