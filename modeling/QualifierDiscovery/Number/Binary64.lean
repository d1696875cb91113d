/-!
# Floating-point magnitudes in 64 bits

A finite magnitude of the binary64 format: `significand · 2 ^ exponent`, with at most 53 bits in the
significand and no exponent below -1074. The sign is kept by whoever holds the number. Arithmetic is
exact on natural numbers and rounded once, to the nearest magnitude and on a tie to the even one.

- `ofRatio?` rounds a quotient of two natural numbers; a quotient past the format's range has none.
- `mul?` and `div?` are the rounded product and quotient.
-/

namespace QualifierDiscovery

/-- A finite magnitude of the binary64 format. -/
structure Binary64 where
  significand : Nat
  exponent : Int
  deriving DecidableEq

namespace Binary64

/-- The magnitude zero. -/
def zero : Binary64 := ⟨0, -1074⟩

/-- The least exponent of the format. -/
def leastExponent : Int := -1074

/-- The greatest exponent of the format. -/
def greatestExponent : Int := 971

/-- The magnitude is zero. -/
def isZero (x : Binary64) : Bool := x.significand == 0

/-- The quotient rounded to a natural number, on a tie to the even one. -/
def roundDiv (numerator denominator : Nat) : Nat :=
  let quotient := numerator / denominator
  let remainder := numerator % denominator
  if denominator < 2 * remainder then quotient + 1
  else if 2 * remainder = denominator then quotient + quotient % 2
  else quotient

/-- `numerator / denominator` in units of `2 ^ exponent`, as a quotient of natural numbers. -/
def scaled (numerator denominator : Nat) (exponent : Int) : Nat × Nat :=
  if exponent < 0 then (numerator <<< (-exponent).toNat, denominator)
  else (numerator, denominator <<< exponent.toNat)

/-- The exponent whose units give the quotient 53 bits before rounding, or the least exponent of the
format if that is greater. The bit counts of both numbers leave two exponents to choose from. -/
def exponentFor (numerator denominator : Nat) : Int :=
  let guess : Int := (numerator.log2 : Int) - (denominator.log2 : Int) - 52
  let (top, bottom) := scaled numerator denominator guess
  max leastExponent (if top < bottom <<< 52 then guess - 1 else guess)

/-- The magnitude nearest to `numerator / denominator`, on a tie the even one; none if it is past
the format's range. -/
def ofRatio? (numerator denominator : Nat) : Option Binary64 :=
  if numerator = 0 then some zero
  else
    let exponent := exponentFor numerator denominator
    let (top, bottom) := scaled numerator denominator exponent
    let rounded := roundDiv top bottom
    let result : Binary64 :=
      if rounded = 1 <<< 53 then ⟨1 <<< 52, exponent + 1⟩ else ⟨rounded, exponent⟩
    if greatestExponent < result.exponent then none else some result

/-- The magnitude as a quotient of natural numbers. -/
def toRatio (x : Binary64) : Nat × Nat :=
  if x.exponent < 0 then (x.significand, 1 <<< (-x.exponent).toNat)
  else (x.significand <<< x.exponent.toNat, 1)

/-- The magnitude nearest to a natural number. -/
def ofNat? (n : Nat) : Option Binary64 := ofRatio? n 1

/-- The rounded product. -/
def mul? (x y : Binary64) : Option Binary64 :=
  let (xTop, xBottom) := x.toRatio
  let (yTop, yBottom) := y.toRatio
  ofRatio? (xTop * yTop) (xBottom * yBottom)

/-- The rounded quotient; none for a divisor of zero. -/
def div? (x y : Binary64) : Option Binary64 :=
  let (xTop, xBottom) := x.toRatio
  let (yTop, yBottom) := y.toRatio
  if yTop = 0 then none else ofRatio? (xTop * yBottom) (xBottom * yTop)

end Binary64

end QualifierDiscovery
