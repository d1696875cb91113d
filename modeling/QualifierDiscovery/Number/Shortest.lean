import QualifierDiscovery.Number.Binary64

/-!
# The shortest decimal text of a magnitude

Every magnitude is written with the fewest decimal digits that lie nearer to it than to any other
magnitude, and among those with the ones nearest to it. For one digit, two digits and so on, the two
decimals next to the magnitude are tried; the first count with a hit wins.

- `shortest` finds the digits and the place of the decimal point.
- `Binary64.text` writes them: positionally from 1e-5 up to below 1e16, with an exponent elsewhere.
-/

namespace QualifierDiscovery

/-- A decimal `digits · 10 ^ exponent`, where `digits` does not end in zero unless it is zero. -/
structure Decimal where
  digits : Nat
  exponent : Int
  deriving DecidableEq

namespace Decimal

/-- The same decimal without the zeros that its digits end in; `count` bounds their number. -/
def withoutTrailingZeros : Nat → Decimal → Decimal
  | 0, d => d
  | count + 1, d =>
    if d.digits ≠ 0 ∧ d.digits % 10 = 0 then
      withoutTrailingZeros count ⟨d.digits / 10, d.exponent + 1⟩
    else d

end Decimal

namespace Binary64

/-- The reals that round to a magnitude, as twice-doubled units of `2 ^ (exponent - 2)`: from
`lower` to `upper` around `middle`, with both ends when the significand is even. -/
structure Interval where
  lower : Nat
  middle : Nat
  upper : Nat
  unitExponent : Int
  closed : Bool

/-- The reals that round to `x`. Below a power of two the neighbours lie half as far. -/
def interval (x : Binary64) : Interval :=
  let narrow := x.significand = 1 <<< 52 ∧ leastExponent < x.exponent
  { lower := 4 * x.significand - (if narrow then 1 else 2)
    middle := 4 * x.significand
    upper := 4 * x.significand + 2
    unitExponent := x.exponent - 2
    closed := x.significand % 2 == 0 }

/-- `units · 2 ^ unitExponent` in units of `10 ^ exponent`, as a quotient of natural numbers. -/
def inDecimalUnits (units : Nat) (unitExponent exponent : Int) : Nat × Nat :=
  let top := (units <<< unitExponent.toNat) * Nat.pow 10 (-exponent).toNat
  let bottom := Nat.pow 10 exponent.toNat <<< (-unitExponent).toNat
  (top, bottom)

/-- `n · 10 ^ exponent` lies in the interval. -/
def Interval.holds (i : Interval) (n : Nat) (exponent : Int) : Bool :=
  let (lowTop, lowBottom) := inDecimalUnits i.lower i.unitExponent exponent
  let (highTop, highBottom) := inDecimalUnits i.upper i.unitExponent exponent
  if i.closed then lowTop ≤ n * lowBottom && n * highBottom ≤ highTop
  else lowTop < n * lowBottom && n * highBottom < highTop

/-- The decimal of unit `10 ^ exponent` that lies in the interval and is nearest to its middle, on a
tie the even one. -/
def Interval.nearest? (i : Interval) (exponent : Int) : Option Decimal :=
  let (top, bottom) := inDecimalUnits i.middle i.unitExponent exponent
  let below := top / bottom
  let above := below + 1
  match i.holds below exponent, i.holds above exponent with
  | false, false => none
  | true, false => some ⟨below, exponent⟩
  | false, true => some ⟨above, exponent⟩
  | true, true =>
    let remainder := top % bottom
    if 2 * remainder < bottom then some ⟨below, exponent⟩
    else if bottom < 2 * remainder then some ⟨above, exponent⟩
    else some ⟨below + below % 2, exponent⟩

/-- The exponent of the first decimal digit: the greatest `e` from `e + count` downwards with
`10 ^ e` not above the middle of the interval. -/
def Interval.leadingExponent (i : Interval) : Nat → Int → Int
  | 0, e => e
  | count + 1, e =>
    let (top, bottom) := inDecimalUnits i.middle i.unitExponent e
    if bottom ≤ top then e else i.leadingExponent count (e - 1)

/-- The first decimal found with one digit, two digits and so on. -/
def Interval.shortestFrom (i : Interval) : Nat → Int → Decimal
  | 0, exponent => (i.nearest? exponent).getD ⟨0, 0⟩
  | count + 1, exponent =>
    match i.nearest? exponent with
    | some d => d
    | none => i.shortestFrom count (exponent - 1)

/-- The decimal with the fewest digits that rounds to `x`, and of those the nearest. -/
def shortest (x : Binary64) : Decimal :=
  if x.isZero then ⟨0, 0⟩
  else
    let i := x.interval
    let guess : Int := ((x.significand.log2 : Int) + x.exponent) * 30103 / 100000 + 1
    let leading := i.leadingExponent 4 guess
    Decimal.withoutTrailingZeros 20 (i.shortestFrom 17 leading)

/-- A number's decimal digits. -/
def digitText (n : Nat) : List Char := Nat.toDigits 10 n

/-- The text of a magnitude: the shortest digits, positionally and with a decimal point where the
first digit's exponent lies from -5 to 15, otherwise with that exponent, its sign always written. -/
def text (x : Binary64) : String :=
  let d := x.shortest
  let digits := digitText d.digits
  let leading : Int := d.exponent + (digits.length : Int) - 1
  if d.digits = 0 then "0.0"
  else if -5 ≤ leading ∧ leading ≤ 15 then
    if 0 ≤ d.exponent then
      String.ofList (digits ++ List.replicate d.exponent.toNat '0' ++ ['.', '0'])
    else if 0 ≤ leading then
      let whole := leading.toNat + 1
      String.ofList (digits.take whole ++ ['.'] ++ digits.drop whole)
    else
      String.ofList (['0', '.'] ++ List.replicate (-leading - 1).toNat '0' ++ digits)
  else
    let mantissa := match digits with
      | [] => []
      | [d] => [d]
      | first :: rest => first :: '.' :: rest
    let mark := if leading < 0 then '-' else '+'
    String.ofList (mantissa ++ ['e', mark] ++ digitText leading.natAbs)

end Binary64

end QualifierDiscovery
