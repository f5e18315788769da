import RouteBinding.Number.Binary64

/-!
# The shortest decimal that reads back

Of all decimals that lie nearer to a positive floating point number than to its neighbours, the
shortest one has the fewest digits, and of those it is the nearest to the number. The reals that
round to the number form an interval, whose ends belong to it when the mantissa is even. For each
count of digits only the two neighbours of the number on that decimal grid have to be tried: if
the interval holds a point of the grid, it holds one of those two.
-/

namespace RouteBinding.Number

/-- The decimal `digits * 10 ^ exponent`. -/
structure Decimal where
  digits : Nat
  exponent : Int

/-- The reals that round to one floating point number, all over one denominator. -/
structure RoundingInterval where
  low : Nat
  value : Nat
  high : Nat
  den : Nat
  closed : Bool

/-- The reals that round to `mantissa * 2 ^ exponent`. The step below a power of two is half as
long as the step above it, except at the bottom of the range. -/
def RoundingInterval.of (mantissa : Nat) (exponent : Int) : RoundingInterval :=
  let below := if mantissa = leadingBit && exponent > -1074 then 1 else 2
  let scale (n : Nat) := scaleByPowerOfTwo n 1 (exponent - 2)
  let (value, den) := scale (4 * mantissa)
  ⟨(scale (4 * mantissa - below)).1, value, (scale (4 * mantissa + 2)).1, den, mantissa % 2 == 0⟩

/-- Whether the fraction `num / den` lies in the interval. -/
def RoundingInterval.holds (i : RoundingInterval) (num den : Nat) : Bool :=
  if i.closed then i.low * den ≤ num * i.den && num * i.den ≤ i.high * den
  else i.low * den < num * i.den && num * i.den < i.high * den

/-- The count of decimal digits of a number. -/
def decimalLength (n : Nat) : Nat :=
  (Nat.toDigits 10 n).length

/-- A fraction times a power of ten. -/
def scaleByPowerOfTen (num den : Nat) (power : Int) : Nat × Nat :=
  if power ≥ 0 then (num * Nat.pow 10 power.toNat, den) else (num, den * Nat.pow 10 (-power).toNat)

/-- The place of the leading decimal digit of a positive fraction. -/
def leadingDecimalPlace (num den : Nat) : Int :=
  let guess : Int := decimalLength num - decimalLength den
  let (n, d) := scaleByPowerOfTen num den (-guess)
  if n < d then guess - 1 else guess

/-- The point of the grid `10 ^ place` that lies in the interval and is the nearest to its value;
a tie goes to the even point. -/
def RoundingInterval.onGrid? (i : RoundingInterval) (place : Int) : Option Nat :=
  let (num, den) := scaleByPowerOfTen i.value i.den (-place)
  let floor := num / den
  let holds (n : Nat) :=
    let (a, b) := scaleByPowerOfTen n 1 place
    i.holds a b
  match holds floor, holds (floor + 1) with
  | true, true => some (roundedQuotient num den)
  | true, false => some floor
  | false, true => some (floor + 1)
  | false, false => none

/-- Searches the grids from coarse to fine, `count` of them, starting at `place`. -/
def RoundingInterval.search (i : RoundingInterval) : (count : Nat) → (place : Int) → Decimal
  | 0, place => ⟨0, place⟩
  | count + 1, place =>
    match i.onGrid? place with
    | some digits => ⟨digits, place⟩
    | none => i.search count (place - 1)

/-- A decimal without zeros at its end. -/
def Decimal.trimZeros : (fuel : Nat) → Decimal → Decimal
  | 0, d => d
  | fuel + 1, d =>
    if d.digits ≠ 0 && d.digits % 10 = 0 then trimZeros fuel ⟨d.digits / 10, d.exponent + 1⟩ else d

/-- The shortest decimal that reads back as `mantissa * 2 ^ exponent`, for a positive mantissa.
Seventeen digits always suffice. -/
def shortestDecimal (mantissa : Nat) (exponent : Int) : Decimal :=
  let i := RoundingInterval.of mantissa exponent
  (i.search 17 (leadingDecimalPlace i.value i.den)).trimZeros 17

end RouteBinding.Number
