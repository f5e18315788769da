/-!
# Binary floating point numbers as fractions

A finite floating point number is a whole number of units times a power of two. This module
takes a number apart into those two, and finds the number nearest to a given fraction, where a
tie goes to the even mantissa.
-/

namespace RouteBinding.Number

/-- What a floating point number is: the magnitude of a finite one is `mantissa * 2 ^ exponent`. -/
inductive Binary64
  | finite (negative : Bool) (mantissa : Nat) (exponent : Int)
  | infinite (negative : Bool)
  | notANumber

/-- The weight of the bit of a mantissa that is not stored. -/
def leadingBit : Nat := Nat.pow 2 52

/-- The weight of the bit of the sign. -/
def signBit : Nat := Nat.pow 2 63

/-- The bits of infinity without its sign. -/
def infiniteBits : Nat := 2047 * leadingBit

/-- Takes a floating point number apart. -/
def Binary64.ofFloat (x : Float) : Binary64 :=
  let bits := x.toBits.toNat
  let negative := bits ≥ signBit
  let biased : Nat := bits / leadingBit % 2048
  let fraction : Nat := bits % leadingBit
  if biased = 2047 then
    if fraction = 0 then .infinite negative else .notANumber
  else if biased = 0 then .finite negative fraction (-1074)
  else .finite negative (leadingBit + fraction) ((biased : Int) - 1075)

/-- The quotient of two numbers, rounded to the nearest whole number; a tie goes to the even one. -/
def roundedQuotient (num den : Nat) : Nat :=
  let q := num / den
  let r := num % den
  if 2 * r > den || (2 * r == den && q % 2 == 1) then q + 1 else q

/-- A fraction with a power of two moved into its numerator or its denominator. -/
def scaleByPowerOfTwo (num den : Nat) (power : Int) : Nat × Nat :=
  if power ≥ 0 then (num * Nat.pow 2 power.toNat, den) else (num, den * Nat.pow 2 (-power).toNat)

/-- The place of the leading binary digit of a positive fraction. -/
def leadingPlace (num den : Nat) : Int :=
  let guess : Int := num.log2 - den.log2
  let (n, d) := scaleByPowerOfTwo num den (-guess)
  if n < d then guess - 1 else guess

/-- The floating point number with a sign and the other 63 bits. -/
def ofMagnitude (negative : Bool) (bits : Nat) : Float :=
  Float.ofBits ((if negative then signBit else 0) + bits).toUInt64

/-- The floating point number nearest to a fraction; from half a unit above the largest finite
one on, infinity. -/
def nearestFloat (negative : Bool) (num den : Nat) : Float :=
  if num = 0 then ofMagnitude negative 0
  else
    let exponent := max (-1074) (leadingPlace num den - 52)
    let (n, d) := scaleByPowerOfTwo num den (-exponent)
    let mantissa := roundedQuotient n d
    if mantissa < leadingBit then ofMagnitude negative mantissa
    else
      -- a mantissa rounded up to twice the leading bit carries into the biased exponent by itself
      let bits := (exponent + 1074).toNat * leadingBit + mantissa
      ofMagnitude negative (min bits infiniteBits)

/-- The floating point number nearest to `digits * 10 ^ exponent`. -/
def ofDecimal (negative : Bool) (digits : Nat) (exponent : Int) : Float :=
  let places : Int := (Nat.toDigits 10 digits).length + exponent
  if digits = 0 || places < -400 then ofMagnitude negative 0
  else if places > 400 then ofMagnitude negative infiniteBits
  else if exponent ≥ 0 then nearestFloat negative (digits * Nat.pow 10 exponent.toNat) 1
  else nearestFloat negative digits (Nat.pow 10 (-exponent).toNat)

/-- The floating point number nearest to a whole number. -/
def ofInt (n : Int) : Float :=
  nearestFloat (n < 0) n.natAbs 1

/-- The whole number that a floating point number is, if it is one. -/
def wholeValue? (x : Float) : Option Int :=
  match Binary64.ofFloat x with
  | .finite negative mantissa exponent =>
    let (n, d) := scaleByPowerOfTwo mantissa 1 exponent
    if n % d = 0 then some (if negative then -(n / d : Nat) else (n / d : Nat)) else none
  | _ => none

end RouteBinding.Number
