import RouteBinding.Number.Binary64
import RouteBinding.Text.Digit

/-!
# Reading floating point numbers

Decimal numbers with an optional sign, fraction and exponent, and the words for infinity and for the
number that is none. Blanks may surround them, and their digits may be of any script. What is read is
the number nearest to what is written.
-/

namespace RouteBinding.Number

open Text (isAsciiDigit ofDigits spanSign)

/-- The number that a list of ASCII digits stands for. -/
def natOfDigits (ds : List Char) : Nat :=
  ofDigits 10 (ds.map fun d => d.toNat - 0x30)

/-- The exponent that makes up the rest of a number. -/
def exponentOf? : List Char → Option Int
  | [] => some 0
  | e :: rest =>
    let (negative, digits) := spanSign rest
    if (e = 'e' || e = 'E') && !digits.isEmpty && digits.all isAsciiDigit then
      some (if negative then -(natOfDigits digits : Int) else natOfDigits digits)
    else none

/-- The infinite number with a sign. -/
def infinity (negative : Bool) : Float :=
  ofMagnitude negative infiniteBits

/-- The number that is none. -/
def notANumber : Float :=
  Float.ofBits 0x7FF8000000000000

/-- Reads a number without its sign. -/
def readMagnitude? (negative : Bool) (s : List Char) : Option Float :=
  let lower := s.map Char.toLower
  if lower = "inf".toList || lower = "infinity".toList then some (infinity negative)
  else if lower = "nan".toList then some notANumber
  else do
    let whole := s.takeWhile isAsciiDigit
    let (fraction, rest) := match s.dropWhile isAsciiDigit with
      | '.' :: rest => (rest.takeWhile isAsciiDigit, rest.dropWhile isAsciiDigit)
      | rest => ([], rest)
    let exponent ← exponentOf? rest
    if whole.isEmpty && fraction.isEmpty then none
    else some (ofDecimal negative (natOfDigits (whole ++ fraction)) (exponent - fraction.length))

/-- A digit of any script as the ASCII digit of the same value; any other character as it is. -/
def asciiDigit (c : Char) : Char :=
  match Text.decimalValue? c with
  | some d => Char.ofNat (0x30 + d)
  | none => c

/-- Reads a floating point number. -/
def readFloat? (s : List Char) : Option Float :=
  let (negative, s) := spanSign ((Text.stripChars Text.isNumberBlank s).map asciiDigit)
  readMagnitude? negative s

end RouteBinding.Number
