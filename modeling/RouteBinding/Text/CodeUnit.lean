import RouteBinding.Text.Digit

/-!
# Characters by their codes

Escapes that name a character by its code in base sixteen. A code of sixteen bits may be half of a
surrogate pair; two halves that follow each other are one character, and a lone half is replaced.
-/

namespace RouteBinding.Text

/-- The number that the first `count` digits of base sixteen stand for, and the rest. -/
def readHex? (count : Nat) (s : List Char) : Option (Nat × List Char) := do
  let digits ← (s.take count).mapM hexValue?
  if digits.length = count then some (ofDigits 16 digits, s.drop count) else none

/-- The character that stands for a code which is no character of its own. -/
def replacement : Char := Char.ofNat 0xFFFD

/-- The character with a code; half of a surrogate pair is replaced. -/
def charOfCode (code : Nat) : Char :=
  if 0xD800 ≤ code && code < 0xE000 then replacement else Char.ofNat code

/-- The code of a character beyond the first 65536, from the two halves of its pair. -/
def joinPair? (high low : Nat) : Option Nat :=
  if 0xD800 ≤ high && high < 0xDC00 && 0xDC00 ≤ low && low < 0xE000 then
    some (0x10000 + (high - 0xD800) * 0x400 + (low - 0xDC00))
  else none

/-- The second half of a pair whose first half has been read, and the rest. -/
def readSecondHalf? (high : Nat) : List Char → Option (Char × List Char)
  | '\\' :: 'u' :: s => do
    let (low, rest) ← readHex? 4 s
    let code ← joinPair? high low
    return (Char.ofNat code, rest)
  | _ => none

/-- The character whose code of sixteen bits stands after `\u`, and the rest. -/
def readUnit? (s : List Char) : Option (Char × List Char) := do
  let (code, rest) ← readHex? 4 s
  return (readSecondHalf? code rest).getD (charOfCode code, rest)

end RouteBinding.Text
