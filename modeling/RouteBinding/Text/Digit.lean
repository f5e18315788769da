import RouteBinding.Text.Blank

/-!
# Decimal digits and whole numbers

The decimal digits of all scripts of Unicode 14, and the reading of a whole number from a text:
blanks at both ends, a sign, perhaps a mark of the base, and digits with single underscores between
them.
-/

namespace RouteBinding.Text

/-- The code points of the digit zero of each script; the other nine digits follow each. -/
def zeroCodes : List Nat :=
  [0x30, 0x660, 0x6F0, 0x7C0, 0x966, 0x9E6, 0xA66, 0xAE6, 0xB66, 0xBE6, 0xC66, 0xCE6, 0xD66,
   0xDE6, 0xE50, 0xED0, 0xF20, 0x1040, 0x1090, 0x17E0, 0x1810, 0x1946, 0x19D0, 0x1A80, 0x1A90,
   0x1B50, 0x1BB0, 0x1C40, 0x1C50, 0xA620, 0xA8D0, 0xA900, 0xA9D0, 0xA9F0, 0xAA50, 0xABF0,
   0xFF10, 0x104A0, 0x10D30, 0x11066, 0x110F0, 0x11136, 0x111D0, 0x112F0, 0x11450, 0x114D0,
   0x11650, 0x116C0, 0x11730, 0x118E0, 0x11950, 0x11C50, 0x11D50, 0x11DA0, 0x16A60, 0x16AC0,
   0x16B50, 0x1D7CE, 0x1D7D8, 0x1D7E2, 0x1D7EC, 0x1D7F6, 0x1E140, 0x1E2F0, 0x1E950, 0x1FBF0]

/-- The value of a decimal digit of any script. -/
def decimalValue? (c : Char) : Option Nat :=
  (zeroCodes.find? fun first => first ≤ c.toNat && c.toNat ≤ first + 9).map (c.toNat - ·)

/-- Whether a character is one of the ten ASCII digits. -/
def isAsciiDigit (c : Char) : Bool :=
  0x30 ≤ c.toNat && c.toNat ≤ 0x39

/-- Whether a character is an ASCII capital. -/
def isAsciiUpper (c : Char) : Bool :=
  0x41 ≤ c.toNat && c.toNat ≤ 0x5A

/-- Whether a character is an ASCII small letter. -/
def isAsciiLower (c : Char) : Bool :=
  0x61 ≤ c.toNat && c.toNat ≤ 0x7A

/-- Whether a character is an ASCII letter. -/
def isAsciiLetter (c : Char) : Bool :=
  isAsciiUpper c || isAsciiLower c

/-- Whether a character is an ASCII letter or digit. -/
def isAsciiAlnum (c : Char) : Bool :=
  isAsciiLetter c || isAsciiDigit c

/-- The value of a digit of base sixteen, in either case. -/
def hexValue? (c : Char) : Option Nat :=
  if isAsciiDigit c then some (c.toNat - 0x30)
  else if 0x41 ≤ c.toNat && c.toNat ≤ 0x46 then some (c.toNat - 0x37)
  else if 0x61 ≤ c.toNat && c.toNat ≤ 0x66 then some (c.toNat - 0x57)
  else none

/-- The number that a list of digits, most significant first, stands for. -/
def ofDigits (base : Nat) (digits : List Nat) : Nat :=
  digits.foldl (fun n d => n * base + d) 0

/-- The value of a digit of a base up to sixteen: a decimal digit of any script, or a letter. -/
def digitValue? (base : Nat) (c : Char) : Option Nat :=
  ((decimalValue? c).or (hexValue? c)).filter (· < base)

/-- The digits of a number of a base, written with single underscores between them. -/
def groupedDigits? (base : Nat) : List Char → Option (List Nat)
  | [] => none
  | [c] => (digitValue? base c).map ([·])
  | c :: '_' :: rest => do
    let d ← digitValue? base c
    let ds ← groupedDigits? base rest
    return d :: ds
  | c :: rest => do
    let d ← digitValue? base c
    let ds ← groupedDigits? base rest
    return d :: ds

/-- The most digits that a whole number may be read from or written with in base ten; where the base is a
power of two there is no limit. -/
def digitLimit : Nat := 4300

/-- A whole number in base ten, unless it has more digits than the limit. -/
def writeInt? (n : Int) : Option String :=
  if digitLimit < (Nat.toDigits 10 n.natAbs).length then none else some (toString n)

/-- A number from its digits, unless there are more of them than the limit. -/
def natOfGrouped? (base : Nat) (s : List Char) : Option Nat := do
  let digits ← groupedDigits? base s
  if base = 10 && digitLimit < digits.length then none else some (ofDigits base digits)

/-- A sign, which may be missing, and what follows it. -/
def spanSign : List Char → Bool × List Char
  | '-' :: rest => (true, rest)
  | '+' :: rest => (false, rest)
  | s => (false, s)

/-- The letter that stands between a zero and the digits where the base is marked. -/
def baseLetter? (base : Nat) : Option Char :=
  [(2, 'b'), (8, 'o'), (16, 'x')].lookup base

/-- A number without the mark of its base, if it has one: a zero, the letter of the base in either case,
and an underscore that may be missing. -/
def dropBaseMark (base : Nat) : List Char → List Char
  | '0' :: c :: rest =>
    if baseLetter? base = some c.toLower then
      match rest with
      | '_' :: digits => digits
      | digits => digits
    else '0' :: c :: rest
  | s => s

/-- Blanks that may surround a number: all but the four information separators. -/
def isNumberBlank (c : Char) : Bool :=
  isBlank c && !(0x1C ≤ c.toNat && c.toNat ≤ 0x1F)

/-- Reads a whole number of a base. -/
def readIntIn? (base : Nat) (s : List Char) : Option Int :=
  let (negative, rest) := spanSign (stripChars isNumberBlank s)
  (natOfGrouped? base (dropBaseMark base rest)).map fun n => if negative then -(n : Int) else n

/-- Reads a whole number of base ten. -/
def readInt? (s : String) : Option Int :=
  readIntIn? 10 s.toList

end RouteBinding.Text
