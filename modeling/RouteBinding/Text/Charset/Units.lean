import RouteBinding.Text.Base64
import RouteBinding.Text.CodeUnit

/-!
# Texts in units of Unicode

The four ways in which Unicode itself writes a text as bytes. Whatever is no part of a character in one of
them stands for U+FFFD: in UTF-8 the longest beginning of a character, in UTF-16 and UTF-32 a unit, in
UTF-7 a byte or a run that does not come out even.
-/

namespace RouteBinding.Text

/-- The order of the bytes of a unit. -/
inductive ByteOrder
  | little
  | big
deriving DecidableEq, Inhabited

/-- The number that the bytes of a unit stand for. -/
def ByteOrder.unit (order : ByteOrder) (bytes : List UInt8) : Nat :=
  let digits := bytes.map UInt8.toNat
  ofDigits 256 (match order with
    | .big => digits
    | .little => digits.reverse)

/-! ## UTF-8 -/

/-- What the first byte of a character says: how many bytes follow, between which two the first of these
lies, and its own part of the code. -/
def leading? (b : Nat) : Option (Nat × Nat × Nat × Nat) :=
  if b < 0x80 then some (0, 0x80, 0xBF, b)
  else if 0xC2 ≤ b && b ≤ 0xDF then some (1, 0x80, 0xBF, b - 0xC0)
  else if b = 0xE0 then some (2, 0xA0, 0xBF, 0)
  else if b = 0xED then some (2, 0x80, 0x9F, 0xD)
  else if 0xE1 ≤ b && b ≤ 0xEF then some (2, 0x80, 0xBF, b - 0xE0)
  else if b = 0xF0 then some (3, 0x90, 0xBF, 0)
  else if 0xF1 ≤ b && b ≤ 0xF3 then some (3, 0x80, 0xBF, b - 0xF0)
  else if b = 0xF4 then some (3, 0x80, 0x8F, 4)
  else none

/-- The character whose first bytes make up `code` and that `count` more bytes belong to, of which the
first lies between two bounds, with the rest behind it. -/
def readFollowing : (count low high code : Nat) → List UInt8 → Char × List UInt8
  | 0, _, _, code, bytes => (Char.ofNat code, bytes)
  | count + 1, low, high, code, b :: rest =>
    if low ≤ b.toNat && b.toNat ≤ high then
      readFollowing count 0x80 0xBF (code * 64 + (b.toNat - 0x80)) rest
    else (replacement, b :: rest)
  | _ + 1, _, _, _, [] => (replacement, [])

/-- The characters of bytes in UTF-8; `fuel` is their count. -/
def utf8Chars : (fuel : Nat) → List UInt8 → List Char
  | fuel + 1, b :: rest =>
    match leading? b.toNat with
    | some (count, low, high, code) =>
      let (c, rest) := readFollowing count low high code rest
      c :: utf8Chars fuel rest
    | none => replacement :: utf8Chars fuel rest
  | _, _ => []

/-! ## UTF-16 and UTF-32 -/

/-- The characters of bytes in UTF-16. The first half of a pair takes what is left of the text with it, if
no unit follows. -/
def utf16Chars (order : ByteOrder) : List UInt8 → List Char
  | [] => []
  | [_] => [replacement]
  | a :: b :: rest =>
    let high := order.unit [a, b]
    if 0xD800 ≤ high && high < 0xDC00 then
      match rest with
      | c :: d :: behind =>
        match joinPair? high (order.unit [c, d]) with
        | some code => Char.ofNat code :: utf16Chars order behind
        | none => replacement :: utf16Chars order (c :: d :: behind)
      | _ => [replacement]
    else charOfCode high :: utf16Chars order rest

/-- The characters of bytes in UTF-32. -/
def utf32Chars (order : ByteOrder) : List UInt8 → List Char
  | a :: b :: c :: d :: rest =>
    let code := order.unit [a, b, c, d]
    (if code < 0x110000 then charOfCode code else replacement) :: utf32Chars order rest
  | [] => []
  | _ => [replacement]

/-! ## UTF-7 -/

/-- A run of base 64 that is being read: the bits that make up no unit yet, their count, and the first
half of a pair whose second half is to come. -/
structure Shifted where
  bits : Nat
  count : Nat
  half : Option Nat
deriving Inhabited

namespace Shifted

/-- The beginning of a run. -/
def start : Shifted := ⟨0, 0, none⟩

/-- Whether a run may not end here: a character is incomplete, or it is filled up with other bits than
zeros. -/
def isUneven (s : Shifted) : Bool :=
  6 ≤ s.count || s.bits ≠ 0

/-- The characters that are complete with a further unit, and the half that waits for another one. -/
def complete (half : Option Nat) (unit : Nat) : List Char × Option Nat :=
  match half.bind (joinPair? · unit) with
  | some code => ([Char.ofNat code], none)
  | none =>
    let alone := (half.map fun _ => replacement).toList
    if 0xD800 ≤ unit && unit < 0xDC00 then (alone, some unit) else (alone ++ [charOfCode unit], none)

/-- The run with six more bits, and the characters that are complete with them. -/
def push (s : Shifted) (value : Nat) : List Char × Shifted :=
  let bits := s.bits * 64 + value
  let count := s.count + 6
  if count < 16 then ([], ⟨bits, count, s.half⟩)
  else
    let below := Nat.pow 2 (count - 16)
    let (chars, half) := complete s.half (bits / below)
    (chars, ⟨bits % below, count - 16, half⟩)

end Shifted

/-- The value of a byte of base 64. -/
def shiftedValue? (b : UInt8) : Option Nat :=
  base64Value? (Char.ofNat b.toNat)

/-- Where a reader of UTF-7 is: outside of any run, right behind the sign that opens one, or in a run. -/
inductive ShiftPlace
  | outside
  | opened
  | inside (run : Shifted)
deriving Inhabited

/-- What a byte outside of any run stands for. -/
def plainChar (b : UInt8) : Char :=
  if b.toNat < 0x80 then Char.ofNat b.toNat else replacement

/-- The characters of bytes in UTF-7, read from a place on. A byte that is no digit of base 64 ends a run,
and stands for itself unless it is the hyphen that does nothing else. -/
def utf7Chars : ShiftPlace → List UInt8 → List Char
  | .outside, [] => []
  | .opened, [] => []
  | .inside s, [] => if s.isUneven || s.half.isSome then [replacement] else []
  | .outside, b :: rest =>
    if b.toNat = '+'.toNat then utf7Chars .opened rest else plainChar b :: utf7Chars .outside rest
  | .opened, b :: rest =>
    if b.toNat = '-'.toNat then '+' :: utf7Chars .outside rest
    else match shiftedValue? b with
      | some value => utf7Chars (.inside (Shifted.start.push value).2) rest
      | none => replacement :: utf7Chars .outside rest
  | .inside s, b :: rest =>
    match shiftedValue? b with
    | some value =>
      let (chars, s) := s.push value
      chars ++ utf7Chars (.inside s) rest
    | none =>
      if s.isUneven then replacement :: utf7Chars .outside rest
      else
        let alone := if b.toNat < 0x80 then (s.half.map fun _ => replacement).toList else []
        let own := if b.toNat = '-'.toNat then [] else [plainChar b]
        alone ++ own ++ utf7Chars .outside rest

end RouteBinding.Text
