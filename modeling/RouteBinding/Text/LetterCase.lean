import RouteBinding.Text.Ranges
import RouteBinding.Text.LetterCase.Table

/-!
# Lower and upper case

The full case mappings of Unicode 14. A capital dotted I becomes two characters, and a capital
sigma becomes the final form at the end of a word: after a cased character and not before one,
where the case-ignorable characters in between do not count.
-/

namespace RouteBinding.Text

namespace LetterCase

/-- The code point that a table of shifts sends `code` to; itself if no run holds it. -/
def shifted (shifts : List Shift) (code : Nat) : Nat :=
  match shifts.find? fun s =>
      s.first ≤ code && code ≤ s.last && (code - s.first) % s.step == 0 with
  | some s => (code + s.delta).toNat
  | none => code

/-- Whether the first character that is not case-ignorable is cased. -/
def meetsCased (s : List Char) : Bool :=
  match s.dropWhile fun c => inRanges ignorableRanges c.toNat with
  | [] => false
  | c :: _ => inRanges casedRanges c.toNat

/-- The lower case of one character, given the characters before it, nearest first, and those
after it. -/
def lowerChar (before after : List Char) (c : Char) : List Char :=
  if c.toNat < 0x80 then
    [if 0x41 ≤ c.toNat && c.toNat ≤ 0x5A then Char.ofNat (c.toNat + 0x20) else c]
  else if c.toNat = 0x130 then [Char.ofNat 0x69, Char.ofNat 0x307]
  else if c.toNat = 0x3A3 then
    [Char.ofNat (if meetsCased before && !meetsCased after then 0x3C2 else 0x3C3)]
  else [Char.ofNat (shifted lowerShifts c.toNat)]

/-- The lower case of the rest of a text, given the characters before it, nearest first. -/
def lowerFrom (before : List Char) : List Char → List Char
  | [] => []
  | c :: rest => lowerChar before rest c ++ lowerFrom (c :: before) rest

/-- The upper case of one character. -/
def upperChar (c : Char) : List Char :=
  if c.toNat < 0x80 then
    [if 0x61 ≤ c.toNat && c.toNat ≤ 0x7A then Char.ofNat (c.toNat - 0x20) else c]
  else match upperExpansions.lookup c.toNat with
    | some codes => codes.map Char.ofNat
    | none => [Char.ofNat (shifted upperShifts c.toNat)]

end LetterCase

/-- The lower case of a list of characters. -/
def lowerChars (s : List Char) : List Char :=
  LetterCase.lowerFrom [] s

/-- The lower case of a text. -/
def lower (s : String) : String :=
  String.ofList (lowerChars s.toList)

/-- The upper case of a text. -/
def upper (s : String) : String :=
  String.ofList (s.toList.flatMap LetterCase.upperChar)

end RouteBinding.Text
