import RouteBinding.Text.Ranges

/-!
# Blank characters

The blanks of a text are the characters of bidirectional class WS, B or S and the separators of
Unicode 14. Trimming removes them at both ends; the words of a text are its longest runs
without them.
-/

namespace RouteBinding.Text

/-- The code points that are blank. -/
def blankRanges : List (Nat × Nat) :=
  [(0x9, 0xD), (0x1C, 0x20), (0x85, 0x85), (0xA0, 0xA0), (0x1680, 0x1680), (0x2000, 0x200A),
   (0x2028, 0x2029), (0x202F, 0x202F), (0x205F, 0x205F), (0x3000, 0x3000)]

/-- Whether a character is blank. -/
def isBlank (c : Char) : Bool :=
  inRanges blankRanges c.toNat

/-- Removes the characters in `p` from both ends. -/
def stripChars (p : Char → Bool) (s : List Char) : List Char :=
  ((s.dropWhile p).reverse.dropWhile p).reverse

/-- Removes the characters in `p` from both ends of a text. -/
def strip (p : Char → Bool) (s : String) : String :=
  String.ofList (stripChars p s.toList)

/-- Removes the blanks at both ends of a text. -/
def trim (s : String) : String :=
  strip isBlank s

/-- Whether a text holds nothing but blanks. -/
def isBlankText (s : String) : Bool :=
  s.toList.all isBlank

/-- The longest runs of characters outside `p`, in order; `run` is the one being read. -/
def runsFrom (p : Char → Bool) (run : List Char) : List Char → List (List Char)
  | [] => if run.isEmpty then [] else [run.reverse]
  | c :: rest =>
    if p c then
      if run.isEmpty then runsFrom p [] rest else run.reverse :: runsFrom p [] rest
    else runsFrom p (c :: run) rest

/-- The longest non-empty runs of characters outside `p`, in order. -/
def runs (p : Char → Bool) (s : List Char) : List (List Char) :=
  runsFrom p [] s

/-- The words of a text: its longest runs of characters that are not blank. -/
def words (s : String) : List String :=
  (runs isBlank s.toList).map String.ofList

end RouteBinding.Text
