/-!
# Reading positions

A position in a YAML text: what is left of the text, and the line and the column reached. The classes
of characters that end a lexeme stand here, too; the end of the text counts as `none`.
-/

namespace RouteBinding.Yaml

/-- Why a text is not read: it is no YAML, it asks for a value that does not exist, or for the truth
value of a word that has none. -/
inductive ReadError
  | malformed
  | noSuchValue
  | unknownWord (word : String)
deriving DecidableEq, Inhabited

/-- The line separator and the paragraph separator. -/
def isSeparator (c : Char) : Bool :=
  c.toNat = 0x2028 || c.toNat = 0x2029

/-- Whether a character ends a line. -/
def isBreak (c : Char) : Bool :=
  c = '\n' || c = '\r' || c.toNat = 0x85 || isSeparator c

/-- Whether a line ends here. -/
def endsLine (c : Option Char) : Bool :=
  c.all isBreak

/-- Whether a blank or the end of a line is here. -/
def endsWord (c : Option Char) : Bool :=
  c.all fun c => c = ' ' || isBreak c

/-- Whether a blank, a tab or the end of a line is here. -/
def endsToken (c : Option Char) : Bool :=
  c.all fun c => c = ' ' || c = '\t' || isBreak c

/-- A position in a text. -/
structure Cursor where
  rest : List Char
  index : Nat
  line : Nat
  column : Nat
deriving Inhabited

namespace Cursor

/-- The beginning of a text. -/
def start (s : List Char) : Cursor := ⟨s, 0, 0, 0⟩

/-- The next character. -/
def peek (c : Cursor) : Option Char := c.rest.head?

/-- The character after the next `n`. -/
def peekAt (c : Cursor) (n : Nat) : Option Char := c.rest[n]?

/-- The position behind the next character. The byte order mark takes no column. -/
def next (c : Cursor) : Cursor :=
  match c.rest with
  | [] => c
  | ch :: rest =>
    if isBreak ch && !(ch = '\r' && rest.head? = some '\n') then ⟨rest, c.index + 1, c.line + 1, 0⟩
    else ⟨rest, c.index + 1, c.line, if ch.toNat = 0xFEFF then c.column else c.column + 1⟩

/-- The position behind the next `n` characters. -/
def skip (c : Cursor) : (n : Nat) → Cursor
  | 0 => c
  | n + 1 => c.next.skip n

/-- The longest run of characters in `p`, and the position behind it. -/
def span (c : Cursor) (p : Char → Bool) : List Char × Cursor :=
  let run := c.rest.takeWhile p
  (run, c.skip run.length)

/-- The position behind the characters in `p`. -/
def skipWhile (c : Cursor) (p : Char → Bool) : Cursor :=
  (c.span p).2

/-- The position behind the blanks. -/
def skipBlanks (c : Cursor) : Cursor :=
  c.skipWhile (· = ' ')

/-- The position at the end of a comment, if one begins here. -/
def skipComment (c : Cursor) : Cursor :=
  if c.peek = some '#' then c.skipWhile fun ch => !isBreak ch else c

/-- The end of a line and the position behind it; the line and the paragraph separator stand for
themselves, and every other end for a line feed. -/
def lineBreak? (c : Cursor) : Option (Char × Cursor) :=
  match c.rest with
  | '\r' :: '\n' :: _ => some ('\n', c.skip 2)
  | ch :: _ => if isSeparator ch then some (ch, c.next) else if isBreak ch then some ('\n', c.next) else none
  | [] => none

/-- Whether three equal characters that bound a document stand here. -/
def atMark (c : Cursor) (mark : Char) : Bool :=
  c.rest.take 3 = [mark, mark, mark] && endsToken (c.peekAt 3)

/-- Whether the beginning or the end of a document is marked here. -/
def atDocumentMark (c : Cursor) : Bool :=
  c.atMark '-' || c.atMark '.'

/-- The position behind the rest of a line that holds nothing but blanks and a comment. -/
def skipLine (c : Cursor) : Except ReadError Cursor :=
  let c := c.skipBlanks.skipComment
  if endsLine c.peek then .ok ((c.lineBreak?.map (·.2)).getD c) else .error .malformed

end Cursor

end RouteBinding.Yaml
