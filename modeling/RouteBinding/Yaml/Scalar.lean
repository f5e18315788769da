import RouteBinding.Text.CodeUnit
import RouteBinding.Text.Quoted
import RouteBinding.Yaml.Name

/-!
# Texts of scalars

The text of a scalar in each of its styles: plain, between quotes, or as a block below its header.
Where a text goes on for several lines, one end of a line stands for a blank, and of several the
first is left out.
-/

namespace RouteBinding.Yaml

/-- Pieces of a text, last first. -/
abbrev Pieces := List (List Char)

/-- The text of pieces. -/
def Pieces.text (ps : Pieces) : String :=
  String.ofList ps.reverse.flatten

/-- What ends of lines stand for: a line separator or a paragraph separator for itself, the first of
several for nothing, a single one for a blank. -/
def folded (first : Char) (more : List Char) : List Char :=
  if first ≠ '\n' then first :: more else if more.isEmpty then [' '] else more

/-! ## Between quotes -/

/-- The ends of lines from here on, with the blanks around them left out. No document may be marked at
the beginning of such a line. -/
def quotedBreaks : (fuel : Nat) → Cursor → Except ReadError (List Char × Cursor)
  | 0, _ => malformed
  | fuel + 1, c =>
    if c.atDocumentMark then malformed
    else
      let c := c.skipWhile fun ch => ch = ' ' || ch = '\t'
      match c.lineBreak? with
      | none => .ok ([], c)
      | some (ch, c) => do
        let (more, c) ← quotedBreaks fuel c
        return (ch :: more, c)

/-- The blanks and the ends of lines inside a quoted text. -/
def quotedSpaces (c : Cursor) : Except ReadError (List Char × Cursor) :=
  let (blanks, c) := c.span fun ch => ch = ' ' || ch = '\t'
  match c.lineBreak? with
  | some (first, c) => do
    let (more, c) ← quotedBreaks (c.rest.length + 1) c
    return (folded first more, c)
  | none => if c.rest.isEmpty then malformed else .ok (blanks, c)

/-- The character that a single character after a backslash stands for. -/
def simpleEscape? (c : Char) : Option Char :=
  if c = '"' || c = '\\' || c = '/' || c = ' ' || c = '\t' then some c
  else
    ([('0', 0), ('a', 7), ('b', 8), ('t', 9), ('n', 10), ('v', 11), ('f', 12), ('r', 13), ('e', 0x1B),
      ('N', 0x85), ('_', 0xA0), ('L', 0x2028), ('P', 0x2029)].lookup c).map Char.ofNat

/-- The character whose code stands after a letter, and how many characters were read. -/
def codeEscape (letter : Char) (s : List Char) : Except ReadError (Char × Nat) :=
  let found :=
    if letter = 'x' then (Text.readHex? 2 s).map fun r => (r.1, r.2)
    else if letter = 'U' then (Text.readHex? 8 s).map fun r => (r.1, r.2)
    else none
  match found with
  | some (code, rest) =>
    if code < 0x110000 then .ok (Text.charOfCode code, s.length - rest.length)
    else .error .noSuchValue
  | none =>
    match if letter = 'u' then Text.readUnit? s else none with
    | some (ch, rest) => .ok (ch, s.length - rest.length)
    | none => malformed

/-- What a backslash stands for, with what follows it. -/
def quotedEscape (c : Cursor) : Except ReadError (List Char × Cursor) :=
  match c.peekAt 1 with
  | none => malformed
  | some ch =>
    match simpleEscape? ch with
    | some e => .ok ([e], c.skip 2)
    | none =>
      match c.next.lineBreak? with
      | some (_, c) => quotedBreaks (c.rest.length + 1) c
      | none => do
        let (e, count) ← codeEscape ch (c.rest.drop 2)
        return ([e], c.skip (2 + count))

/-- Whether a character of a quoted text stands for itself wherever it is. -/
def isQuotedChar (c : Char) : Bool :=
  !(c = Text.singleQuote || c = '"' || c = '\\' || c = ' ' || c = '\t' || isBreak c)

/-- A quoted text from here on, up to its closing quote. -/
def scanQuotedFrom (quote : Char) :
    (fuel : Nat) → Pieces → Cursor → Except ReadError (Pieces × Cursor)
  | 0, _, _ => malformed
  | fuel + 1, read, c =>
    let (run, c) := c.span isQuotedChar
    let read := run :: read
    match c.peek with
    | none => malformed
    | some ch =>
      if ch = quote then
        if ch = Text.singleQuote && c.peekAt 1 = some ch then
          scanQuotedFrom quote fuel ([ch] :: read) (c.skip 2)
        else .ok (read, c.next)
      else if ch = '\\' && quote = '"' then do
        let (piece, c) ← quotedEscape c
        scanQuotedFrom quote fuel (piece :: read) c
      else if ch = '\\' || ch = '"' || ch = Text.singleQuote then
        scanQuotedFrom quote fuel ([ch] :: read) c.next
      else do
        let (piece, c) ← quotedSpaces c
        scanQuotedFrom quote fuel (piece :: read) c

/-- A quoted text. -/
def scanQuoted (quote : Char) (c : Cursor) : Except ReadError (String × Cursor) := do
  let (pieces, c) ← scanQuotedFrom quote (c.rest.length + 1) [] c.next
  return (pieces.text, c)

/-! ## Plain -/

/-- Whether a plain text ends at a character that is followed by another. Inside brackets it ends at
more characters. -/
def endsPlain (inFlow : Bool) (c : Char) (following : Option Char) : Bool :=
  endsToken (some c)
    || (c = ':' && (endsToken following
      || (inFlow && following.any fun n => ",[]\x7b\x7d".toList.contains n)))
    || (inFlow && ",?[]\x7b\x7d".toList.contains c)

/-- The beginning of a plain text, as far as it goes without blanks. -/
def plainRun (inFlow : Bool) : List Char → List Char
  | [] => []
  | c :: rest => if endsPlain inFlow c rest.head? then [] else c :: plainRun inFlow rest

/-- The ends of lines behind the first one, with the blanks between them left out; `none` for them if
a document is marked. -/
def plainBreaks : (fuel : Nat) → Cursor → Option (List Char) × Cursor
  | 0, c => (some [], c)
  | fuel + 1, c =>
    let c := c.skipBlanks
    match c.lineBreak? with
    | none => (some [], c)
    | some (ch, c) =>
      if c.atDocumentMark then (none, c)
      else
        let (more, c) := plainBreaks fuel c
        (more.map (ch :: ·), c)

/-- What stands between two parts of a plain text, whether a line has ended, and the position behind
it; nothing if the text ends here. -/
def plainSpaces (c : Cursor) : List Char × Bool × Cursor :=
  let (blanks, c) := c.span (· = ' ')
  match c.lineBreak? with
  | none => (blanks, false, c)
  | some (first, c) =>
    if c.atDocumentMark then ([], true, c)
    else
      let (more, c) := plainBreaks (c.rest.length + 1) c
      ((more.map (folded first)).getD [], true, c)

/-- A plain text. -/
structure Plain where
  pieces : Pieces
  endedLine : Bool
  behind : Cursor

/-- A plain text from here on. `spaces` stands between what is read and what comes. -/
def scanPlainFrom (inFlow : Bool) (indent : Int) :
    (fuel : Nat) → Pieces → (spaces : List Char) → (endedLine : Bool) → Cursor → Plain
  | 0, read, _, endedLine, c => ⟨read, endedLine, c⟩
  | fuel + 1, read, spaces, endedLine, c =>
    let run := plainRun inFlow c.rest
    if c.peek = some '#' || run.isEmpty then ⟨read, endedLine, c⟩
    else
      let read := run :: spaces :: read
      let (spaces, ended, c) := plainSpaces (c.skip run.length)
      if spaces.isEmpty || (!inFlow && c.column < indent) then ⟨read, ended, c⟩
      else scanPlainFrom inFlow indent fuel read spaces ended c

/-- A plain text, which stands at least `indent` columns from the left if it is not in brackets, and
whether the end of a line was read behind it. -/
def scanPlain (inFlow : Bool) (indent : Int) (c : Cursor) : String × Bool × Cursor :=
  let found := scanPlainFrom inFlow indent (c.rest.length + 1) [] [] false c
  (found.pieces.text, found.endedLine, found.behind)

/-! ## Blocks -/

/-- What becomes of the ends of lines at the end of a block. -/
inductive Chomping
  | clip
  | strip
  | keep
deriving DecidableEq, Inhabited

/-- The header of a block: what becomes of its end, and how far it is indented if that is given. -/
structure BlockHeader where
  chomping : Chomping
  indentation : Option Nat
deriving DecidableEq, Inhabited

/-- The chomping that a character stands for. -/
def chomping? (c : Option Char) : Option Chomping :=
  if c = some '+' then some .keep else if c = some '-' then some .strip else none

/-- The indentation that a digit stands for; zero is refused. -/
def indentation? (c : Option Char) : Except ReadError (Option Nat) :=
  match c.filter Text.isAsciiDigit with
  | none => .ok none
  | some '0' => malformed
  | some d => .ok (some (d.toNat - 0x30))

/-- The header of a block behind its mark, up to the end of its line. -/
def scanBlockHeader (c : Cursor) : Except ReadError (BlockHeader × Cursor) := do
  let (header, c) ←
    match chomping? c.peek with
    | some chomping => do
      let indentation ← indentation? (c.peekAt 1)
      pure (BlockHeader.mk chomping indentation, if indentation.isSome then c.skip 2 else c.next)
    | none =>
      match ← indentation? c.peek with
      | none => pure (BlockHeader.mk .clip none, c)
      | some n =>
        match chomping? (c.peekAt 1) with
        | some chomping => pure (BlockHeader.mk chomping (some n), c.skip 2)
        | none => pure (BlockHeader.mk .clip (some n), c.next)
  if !endsWord c.peek then malformed
  return (header, ← c.skipLine)

/-- The position behind the blanks before a column. -/
def skipIndent (indent : Nat) (c : Cursor) : Cursor :=
  c.skip ((c.rest.take (indent - c.column)).takeWhile (· = ' ')).length

/-- The ends of lines in front of the first line of a block, the most blanks on any of these lines,
and the position behind them. -/
def leadingBreaks : (fuel : Nat) → (widest : Nat) → Cursor → List Char × Nat × Cursor
  | 0, widest, c => ([], widest, c)
  | fuel + 1, widest, c =>
    let c := c.skipBlanks
    let widest := max widest c.column
    match c.lineBreak? with
    | none => ([], widest, c)
    | some (ch, c) =>
      let (more, widest, c) := leadingBreaks fuel widest c
      (ch :: more, widest, c)

/-- The ends of lines from here on, where a line has no more than its indentation. -/
def blockBreaks (indent : Nat) : (fuel : Nat) → Cursor → List Char × Cursor
  | 0, c => ([], c)
  | fuel + 1, c =>
    let c := skipIndent indent c
    match c.lineBreak? with
    | none => ([], c)
    | some (ch, c) =>
      let (more, c) := blockBreaks indent fuel c
      (ch :: more, c)

/-- Whether a blank or a tab is here. -/
def isIndented (c : Option Char) : Bool :=
  c = some ' ' || c = some '\t'

/-- The lines of a block from here on, with the ends of lines `breaks` in front of them. -/
def blockLines (isFolded : Bool) (chomping : Chomping) (indent : Nat) :
    (fuel : Nat) → Pieces → (breaks : List Char) → Cursor → Pieces × Cursor
  | 0, read, _, c => (read, c)
  | fuel + 1, read, breaks, c =>
    let indented := isIndented c.peek
    let (line, c) := c.span fun ch => !isBreak ch
    let (ending, c) := match c.lineBreak? with
      | some (ch, c) => ([ch], c)
      | none => ([], c)
    let read := line :: breaks :: read
    let (breaks, c) := blockBreaks indent (c.rest.length + 1) c
    if c.column = indent && !c.rest.isEmpty then
      let joined :=
        if isFolded && ending = ['\n'] && !indented && !isIndented c.peek then
          if breaks.isEmpty then [' '] else []
        else ending
      blockLines isFolded chomping indent fuel (joined :: read) breaks c
    else
      match chomping with
      | .strip => (read, c)
      | .clip => (ending :: read, c)
      | .keep => (breaks :: ending :: read, c)

/-- A block behind its mark, inside a block that stands `outer` columns from the left. -/
def scanBlock (isFolded : Bool) (outer : Int) (c : Cursor) : Except ReadError (String × Cursor) := do
  let (header, c) ← scanBlockHeader c.next
  let least := max 1 (outer + 1).toNat
  let (breaks, indent, c) :=
    match header.indentation with
    | some n =>
      let indent := least + n - 1
      let (breaks, c) := blockBreaks indent (c.rest.length + 1) c
      (breaks, indent, c)
    | none =>
      let (breaks, widest, c) := leadingBreaks (c.rest.length + 1) 0 c
      (breaks, max least widest, c)
  if c.column = indent && !c.rest.isEmpty then
    let (pieces, c) := blockLines isFolded header.chomping indent (c.rest.length + 1) [] breaks c
    return (pieces.text, c)
  else
    let pieces : Pieces := if header.chomping = .keep then [breaks] else []
    return (pieces.text, c)

end RouteBinding.Yaml
