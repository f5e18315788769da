import RouteBinding.Yaml.Scalar

/-!
# From text to tokens

A block begins where something stands further to the right than the block around it, and ends where
something stands further to the left. A mapping may be seen only at the colon behind its first key;
so everything that may be a key is kept as a candidate, and when its colon comes, the mark of a key,
and perhaps of a mapping, is put in front of it. A candidate must stand on one line with its colon
and within 1024 characters of it. As long as it does, what comes next is not settled, so where the text
turns out to be wrong, the tokens from the first candidate on cannot be told.
-/

namespace RouteBinding.Yaml

/-- Something that may be a key: the count of tokens in front of it, whether it must be one, and
where it stands. -/
structure Candidate where
  place : Nat
  mustBeKey : Bool
  index : Nat
  line : Nat
  column : Nat
deriving Inhabited

/-- What is known in the middle of a text. `tokens` holds the tokens read so far, last first;
`indents` the columns of the blocks that are open, innermost first; `candidates` at most one candidate
for each depth of brackets. -/
structure Lexer where
  cursor : Cursor
  tokens : List Token
  count : Nat
  depth : Nat
  indents : List Nat
  mayBeKey : Bool
  candidates : List (Nat × Candidate)
deriving Inhabited

/-- Puts a token into a list that has `behind` tokens in front of its place. -/
def insertToken (token : Token) (behind : Nat) (tokens : List Token) : List Token :=
  tokens.take behind ++ token :: tokens.drop behind

namespace Lexer

/-- The beginning of a text; a byte order mark in front of it is left out. -/
def start (s : List Char) : Lexer :=
  let c := Cursor.start s
  let c := if c.peek.any (·.toNat = 0xFEFF) then c.next else c
  ⟨c, [], 0, 0, [], true, []⟩

/-- The column of the innermost open block; one left of the first column if there is none. -/
def indent (l : Lexer) : Int :=
  match l.indents with
  | column :: _ => column
  | [] => -1

/-- Adds a token. -/
def emit (l : Lexer) (t : Token) : Lexer :=
  { l with tokens := t :: l.tokens, count := l.count + 1 }

/-- Puts a token in front of the one at a place. -/
def emitAt (l : Lexer) (place : Nat) (t : Token) : Lexer :=
  { l with tokens := insertToken t (l.count - place) l.tokens, count := l.count + 1 }

/-- Moves to another position. -/
def moveTo (l : Lexer) (c : Cursor) : Lexer :=
  { l with cursor := c }

/-- Moves over `n` characters. -/
def skip (l : Lexer) (n : Nat) : Lexer :=
  l.moveTo (l.cursor.skip n)

/-- Says whether a key may begin with the next token. -/
def allowKey (l : Lexer) (b : Bool) : Lexer :=
  { l with mayBeKey := b }

/-! ## Candidates -/

/-- Whether its colon can no longer follow a candidate. -/
def isStale (l : Lexer) (k : Candidate) : Bool :=
  k.line ≠ l.cursor.line || 1024 < l.cursor.index - k.index

/-- Drops the candidates that their colon can no longer follow. -/
def dropStale (l : Lexer) : Except ReadError Lexer :=
  let (stale, kept) := l.candidates.partition fun k => l.isStale k.2
  if stale.any (·.2.mustBeKey) then malformed else .ok { l with candidates := kept }

/-- The count of tokens that nothing can be put in front of any more. -/
def settled (l : Lexer) : Nat :=
  let pending := l.candidates.filter fun k => !l.isStale k.2
  pending.foldl (fun count k => min count k.2.place) l.count

/-- Drops the candidate at the present depth. -/
def dropCandidate (l : Lexer) : Except ReadError Lexer :=
  match l.candidates.lookup l.depth with
  | none => .ok l
  | some k =>
    if k.mustBeKey then malformed
    else .ok { l with candidates := l.candidates.filter (·.1 ≠ l.depth) }

/-- Keeps the next token as a candidate, if a key may begin here. -/
def saveCandidate (l : Lexer) : Except ReadError Lexer := do
  if !l.mayBeKey then return l
  let c := l.cursor
  let mustBeKey := l.depth = 0 && l.indent = c.column
  let l ← l.dropCandidate
  return { l with candidates := (l.depth, ⟨l.count, mustBeKey, c.index, c.line, c.column⟩) :: l.candidates }

/-! ## Blocks -/

/-- Closes the blocks that stand further to the right than a column. -/
def closeBlocks (column : Int) (l : Lexer) : Lexer :=
  if l.depth ≠ 0 then l
  else
    let closed := l.indents.takeWhile fun i : Nat => column < (i : Int)
    { l with
      indents := l.indents.drop closed.length
      tokens := List.replicate closed.length .blockEnd ++ l.tokens
      count := l.count + closed.length }

/-- Opens a block at a column, if it stands further to the right than the innermost one. -/
def openBlock (l : Lexer) (column : Nat) (place : Nat) (t : Token) : Lexer :=
  if l.indent < column then { l.emitAt place t with indents := column :: l.indents } else l

/-! ## Tokens -/

/-- Moves to the next token. Where a line has ended outside of brackets, a key may begin. -/
def skipToToken : (fuel : Nat) → Lexer → Lexer
  | 0, l => l
  | fuel + 1, l =>
    let c := l.cursor.skipBlanks.skipComment
    match c.lineBreak? with
    | some (_, c) => skipToToken fuel ((l.moveTo c).allowKey (l.depth = 0 || l.mayBeKey))
    | none => l.moveTo c

/-- The end of the text. -/
def lexEnd (l : Lexer) : Except ReadError Lexer := do
  let l ← (l.closeBlocks (-1)).dropCandidate
  return { (l.emit .streamEnd).allowKey false with candidates := [] }

/-- A directive. -/
def lexDirective (l : Lexer) : Except ReadError Lexer := do
  let l ← (l.closeBlocks (-1)).dropCandidate
  let (t, c) ← scanDirective l.cursor
  return ((l.moveTo c).emit t).allowKey false

/-- The mark of the beginning or the end of a document. -/
def lexDocumentMark (t : Token) (l : Lexer) : Except ReadError Lexer := do
  let l ← (l.closeBlocks (-1)).dropCandidate
  return ((l.skip 3).emit t).allowKey false

/-- An opening bracket. -/
def lexOpening (t : Token) (l : Lexer) : Except ReadError Lexer := do
  let l ← l.saveCandidate
  return { ((l.skip 1).emit t).allowKey true with depth := l.depth + 1 }

/-- A closing bracket. -/
def lexClosing (t : Token) (l : Lexer) : Except ReadError Lexer := do
  let l ← l.dropCandidate
  return { ((l.skip 1).emit t).allowKey false with depth := l.depth - 1 }

/-- A comma inside brackets. -/
def lexComma (l : Lexer) : Except ReadError Lexer := do
  let l ← (l.allowKey true).dropCandidate
  return (l.skip 1).emit .flowItem

/-- The mark of an item of a list. -/
def lexItem (l : Lexer) : Except ReadError Lexer := do
  if l.depth = 0 && !l.mayBeKey then malformed
  let l := if l.depth = 0 then l.openBlock l.cursor.column l.count .blockSequenceStart else l
  let l ← (l.allowKey true).dropCandidate
  return (l.skip 1).emit .blockItem

/-- The mark of a key. -/
def lexKey (l : Lexer) : Except ReadError Lexer := do
  if l.depth = 0 && !l.mayBeKey then malformed
  let l := if l.depth = 0 then l.openBlock l.cursor.column l.count .blockMappingStart else l
  let l ← (l.allowKey (l.depth = 0)).dropCandidate
  return (l.skip 1).emit .key

/-- A colon behind a key. -/
def lexValue (l : Lexer) : Except ReadError Lexer := do
  match l.candidates.lookup l.depth with
  | some k =>
    let l := { l with candidates := l.candidates.filter (·.1 ≠ l.depth) }
    let l := l.emitAt k.place .key
    let l := if l.depth = 0 then l.openBlock k.column k.place .blockMappingStart else l
    return ((l.allowKey false).skip 1).emit .value
  | none =>
    if l.depth = 0 && !l.mayBeKey then malformed
    let l := if l.depth = 0 then l.openBlock l.cursor.column l.count .blockMappingStart else l
    let l ← (l.allowKey (l.depth = 0)).dropCandidate
    return (l.skip 1).emit .value

/-- A token that may be a key, read by a scanner. -/
def lexPart (scan : Cursor → Except ReadError (Token × Cursor)) (l : Lexer) :
    Except ReadError Lexer := do
  let l ← l.saveCandidate
  let (t, c) ← scan l.cursor
  return ((l.allowKey false).moveTo c).emit t

/-- A text in a block of its own. -/
def lexBlockText (isFolded : Bool) (l : Lexer) : Except ReadError Lexer := do
  let l ← (l.allowKey true).dropCandidate
  let (s, c) ← scanBlock isFolded l.indent l.cursor
  return (l.moveTo c).emit (.scalar s false)

/-- A plain text. -/
def lexPlain (l : Lexer) : Except ReadError Lexer := do
  let l ← l.saveCandidate
  let (s, endedLine, c) := scanPlain (l.depth ≠ 0) (l.indent + 1) l.cursor
  return ((l.allowKey endedLine).moveTo c).emit (.scalar s true)

/-- Whether a plain text may begin with a character that is followed by another. -/
def beginsPlain (l : Lexer) (c : Char) (following : Option Char) : Bool :=
  let isMark := "-?:,[]\x7b\x7d#&*!|>'\"%@".toList.contains c || c.toNat = 0x60
  !(endsToken (some c) || isMark)
    || (!endsToken following && (c = '-' || (l.depth = 0 && (c = '?' || c = ':'))))

/-- Reads the token at a character. -/
def lexAt (l : Lexer) (ch : Char) : Except ReadError Lexer :=
  let c := l.cursor
  let following := c.peekAt 1
  let isAlone := endsToken following
  if ch = '%' && c.column = 0 then l.lexDirective
  else if c.column = 0 && c.atMark '-' then l.lexDocumentMark .documentStart
  else if c.column = 0 && c.atMark '.' then l.lexDocumentMark .documentEnd
  else if ch = '[' then l.lexOpening .flowSequenceStart
  else if ch = '\x7b' then l.lexOpening .flowMappingStart
  else if ch = ']' then l.lexClosing .flowSequenceEnd
  else if ch = '\x7d' then l.lexClosing .flowMappingEnd
  else if ch = ',' then l.lexComma
  else if ch = '-' && isAlone then l.lexItem
  else if ch = '?' && (l.depth ≠ 0 || isAlone) then l.lexKey
  else if ch = ':' && (l.depth ≠ 0 || isAlone) then l.lexValue
  else if ch = '*' then l.lexPart fun c => (scanAnchor c).map fun r => (.alias r.1, r.2)
  else if ch = '&' then l.lexPart fun c => (scanAnchor c).map fun r => (.anchor r.1, r.2)
  else if ch = '!' then l.lexPart scanTag
  else if ch = '|' && l.depth = 0 then l.lexBlockText false
  else if ch = '>' && l.depth = 0 then l.lexBlockText true
  else if ch = Text.singleQuote || ch = '"' then
    l.lexPart fun c => (scanQuoted ch c).map fun r => (.scalar r.1 false, r.2)
  else if l.beginsPlain ch following then l.lexPlain
  else malformed

/-- Reads the next token, and says whether the text has ended with it. -/
def lexNext (l : Lexer) : Except ReadError (Bool × Lexer) := do
  let l ← (l.skipToToken (l.cursor.rest.length + 1)).dropStale
  let l := l.closeBlocks l.cursor.column
  match l.cursor.peek with
  | none => return (true, ← l.lexEnd)
  | some ch => return (false, ← l.lexAt ch)

/-- Reads the tokens from here on; every round but the last reads a character. -/
def lexAll : (fuel : Nat) → Lexer → TokenStream
  | 0, l => ⟨l.tokens.reverse, some .malformed⟩
  | fuel + 1, l =>
    match l.lexNext with
    | .ok (true, l) => ⟨l.tokens.reverse, none⟩
    | .ok (false, l) => lexAll fuel l
    | .error e => ⟨l.tokens.reverse.take l.settled, some e⟩

end Lexer

/-- The characters that a text may hold. -/
def isAllowed (c : Char) : Bool :=
  let n := c.toNat
  n = 9 || n = 10 || n = 13 || (0x20 ≤ n && n ≤ 0x7E) || n = 0x85 || (0xA0 ≤ n && n ≤ 0xD7FF)
    || (0xE000 ≤ n && n ≤ 0xFFFD) || 0x10000 ≤ n

/-- The tokens of a text. -/
def tokens (s : List Char) : TokenStream :=
  if s.all isAllowed then (Lexer.start s).lexAll (s.length + 1) else ⟨[], some .malformed⟩

end RouteBinding.Yaml
