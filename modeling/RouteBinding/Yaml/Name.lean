import RouteBinding.Text.Digit
import RouteBinding.Yaml.Token

/-!
# Names in a text

Anchors, aliases, tags and directives.
-/

namespace RouteBinding.Yaml

open Text (isAsciiAlnum isAsciiDigit hexValue? ofDigits)

/-- Refuses a text. -/
def malformed {α : Type} : Except ReadError α :=
  .error .malformed

/-- Whether a character may stand in a name. -/
def isNameChar (c : Char) : Bool :=
  isAsciiAlnum c || c = '-' || c = '_'

/-- A name that is not empty. -/
def scanName (c : Cursor) : Except ReadError (String × Cursor) :=
  match c.span isNameChar with
  | ([], _) => malformed
  | (name, c) => .ok (String.ofList name, c)

/-- The name of an anchor or an alias, behind its mark. -/
def scanAnchor (c : Cursor) : Except ReadError (String × Cursor) := do
  let (name, c) ← scanName c.next
  let ends := c.peek.any fun ch => "?:,]\x7d%@".toList.contains ch || ch.toNat = 0x60
  if endsToken c.peek || ends then .ok (name, c) else malformed

/-! ## Tags -/

/-- Whether a character may stand in a tag as it is. -/
def isTagChar (c : Char) : Bool :=
  isAsciiAlnum c || "-;/?:@&=+$,_.!~*'()[]".toList.contains c

/-- The bytes of a run of escapes. -/
def escapedBytes : (fuel : Nat) → Cursor → Except ReadError (List UInt8 × Cursor)
  | 0, c => .ok ([], c)
  | fuel + 1, c =>
    if c.peek ≠ some '%' then .ok ([], c)
    else
      match (c.peekAt 1).bind hexValue?, (c.peekAt 2).bind hexValue? with
      | some high, some low => do
        let (bytes, c) ← escapedBytes fuel (c.skip 3)
        return (UInt8.ofNat (high * 16 + low) :: bytes, c)
      | _, _ => malformed

/-- The parts of a tag up to the first character that is none of a tag. -/
def tagParts : (fuel : Nat) → Cursor → Except ReadError (List String × Cursor)
  | 0, c => .ok ([], c)
  | fuel + 1, c =>
    let (run, c) := c.span isTagChar
    let parts := if run.isEmpty then [] else [String.ofList run]
    if c.peek ≠ some '%' then .ok (parts, c)
    else do
      let (bytes, c) ← escapedBytes c.rest.length c
      match String.fromUTF8? ⟨bytes.toArray⟩ with
      | none => malformed
      | some text =>
        let (more, c) ← tagParts fuel c
        return (parts ++ text :: more, c)

/-- The text of a tag behind its handle. -/
def scanTagText (c : Cursor) : Except ReadError (String × Cursor) := do
  let (parts, c) ← tagParts (c.rest.length + 1) c
  if parts.isEmpty then malformed else .ok (String.join parts, c)

/-- A handle: a mark of exclamation, alone or in front of a name that ends with another one. -/
def scanHandle (c : Cursor) : Except ReadError (String × Cursor) :=
  if c.peek ≠ some '!' then malformed
  else if c.peekAt 1 = some ' ' then .ok ("!", c.next)
  else
    let (name, behind) := c.next.span isNameChar
    if behind.peek = some '!' then .ok ("!" ++ String.ofList name ++ "!", behind.next) else malformed

/-- A tag. -/
def scanTag (c : Cursor) : Except ReadError (Token × Cursor) := do
  let (token, c) ←
    if c.peekAt 1 = some '<' then do
      let (text, c) ← scanTagText (c.skip 2)
      if c.peek = some '>' then pure (Token.tag none text, c.next) else malformed
    else if endsToken (c.peekAt 1) then pure (Token.tag none "!", c.next)
    else do
      let word := c.rest.tail.takeWhile fun ch => !endsWord (some ch)
      let (handle, c) ← if word.contains '!' then scanHandle c else pure ("!", c.next)
      let (text, c) ← scanTagText c
      pure (Token.tag (some handle) text, c)
  if endsWord c.peek then .ok (token, c) else malformed

/-! ## Directives -/

/-- A number. -/
def scanNumber (c : Cursor) : Except ReadError (Nat × Cursor) :=
  match c.span isAsciiDigit with
  | ([], _) => malformed
  | (digits, c) =>
    if digits.length ≤ Text.digitLimit then
      .ok (ofDigits 10 (digits.map fun d => d.toNat - 0x30), c)
    else .error .noSuchValue

/-- The number of the version in a directive. -/
def scanVersion (c : Cursor) : Except ReadError (Directive × Cursor) := do
  let (major, c) ← scanNumber c.skipBlanks
  if c.peek ≠ some '.' then malformed
  let (_, c) ← scanNumber c.next
  if endsWord c.peek then .ok (.version major, c) else malformed

/-- The handle that a directive declares, and what it stands for. -/
def scanTagDirective (c : Cursor) : Except ReadError (Directive × Cursor) := do
  let (handle, c) ← scanHandle c.skipBlanks
  if c.peek ≠ some ' ' then malformed
  let (text, c) ← scanTagText c.skipBlanks
  if endsWord c.peek then .ok (.tag handle text, c) else malformed

/-- A directive, up to the end of its line. -/
def scanDirective (c : Cursor) : Except ReadError (Token × Cursor) := do
  let (name, c) ← scanName c.next
  if !endsWord c.peek then malformed
  let (directive, c) ←
    if name = "YAML" then scanVersion c
    else if name = "TAG" then scanTagDirective c
    else pure (Directive.other, c.skipWhile fun ch => !isBreak ch)
  return (.directive directive, ← c.skipLine)

end RouteBinding.Yaml
