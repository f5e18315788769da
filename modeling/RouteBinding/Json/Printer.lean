import RouteBinding.Data.Tree

/-!
# Writing JSON

A tree is written on one line, or indented with one entry a line; characters beyond ASCII are
written as they are, or by their codes in units of sixteen bits. A date is written as its text. Of
the scalars, texts, numbers, truth values and null may be keys.
-/

namespace RouteBinding.Json

open Number (jsonLayout)

/-- How a tree is written. -/
structure Layout where
  indented : Bool
  asciiOnly : Bool
deriving DecidableEq, Inhabited

/-- One line, ASCII only. -/
def Layout.line : Layout := ⟨false, true⟩

/-- Two blanks for each level, characters as they are. -/
def Layout.pretty : Layout := ⟨true, false⟩

/-- Two blanks for each level, ASCII only. -/
def Layout.prettyAscii : Layout := ⟨true, true⟩

/-- A code of sixteen bits after `\u`. -/
def unitEscape (code : Nat) : List Char :=
  '\\' :: 'u' :: Text.hexDigits 4 code

/-- One character between the quotes of a text. -/
def textChar (asciiOnly : Bool) (c : Char) : List Char :=
  if c = '"' || c = '\\' then ['\\', c]
  else if c = '\n' then ['\\', 'n']
  else if c = '\r' then ['\\', 'r']
  else if c = '\t' then ['\\', 't']
  else if c.toNat = 8 then ['\\', 'b']
  else if c.toNat = 12 then ['\\', 'f']
  else if c.toNat < 0x20 then unitEscape c.toNat
  else if !asciiOnly || c.toNat < 0x7F then [c]
  else if c.toNat < 0x10000 then unitEscape c.toNat
  else
    let n := c.toNat - 0x10000
    unitEscape (0xD800 + n / 0x400) ++ unitEscape (0xDC00 + n % 0x400)

/-- A text between quotes. -/
def text (asciiOnly : Bool) (s : String) : String :=
  String.ofList ('"' :: s.toList.flatMap (textChar asciiOnly) ++ ['"'])

/-- The text of a scalar; `none` for a number with too many digits. -/
def scalar? (asciiOnly : Bool) : Scalar → Option String
  | .null => some "null"
  | .bool b => some (if b then "true" else "false")
  | .int n => Text.writeInt? n
  | .float x => some (jsonLayout.text x)
  | s => s.display?.map (text asciiOnly)

/-- The text of a key, if the scalar may be one and has one. -/
def keyText? : Scalar → Option String
  | .text s => some s
  | .null => some "null"
  | .bool b => some (if b then "true" else "false")
  | .int n => Text.writeInt? n
  | .float x => some (jsonLayout.text x)
  | _ => none

/-- The line break and the blanks in front of an entry at a depth. -/
def Layout.lineBreak (layout : Layout) (depth : Nat) : String :=
  if layout.indented then String.ofList ('\n' :: List.replicate (2 * depth) ' ') else ""

/-- What stands between two entries at a depth. -/
def Layout.separator (layout : Layout) (depth : Nat) : String :=
  if layout.indented then "," ++ layout.lineBreak depth else ", "

mutual

/-- Writes a tree that stands at a depth; `none` if some key or number cannot be written. -/
def Layout.writeAt? (layout : Layout) (depth : Nat) : Tree → Option String
  | .scalar s => scalar? layout.asciiOnly s
  | .list items =>
    if items.isEmpty then some "[]"
    else do
      let texts ← layout.writeItems? (depth + 1) items
      return "[" ++ layout.lineBreak (depth + 1)
        ++ String.intercalate (layout.separator (depth + 1)) texts
        ++ layout.lineBreak depth ++ "]"
  | .mapping entries =>
    if entries.isEmpty then some "\x7b\x7d"
    else do
      let texts ← layout.writeEntries? (depth + 1) entries
      return "\x7b" ++ layout.lineBreak (depth + 1)
        ++ String.intercalate (layout.separator (depth + 1)) texts
        ++ layout.lineBreak depth ++ "\x7d"

/-- Writes the items of a list. -/
def Layout.writeItems? (layout : Layout) (depth : Nat) : List Tree → Option (List String)
  | [] => some []
  | item :: rest => do
    let first ← layout.writeAt? depth item
    let others ← layout.writeItems? depth rest
    return first :: others

/-- Writes the entries of a mapping. -/
def Layout.writeEntries? (layout : Layout) (depth : Nat) :
    List (Scalar × Tree) → Option (List String)
  | [] => some []
  | (key, value) :: rest => do
    let key ← keyText? key
    let first ← layout.writeAt? depth value
    let others ← layout.writeEntries? depth rest
    return (text layout.asciiOnly key ++ ": " ++ first) :: others

end

/-- Writes a tree; `none` if some key or number cannot be written. -/
def write? (layout : Layout) (t : Tree) : Option String :=
  layout.writeAt? 0 t

end RouteBinding.Json
