import RouteBinding.Text.Ranges
import RouteBinding.Text.Identifier.Table

/-!
# Identifiers

An identifier is an underscore or a letter of the start class, followed by any number of
underscores and characters of the start and continue classes. A keyword is an identifier that
generated code cannot use as a name.
-/

namespace RouteBinding.Text

/-- Whether an identifier may start with this character. -/
def isIdentifierStart (c : Char) : Bool :=
  c = '_' || inRanges Identifier.startRanges c.toNat

/-- Whether an identifier may go on with this character. -/
def isIdentifierContinue (c : Char) : Bool :=
  isIdentifierStart c || inRanges Identifier.continueRanges c.toNat

/-- Whether a list of characters is an identifier. -/
def isIdentifierChars : List Char → Bool
  | [] => false
  | c :: rest => isIdentifierStart c && rest.all isIdentifierContinue

/-- Whether a text is an identifier. -/
def isIdentifier (s : String) : Bool :=
  isIdentifierChars s.toList

/-- The reserved words of generated code. -/
def keywords : List String :=
  ["False", "None", "True", "and", "as", "assert", "async", "await", "break", "class", "continue",
   "def", "del", "elif", "else", "except", "finally", "for", "from", "global", "if", "import",
   "in", "is", "lambda", "nonlocal", "not", "or", "pass", "raise", "return", "try", "while",
   "with", "yield"]

/-- Whether a text is a reserved word. -/
def isKeyword (s : String) : Bool :=
  keywords.contains s

end RouteBinding.Text
