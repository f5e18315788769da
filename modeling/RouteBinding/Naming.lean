import RouteBinding.Text.Blank
import RouteBinding.Text.Digit
import RouteBinding.Text.Identifier
import RouteBinding.Text.LetterCase
import RouteBinding.Text.Split

/-!
# Names in generated code

Stable identifiers for types, operations and the fields that parameter values are bound to. Each
depends on the text it is made from and on nothing else. The words of a text are its longest runs
of ASCII letters and digits.
-/

namespace RouteBinding.Naming

open Text

/-- The words of a text: its longest runs of ASCII letters and digits. -/
def words (s : List Char) : List (List Char) :=
  runs (fun c => !isAsciiAlnum c) s

/-- An ASCII letter as a capital. -/
def capital (c : Char) : Char :=
  if isAsciiLower c then Char.ofNat (c.toNat - 0x20) else c

/-- A word with a capital in front. -/
def capitalized : List Char → List Char
  | [] => []
  | c :: rest => capital c :: rest

/-- The words of a text joined, each with a capital in front, for use inside a longer name. -/
def namePart (s : String) : String :=
  String.ofList ((words s.toList).flatMap capitalized)

/-- An underscore in front of a name that starts with a digit. -/
def guardDigit (s : List Char) : List Char :=
  match s with
  | c :: _ => if isAsciiDigit c then '_' :: s else s
  | [] => s

/-- A text as a name of its own; a text without words is `Anonymous`. -/
def pascalCase (s : String) : String :=
  let part := namePart s
  if part = "" then "Anonymous" else String.ofList (guardDigit part.toList)

/-- The name of a type: an identifier that is no keyword stays as it is. -/
def typeName (s : String) : String :=
  if isIdentifier s && !isKeyword s then s else pascalCase s

/-- Whether a character is a brace of a placeholder. -/
def isBrace (c : Char) : Bool :=
  c = '\x7b' || c = '\x7d'

/-- The name of an operation: of its identifier if it has one, and else of its method and path. -/
def operationName (method path : String) (operationId : Option String) : String :=
  match operationId.filter (· ≠ "") with
  | some id => pascalCase id
  | none =>
    let segments := (split '/' path).filter (· ≠ "")
    let parts := String.join (segments.map fun s => namePart (strip isBrace s))
    pascalCase method ++ (if parts = "" then "Root" else parts)

/-! ## Fields -/

/-- An underscore at every border of two words written together: after a small letter or digit and
before a capital, and before the last of several capitals if a small letter follows it. -/
def splitCase : List Char → List Char
  | a :: b :: rest =>
    let lowerThenUpper := (isAsciiLower a || isAsciiDigit a) && isAsciiUpper b
    let lastUpper := isAsciiUpper a && isAsciiUpper b && (rest.head?.any isAsciiLower)
    if lowerThenUpper || lastUpper then a :: '_' :: splitCase (b :: rest)
    else a :: splitCase (b :: rest)
  | s => s

/-- The words of a text in small letters with underscores between them. -/
def snakeCase (s : String) : List Char :=
  joinChars '_' (words (lowerChars (splitCase s.toList)))

/-- The field that a parameter is bound to: its words in small letters with underscores between
them, `param` if there are none, with an underscore in front of a digit and behind a keyword. -/
def fieldName (s : String) : String :=
  let snake := snakeCase s
  let name := guardDigit (if snake.isEmpty then "param".toList else snake)
  String.ofList (if isKeyword (String.ofList name) then name ++ ['_'] else name)

end RouteBinding.Naming
