import RouteBinding.Text.Blank
import RouteBinding.Text.Digit

/-!
# The shorthand for a route

A route in one line: a method of ASCII letters, a path, the word `as`, and a handler, with blanks
between them. Blanks at both ends do not count, and no part holds a blank.
-/

namespace RouteBinding

/-- The parts of a route in one line. -/
structure Shorthand where
  method : String
  path : String
  handler : String
deriving DecidableEq, Inhabited

namespace Shorthand

open Text (isBlank isAsciiLetter)

/-- What follows at least one blank. -/
def gap? (s : List Char) : Option (List Char) :=
  match s with
  | c :: _ => if isBlank c then some (s.dropWhile isBlank) else none
  | [] => none

/-- A non-empty run of characters in `p`, and what follows it. -/
def run? (p : Char → Bool) (s : List Char) : Option (List Char × List Char) :=
  match s.takeWhile p with
  | [] => none
  | token => some (token, s.dropWhile p)

/-- A part without blanks, and what follows it. -/
def part? (s : List Char) : Option (List Char × List Char) :=
  run? (fun c => !isBlank c) s

/-- Reads a route in one line. -/
def read? (s : String) : Option Shorthand := do
  let (method, rest) ← run? isAsciiLetter (s.toList.dropWhile isBlank)
  let (path, rest) ← part? (← gap? rest)
  let (word, rest) ← part? (← gap? rest)
  let (handler, rest) ← part? (← gap? rest)
  if word = ['a', 's'] && rest.all isBlank then
    some ⟨String.ofList method, String.ofList path, String.ofList handler⟩
  else none

end Shorthand

end RouteBinding
