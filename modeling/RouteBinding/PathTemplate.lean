import RouteBinding.Text.Blank
import RouteBinding.Text.Split

/-!
# Path templates

A path template is a path in which a name between braces stands for a value. Two templates have
the same shape when they have the same count of segments, the same literal segments, and
placeholders at the same places.
-/

namespace RouteBinding.PathTemplate

/-- The placeholders of the rest of a template; `opened` holds the characters since an opening
brace, last first, while no other brace has come. -/
def placeholdersFrom (opened : Option (List Char)) : List Char → List String
  | [] => []
  | c :: rest =>
    if c = '\x7b' then placeholdersFrom (some []) rest
    else if c = '\x7d' then
      match opened with
      | some name => String.ofList name.reverse :: placeholdersFrom none rest
      | none => placeholdersFrom none rest
    else placeholdersFrom (opened.map (c :: ·)) rest

/-- The names between an opening brace and the next brace, if that one closes, in order. -/
def placeholders (path : String) : List String :=
  placeholdersFrom none path.toList

/-- The segments of a path, without regard to slashes at its ends. -/
def segments (path : String) : List String :=
  Text.split '/' (Text.strip (· = '/') path)

/-- Whether a whole segment stands between braces. -/
def isPlaceholder (segment : String) : Bool :=
  Text.startsWith segment "\x7b" && Text.endsWith segment "\x7d"

/-- A segment without its first and its last character. -/
def inner (segment : String) : String :=
  String.ofList ((segment.toList.drop 1).dropLast)

/-- The first pair of placeholders that differ in two lists of segments of the same shape. -/
def firstDifference? : List String → List String → Option (Option (String × String))
  | [], [] => some none
  | ours :: restOurs, theirs :: restTheirs =>
    if isPlaceholder ours != isPlaceholder theirs then none
    else if !isPlaceholder ours && ours ≠ theirs then none
    else do
      let later ← firstDifference? restOurs restTheirs
      return if ours ≠ theirs then some (inner ours, inner theirs) else later
  | _, _ => none

/-- The first placeholder of one path and the one at its place in another path, where two paths of
the same shape first differ. -/
def mismatch? (ours theirs : String) : Option (String × String) :=
  (firstDifference? (segments ours) (segments theirs)).join

end RouteBinding.PathTemplate
