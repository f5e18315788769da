import RouteBinding.Config.Basic
import RouteBinding.Text.Identifier
import RouteBinding.Text.LetterCase

/-!
# Reading a configuration

A configuration is read from a mapping of known keys; a key that is not there has its default.
Everything that is wrong with a mapping is reported: first its known keys in their order, each with
all that is wrong inside it, and then the unknown keys in the order of the mapping.
-/

namespace RouteBinding

/-- What is wrong with a value. -/
inductive ConfigFault
  | notText
  | notBoolean
  | unknownWord
  | notMapping
  | unknownKey
  | keyNotText
  | notIdentifier
  | notChoice
deriving DecidableEq, Inhabited

/-- A fault and the keys that lead to it. -/
structure ConfigProblem where
  keys : List Scalar
  fault : ConfigFault
deriving DecidableEq, Inhabited

namespace ConfigProblem

/-- The problem as it is seen from the mapping that holds `key`. -/
def under (key : Scalar) (p : ConfigProblem) : ConfigProblem :=
  ⟨key :: p.keys, p.fault⟩

/-- The problems of an outcome. -/
def listOf {α : Type} : Except (List ConfigProblem) α → List ConfigProblem
  | .ok _ => []
  | .error ps => ps

/-- The words for yes. -/
def trueWords : List String := ["true", "t", "yes", "y", "on", "1"]

/-- The words for no. -/
def falseWords : List String := ["false", "f", "no", "n", "off", "0"]

/-- Reads a text. -/
def readText : Tree → Except ConfigFault String
  | .scalar (.text s) => .ok s
  | _ => .error .notText

/-- Reads the name of a field. -/
def readIdentifier (t : Tree) : Except ConfigFault String := do
  let s ← readText t
  if Text.isIdentifier s then .ok s else .error .notIdentifier

/-- The greatest whole number in a signed word of 64 bits. -/
def mostInWord : Int := 9223372036854775807

/-- The truth value of a whole number. A number that fits a word is taken for a word of some kind,
and only a greater one for no truth value at all. -/
def boolOfInt (n : Int) : Except ConfigFault Bool :=
  if n = 1 then .ok true
  else if n = 0 then .ok false
  else if -mostInWord - 1 ≤ n && n ≤ mostInWord then .error .unknownWord
  else .error .notBoolean

/-- Reads a truth value: itself, the number 0 or 1, or a word in any case. Of the floating point numbers
only those strictly between the bounds of a word are taken for whole numbers. -/
def readBool : Tree → Except ConfigFault Bool
  | .scalar (.bool b) => .ok b
  | .scalar (.int n) => boolOfInt n
  | .scalar (.float x) =>
    match (Number.wholeValue? x).filter fun n => -mostInWord ≤ n with
    | some n => boolOfInt n
    | none => .error .notBoolean
  | .scalar (.text s) =>
    let word := Text.lower s
    if trueWords.contains word then .ok true
    else if falseWords.contains word then .ok false
    else .error .unknownWord
  | _ => .error .notBoolean

/-- Reads the value of a known key, which has a default. -/
def readField {α : Type} (key : String) (default : α) (read : Tree → Except ConfigFault α)
    (entries : List (Scalar × Tree)) : Except (List ConfigProblem) α :=
  match valueAt? key entries with
  | none => .ok default
  | some t =>
    match read t with
    | .ok a => .ok a
    | .error fault => .error [⟨[.text key], fault⟩]

/-- Reads the mapping under a known key, which has a default. -/
def readSection {α : Type} (key : String) (default : α)
    (read : Tree → Except (List ConfigProblem) α) (entries : List (Scalar × Tree)) :
    Except (List ConfigProblem) α :=
  match valueAt? key entries with
  | none => .ok default
  | some t => (read t).mapError fun ps => ps.map (under (.text key))

/-- The problems of the keys outside `known`. -/
def unknownKeys (known : List String) (entries : List (Scalar × Tree)) : List ConfigProblem :=
  entries.filterMap fun e =>
    match e.1 with
    | .text key => if known.contains key then none else some ⟨[e.1], .unknownKey⟩
    | _ => some ⟨[e.1], .keyNotText⟩

end ConfigProblem

open ConfigProblem

/-- Reads the settings of the compiler. -/
def CompilerConfig.ofTree : Tree → Except (List ConfigProblem) CompilerConfig
  | .mapping entries =>
    let base := CompilerConfig.default
    let bodySlot := readField "body_slot" base.bodySlot readIdentifier entries
    let warnUnbound := readField "warn_unbound_operations" base.warnUnbound readBool entries
    let failOnWarnings := readField "fail_on_warnings" base.failOnWarnings readBool entries
    let unknown :=
      unknownKeys ["body_slot", "warn_unbound_operations", "fail_on_warnings"] entries
    match bodySlot, warnUnbound, failOnWarnings, unknown with
    | .ok slot, .ok warn, .ok fail, [] => .ok ⟨slot, warn, fail⟩
    | _, _, _, _ =>
      .error (listOf bodySlot ++ listOf warnUnbound ++ listOf failOnWarnings ++ unknown)
  | _ => .error [⟨[], .notMapping⟩]

/-- Reads the settings of the output. -/
def OutputConfig.ofTree : Tree → Except (List ConfigProblem) OutputConfig
  | .mapping entries =>
    let format := readField "format" OutputConfig.default.format readText entries
    let unknown := unknownKeys ["format"] entries
    match format, unknown with
    | .ok name, [] => .ok ⟨name⟩
    | _, _ => .error (listOf format ++ unknown)
  | _ => .error [⟨[], .notMapping⟩]

/-- Reads a configuration. -/
def Config.ofTree : Tree → Except (List ConfigProblem) Config
  | .mapping entries =>
    let compiler := readSection "compiler" .default CompilerConfig.ofTree entries
    let output := readSection "output" .default OutputConfig.ofTree entries
    let unknown := unknownKeys ["compiler", "output"] entries
    match compiler, output, unknown with
    | .ok c, .ok o, [] => .ok ⟨c, o⟩
    | _, _, _ => .error (listOf compiler ++ listOf output ++ unknown)
  | _ => .error [⟨[], .notMapping⟩]

end RouteBinding
