import RouteBinding.Data.Scalar
import RouteBinding.Number.FloatReader
import RouteBinding.Text.Base64
import RouteBinding.Text.LetterCase
import RouteBinding.Yaml.Cursor
import RouteBinding.Yaml.Tag

/-!
# Values of scalars

What the text of a scalar stands for, by its kind. A text that declares a kind need not have the form
of that kind; it then asks for a value that does not exist.
-/

namespace RouteBinding.Yaml

open Number (readFloat?)
open Text (readIntIn? spanSign splitChars)

/-- A value that may not exist. -/
def existing {α : Type} : Option α → Except ReadError α
  | some a => .ok a
  | none => .error .noSuchValue

/-- The truth value of a word in any case. -/
def boolOf (s : String) : Except ReadError Bool :=
  let word := Text.lower s
  if ["yes", "true", "on"].contains word then .ok true
  else if ["no", "false", "off"].contains word then .ok false
  else .error (.unknownWord word)

/-- The number that parts of sixtieths stand for. -/
def ofSixtieths (parts : List Int) : Int :=
  parts.foldl (fun n part => n * 60 + part) 0

/-- The whole number of a text without underscores and without its first sign. What is in front says
the base; what stands behind that is read as a number of this base, which may have a sign and a mark of
its own. -/
def magnitudeOf? (s : List Char) : Option Int :=
  match s with
  | '0' :: 'b' :: r => readIntIn? 2 r
  | '0' :: 'x' :: r => readIntIn? 16 r
  | '0' :: _ => readIntIn? 8 s
  | _ =>
    if s.contains ':' then ((splitChars ':' s).mapM (readIntIn? 10)).map ofSixtieths
    else readIntIn? 10 s

/-- The characters of a number that count. -/
def withoutUnderscores (s : String) : List Char :=
  s.toList.filter (· ≠ '_')

/-- The whole number of a text. -/
def intOf? (s : String) : Option Int :=
  let (negative, rest) := spanSign (withoutUnderscores s)
  (magnitudeOf? rest).map fun n => if negative then -n else n

/-- The floating point number nearest to a whole number, if it is finite. -/
def finiteFloat? (n : Int) : Option Float :=
  let x := Number.ofInt n
  if (Number.wholeValue? x).isSome then some x else none

/-- The sum of parts, the last one first, each of which counts sixty times as much as the one before
it and the first one `base` times; none if a part counts more than any finite number. -/
def sumSixtieths? (base : Int) (sum : Float) : List Float → Option Float
  | [] => some sum
  | part :: rest => do
    let unit ← finiteFloat? base
    sumSixtieths? (base * 60) (sum + part * unit) rest

/-- The floating point number of a text. -/
def floatOf? (s : String) : Option Float :=
  let (negative, rest) := spanSign ((Text.lower (String.ofList (withoutUnderscores s))).toList)
  if rest = ".inf".toList then some (Number.infinity negative)
  else if rest = ".nan".toList then some Number.notANumber
  else if rest.contains ':' then
    ((splitChars ':' rest).mapM readFloat?).bind fun parts =>
      (sumSixtieths? 1 0.0 parts.reverse).map fun sum => if negative then -sum else sum
  else (readFloat? rest).map fun x => if negative then -x else x

/-- The date or the moment of a text, if the calendar has it. The end of a line may stand behind it. -/
def stampOf? (s : String) : Option Scalar :=
  match readStamp? (withoutFinalBreak s).toList with
  | some (.date d) => if d.isValid then some (.date d) else none
  | some (.moment m) => if m.isValid then some (.moment m) else none
  | none => none

/-- The bytes of a text; a text beyond ASCII and an incomplete group are malformed. -/
def bytesOf (s : String) : Except ReadError Scalar :=
  match if s.toList.all (·.toNat < 0x80) then Text.readBase64? s.toList else none with
  | some bytes => .ok (.bytes bytes)
  | none => .error .malformed

/-- The value of a scalar of a kind. -/
def scalarOf (tag : Tag) (s : String) : Except ReadError Scalar :=
  match tag with
  | .null => .ok .null
  | .bool => (boolOf s).map .bool
  | .int => (existing (intOf? s)).map .int
  | .float => (existing (floatOf? s)).map .float
  | .timestamp => existing (stampOf? s)
  | .binary => bytesOf s
  | .text => .ok (.text s)
  | _ => .error .malformed

end RouteBinding.Yaml
