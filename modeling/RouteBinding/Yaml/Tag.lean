import RouteBinding.Data.Date
import RouteBinding.Text.Digit
import RouteBinding.Text.Split

/-!
# Tags

The kind of a node. A plain text that declares no tag is of the kind that its form implies: a truth
value, a number, a date, null, one of two marks, or a text.
-/

namespace RouteBinding.Yaml

open Text (isAsciiDigit splitChars)

/-- The kind of a node. -/
inductive Tag
  | null
  | bool
  | int
  | float
  | timestamp
  | binary
  | text
  | sequence
  | mapping
  | set
  | orderedMapping
  | pairs
  | merge
  | value
  | unknown
deriving DecidableEq, Inhabited

/-- The beginning of all known tags. -/
def tagSpace : String := "tag:yaml.org,2002:"

/-- The kind that a tag names. -/
def Tag.ofText (s : String) : Tag :=
  let names : List (String × Tag) :=
    [("null", .null), ("bool", .bool), ("int", .int), ("float", .float), ("timestamp", .timestamp),
      ("binary", .binary), ("str", .text), ("seq", .sequence), ("map", .mapping), ("set", .set),
      ("omap", .orderedMapping), ("pairs", .pairs), ("merge", .merge), ("value", .value)]
  ((Text.dropHead? tagSpace s).bind fun name => names.lookup name).getD .unknown

/-! ## Forms of numbers -/

/-- A text without the sign in front of it. -/
def dropSign : List Char → List Char
  | '+' :: rest => rest
  | '-' :: rest => rest
  | s => s

/-- Whether a text is not empty and all of it is in `p` or an underscore. -/
def isRun (p : Char → Bool) (s : List Char) : Bool :=
  !s.isEmpty && s.all fun c => p c || c = '_'

/-- Whether a text is one or two digits that make less than sixty. -/
def isSixtieth : List Char → Bool
  | [a] => isAsciiDigit a
  | [a, b] => isAsciiDigit a && a.toNat < 0x36 && isAsciiDigit b
  | _ => false

/-- Whether a text begins with a digit and has only digits and underscores. -/
def isDigits : List Char → Bool
  | c :: rest => isAsciiDigit c && rest.all fun d => isAsciiDigit d || d = '_'
  | [] => false

/-- Whether a text has the form of a whole number. -/
def isInt (s : List Char) : Bool :=
  match dropSign s with
  | '0' :: 'b' :: r => isRun (fun c => c = '0' || c = '1') r
  | '0' :: 'x' :: r => isRun (fun c => (Text.hexValue? c).isSome) r
  | '0' :: r => r.isEmpty || isRun (fun c => isAsciiDigit c && c.toNat < 0x38) r
  | u =>
    match splitChars ':' u with
    | whole :: sixtieths => isDigits whole && sixtieths.all isSixtieth
    | [] => false

/-- Whether a text is empty or an exponent with a sign. -/
def isExponent : List Char → Bool
  | [] => true
  | e :: s :: rest =>
    (e = 'e' || e = 'E') && (s = '+' || s = '-') && !rest.isEmpty && rest.all isAsciiDigit
  | _ => false

/-- Whether a text is a fraction behind a point, with an exponent that may be missing. -/
def isFraction (s : List Char) : Bool :=
  isExponent (s.dropWhile fun c => isAsciiDigit c || c = '_')

/-- Whether the last part of a number in sixtieths has a point and a fraction behind it. -/
def isLastSixtieth (s : List Char) : Bool :=
  match s.dropWhile (· ≠ '.') with
  | '.' :: fraction =>
    isSixtieth (s.takeWhile (· ≠ '.')) && fraction.all fun c => isAsciiDigit c || c = '_'
  | _ => false

/-- Whether a text has the form of a floating point number. -/
def isFloat (s : List Char) : Bool :=
  let u := dropSign s
  let decimal := match u.dropWhile fun c => isAsciiDigit c || c = '_' with
    | '.' :: fraction => isDigits (u.takeWhile (· ≠ '.')) && isFraction fraction
    | _ => false
  let small := match s with
    | '.' :: c :: rest => isAsciiDigit c && isFraction (c :: rest)
    | _ => false
  let sixtieths := match splitChars ':' u with
    | whole :: next :: rest =>
      isDigits whole && ((next :: rest).dropLast.all isSixtieth)
        && (((next :: rest).getLast?.map isLastSixtieth).getD false)
    | _ => false
  decimal || small || sixtieths
    || [".inf", ".Inf", ".INF"].contains (String.ofList u)
    || [".nan", ".NaN", ".NAN"].contains (String.ofList s)

/-! ## The form of a date -/

/-- From `least` to `most` digits, as many as there are: their value, their count and the rest. -/
def readDigits? (least most : Nat) (s : List Char) : Option (Nat × Nat × List Char) :=
  let ds := (s.take most).takeWhile isAsciiDigit
  if least ≤ ds.length then
    some (Text.ofDigits 10 (ds.map fun d => d.toNat - 0x30), ds.length, s.drop ds.length)
  else none

/-- What follows a character. -/
def readMark? (mark : Char) : List Char → Option (List Char)
  | c :: rest => if c = mark then some rest else none
  | [] => none

/-- The zone that makes up the rest of a time, in minutes. -/
def readZone? (s : List Char) : Option (Option Int) :=
  match s.dropWhile fun c => c = ' ' || c = '\t' with
  | [] => if s.isEmpty then some none else none
  | ['Z'] => some (some 0)
  | sign :: rest =>
    if sign ≠ '+' && sign ≠ '-' then none
    else do
      let (hours, _, rest) ← readDigits? 1 2 rest
      let (minutes, rest) ← match rest with
        | ':' :: rest => (readDigits? 2 2 rest).map fun r => (r.1, r.2.2)
        | rest => some (0, rest)
      let total : Int := hours * 60 + minutes
      if rest.isEmpty then some (some (if sign = '-' then -total else total)) else none

/-- The millionths that the digits of a fraction stand for; what they have beyond six is left out. -/
def microseconds (digits : List Char) : Nat :=
  let six := (digits ++ List.replicate 6 '0').take 6
  Text.ofDigits 10 (six.map fun d => d.toNat - 0x30)

/-- The time behind a date. -/
def readTime? (date : Date) (s : List Char) : Option Moment := do
  let (hour, _, s) ← readDigits? 1 2 s
  let (minute, _, s) ← readDigits? 2 2 (← readMark? ':' s)
  let (second, _, s) ← readDigits? 2 2 (← readMark? ':' s)
  let (fraction, s) := match s with
    | '.' :: rest => (rest.takeWhile isAsciiDigit, rest.dropWhile isAsciiDigit)
    | s => ([], s)
  let zone ← readZone? s
  return ⟨date, hour, minute, second, microseconds fraction, zone⟩

/-- What a text with the form of a date stands for: a date, of which every part may be out of range, or
a moment. -/
inductive Stamp
  | date (d : Date)
  | moment (m : Moment)
deriving DecidableEq, Inhabited

/-- What follows the mark between a date and a time. -/
def readTimeMark? : List Char → Option (List Char)
  | 'T' :: rest => some rest
  | 't' :: rest => some rest
  | c :: rest =>
    if c = ' ' || c = '\t' then some (rest.dropWhile fun c => c = ' ' || c = '\t') else none
  | [] => none

/-- Reads a date or a moment. -/
def readStamp? (s : List Char) : Option Stamp := do
  let (year, _, s) ← readDigits? 4 4 s
  let (month, _, s) ← readDigits? 1 2 (← readMark? '-' s)
  let (day, _, s) ← readDigits? 1 2 (← readMark? '-' s)
  let date : Date := ⟨year, month, day⟩
  if s.isEmpty then some (.date date)
  else (readTime? date (← readTimeMark? s)).map .moment

/-- Whether a text has the form of a date; without a time, month and day have two digits each. -/
def isTimestamp (s : List Char) : Bool :=
  match readStamp? s with
  | some (.date _) => s.length = 10
  | some (.moment _) => true
  | none => false

/-! ## The kind of a plain text -/

/-- The words for yes. -/
def trueTexts : List String :=
  ["yes", "Yes", "YES", "true", "True", "TRUE", "on", "On", "ON"]

/-- The words for no. -/
def falseTexts : List String :=
  ["no", "No", "NO", "false", "False", "FALSE", "off", "Off", "OFF"]

/-- The words for null. -/
def nullTexts : List String :=
  ["", "~", "null", "Null", "NULL"]

/-- A text without the one end of a line that may stand behind it. -/
def withoutFinalBreak (s : String) : String :=
  match s.toList.reverse with
  | '\n' :: rest => String.ofList rest.reverse
  | _ => s

/-- The kind that the form of a text implies. -/
def Tag.ofForm (s : String) : Tag :=
  let cs := s.toList
  if trueTexts.contains s || falseTexts.contains s then .bool
  else if isFloat cs then .float
  else if isInt cs then .int
  else if s = "<<" then .merge
  else if nullTexts.contains s then .null
  else if isTimestamp cs then .timestamp
  else if s = "=" then .value
  else if s = "!" || s = "&" || s = "*" then .unknown
  else .text

/-- The kind that a text implies: that of its form, which the end of a line may follow. A text that is
nothing but that end is a text. -/
def Tag.implied (s : String) : Tag :=
  if s = "\n" then .text else Tag.ofForm (withoutFinalBreak s)

end RouteBinding.Yaml
