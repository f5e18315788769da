import RouteBinding.Data.Tree
import RouteBinding.Text.CodeUnit

/-!
# Reading JSON

A reader of JSON texts. Beside the standard grammar it takes the names `NaN`, `Infinity` and
`-Infinity` for numbers. A number without a fraction and an exponent is a whole number of any size,
up to a limit on its digits.
-/

namespace RouteBinding.Json

/-- Why a text is not read. -/
inductive ReadError
  | malformed
  | tooManyDigits
deriving DecidableEq, Inhabited

/-- What a reader gives: a value and the rest of the text, or the reason why it stops. -/
abbrev Read (α : Type) := Except ReadError (α × List Char)

/-- Whether a character may stand between two tokens. -/
def isSpace (c : Char) : Bool :=
  c = ' ' || c = '\n' || c = '\r' || c = '\t'

/-- The text without the spaces at its beginning. -/
def skipSpaces (s : List Char) : List Char :=
  s.dropWhile isSpace

/-! ## Texts -/

/-- The character that a letter after a backslash stands for. -/
def simpleEscape? (c : Char) : Option Char :=
  [('"', '"'), ('\\', '\\'), ('/', '/'), ('b', Char.ofNat 8), ('f', Char.ofNat 12), ('n', '\n'),
   ('r', '\r'), ('t', '\t')].lookup c

/-- Reads what follows a backslash. -/
def readEscape : List Char → Read Char
  | 'u' :: rest =>
    match Text.readUnit? rest with
    | some found => .ok found
    | none => .error .malformed
  | c :: rest =>
    match simpleEscape? c with
    | some e => .ok (e, rest)
    | none => .error .malformed
  | [] => .error .malformed

/-- Reads a text up to its closing quote; `read` holds the characters read so far, last first. -/
def readText : (fuel : Nat) → (read : List Char) → List Char → Read String
  | 0, _, _ => .error .malformed
  | _, _, [] => .error .malformed
  | fuel + 1, read, c :: rest =>
    if c = '"' then .ok (String.ofList read.reverse, rest)
    else if c = '\\' then
      match readEscape rest with
      | .ok (e, rest) => readText fuel (e :: read) rest
      | .error e => .error e
    else if c.toNat < 0x20 then .error .malformed
    else readText fuel (c :: read) rest

/-! ## Numbers -/

/-- Splits off the digits at the beginning of a text. -/
def spanDigits (s : List Char) : List Char × List Char :=
  (s.takeWhile Text.isAsciiDigit, s.dropWhile Text.isAsciiDigit)

/-- The number that a list of ASCII digits stands for. -/
def natOfDigits (ds : List Char) : Nat :=
  Text.ofDigits 10 (ds.map fun d => d.toNat - 0x30)

/-- The digits after a point, if there are any. -/
def readFraction (s : List Char) : List Char × List Char :=
  match s with
  | '.' :: rest =>
    match spanDigits rest with
    | ([], _) => ([], s)
    | found => found
  | _ => ([], s)

/-- The exponent after an `e`, if there is a whole one. -/
def readExponent (s : List Char) : Option Int × List Char :=
  match s with
  | e :: rest =>
    if e = 'e' || e = 'E' then
      let (sign, digits) : Int × List Char := match rest with
        | '-' :: r => (-1, r)
        | '+' :: r => (1, r)
        | r => (1, r)
      match spanDigits digits with
      | ([], _) => (none, s)
      | (ds, rest) => (some (sign * natOfDigits ds), rest)
    else (none, s)
  | [] => (none, s)

/-- Reads a number whose sign has been read. -/
def readNumber (negative : Bool) (s : List Char) : Read Scalar :=
  let (whole, rest) : List Char × List Char := match s with
    | '0' :: rest => (['0'], rest)
    | _ => spanDigits s
  if whole.isEmpty then .error .malformed
  else
    let (fraction, rest) := readFraction rest
    let (exponent, rest) := readExponent rest
    if fraction.isEmpty && exponent.isNone then
      if whole.length > Text.digitLimit then .error .tooManyDigits
      else
        let n : Int := natOfDigits whole
        .ok (.int (if negative then -n else n), rest)
    else
      let exponent := exponent.getD 0 - fraction.length
      .ok (.float (Number.ofDecimal negative (natOfDigits (whole ++ fraction)) exponent), rest)

/-- The words that stand for a value. -/
def wordValues : List (String × Scalar) :=
  [("null", .null), ("true", .bool true), ("false", .bool false),
   ("NaN", .float (Float.ofBits 0x7FF8000000000000)),
   ("Infinity", .float (Number.ofMagnitude false Number.infiniteBits)),
   ("-Infinity", .float (Number.ofMagnitude true Number.infiniteBits))]

/-- The word at the beginning of a text. -/
def readWord? (s : List Char) : Option (Scalar × List Char) :=
  (wordValues.find? fun w => w.1.toList.isPrefixOf s).map fun w => (w.2, s.drop w.1.length)

/-- Reads a word or a number. -/
def readScalar (s : List Char) : Read Tree :=
  match readWord? s with
  | some (value, rest) => .ok (.scalar value, rest)
  | none =>
    let found := match s with
      | '-' :: rest => readNumber true rest
      | _ => readNumber false s
    found.map fun (value, rest) => (.scalar value, rest)

/-! ## Values -/

mutual

/-- Reads a value; `fuel` bounds the length of the text. -/
def readValue : (fuel : Nat) → List Char → Read Tree
  | 0, _ => .error .malformed
  | fuel + 1, s =>
    match s with
    | '"' :: rest => (readText (rest.length + 1) [] rest).map fun (text, rest) => (.text text, rest)
    | '[' :: rest =>
      match skipSpaces rest with
      | ']' :: rest => .ok (.list [], rest)
      | rest => (readItems fuel rest).map fun (items, rest) => (.list items, rest)
    | '\x7b' :: rest =>
      match skipSpaces rest with
      | '\x7d' :: rest => .ok (.mapping [], rest)
      | rest =>
        (readMembers fuel rest).map fun (entries, rest) => (.mapping (mergeEntries entries), rest)
    | _ => readScalar s

/-- Reads the items of a list up to its closing bracket. -/
def readItems : (fuel : Nat) → List Char → Read (List Tree)
  | 0, _ => .error .malformed
  | fuel + 1, s =>
    match readValue fuel s with
    | .error e => .error e
    | .ok (item, rest) =>
      match skipSpaces rest with
      | ']' :: rest => .ok ([item], rest)
      | ',' :: rest =>
        (readItems fuel (skipSpaces rest)).map fun (items, rest) => (item :: items, rest)
      | _ => .error .malformed

/-- Reads the entries of a mapping up to its closing brace. -/
def readMembers : (fuel : Nat) → List Char → Read (List (Scalar × Tree))
  | 0, _ => .error .malformed
  | fuel + 1, s =>
    match s with
    | '"' :: rest =>
      match readText (rest.length + 1) [] rest with
      | .error e => .error e
      | .ok (key, rest) =>
        match skipSpaces rest with
        | ':' :: rest =>
          match readValue fuel (skipSpaces rest) with
          | .error e => .error e
          | .ok (value, rest) =>
            match skipSpaces rest with
            | '\x7d' :: rest => .ok ([(.text key, value)], rest)
            | ',' :: rest =>
              (readMembers fuel (skipSpaces rest)).map fun (entries, rest) =>
                ((.text key, value) :: entries, rest)
            | _ => .error .malformed
        | _ => .error .malformed
    | _ => .error .malformed

end

/-- Reads a whole text as one value. -/
def read (s : String) : Except ReadError Tree :=
  let cs := skipSpaces s.toList
  match readValue (2 * cs.length + 2) cs with
  | .error e => .error e
  | .ok (value, rest) => if (skipSpaces rest).isEmpty then .ok value else .error .malformed

end RouteBinding.Json
