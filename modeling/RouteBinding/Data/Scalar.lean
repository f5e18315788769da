import RouteBinding.Data.Date
import RouteBinding.Text.Digit
import RouteBinding.Text.Quoted

/-!
# Scalars

The values of a document that hold no other value. As keys of a mapping, two numbers are the same
key when they are equal as numbers, whatever their kinds, and a truth value counts as 0 or 1.
-/

namespace RouteBinding

open Number (literalLayout)

/-- A value without parts. -/
inductive Scalar
  | null
  | bool (value : Bool)
  | int (value : Int)
  | float (value : Float)
  | text (value : String)
  | date (value : Date)
  | moment (value : Moment)
  | bytes (value : List UInt8)
deriving DecidableEq, Inhabited

namespace Scalar

/-- The name of the kind of a scalar. -/
def typeName : Scalar → String
  | null => "NoneType"
  | bool _ => "bool"
  | int _ => "int"
  | float _ => "float"
  | text _ => "str"
  | date _ => "date"
  | moment _ => "datetime"
  | bytes _ => "bytes"

/-- Whether a scalar counts as present: not null, false, zero or empty. -/
def isTruthy : Scalar → Bool
  | null => false
  | bool b => b
  | int n => n ≠ 0
  | float x => Number.wholeValue? x ≠ some 0
  | text s => s ≠ ""
  | date _ => true
  | moment _ => true
  | bytes bs => !bs.isEmpty

/-- The representative of all scalars that are the same key. -/
def key : Scalar → Scalar
  | bool b => int (if b then 1 else 0)
  | float x =>
    match Number.wholeValue? x with
    | some n => int n
    | none => float x
  | moment m =>
    match m.instant? with
    | some n =>
      let day := n.toNat / 86400000000
      moment ⟨⟨0, 0, day⟩, 0, 0, 0, n.toNat % 86400000000, some 0⟩
    | none => moment m
  | s => s

/-- Whether two scalars are the same key of a mapping. -/
def sameKey (a b : Scalar) : Bool :=
  a.key = b.key

/-- One byte of a literal. -/
def byteLiteral (quote : Char) (b : UInt8) : List Char :=
  let c := Char.ofNat b.toNat
  if c = quote || c = '\\' then ['\\', c]
  else if c = '\n' then ['\\', 'n']
  else if c = '\r' then ['\\', 'r']
  else if c = '\t' then ['\\', 't']
  else if 0x20 ≤ b.toNat && b.toNat < 0x7F then [c]
  else '\\' :: 'x' :: Text.hexDigits 2 b.toNat

/-- The literal form of a list of bytes. -/
def bytesLiteral (bs : List UInt8) : String :=
  let single := bs.contains 0x27 && !bs.contains 0x22
  let quote := if single then Text.doubleQuote else Text.singleQuote
  String.ofList ('b' :: quote :: bs.flatMap (byteLiteral quote) ++ [quote])

/-- The literal form of a scalar; `none` for a whole number with more digits than can be written. -/
def literal? : Scalar → Option String
  | null => some "None"
  | bool b => some (if b then "True" else "False")
  | int n => Text.writeInt? n
  | float x => some (literalLayout.text x)
  | text s => some (Text.quoted s)
  | date d => some d.literal
  | moment m => some m.literal
  | bytes bs => some (bytesLiteral bs)

/-- The scalar as it stands inside a sentence: a text as it is, a date in digits, anything else in
its literal form, if it has one. -/
def display? : Scalar → Option String
  | text s => some s
  | date d => some d.text
  | moment m => some (m.text " ")
  | s => s.literal?

/-- The text of a scalar that is one. -/
def text? : Scalar → Option String
  | text s => some s
  | _ => none

end Scalar

end RouteBinding
