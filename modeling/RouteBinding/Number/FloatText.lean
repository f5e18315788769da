import RouteBinding.Number.Shortest

/-!
# The text of a floating point number

A finite number is written with the shortest digits that read back. The layout record says when
the digits are written in place and how an exponent looks.
-/

namespace RouteBinding.Number

/-- How a floating point number is laid out. `leastPlace` and `mostPlace` are the places of the
leading digit between which the digits are written in place. -/
structure FloatLayout where
  leastPlace : Int
  mostPlace : Int
  wholeSuffix : String
  exponentMark : String
  exponentDigits : Nat
  infinity : String
  notANumber : String

/-- Places -4 to 15 are written out, a whole number keeps `.0`, and an exponent has a sign and at
least two digits. -/
def literalLayout : FloatLayout :=
  ⟨-4, 15, ".0", "e", 2, "inf", "nan"⟩

/-- The same layout with the names that a JSON text uses for the numbers that are not finite. -/
def jsonLayout : FloatLayout :=
  { literalLayout with infinity := "Infinity", notANumber := "NaN" }

/-- A number with zeros in front, up to a least width. -/
def padded (width n : Nat) : String :=
  let digits := Nat.toDigits 10 n
  String.ofList (List.replicate (width - digits.length) '0' ++ digits)

/-- The digits of a decimal, laid out. -/
def FloatLayout.digits (layout : FloatLayout) (d : Decimal) : String :=
  let cs := Nat.toDigits 10 d.digits
  let place : Int := d.exponent + cs.length - 1
  if layout.leastPlace ≤ place && place ≤ layout.mostPlace then
    if d.exponent ≥ 0 then
      String.ofList (cs ++ List.replicate d.exponent.toNat '0') ++ layout.wholeSuffix
    else if place ≥ 0 then
      String.ofList (cs.take (place.toNat + 1) ++ '.' :: cs.drop (place.toNat + 1))
    else
      String.ofList ('0' :: '.' :: List.replicate (-place - 1).toNat '0' ++ cs)
  else
    let fraction := cs.drop 1
    let point := if fraction.isEmpty then [] else ['.']
    String.ofList (cs.take 1 ++ point ++ fraction) ++ layout.exponentMark
      ++ (if place < 0 then "-" else "+") ++ padded layout.exponentDigits place.natAbs

/-- The text of a floating point number. -/
def FloatLayout.text (layout : FloatLayout) (x : Float) : String :=
  match Binary64.ofFloat x with
  | .notANumber => layout.notANumber
  | .infinite negative => (if negative then "-" else "") ++ layout.infinity
  | .finite negative mantissa exponent =>
    let d : Decimal := if mantissa = 0 then ⟨0, 0⟩ else shortestDecimal mantissa exponent
    (if negative then "-" else "") ++ layout.digits d

end RouteBinding.Number
