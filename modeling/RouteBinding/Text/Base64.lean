import RouteBinding.Text.Digit

/-!
# Bytes as text

Four characters for three bytes. Characters outside of the alphabet do not count; two or three
characters at the end need signs of equality to fill their group up.
-/

namespace RouteBinding.Text

/-- The value of a character of the alphabet. -/
def base64Value? (c : Char) : Option Nat :=
  if isAsciiUpper c then some (c.toNat - 0x41)
  else if isAsciiLower c then some (c.toNat - 0x47)
  else if isAsciiDigit c then some (c.toNat + 4)
  else if c = '+' then some 62
  else if c = '/' then some 63
  else none

/-- The bytes from here on. `group` holds the values of the group being read, and `fill` counts the
signs of equality behind the last value. -/
def base64From (group : List Nat) (fill : Nat) : List Char → Option (List Nat)
  | [] => if group.isEmpty then some [] else none
  | c :: rest =>
    if c = '=' then
      if 2 ≤ group.length && 4 ≤ group.length + fill + 1 then some []
      else base64From group (if 2 ≤ group.length then fill + 1 else fill) rest
    else
      match base64Value? c, group with
      | none, _ => base64From group fill rest
      | some v, [] => base64From [v] 0 rest
      | some v, [a] => (base64From [a, v] 0 rest).map ((a * 4 + v / 16) :: ·)
      | some v, [a, b] => (base64From [a, b, v] 0 rest).map ((b % 16 * 16 + v / 4) :: ·)
      | some v, _ :: _ :: d :: _ => (base64From [] 0 rest).map ((d % 4 * 64 + v) :: ·)

/-- The bytes that a text stands for. -/
def readBase64? (s : List Char) : Option (List UInt8) :=
  (base64From [] 0 s).map fun bytes => bytes.map UInt8.ofNat

end RouteBinding.Text
