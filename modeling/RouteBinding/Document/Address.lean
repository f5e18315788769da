import RouteBinding.Text.Digit
import RouteBinding.Text.Split

/-!
# Addresses on the web

An address names a machine and what is asked of it. It is well formed when it is not too long, holds no
control characters, and names the machine by a name, by four numbers or by groups of hexadecimal digits
in square brackets, perhaps with a user in front and with the number of a port behind.
-/

namespace RouteBinding.Address

open Text (isAsciiDigit hexValue? splitChars)

/-- The most characters that an address may have. -/
def mostChars : Nat := 65536

/-- Whether a character controls a terminal and is not shown. -/
def isControl (c : Char) : Bool :=
  c.toNat < 0x20 || c.toNat = 0x7F

/-- The part of an address that names the machine. -/
def authority (address : String) : List Char :=
  let behind := (address.toList.dropWhile (· ≠ ':')).drop 3
  behind.takeWhile fun c => c ≠ '/' && c ≠ '?' && c ≠ '#'

/-- The host and the port of an authority without its user. A host in square brackets reaches up to the
last closing one. -/
def hostAndPort (s : List Char) : List Char × List Char :=
  let behind (rest : List Char) : List Char := if rest.head? = some ':' then rest.tail else rest
  if s.head? = some '[' && s.contains ']' then
    let tail := (s.reverse.takeWhile (· ≠ ']')).reverse
    (s.take (s.length - tail.length), behind tail)
  else (s.takeWhile (· ≠ ':'), behind (s.dropWhile (· ≠ ':')))

/-! ## Numbers -/

/-- Whether a text is a number below 256, without a zero in front of it. -/
def isOctet (s : List Char) : Bool :=
  !s.isEmpty && s.length ≤ 3 && s.all isAsciiDigit && (s.length = 1 || s.head? ≠ some '0')
    && Text.ofDigits 10 (s.map fun d => d.toNat - 0x30) < 256

/-- Whether a text is four numbers with points between them. -/
def isFourOctets (s : List Char) : Bool :=
  let parts := splitChars '.' s
  parts.length = 4 && parts.all isOctet

/-- Whether a text looks like four numbers: runs of digits with one character between each two, which may
be a digit itself. A run of digits can so be cut into half as many runs as it has digits, rounded up. -/
def looksLikeNumbers (s : List Char) : Bool :=
  let runs := splitChars '.' (s.map fun c => if isAsciiDigit c then c else '.')
  runs.length ≤ 4 && runs.all (fun run => !run.isEmpty)
    && 4 ≤ runs.foldl (fun count run => count + (run.length + 1) / 2) 0

/-- Whether a text is up to four hexadecimal digits. -/
def isGroup (s : List Char) : Bool :=
  !s.isEmpty && s.length ≤ 4 && s.all fun c => (hexValue? c).isSome

/-- Whether a list of texts is the whole of eight groups: an empty one, which must not stand alone at an
end, stands for those that are left out. -/
def areGroups (parts : List (List Char)) : Bool :=
  let inner := (parts.drop 1).dropLast
  let gaps := inner.filter List.isEmpty
  if parts.length < 3 || 9 < parts.length || 1 < gaps.length then false
  else if gaps.isEmpty then parts.length = 8 && parts.all isGroup
  else
    let before := parts.take (1 + (inner.takeWhile fun p => !p.isEmpty).length)
    let behind := parts.drop (before.length + 1)
    let isSide (side : List (List Char)) : Bool := side = [[]] || side.all isGroup
    let count (side : List (List Char)) : Nat := if side = [[]] then 0 else side.length
    isSide before && isSide behind && count before + count behind < 8

/-- Whether a text is eight groups with colons between them, the last two of which may be written as four
numbers. A zone may follow. -/
def isEightGroups (s : List Char) : Bool :=
  let zone := s.dropWhile (· ≠ '%')
  let parts := splitChars ':' (s.takeWhile (· ≠ '%'))
  let isZone := zone.isEmpty || (zone.length > 1 && !zone.tail.contains '%')
  let last := parts.getLast?.getD []
  if !isZone then false
  else if last.contains '.' then
    2 < parts.length && isFourOctets last && areGroups (parts.dropLast ++ [['0'], ['0']])
  else areGroups parts

/-! ## Whole addresses -/

/-- Whether a host is well formed. One that looks like four numbers must be that. -/
def isHost (s : List Char) : Bool :=
  if looksLikeNumbers s then isFourOctets s
  else if s.head? = some '[' && s.getLast? = some ']' then isEightGroups s.tail.dropLast
  else true

/-- Whether an address is well formed. -/
def isWellFormed (address : String) : Bool :=
  let named := authority address
  let (host, port) := hostAndPort ((Text.afterLast? '@' named).getD named)
  address.length ≤ mostChars && !address.toList.any isControl
    && (port.isEmpty || (Text.readIntIn? 10 port).isSome) && isHost host

end RouteBinding.Address
