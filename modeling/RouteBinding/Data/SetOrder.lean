import RouteBinding.Data.Scalar
import RouteBinding.Number.Binary64

/-!
# The order of a set

A set does not list its members as they were given: it keeps them in slots, and lists the slots. The slot
of a number comes from its value, so equal numbers of different kinds have the same one. What other
scalars are kept under is not known beforehand; a set that holds one of them stays in the order given.
-/

namespace RouteBinding

namespace SetOrder

open Number (Binary64)

/-! ## Slot numbers -/

/-- The prime by which slot numbers are taken. -/
def modulus : Nat := Nat.pow 2 61 - 1

/-- A remainder with a sign as a word of 64 bits. Minus one is not used, and minus two stands for it. -/
def signedWord (negative : Bool) (remainder : Nat) : Nat :=
  if !negative || remainder = 0 then remainder
  else Nat.pow 2 64 - max 2 remainder

/-- The number that a scalar is kept under. A power of two counts by its exponent modulo 61, because the
61st one leaves the remainder one. -/
def slotNumber? (s : Scalar) : Option Nat :=
  match s.key with
  | .int n => some (signedWord (n < 0) (n.natAbs % modulus))
  | .float x =>
    match Binary64.ofFloat x with
    | .finite negative mantissa exponent =>
      some (signedWord negative (mantissa * Nat.pow 2 (exponent % 61).toNat % modulus))
    | .infinite negative => some (signedWord negative 314159)
    | .notANumber => none
  | _ => none

/-! ## Slots -/

/-- How many slots a set has for a count of members: the least power of two above twice the count, but
always eight for less than five. -/
def slotCount (members : Nat) : Nat :=
  if members < 5 then 8 else Nat.pow 2 ((2 * members).log2 + 1)

/-- The first free one among some neighbouring slots. -/
def freeAmong? (slots : Array (Option Scalar)) (first count : Nat) : Option Nat :=
  (List.range' first count).find? fun i => (slots[i]?).join.isNone

/-- The free slot for a number, looked for from `place` on: among ten neighbours if there are as many, and
then at a place that depends on the rest of the number. Once the rest is used up every place is met,
so `fuel` may be the count of the slots and sixteen more. -/
def freeSlot? (slots : Array (Option Scalar)) : (fuel place rest : Nat) → Option Nat
  | 0, _, _ => none
  | fuel + 1, place, rest =>
    let count := if place + 9 < slots.size then 10 else 1
    match freeAmong? slots place count with
    | some i => some i
    | none =>
      let rest := rest / 32
      freeSlot? slots fuel ((place * 5 + 1 + rest) % slots.size) rest

/-- Keeps a scalar under a number. -/
def keep (slots : Array (Option Scalar)) (number : Nat) (s : Scalar) : Array (Option Scalar) :=
  match freeSlot? slots (slots.size + 16) (number % slots.size) number with
  | some i => slots.set! i (some s)
  | none => slots

end SetOrder

/-- The members of a set in the order in which it lists them. -/
def setOrder (members : List Scalar) : List Scalar :=
  match members.mapM fun s => (SetOrder.slotNumber? s).map (·, s) with
  | none => members
  | some numbered =>
    let empty : Array (Option Scalar) := Array.replicate (SetOrder.slotCount members.length) none
    let slots := numbered.foldl (fun slots e => SetOrder.keep slots e.1 e.2) empty
    slots.toList.filterMap id

end RouteBinding
