import ProbeLowering.Number.Binary64

/-!
# Shortest decimal text

The text of a finite number has the fewest digits that still round to the
number, and of those the nearest.  Every digit stands at its place: there is no
exponent, and a number without a fraction ends in a point and a zero.
-/

namespace ProbeLowering.Binary64

def quotientLt (a b c d : Nat) : Bool := a * d < c * b

/--
The numbers that round to `significand * 2 ^ exponent` lie between two
quotients over one denominator; below a power of two they lie closer.
-/
structure RoundingInterval where
  lower : Nat
  value : Nat
  upper : Nat
  den : Nat
  closed : Bool
  deriving DecidableEq, Repr

def roundingInterval (significand : Nat) (exponent : Int) : RoundingInterval :=
  let close := significand = 0x10000000000000 ∧ minExponent < exponent
  let value := 4 * significand
  let lower := if close then value - 1 else value - 2
  let num (n : Nat) : Nat := (scaled n 1 exponent).1
  { lower := num lower, value := num value, upper := num (value + 2)
    den := (scaled 4 4 exponent).2
    closed := significand % 2 = 0 }

namespace RoundingInterval

/-- The decimal `digits * 10 ^ place` rounds to the number. -/
def contains (i : RoundingInterval) (digits : Nat) (place : Int) : Bool :=
  let (n, d) :=
    if 0 ≤ place then (digits * Nat.pow 10 place.toNat, 1)
    else (digits, Nat.pow 10 (-place).toNat)
  let above := if i.closed then !quotientLt n d i.lower i.den
    else quotientLt i.lower i.den n d
  let below := if i.closed then !quotientLt i.upper i.den n d
    else quotientLt n d i.upper i.den
  above && below

def inUnits (i : RoundingInterval) (place : Int) : Nat × Nat :=
  if 0 ≤ place then (i.value, i.den * Nat.pow 10 place.toNat)
  else (i.value * Nat.pow 10 (-place).toNat, i.den)

/-- The nearer of the two neighbours of the value, if only one or both round to it. -/
def candidate? (i : RoundingInterval) (place : Int) : Option Nat :=
  let (n, d) := i.inUnits place
  let low := n / d
  let nearest := roundQuotient n d
  let other := if nearest = low then low + 1 else low
  if i.contains nearest place then some nearest
  else if i.contains other place then some other
  else none

def shortestFrom (i : RoundingInterval) : Nat → Int → Nat × Int
  | 0, place => (roundQuotient (i.inUnits place).1 (i.inUnits place).2, place)
  | n + 1, place =>
      match i.candidate? place with
      | some digits => (digits, place)
      | none => shortestFrom i n (place - 1)

end RoundingInterval

def leadingPlace (num den : Nat) : Int :=
  (digitCount num : Int) - digitCount den + 1

def shortestDecimal (significand : Nat) (exponent : Int) : Nat × Int :=
  let i := roundingInterval significand exponent
  i.shortestFrom 20 (leadingPlace i.value i.den)

def positional (digits : Nat) (place : Int) : String :=
  if 0 ≤ place then toString (digits * Nat.pow 10 place.toNat) ++ ".0"
  else
    let places := (-place).toNat
    let text := Nat.toDigits 10 digits
    let padded := List.replicate (places + 1 - text.length) '0' ++ text
    let whole := padded.take (padded.length - places)
    String.ofList (whole ++ '.' :: padded.drop (padded.length - places))

def sign (negative : Bool) : String := if negative then "-" else ""

def display : Binary64 → String
  | nan => "NaN"
  | infinite negative => sign negative ++ "inf"
  | finite negative 0 _ => sign negative ++ "0.0"
  | finite negative significand exponent =>
      let (digits, place) := shortestDecimal significand exponent
      sign negative ++ positional digits place

end ProbeLowering.Binary64
