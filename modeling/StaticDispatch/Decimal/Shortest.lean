import StaticDispatch.Decimal.Parts

/-!
# The shortest decimal that reads back

The decimal with the fewest digits among those that are read as a given
double, and of these the nearest to it.  It is found on the coarsest grid of
multiples of a power of ten that meets the interval of numbers rounding to
the double; if a grid meets the interval at all, one of the two grid points
next to the double lies in it.
-/

namespace StaticDispatch.Decimal

/-- The numbers that round to a double, over a common denominator: the double is
`value / scale`, and the ends belong to the interval when `closed`. -/
structure Interval where
  low : Nat
  value : Nat
  high : Nat
  scale : Nat
  closed : Bool
deriving Repr

/-- The interval of a positive double.  The neighbour below is half as far away as the
one above where the significand is the least of its binade. -/
def Interval.ofFinite (significand : Nat) (exponent : Int) : Interval :=
  let gapBelow :=
    if significand = Nat.pow 2 significandBits ∧ exponent ≠ leastExponent then 1 else 2
  let up := Nat.pow 2 (exponent - 2).toNat
  { low := (4 * significand - gapBelow) * up
    value := 4 * significand * up
    high := (4 * significand + 2) * up
    scale := Nat.pow 2 (2 - exponent).toNat
    closed := significand % 2 = 0 }

/-- Whether `count * 10 ^ power` lies in the interval. -/
def Interval.meets (i : Interval) (power : Int) (count : Nat) : Bool :=
  let point := count * Nat.pow 10 power.toNat * i.scale
  let unit := Nat.pow 10 (-power).toNat
  if i.closed then i.low * unit ≤ point && point ≤ i.high * unit
  else i.low * unit < point && point < i.high * unit

/-- The multiple of `10 ^ power` nearest to the double among those in the interval; of
two at the same distance the greater. -/
def Interval.nearest? (i : Interval) (power : Int) : Option Nat :=
  let unit := Nat.pow 10 (-power).toNat
  let step := Nat.pow 10 power.toNat * i.scale
  let count := i.value * unit / step
  let rest := i.value * unit % step
  match i.meets power count, i.meets power (count + 1) with
  | true, true => some (if 2 * rest < step then count else count + 1)
  | true, false => some count
  | false, true => some (count + 1)
  | false, false => none

/-- The first grid that meets the interval, from `10 ^ power` downwards. -/
def Interval.coarsest (i : Interval) : Nat → Int → Nat × Int
  | 0, power => (0, power)
  | fuel + 1, power =>
    match i.nearest? power with
    | some count => (count, power)
    | none => i.coarsest fuel (power - 1)

/-- The greatest power of ten below the largest double. -/
def greatestPower : Int := 308

/-- Digits and power of ten of the shortest decimal of a positive double.  The grid of
`10 ^ -324` meets every interval. -/
def shortest (significand : Nat) (exponent : Int) : Nat × Int :=
  (Interval.ofFinite significand exponent).coarsest 633 greatestPower

end StaticDispatch.Decimal
