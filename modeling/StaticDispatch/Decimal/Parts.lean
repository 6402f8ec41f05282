import StaticDispatch.Decimal.Basic

/-!
# Parts of a double

A double as a sign, a whole significand and a power of two, and back.  Exact
arithmetic on doubles is done on these parts.
-/

namespace StaticDispatch.Decimal

/-- A finite double is `significand * 2 ^ exponent`, negated if `negative`. -/
inductive Parts where
  | nan
  | infinite (negative : Bool)
  | finite (negative : Bool) (significand : Nat) (exponent : Int)
deriving DecidableEq, Repr

/-- Number of stored bits of the significand. -/
def significandBits : Nat := 52

/-- The power of two that the subnormal doubles share. -/
def leastExponent : Int := -1074

/-- Reads the sign, the eleven exponent bits and the 52 significand bits. -/
def Parts.ofBits (bits : UInt64) : Parts :=
  let n := bits.toNat
  let negative := n / Nat.pow 2 63 == 1
  let biased := n / Nat.pow 2 significandBits % Nat.pow 2 11
  let fraction := n % Nat.pow 2 significandBits
  if biased = 2047 then
    if fraction = 0 then .infinite negative else .nan
  else if biased = 0 then
    .finite negative fraction leastExponent
  else
    .finite negative (Nat.pow 2 significandBits + fraction) (leastExponent + (biased - 1 : Nat))

def parts (d : Decimal) : Parts :=
  Parts.ofBits d.bits

/-- The bits of the double `significand * 2 ^ exponent`, when it is one: the leading bit
of the significand is moved to its stored place, as far as the exponent allows. -/
def finiteBits (negative : Bool) (significand : Nat) (exponent : Int) : UInt64 :=
  let shift := min ((significandBits : Int) - significand.log2) (exponent - leastExponent)
  let stored :=
    if 0 ≤ shift then significand <<< shift.toNat else significand >>> (-shift).toNat
  let biased := (exponent - shift - leastExponent + 1).toNat
  let magnitude :=
    if stored < Nat.pow 2 significandBits then stored
    else biased * Nat.pow 2 significandBits + (stored - Nat.pow 2 significandBits)
  UInt64.ofNat ((if negative then Nat.pow 2 63 else 0) + magnitude)

def ofFinite (negative : Bool) (significand : Nat) (exponent : Int) : Decimal :=
  ⟨finiteBits negative significand exponent⟩

end StaticDispatch.Decimal
