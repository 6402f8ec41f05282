/-!
# Decimals

A decimal number is a double, kept as its 64 bits.  Arithmetic answers one and
the same NaN, but the bits of a NaN that was written down stay as they are, and
with them whether it signals: a quiet NaN to the power of zero is one, and a
signalling NaN has no power but NaN.
-/

namespace StaticDispatch

structure Decimal where
  bits : UInt64
deriving DecidableEq, Repr, Inhabited

namespace Decimal

def ofFloat (x : Float) : Decimal :=
  ⟨x.toBits⟩

def toFloat (d : Decimal) : Float :=
  Float.ofBits d.bits

/-- The nearest decimal to an integer. -/
def ofInt64 (n : Int64) : Decimal :=
  ofFloat n.toFloat

def zero : Decimal := ⟨0⟩

/-- The quiet NaN that arithmetic answers. -/
def notANumber : Decimal := ⟨0x7FF8000000000000⟩

/-! ## Kinds -/

/-- The bits without the sign. -/
def magnitude (d : Decimal) : UInt64 :=
  d.bits &&& 0x7FFFFFFFFFFFFFFF

/-- Whether it is one of the two zeros. -/
def isZero (d : Decimal) : Bool :=
  d.magnitude == 0

/-- The bits of a NaN come after those of infinity. -/
def isNaN (d : Decimal) : Bool :=
  0x7FF0000000000000 < d.magnitude

/-- A NaN signals when the leading bit of its significand is clear. -/
def isSignalling (d : Decimal) : Bool :=
  d.isNaN && d.bits &&& 0x0008000000000000 == 0

/-! ## Arithmetic -/

/-- Negation turns the sign bit, also of a NaN. -/
instance : Neg Decimal := ⟨fun d => ⟨d.bits ^^^ 0x8000000000000000⟩⟩

instance : Add Decimal := ⟨fun a b => ofFloat (a.toFloat + b.toFloat)⟩

instance : Sub Decimal := ⟨fun a b => ofFloat (a.toFloat - b.toFloat)⟩

instance : Mul Decimal := ⟨fun a b => ofFloat (a.toFloat * b.toFloat)⟩

instance : Div Decimal := ⟨fun a b => ofFloat (a.toFloat / b.toFloat)⟩

/-- The power, which is one also for a quiet NaN where it is so for every number. -/
def power (a b : Decimal) : Decimal :=
  if a.isSignalling || b.isSignalling then notANumber
  else ofFloat (Float.pow a.toFloat b.toFloat)

/-! ## Comparison -/

/-- Equality of numbers: the two zeros are equal, and a NaN equals nothing. -/
def equals (a b : Decimal) : Bool :=
  a.toFloat == b.toFloat

/-- The order of two numbers; a NaN has no place in it. -/
def compare? (a b : Decimal) : Option Ordering :=
  if a.toFloat < b.toFloat then some .lt
  else if b.toFloat < a.toFloat then some .gt
  else if a.equals b then some .eq
  else none

end Decimal

end StaticDispatch
