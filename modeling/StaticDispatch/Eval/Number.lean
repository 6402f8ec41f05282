import StaticDispatch.Eval.State
import StaticDispatch.Decimal.Remainder

/-!
# Numbers

The methods of integers and decimals.  Integers have 64 bits.  Sums, differences,
products and powers wrap around; a quotient, a remainder or a negation that has
no place in 64 bits ends the evaluation.  A quotient that is not whole is a
decimal, and a decimal operand makes the result a decimal.
-/

namespace StaticDispatch.Number

/-- The product of `exponent` factors, from its `bits` lowest bits. -/
def powerBits : Nat → UInt64 → Nat → UInt64
  | 0, _, _ => 1
  | bits + 1, base, exponent =>
    let rest := powerBits bits (base * base) (exponent / 2)
    if exponent % 2 = 1 then base * rest else rest

def wrappingPower (base : Int64) (exponent : Nat) : Int64 :=
  (powerBits 32 base.toUInt64 exponent).toInt64

def power (a b : Int64) : Value :=
  if 0 ≤ b.toInt ∧ b.toInt < 0x100000000 then .int (wrappingPower a b.toInt.toNat)
  else .decimal ((Decimal.ofInt64 a).power (.ofInt64 b))

/-- Only the lowest six bits of a distance count. -/
def shiftDistance (b : Int64) : Int64 :=
  b &&& 63

def unsignedShift (a b : Int64) : Int64 :=
  (a.toUInt64 >>> (shiftDistance b).toUInt64).toInt64

/-- Whether the quotient has no place in 64 bits. -/
def overflows (a b : Int64) : Bool :=
  a == Int64.minValue && b == -1

/-- The least integer has no negation. -/
def negate (n : Int64) : Except Halt Value :=
  if n = Int64.minValue then .error .aborted else .ok (.int (-n))

def divide (a b : Int64) : Except Halt Value :=
  if b = 0 then .error (.failed .divisionByZero)
  else if overflows a b then .error .aborted
  else if a % b = 0 then .ok (.int (a / b))
  else .ok (.decimal (.ofInt64 a / .ofInt64 b))

/-- The remainder that is never negative. -/
def modulo (a b : Int64) : Except Halt Value :=
  if b = 0 then .error (.failed .divisionByZero)
  else if overflows a b then .error .aborted
  else .ok (.int (Int64.ofInt (a.toInt % b.toInt)))

/-! ## Orderings -/

def orderingToInt : Ordering → Int64
  | .lt => -1
  | .eq => 0
  | .gt => 1

def compareInts (a b : Int64) : Ordering :=
  compare a.toInt b.toInt

/-- A NaN has no place in the order. -/
def compareDecimals (a b : Decimal) : Except Halt Ordering :=
  match a.compare? b with
  | some ordering => .ok ordering
  | none => .error (.failed .unordered)

/-! ## Methods -/

def intMethod (name : String) (a b : Int64) : Except Halt Value :=
  match name with
  | "plus" => .ok (.int (a + b))
  | "minus" => .ok (.int (a - b))
  | "multiply" => .ok (.int (a * b))
  | "div" => divide a b
  | "mod" => modulo a b
  | "power" => .ok (power a b)
  | "leftShift" => .ok (.int (a <<< shiftDistance b))
  | "rightShift" => .ok (.int (a >>> shiftDistance b))
  | "rightShiftUnsigned" => .ok (.int (unsignedShift a b))
  | "and" => .ok (.int (a &&& b))
  | "or" => .ok (.int (a ||| b))
  | "xor" => .ok (.int (a ^^^ b))
  | "compareTo" => .ok (.int (orderingToInt (compareInts a b)))
  | other => .error (.failed (.noNumberMethod "Integer" other))

def decimalMethod (name : String) (a b : Decimal) : Except Halt Value :=
  match name with
  | "plus" => .ok (.decimal (a + b))
  | "minus" => .ok (.decimal (a - b))
  | "multiply" => .ok (.decimal (a * b))
  | "div" => .ok (.decimal (a / b))
  | "mod" => .ok (.decimal (a.remainder b))
  | "power" => .ok (.decimal (a.power b))
  | "compareTo" => (compareDecimals a b).map fun ordering => .int (orderingToInt ordering)
  | other => .error (.failed (.noNumberMethod "BigDecimal" other))

def toDecimal : Value → Except Halt Decimal
  | .int n => .ok (.ofInt64 n)
  | .decimal d => .ok d
  | other => .error (.failed (.notANumber other.kindName))

/-- A method of one argument of a number. -/
def numberMethod (name : String) (left right : Value) : Except Halt Value :=
  match left, right with
  | .int a, .int b => intMethod name a b
  | _, _ => do
    let a ← toDecimal left
    let b ← toDecimal right
    decimalMethod name a b

end StaticDispatch.Number
