import StaticDispatch.Yaml.Flow

/-!
# Implicit types

The texts that a plain scalar reads as null, a truth value or a number.  A
string with such a text has to be quoted.
-/

namespace StaticDispatch.Yaml

def nullWords : List String := ["null", "Null", "NULL", "~"]

def isNull (text : String) : Bool :=
  text.isEmpty || nullWords.contains text

def booleanWords : List String :=
  ["true", "True", "TRUE", "false", "False", "FALSE"]

/-! ## Numbers -/

def digitsValue? (base : Nat) (digits : List Char) : Option Nat :=
  if digits.isEmpty then none
  else
    digits.foldlM
      (fun value c => (Hexadecimal.digit? c).bind fun digit =>
        if digit < base then some (base * value + digit) else none) 0

/-- Whether a number is below a bound, if it is one. -/
def isBelow (bound : Nat) (value : Option Nat) : Bool :=
  value.any (· < bound)

/-- An integer after `0x`, `0o` or `0b`, in two's complement of 128 bits if it is negative. -/
def isBasedInteger (text : List Char) : Bool :=
  let negative := text.head? = some '-'
  let unsigned := if negative || text.head? = some '+' then text.drop 1 else text
  let bound := if negative then Nat.pow 2 127 + 1 else Nat.pow 2 128
  match unsigned with
  | '0' :: 'x' :: digits => isBelow bound (digitsValue? 16 digits)
  | '0' :: 'o' :: digits => isBelow bound (digitsValue? 8 digits)
  | '0' :: 'b' :: digits => isBelow bound (digitsValue? 2 digits)
  | _ => false

def withoutSign (text : List Char) : List Char :=
  if text.head? = some '-' || text.head? = some '+' then text.drop 1 else text

/-- Digits with a zero before them, which are no number. -/
def isZeroPadded (text : List Char) : Bool :=
  match withoutSign text with
  | '0' :: c :: rest => (c :: rest).all Char.isDigit
  | _ => false

/-- A decimal number `significand * 10 ^ exponent`. -/
structure DecimalNumber where
  significand : Nat
  exponent : Int
deriving DecidableEq, Repr

/-- The exponent that a number ends in, which may be missing. -/
def exponentOf? : List Char → Option Int
  | [] => some 0
  | c :: rest =>
    if c == 'e' || c == 'E' then
      (digitsValue? 10 (withoutSign rest)).map fun n =>
        if rest.head? = some '-' then -(n : Int) else n
    else none

/-- Reads digits with an optional point among them and an optional exponent. -/
def DecimalNumber.ofText? (text : List Char) : Option DecimalNumber :=
  let whole := text.takeWhile Char.isDigit
  let rest := text.drop whole.length
  let (fraction, rest) := match rest with
    | '.' :: rest => (rest.takeWhile Char.isDigit, rest.dropWhile Char.isDigit)
    | rest => ([], rest)
  match digitsValue? 10 (whole ++ fraction), exponentOf? rest with
  | some significand, some exponent =>
    some { significand, exponent := exponent - fraction.length }
  | _, _ => none

/-- The least number that rounds to no finite double. -/
def overflowBound : Nat := Nat.pow 2 1024 - Nat.pow 2 970

/-- Whether the nearest double is finite.  Numbers far from the bound are told by their
count of digits. -/
def DecimalNumber.isFinite (n : DecimalNumber) : Bool :=
  let digits : Int := (Nat.toDigits 10 n.significand).length
  if n.significand = 0 || digits + n.exponent ≤ 308 then true
  else if 310 ≤ digits + n.exponent then false
  else if 0 ≤ n.exponent then n.significand * Nat.pow 10 n.exponent.toNat < overflowBound
  else n.significand < overflowBound * Nat.pow 10 (-n.exponent).toNat

def infinityWords : List String := [".inf", ".Inf", ".INF"]

def nanWords : List String := [".nan", ".NaN", ".NAN"]

def isFloat (text : List Char) : Bool :=
  infinityWords.contains (String.ofList (withoutSign text))
    || nanWords.contains (String.ofList text)
    || (DecimalNumber.ofText? (withoutSign text)).any DecimalNumber.isFinite

/-- Whether a string with this text is written between quotes. -/
def isImplicit (text : String) : Bool :=
  isNull text || booleanWords.contains text || isBasedInteger text.toList
    || isZeroPadded text.toList || isFloat text.toList

end StaticDispatch.Yaml
