import StaticDispatch.Decimal.Shortest

/-!
# Written decimals

The text of a double: its shortest digits, positional or with an exponent.
The printer of trees and the text of values differ in where the exponent
begins and in whether a whole number carries a fraction.
-/

namespace StaticDispatch.Decimal

structure Layout where
  /-- The exponents of the first digit that are written positionally; any without one. -/
  positional : Option (Int × Int)
  /-- Whether a whole number written positionally ends in `.0`. -/
  wholeFraction : Bool

/-- A decimal literal in a printed tree: an exponent below one ten-thousandth and from
ten to the sixteenth on, and always a sign that it is no integer. -/
def Layout.literal : Layout :=
  { positional := some (-4, 15), wholeFraction := true }

/-- The text of a decimal value: never an exponent, and a whole number as such. -/
def Layout.value : Layout :=
  { positional := none, wholeFraction := false }

def zeros (n : Nat) : String :=
  String.ofList (List.replicate n '0')

/-- All digits in their places around the point. -/
def positionalText (layout : Layout) (digits : String) (power : Int) : String :=
  let count : Int := digits.length
  if 0 ≤ power then
    digits ++ zeros power.toNat ++ (if layout.wholeFraction then ".0" else "")
  else if 0 < count + power then
    let whole := (count + power).toNat
    (digits.take whole).toString ++ "." ++ (digits.drop whole).toString
  else
    "0." ++ zeros (-(count + power)).toNat ++ digits

/-- One digit before the point, and the exponent of that digit. -/
def exponentText (digits : String) (exponent : Int) : String :=
  let fraction := (digits.drop 1).toString
  (digits.take 1).toString ++ (if fraction.isEmpty then "" else "." ++ fraction)
    ++ "e" ++ toString exponent

def magnitudeText (layout : Layout) (significand : Nat) (exponent : Int) : String :=
  if significand = 0 then
    if layout.wholeFraction then "0.0" else "0"
  else
    let (count, power) := shortest significand exponent
    let digits := toString count
    let leading := power + digits.length - 1
    match layout.positional with
    | none => positionalText layout digits power
    | some (least, greatest) =>
      if least ≤ leading ∧ leading ≤ greatest then positionalText layout digits power
      else exponentText digits leading

def sign (negative : Bool) : String :=
  if negative then "-" else ""

def Layout.text (layout : Layout) (d : Decimal) : String :=
  match d.parts with
  | .nan => "NaN"
  | .infinite negative => sign negative ++ "inf"
  | .finite negative significand exponent =>
    sign negative ++ magnitudeText layout significand exponent

end StaticDispatch.Decimal
