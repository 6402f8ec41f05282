import StaticDispatch.Decimal.Parts

/-!
# Remainders of doubles

The remainder of a division that truncates toward zero.  It is exact: the two
significands are brought to one exponent and divided as whole numbers.  The
sign is that of the dividend, also on a zero.
-/

namespace StaticDispatch.Decimal

def remainder (a b : Decimal) : Decimal :=
  match a.parts, b.parts with
  | .nan, _ | _, .nan | .infinite _, _ => notANumber
  | .finite _ _ _, .infinite _ => a
  | .finite negative m p, .finite _ n q =>
    if n = 0 then notANumber
    else
      let least := min p q
      let rest := (m * Nat.pow 2 (p - least).toNat) % (n * Nat.pow 2 (q - least).toNat)
      ofFinite negative rest least

end StaticDispatch.Decimal
