/-!
# Binary floating-point numbers as integers

* `Binary.ofFloat`: a float is not a number, infinite, or a signed integer multiple of
  a power of two.
-/

namespace RequestPlan.Decimal

/-- The magnitude `mantissa · 2 ^ exponent` of a finite float. -/
structure Magnitude where
  mantissa : Nat
  exponent : Int
  /-- The float below is half as far away as the one above. -/
  closeBelow : Bool

/-- What a float stands for. -/
inductive Binary where
  | nan
  | infinite (negative : Bool)
  | finite (negative : Bool) (magnitude : Magnitude)

/-- The float read from its bits: sign, eleven bits of exponent, 52 bits of fraction. -/
def Binary.ofFloat (x : Float) : Binary :=
  let bits := x.toBits.toNat
  let negative := bits / Nat.pow 2 63 == 1
  let biased : Nat := bits / Nat.pow 2 52 % Nat.pow 2 11
  let fraction : Nat := bits % Nat.pow 2 52
  if biased == 2047 then
    if fraction == 0 then .infinite negative else .nan
  else if biased == 0 then
    .finite negative ⟨fraction, -1074, false⟩
  else
    .finite negative ⟨Nat.pow 2 52 + fraction, (biased : Int) - 1075, fraction == 0 && biased > 1⟩

end RequestPlan.Decimal
