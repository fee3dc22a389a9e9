import RequestPlan.Text.Utf8

/-!
# Texts of query strings

* `decodeQuery`: a name or value of a query string as it was meant: `+` is a blank and `%`
  with two hexadecimal digits an octet. A `%` without them stands for itself.
-/

namespace RequestPlan.Text

/-- The value of a hexadecimal digit. -/
def hexValue? (b : Nat) : Option Nat :=
  if 0x30 ≤ b ∧ b ≤ 0x39 then some (b - 0x30)
  else if 0x41 ≤ b ∧ b ≤ 0x46 then some (b - 0x37)
  else if 0x61 ≤ b ∧ b ≤ 0x66 then some (b - 0x57)
  else none

/-- The octet that two hexadecimal digits spell. -/
def hexOctet? (high low : Nat) : Option Nat := do
  return 16 * (← hexValue? high) + (← hexValue? low)

/-- The octets with those that are spelled in hexadecimal digits. -/
def percentDecode : List Nat → List Nat
  | [] => []
  | [a] => [a]
  | [a, b] => [a, b]
  | a :: b :: c :: bs =>
    if a = 0x25 then
      match hexOctet? b c with
      | some octet => octet :: percentDecode bs
      | none => a :: percentDecode (b :: c :: bs)
    else a :: percentDecode (b :: c :: bs)

/-- A name or value of a query string as it was meant. -/
def decodeQuery (cs : List Char) : List Char :=
  Utf8.decode (percentDecode (Utf8.encode (cs.map fun c => if c = '+' then ' ' else c)))

end RequestPlan.Text
