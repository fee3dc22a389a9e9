import RequestPlan.Decimal.Binary

/-!
# The fewest digits that read back

A magnitude `m · 2 ^ q` is what every real number closer to it than to the floats
around it rounds to, and the ends of that interval do so when `m` is even.

* `shortest`: the decimal with the fewest digits in the interval, and of those the
  one nearest to the magnitude.
-/

namespace RequestPlan.Decimal

/-- Which of two equally near decimals is taken. -/
inductive Tie where
  | up
  | even

/-- The decimal number `coefficient · 10 ^ exponent`. -/
structure Scientific where
  coefficient : Nat
  exponent : Int

/-- The interval that rounds to a magnitude, all over one denominator. -/
structure Interval where
  low : Nat
  middle : Nat
  high : Nat
  denominator : Nat
  closed : Bool

/-- The interval of a magnitude, in quarters of its unit in the last place. -/
def Interval.of (m : Magnitude) : Interval :=
  let q := m.exponent - 2
  let scale := Nat.pow 2 q.toNat
  let mid := 4 * m.mantissa
  { low := (mid - if m.closeBelow then 1 else 2) * scale
    middle := mid * scale
    high := (mid + 2) * scale
    denominator := Nat.pow 2 (-q).toNat
    closed := m.mantissa % 2 == 0 }

/-- The interval measured in units of `10 ^ e`. -/
def Interval.scaled (i : Interval) (e : Int) : Interval :=
  let up := Nat.pow 10 (-e).toNat
  { i with
    low := i.low * up
    middle := i.middle * up
    high := i.high * up
    denominator := i.denominator * Nat.pow 10 e.toNat }

/-- Whether an integer lies in the interval. -/
def Interval.has (i : Interval) (n : Nat) : Bool :=
  let x := n * i.denominator
  if i.closed then i.low ≤ x && x ≤ i.high else i.low < x && x < i.high

/-- The integer of the interval nearest to its middle, among the two neighbours of it. -/
def Interval.nearest? (tie : Tie) (i : Interval) : Option Nat :=
  let below := i.middle / i.denominator
  let above := below + 1
  match i.has below, i.has above with
  | false, false => none
  | true, false => some below
  | false, true => some above
  | true, true =>
    let down := i.middle - below * i.denominator
    let up := above * i.denominator - i.middle
    if down < up then some below
    else if up < down then some above
    else
      match tie with
      | .up => some above
      | .even => some (if below % 2 == 0 then below else above)

/-- The number of digits before the decimal point, negative when zeros follow it. -/
def Interval.pointPosition (i : Interval) : Int :=
  ((Nat.toDigits 10 (i.middle * Nat.pow 10 330 / i.denominator)).length : Int) - 330

/-- The decimal without zeros at the end of its coefficient. -/
def Scientific.reduced (s : Scientific) : Nat → Scientific
  | 0 => s
  | fuel + 1 =>
    if s.coefficient % 10 == 0 then
      Scientific.reduced ⟨s.coefficient / 10, s.exponent + 1⟩ fuel
    else s

/-- The decimal with the fewest digits that reads back as a magnitude other than zero:
each grid of powers of ten is tried, the coarsest first. -/
def shortest (tie : Tie) (m : Magnitude) : Scientific :=
  let i := Interval.of m
  let point := i.pointPosition
  let found := (List.range 17).findSome? fun (k : Nat) =>
    let e : Int := point - 1 - (k : Int)
    ((i.scaled e).nearest? tie).map fun n => Scientific.mk n e
  (found.getD ⟨m.mantissa, m.exponent⟩).reduced 18

end RequestPlan.Decimal
