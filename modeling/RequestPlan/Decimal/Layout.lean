import RequestPlan.Decimal.Shortest

/-!
# Writing floats

* `Layout.text`: a float written with the fewest digits that read back, in one of the
  layouts in use.
* `Layout.tagged`, `Layout.plain`, `Layout.json`: the three layouts.
-/

namespace RequestPlan.Decimal

/-- How a float is spelled once its digits are known. -/
structure Layout where
  tie : Tie
  /-- The point positions written without an exponent; all of them when absent. -/
  positional : Option (Int × Int)
  /-- Whether an integer is written with `.0`. -/
  fraction : Bool
  /-- Whether an exponent has a sign always, and not only below zero. -/
  signedExponent : Bool
  nan : String
  infinity : String
  negativeInfinity : String

/-- The exponent of a float in scientific notation. -/
def Layout.exponent (l : Layout) (e : Int) : List Char :=
  let ds := Nat.toDigits 10 e.natAbs
  if e < 0 then '-' :: ds else if l.signedExponent then '+' :: ds else ds

/-- Digits with a point in them, or with an exponent behind them. -/
def Layout.spell (l : Layout) (s : Scientific) : List Char :=
  let ds := Nat.toDigits 10 s.coefficient
  let point := (ds.length : Int) + s.exponent
  let within := match l.positional with
    | none => true
    | some (low, high) => low < point && point ≤ high
  if within then
    if 0 ≤ s.exponent then
      ds ++ List.replicate s.exponent.toNat '0' ++ (if l.fraction then ['.', '0'] else [])
    else if 0 < point then
      ds.take point.toNat ++ '.' :: ds.drop point.toNat
    else
      '0' :: '.' :: List.replicate (-point).toNat '0' ++ ds
  else
    let exponent := l.exponent (point - 1)
    match ds with
    | [d] => d :: 'e' :: exponent
    | d :: rest => d :: '.' :: rest ++ 'e' :: exponent
    | [] => []

/-- The text of a float. -/
def Layout.text (l : Layout) (x : Float) : String :=
  match Binary.ofFloat x with
  | .nan => l.nan
  | .infinite true => l.negativeInfinity
  | .infinite false => l.infinity
  | .finite negative m =>
    let body :=
      if m.mantissa = 0 then (if l.fraction then ['0', '.', '0'] else ['0'])
      else l.spell (shortest l.tie m)
    String.ofList (if negative then '-' :: body else body)

/-- Floats with a point or an exponent, so that they differ from integers. -/
def Layout.tagged : Layout := ⟨.up, some (-4, 16), true, false, "NaN", "inf", "-inf"⟩

/-- Floats without an exponent; integers are written as such. -/
def Layout.plain : Layout := ⟨.up, none, false, false, "NaN", "inf", "-inf"⟩

/-- Floats in JSON, which has no text for what is not finite but `null`. -/
def Layout.json : Layout := ⟨.even, some (-5, 16), true, true, "null", "null", "null"⟩

end RequestPlan.Decimal
