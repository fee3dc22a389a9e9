/-!
# Reading numbers

* `readInt64?`: an optional sign and digits, in the range of 64-bit integers.
* `readFloat?`: a decimal number with optional point and exponent, or the name of
  infinity or of what is no number, correctly rounded.
-/

namespace RequestPlan.Decimal

/-- A sign in front of the characters: whether it is a minus, and the rest. -/
def splitSign : List Char → Bool × List Char
  | '-' :: cs => (true, cs)
  | '+' :: cs => (false, cs)
  | cs => (false, cs)

/-- The number that decimal digits spell. -/
def digitsValue (ds : List Char) : Nat :=
  ds.foldl (fun n c => 10 * n + (c.toNat - '0'.toNat)) 0

/-- The number spelled by digits alone, at least one of them. -/
def readNat? (cs : List Char) : Option Nat :=
  if cs ≠ [] ∧ cs.all Char.isDigit = true then some (digitsValue cs) else none

/-- The integer as a 64-bit word, if it fits. -/
def int64? (n : Int) : Option Int64 :=
  if Int64.minValue.toInt ≤ n ∧ n ≤ Int64.maxValue.toInt then some (Int64.ofInt n) else none

theorem int64?_toInt (n : Int64) : int64? n.toInt = some n := by
  have hrange : Int64.minValue.toInt ≤ n.toInt ∧ n.toInt ≤ Int64.maxValue.toInt :=
    ⟨n.minValue_le_toInt, n.toInt_le⟩
  rw [int64?, if_pos hrange, Int64.ofInt_toInt]

/-- An integer with an optional sign, in the range of 64-bit integers. -/
def readInt64? (s : String) : Option Int64 :=
  let (negative, cs) := splitSign s.toList
  (readNat? cs).bind fun n => int64? (if negative then -(n : Int) else n)

/-- The float nearest to `m · 10 ^ e`, for exponents of any size. -/
def ofScientific (m : Nat) (e : Int) : Float :=
  if m = 0 then 0.0
  else
    let point := ((Nat.toDigits 10 m).length : Int) + e
    if point > 400 then Float.ofBits 0x7FF0000000000000
    else if point < -400 then 0.0
    else Float.ofScientific m (e < 0) e.natAbs

/-- An exponent behind its mark, with an optional sign. -/
def readExponent? (cs : List Char) : Option Int :=
  let (negative, ds) := splitSign cs
  (readNat? ds).map fun n => if negative then -(n : Int) else n

/-- The magnitude of a float: digits around an optional point, and an exponent. -/
def readMagnitude? (cs : List Char) : Option Float :=
  let whole := cs.takeWhile Char.isDigit
  let rest := cs.dropWhile Char.isDigit
  let (fraction, rest) := match rest with
    | '.' :: r => (r.takeWhile Char.isDigit, r.dropWhile Char.isDigit)
    | r => ([], r)
  if whole.isEmpty && fraction.isEmpty then none
  else
    let exponent? : Option Int := match rest with
      | [] => some 0
      | c :: r => if c = 'e' || c = 'E' then readExponent? r else none
    exponent?.map fun e => ofScientific (digitsValue (whole ++ fraction)) (e - fraction.length)

/-- A float with an optional sign. -/
def readFloat? (s : String) : Option Float :=
  let (negative, cs) := splitSign s.toList
  let word := String.ofList (cs.map Char.toLower)
  let magnitude? :=
    if word = "inf" || word = "infinity" then some (Float.ofBits 0x7FF0000000000000)
    else if word = "nan" then some (Float.ofBits 0x7FF8000000000000)
    else readMagnitude? cs
  magnitude?.map fun x => if negative then -x else x

end RequestPlan.Decimal
