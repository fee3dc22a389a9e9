import RequestPlan.Json.Basic
import RequestPlan.Decimal.Reader

/-!
# Tokens of a JSON text

* `Json.tokens?`: the brackets, separators and scalars that a text consists of. A number
  or string that is spelled without a fault is a token even when it has no value.
* `Json.readNumber?`: the value of a number. Digits are gathered into 64 bits; what
  does not fit only moves the exponent, and the product with the power of ten is
  rounded once more.
-/

namespace RequestPlan.Json

/-- A bracket or separator, a string or another scalar. -/
inductive Token where
  | mark (c : Char)
  /-- A string, or none when it has half of a surrogate pair. -/
  | text (s : Option String)
  | scalar (value : Json)

/-- The value `significand · 10 ^ e`: the power of ten is taken in steps that a float
can hold, and a result out of range is no number. -/
def scaled? (x : Float) (e : Int) : Option Float :=
  if h : e < -308 then
    if x == 0.0 then some x else scaled? (x / Decimal.ofScientific 1 308) (e + 308)
  else if e < 0 then some (x / Decimal.ofScientific 1 e.natAbs)
  else if e ≤ 308 then
    let y := x * Decimal.ofScientific 1 e
    if y.isInf then none else some y
  else if x == 0.0 then some x
  else none
termination_by e.natAbs
decreasing_by omega

/-- The float of a sign, a significand and an exponent. -/
def floatNumber (negative : Bool) (significand : Nat) (e : Int) : Json :=
  match scaled? significand.toFloat e with
  | some x => .number (.float (if negative then -x else x))
  | none => .unreadable

/-- Digits gathered as long as they fit into 64 bits: the significand, how many were
taken, and those that were not. -/
def gather (significand : Nat) : List Char → Nat × Nat × List Char
  | [] => (significand, 0, [])
  | c :: cs =>
    if c.isDigit then
      let next := 10 * significand + (c.toNat - '0'.toNat)
      if next < UInt64.size then
        let (s, taken, rest) := gather next cs
        (s, taken + 1, rest)
      else (significand, 0, c :: cs)
    else (significand, 0, c :: cs)

/-- The end of a number: nothing, or an exponent that is added to the one so far. -/
def readExponent? (negative : Bool) (significand : Nat) (e : Int) (cs : List Char) :
    Option Json :=
  match cs with
  | [] => some (floatNumber negative significand e)
  | c :: cs =>
    if c = 'e' || c = 'E' then
      let (down, ds) := Decimal.splitSign cs
      (Decimal.readNat? ds).map fun n =>
        if n < Nat.pow 2 31 then
          floatNumber negative significand (if down then e - (n : Int) else e + n)
        else if significand = 0 || down then
          .number (.float (if negative then -0.0 else 0.0))
        else .unreadable
    else none

/-- The digits behind the point, at least one of them. -/
def readFraction? (negative : Bool) (significand : Nat) (e : Int) (cs : List Char) :
    Option Json :=
  match cs with
  | c :: _ =>
    if c.isDigit then
      let (s, taken, rest) := gather significand cs
      readExponent? negative s (e - (taken : Int)) (rest.dropWhile Char.isDigit)
    else none
  | [] => none

/-- The integer of a sign and a significand of 64 bits, or the float when it is out of
the range of the signed ones. -/
def integerNumber (negative : Bool) (significand : Nat) : JsonNumber :=
  if !negative then .int significand
  else if 1 ≤ significand && significand ≤ Nat.pow 2 63 then .int (-(significand : Int))
  else .float (-significand.toFloat)

/-- The value of a number's characters, if they spell a number. -/
def readNumber? (cs : List Char) : Option Json :=
  let (negative, cs) := match cs with
    | '-' :: cs => (true, cs)
    | cs => (false, cs)
  match cs with
  | [] => none
  | first :: more =>
    if !first.isDigit then none
    else if first = '0' && (more.head?.map Char.isDigit).getD false then none
    else
      let (s, _, rest) := gather 0 cs
      let extra := rest.takeWhile Char.isDigit
      let rest := rest.dropWhile Char.isDigit
      match rest with
      | [] =>
        if extra.isEmpty then some (.number (integerNumber negative s))
        else some (floatNumber negative s extra.length)
      | '.' :: fraction => readFraction? negative s extra.length fraction
      | rest => readExponent? negative s extra.length rest

/-- What the scanner is inside of; characters read so far are in reverse order, and those
of a string are dropped once it has half of a surrogate pair. -/
inductive Scan where
  | between
  | text (done : Option (List Char))
  | escape (done : Option (List Char))
  /-- Digits of a code unit, after the first unit of a pair if there was one. -/
  | code (done : Option (List Char)) (high : Option Nat) (digits : Nat) (value : Nat)
  /-- After the first unit of a pair. -/
  | pair (done : Option (List Char)) (high : Nat) (slash : Bool)
  | number (done : List Char)
  | word (done : List Char)

/-- The value of a hexadecimal digit. -/
def hexValue? (c : Char) : Option Nat :=
  let n := c.toNat
  if c.isDigit then some (n - '0'.toNat)
  else if 'a'.toNat ≤ n && n ≤ 'f'.toNat then some (n - 'a'.toNat + 10)
  else if 'A'.toNat ≤ n && n ≤ 'F'.toNat then some (n - 'A'.toNat + 10)
  else none

/-- The scanner after all digits of a code unit. -/
def Scan.ofUnit (done : Option (List Char)) (high : Option Nat) (unit : Nat) : Scan :=
  match high with
  | some h =>
    if 0xDC00 ≤ unit && unit ≤ 0xDFFF then
      .text (done.map (Char.ofNat (0x10000 + (h - 0xD800) * 0x400 + (unit - 0xDC00)) :: ·))
    else .text none
  | none =>
    if 0xD800 ≤ unit && unit ≤ 0xDBFF then .pair done unit false
    else if 0xDC00 ≤ unit && unit ≤ 0xDFFF then .text none
    else .text (done.map (Char.ofNat unit :: ·))

/-- Characters that numbers consist of. -/
def isNumberChar (c : Char) : Bool :=
  c.isDigit || c = '-' || c = '+' || c = '.' || c = 'e' || c = 'E'

/-- The word that a scan of lower-case letters has read. -/
def readWord? (done : List Char) : Option Json :=
  let w := String.ofList done.reverse
  if w = "null" then some .null
  else if w = "true" then some (.bool true)
  else if w = "false" then some (.bool false)
  else none

/-- A character between scalars. -/
def scanBetween? (c : Char) : Option (List Token × Scan) :=
  if c = ' ' || c = '\n' || c = '\t' || c = '\r' then some ([], .between)
  else if c = '"' then some ([], .text (some []))
  else if c = '-' || c.isDigit then some ([], .number [c])
  else if c.isLower then some ([], .word [c])
  else if c = '[' || c = ']' || c = '\x7b' || c = '\x7d' || c = ',' || c = ':' then
    some ([.mark c], .between)
  else none

/-- The scalar that ends here, if a number or a word was being read. -/
def Scan.finish? : Scan → Option (List Token)
  | .between => some []
  | .number done => (readNumber? done.reverse).map fun n => [.scalar n]
  | .word done => (readWord? done).map fun w => [.scalar w]
  | _ => none

/-- A character of a string. -/
def Scan.stepText? (done : Option (List Char)) (c : Char) : Option (List Token × Scan) :=
  if c = '"' then some ([.text (done.map fun cs => String.ofList cs.reverse)], .between)
  else if c = '\\' then some ([], .escape done)
  else if c.toNat < 0x20 then none
  else some ([], .text (done.map (c :: ·)))

/-- The character behind a backslash. -/
def Scan.stepEscape? (done : Option (List Char)) (c : Char) : Option (List Token × Scan) :=
  let one (d : Char) : Option (List Token × Scan) := some ([], .text (done.map (d :: ·)))
  match c with
  | '"' => one '"'
  | '\\' => one '\\'
  | '/' => one '/'
  | 'b' => one '\x08'
  | 'f' => one '\x0c'
  | 'n' => one '\n'
  | 'r' => one '\r'
  | 't' => one '\t'
  | 'u' => some ([], .code done none 0 0)
  | _ => none

/-- One character of the text. -/
def Scan.step? (s : Scan) (c : Char) : Option (List Token × Scan) :=
  match s with
  | .between => scanBetween? c
  | .text done => Scan.stepText? done c
  | .escape done => Scan.stepEscape? done c
  | .code done high digits value =>
    (hexValue? c).map fun v =>
      let value := 16 * value + v
      if digits = 3 then ([], Scan.ofUnit done high value)
      else ([], .code done high (digits + 1) value)
  | .pair done high false =>
    if c = '\\' then some ([], .pair done high true) else Scan.stepText? none c
  | .pair done high true =>
    if c = 'u' then some ([], .code done (some high) 0 0) else Scan.stepEscape? none c
  | .number done =>
    if isNumberChar c then some ([], .number (c :: done))
    else
      s.finish?.bind fun ts => (scanBetween? c).map fun p => (ts ++ p.1, p.2)
  | .word done =>
    if c.isLower then some ([], .word (c :: done))
    else
      s.finish?.bind fun ts => (scanBetween? c).map fun p => (ts ++ p.1, p.2)

/-- The tokens from a state of the scanner on. -/
def Scan.run? (s : Scan) : List Char → Option (List Token)
  | [] => s.finish?
  | c :: cs => (s.step? c).bind fun p => (p.2.run? cs).map (p.1 ++ ·)

/-- The tokens of a text. -/
def tokens? (s : String) : Option (List Token) := Scan.run? .between s.toList

end RequestPlan.Json
