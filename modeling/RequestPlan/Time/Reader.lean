import RequestPlan.Time.Instant
import RequestPlan.Decimal.Reader
import RequestPlan.Text.Blank

/-!
# Reading points in time

* `Instant.ofRfc3339?`: a date and time with an offset, by RFC 3339. A space may stand
  for the `T`, and digits beyond nanoseconds are dropped.
* `Instant.ofLocal?`: a date and time without an offset, or a date alone, in universal
  time. Blanks may stand in front of every number, and a year may have a sign.
* `Instant.read?`: any of them, or digits for seconds since 1970-01-01.
-/

namespace RequestPlan.Time

/-- A reader takes its value off the front of the characters. -/
abbrev Reader (α : Type) := List Char → Option (α × List Char)

/-- One given character. -/
def literal (c : Char) : Reader Unit
  | d :: cs => if c = d then some ((), cs) else none
  | [] => none

/-- As many digits as there are, up to `most`; at least `least` of them. -/
def digits (least most : Nat) : Reader Nat := fun cs =>
  let ds := (cs.take most).takeWhile Char.isDigit
  if least ≤ ds.length then some (Decimal.digitsValue ds, cs.drop ds.length) else none

/-- The fraction of a second in nanoseconds, behind a point if there is one. -/
def fraction : Reader Nat
  | '.' :: cs =>
    (digits 1 9 cs).map fun (n, rest) =>
      (n * Nat.pow 10 (9 - (cs.length - rest.length)), rest.dropWhile Char.isDigit)
  | cs => some (0, cs)

/-- The offset from universal time in seconds: `Z`, or a sign, hours and minutes below
a day. -/
def offset : Reader Int
  | [] => none
  | c :: cs =>
    if c = 'Z' || c = 'z' then some (0, cs)
    else
      let sign? : Option Int :=
        if c = '+' then some 1
        else if c = '-' || c.toNat = 0x2212 then some (-1)
        else none
      sign?.bind fun sign => do
        let (hours, cs) ← digits 2 2 cs
        let ((), cs) ← literal ':' cs
        let (minutes, cs) ← digits 2 2 cs
        if hours ≤ 23 ∧ minutes ≤ 59 then
          return (sign * (hours * 3600 + minutes * 60 : Nat), cs)
        else none

/-- A date, a time and an offset by RFC 3339. -/
def Instant.ofRfc3339? (s : String) : Option Instant := do
  let (year, cs) ← digits 4 4 s.toList
  let ((), cs) ← literal '-' cs
  let (month, cs) ← digits 2 2 cs
  let ((), cs) ← literal '-' cs
  let (day, cs) ← digits 2 2 cs
  let cs ← match cs with
    | 'T' :: cs | 't' :: cs | ' ' :: cs => some cs
    | _ => none
  let (hour, cs) ← digits 2 2 cs
  let ((), cs) ← literal ':' cs
  let (minute, cs) ← digits 2 2 cs
  let ((), cs) ← literal ':' cs
  let (second, cs) ← digits 2 2 cs
  let (nanos, cs) ← fraction cs
  let (off, cs) ← offset cs
  if cs ≠ [] then none
  else
    let t ← Instant.ofFields? ⟨year, month, day⟩ hour minute second nanos
    return { t with seconds := t.seconds - off }

/-- A number of up to two digits, behind blanks. -/
def shortNumber : Reader Nat := fun cs => digits 1 2 (cs.dropWhile Text.isBlank)

/-- A year behind blanks: up to four digits, or any number of them behind a sign. -/
def year : Reader Int := fun cs =>
  match cs.dropWhile Text.isBlank with
  | '-' :: cs => (digits 1 cs.length cs).map fun (n, rest) => (-(n : Int), rest)
  | '+' :: cs => (digits 1 cs.length cs).map fun (n, rest) => ((n : Int), rest)
  | cs => (digits 1 4 cs).map fun (n, rest) => ((n : Int), rest)

/-- A year, a month and a day with dashes between them. -/
def date : Reader Date := fun cs => do
  let (y, cs) ← year cs
  let ((), cs) ← literal '-' cs
  let (m, cs) ← shortNumber cs
  let ((), cs) ← literal '-' cs
  let (d, cs) ← shortNumber cs
  return (⟨y, m, d⟩, cs)

/-- How the time of day may follow a date. -/
inductive Clock where
  /-- Blanks, hours, minutes and seconds. -/
  | spaced
  /-- A `T`, hours, minutes and seconds. -/
  | lettered
  /-- Blanks, hours and minutes. -/
  | short
  /-- Nothing: the day begins. -/
  | midnight

/-- Hours, minutes and seconds in one of the forms. -/
def Clock.reader (k : Clock) : Reader (Nat × Nat × Nat) := fun cs =>
  match k with
  | .midnight => some ((0, 0, 0), cs)
  | .spaced => full cs
  | .lettered => (literal 'T' cs).bind fun p => full p.2
  | .short => do
    let (h, cs) ← shortNumber cs
    let ((), cs) ← literal ':' cs
    let (m, cs) ← shortNumber cs
    return ((h, m, 0), cs)
where
  full : Reader (Nat × Nat × Nat) := fun cs => do
    let (h, cs) ← shortNumber cs
    let ((), cs) ← literal ':' cs
    let (m, cs) ← shortNumber cs
    let ((), cs) ← literal ':' cs
    let (s, cs) ← shortNumber cs
    return ((h, m, s), cs)

/-- A date and a time of day in one form, with nothing behind them. -/
def Instant.ofLocal? (k : Clock) (s : String) : Option Instant := do
  let (d, cs) ← date s.toList
  let ((hour, minute, second), cs) ← k.reader cs
  if cs ≠ [] then none else Instant.ofFields? d hour minute second 0

/-- Digits alone, as seconds since 1970-01-01. -/
def Instant.ofDigits? (s : String) : Option Instant :=
  if s.toList.all Char.isDigit = true then
    (Decimal.readInt64? s).bind fun n => Instant.ofSeconds? n.toInt
  else none

/-- The point in time that a text names. -/
def Instant.read? (s : String) : Option Instant :=
  let s := Text.trim s
  Instant.ofRfc3339? s <|> Instant.ofLocal? .spaced s <|> Instant.ofLocal? .lettered s <|>
    Instant.ofLocal? .short s <|> Instant.ofLocal? .midnight s <|> Instant.ofDigits? s

end RequestPlan.Time
