import RequestPlan.Time.Calendar

/-!
# Points in time

* `Instant`: seconds since 1970-01-01 and nanoseconds, in universal time.
* `Instant.text`: the instant by RFC 3339, with a mark for universal time behind it.
-/

namespace RequestPlan.Time

/-- A point in universal time. Nanoseconds from a second on stand for the leap second
that follows the last second of a minute. -/
structure Instant where
  seconds : Int
  nanos : Nat
deriving DecidableEq, Repr

/-- Digits of a number with leading zeros up to a width. -/
def padded (width n : Nat) : String :=
  let ds := Nat.toDigits 10 n
  String.ofList (List.replicate (width - ds.length) '0' ++ ds)

/-- A year: four digits, with a sign outside the years 0 to 9999. -/
def yearText (year : Int) : String :=
  if 0 ≤ year && year ≤ 9999 then padded 4 year.toNat
  else (if year < 0 then "-" else "+") ++ padded 4 year.natAbs

/-- A fraction of a second in three, six or nine digits, or none. -/
def fractionText (nanos : Nat) : String :=
  if nanos = 0 then ""
  else if nanos % 1000000 = 0 then "." ++ padded 3 (nanos / 1000000)
  else if nanos % 1000 = 0 then "." ++ padded 6 (nanos / 1000)
  else "." ++ padded 9 nanos

/-- The instant by RFC 3339, ending in `zone`. -/
def Instant.text (zone : String) (t : Instant) : String :=
  let date := Date.ofDays (t.seconds / 86400)
  let second := (t.seconds % 86400).toNat
  let leap := if 1000000000 ≤ t.nanos then 1 else 0
  let nanos := t.nanos - leap * 1000000000
  yearText date.year ++ "-" ++ padded 2 date.month ++ "-" ++ padded 2 date.day ++ "T" ++
    padded 2 (second / 3600) ++ ":" ++ padded 2 (second / 60 % 60) ++ ":" ++
    padded 2 (second % 60 + leap) ++ fractionText nanos ++ zone

/-- The first and the last year of the calendar in use. -/
def firstYear : Int := -262143

@[inherit_doc firstYear]
def lastYear : Int := 262142

/-- The instant so many seconds after 1970-01-01, if the calendar reaches it. -/
def Instant.ofSeconds? (seconds : Int) : Option Instant :=
  if (Date.mk firstYear 1 1).toDays * 86400 ≤ seconds ∧
      seconds < ((Date.mk lastYear 12 31).toDays + 1) * 86400 then
    some ⟨seconds, 0⟩
  else none

/-- The instant of a date and a time of day, if the calendar has it. The second 60 is
the leap second after 59. -/
def Instant.ofFields? (date : Date) (hour minute second nanos : Nat) : Option Instant :=
  if date.valid && firstYear ≤ date.year && date.year ≤ lastYear &&
      hour ≤ 23 && minute ≤ 59 && second ≤ 60 then
    let leap := if second = 60 then 1 else 0
    some ⟨date.toDays * 86400 + hour * 3600 + minute * 60 + (second - leap : Nat),
      nanos + leap * 1000000000⟩
  else none

end RequestPlan.Time
