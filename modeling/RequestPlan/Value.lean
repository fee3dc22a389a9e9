import RequestPlan.Decimal.Layout
import RequestPlan.Text.Split
import RequestPlan.Time.Reader

/-!
# Request values

* `Value`: what a request parameter carries into a predicate.
* `Value.text?`, `Value.display`: scalars as text, and any value as text.
* `Value.numeric`: a text that spells a number becomes that number.
* `Value.instant?`: the point in time that a value names.
-/

namespace RequestPlan

/-- A value of a request parameter. -/
inductive Value where
  | null
  | bool (b : Bool)
  | int (n : Int64)
  | float (x : Float)
  | string (s : String)
  | list (items : List Value)
  | timestamp (t : Time.Instant)
deriving Inhabited

namespace Value

/-- Whether the value is null. -/
def isNull : Value → Bool
  | .null => true
  | _ => false

/-- Whether the value is a list. -/
def isList : Value → Bool
  | .list _ => true
  | _ => false

/-- Whether there is nothing to filter on: null, the empty text and the empty list. -/
def isEmpty : Value → Bool
  | .null => true
  | .string s => s.isEmpty
  | .list items => items.isEmpty
  | _ => false

/-- The integer of the value; texts are read, trimmed. -/
def int? : Value → Option Int64
  | .int n => some n
  | .string s => Decimal.readInt64? (Text.trim s)
  | _ => none

/-- The number of the value; texts are read, trimmed. -/
def float? : Value → Option Float
  | .float x => some x
  | .int n => some n.toFloat
  | .string s => Decimal.readFloat? (Text.trim s)
  | _ => none

/-- The text of a scalar. Null and lists have none. -/
def text? : Value → Option String
  | .null | .list _ => none
  | .bool b => some (if b then "true" else "false")
  | .int n => some (toString n.toInt)
  | .float x => some (Decimal.Layout.plain.text x)
  | .string s => some s
  | .timestamp t => some (t.text "+00:00")

mutual

/-- The text of any value. -/
def display : Value → String
  | .null => "null"
  | .list items => "[" ++ Text.joinWith ", " (displays items) ++ "]"
  | .bool b => if b then "true" else "false"
  | .int n => toString n.toInt
  | .float x => Decimal.Layout.plain.text x
  | .string s => s
  | .timestamp t => t.text "+00:00"

/-- The texts of values. -/
def displays : List Value → List String
  | [] => []
  | v :: vs => display v :: displays vs

end

/-- A text that spells an integer or a number becomes it; other values stay. -/
def numeric : Value → Value
  | .string s =>
    let t := Text.trim s
    match Decimal.readInt64? t with
    | some n => .int n
    | none =>
      match Decimal.readFloat? t with
      | some x => .float x
      | none => .string s
  | v => v

/-- The items of a list, or the scalar as the only item. -/
def items : Value → List Value
  | .list vs => vs
  | v => [v]

/-- The point in time that a value names: integers and digits count seconds. -/
def instant? : Value → Option Time.Instant
  | .timestamp t => some t
  | .int n => Time.Instant.ofSeconds? n.toInt
  | .string s => Time.Instant.read? s
  | _ => none

/-- **Scalars are displayed as their text.** -/
theorem display_eq_text? {v : Value} {t : String} (h : v.text? = some t) : v.display = t := by
  cases v <;> simp_all [text?, display]

end Value
end RequestPlan
