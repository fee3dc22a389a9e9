import RequestPlan.Error
import RequestPlan.Filter.Mode
import RequestPlan.Settings
import RequestPlan.Text.Case

/-!
# Reading filter values

* `Sentinel`: the texts that ask for a null test or for the empty text.
* `Mode.predicate`: the predicate that a value asks for in a mode, if it asks for any.
-/

namespace RequestPlan

/-- Texts that stand for a test and not for themselves. -/
inductive Sentinel where
  | null
  | notNull
  | empty
deriving DecidableEq, Repr

/-- The sentinel that a value is, whatever its case and the blanks around it. -/
def Sentinel.of? : Value → Option Sentinel
  | .string s =>
    match Text.asciiLower (Text.trim s) with
    | "null:" | ":null" => some .null
    | "notnull:" | ":notnull" => some .notNull
    | "empty:" => some .empty
    | _ => none
  | _ => none

/-- The null test of a sentinel. -/
def Sentinel.nullTest? (column : String) : Sentinel → Option Predicate
  | .null => some (.isNull column)
  | .notNull => some (.isNotNull column)
  | .empty => none

/-- The items of a list, or of a text with commas. -/
def Value.parts : Value → List Value
  | .string s =>
    if ',' ∈ s.toList then
      (Text.splitOn ',' s).filterMap fun part => (Text.nonBlank? part).map .string
    else [.string s]
  | v => v.items

namespace Mode

/-- The column equals the value, or one of the items of a list. -/
def plainPredicate (column : String) : Value → Predicate
  | .list vs => .among column vs
  | v => .compare column .eq v

/-- The text test of a scalar: `not:` and `like:` may stand in front of the pattern. -/
def scalarTextPredicate? (column : String) (v : Value) : Option Predicate :=
  match Sentinel.of? v with
  | some .empty => some (.compare column .eq (.string ""))
  | some s => s.nullTest? column
  | none => v.text?.map fun t =>
    let low := Text.lower t
    match Text.dropPrefix? "not:" low with
    | some rest => .like column rest true
    | none =>
      match Text.dropPrefix? "like:" low with
      | some rest => .like column rest false
      | none => .like column low false

mutual

/-- The text test of a value: one of the tests of its items, for a list. -/
def textPredicate? (column : String) : Value → Option Predicate
  | .list vs => Predicate.any? (textPredicates column vs)
  | .null => none
  | .string s => if s.isEmpty then none else scalarTextPredicate? column (.string s)
  | .bool b => scalarTextPredicate? column (.bool b)
  | .int n => scalarTextPredicate? column (.int n)
  | .float x => scalarTextPredicate? column (.float x)
  | .timestamp t => scalarTextPredicate? column (.timestamp t)

/-- The text tests of those values that have one. -/
def textPredicates (column : String) : List Value → List Predicate
  | [] => []
  | v :: vs =>
    match textPredicate? column v with
    | some p => p :: textPredicates column vs
    | none => textPredicates column vs

end

/-- The comparison in front of a number, and the rest. -/
def splitComparison? (s : String) : Option (Comparison × String) :=
  [("lte:", Comparison.le), ("lt:", .lt), ("gte:", .ge), ("gt:", .gt)].findSome? fun p =>
    (Text.dropPrefix? p.1 s).map fun rest => (p.2, Text.trim rest)

/-- The number test of a value. -/
def numberPredicate? (column : String) (v : Value) : Option Predicate :=
  match v with
  | .null => none
  | .list vs => some (.among column (vs.map Value.numeric))
  | .string s =>
    match Sentinel.of? v with
    | some sentinel => sentinel.nullTest? column
    | none =>
      match splitComparison? (Text.asciiLower (Text.trim s)) with
      | some (op, rest) => some (.compare column op (Value.string rest).numeric)
      | none => some (.compare column .eq v.numeric)
  | v => some (.compare column .eq v.numeric)

/-- The truth value that a value names. -/
def flag? : Value → Option Bool
  | .bool b => some b
  | .int n => if n = 1 then some true else if n = 0 then some false else none
  | .string s =>
    match Text.asciiLower (Text.trim s) with
    | "1" | "true" | "yes" => some true
    | "0" | "false" | "no" => some false
    | _ => none
  | _ => none

/-- The truth test of a value; what cannot be read is false, or refused when strict. -/
def flagPredicate? (column key : String) (strict : Bool) (v : Value) :
    Except Error (Option Predicate) :=
  if v.isNull then .ok none
  else
    match Sentinel.of? v with
    | some sentinel => .ok (sentinel.nullTest? column)
    | none =>
      match flag? v with
      | some b => .ok (some (.compare column .eq (.bool b)))
      | none =>
        if strict then .error (.invalidFilterValue key (.notFlag v))
        else .ok (some (.compare column .eq (.bool false)))

/-- The comparison of a column with a point in time. -/
def datePredicate? (column key : String) (op : Comparison) (v : Value) :
    Except Error (Option Predicate) :=
  if v.isEmpty then .ok none
  else
    match Sentinel.of? v with
    | some sentinel => .ok (sentinel.nullTest? column)
    | none =>
      match v.instant? with
      | some t => .ok (some (.compare column op (.timestamp t)))
      | none => .error (.invalidFilterValue key (.notTimestamp v))

/-- The null test of a value. -/
def pointPredicate? (column : String) (v : Value) : Option Predicate :=
  (Sentinel.of? v).bind (·.nullTest? column)

/-- The predicate that a value asks for; `key` names the filter in an error. -/
def predicate (column key : String) (settings : Settings) (v : Value) :
    Mode → Except Error (Option Predicate)
  | .default | .plain | .custom _ => .ok (some (plainPredicate column v))
  | .among => .ok (some (.among column v.parts))
  | .text => .ok (textPredicate? column v)
  | .number => .ok (numberPredicate? column v)
  | .flag => flagPredicate? column key settings.strictFlags v
  | .date op => datePredicate? column key op v
  | .point => .ok (pointPredicate? column v)
  | .relation => .ok none

end Mode
end RequestPlan
