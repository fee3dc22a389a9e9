import RequestPlan.Predicate
import RequestPlan.Text.Case
import RequestPlan.Text.Quoted

/-!
# Filter modes

* `modeKey`: the letters that a mode is known by, whatever its case and its dashes.
* `Mode.parse`: the mode that a declaration names; what names none is a mode of its own.
* `Mode.isOverridable`: whether a hook may stand in for the mode.
-/

namespace RequestPlan

/-- A mode's name in lower case, character by character, without `_` and `-`. -/
def modeKey (mode : String) : String :=
  String.ofList ((mode.toList.filter fun c => c ≠ '_' && c ≠ '-').flatMap Text.lowerChar)

/-- How the values of a filter are read. -/
inductive Mode where
  | default
  | plain
  | among
  | relation
  | text
  | number
  | flag
  | date (op : Comparison)
  | point
  | custom (name : String)
deriving DecidableEq, Repr

namespace Mode

/-- The mode that a key names. -/
def ofKey? (key : String) : Option Mode :=
  match key with
  | "" | "null" | "default" => some .default
  | "plain" => some .plain
  | "in" => some .among
  | "relation" | "rel" => some .relation
  | "string" | "text" => some .text
  | "number" => some .number
  | "bool" | "boolean" | "flag" => some .flag
  | "date" | "datetime" | "time" => some (.date .eq)
  | "datemin" | "datetimemin" | "timemin" | "min" => some (.date .ge)
  | "datemax" | "datetimemax" | "timemax" | "max" => some (.date .le)
  | "datebefore" | "before" => some (.date .lt)
  | "dateafter" | "after" => some (.date .gt)
  | "point" => some .point
  | _ => none

/-- The mode that a declaration names, if it names one. -/
def parse : Option String → Mode
  | none => .default
  | some raw => (ofKey? (modeKey raw)).getD (.custom raw)

/-- Whether a hook may stand in for the mode. -/
def isOverridable : Mode → Bool
  | .plain | .among | .relation => false
  | _ => true

/-- The mode in a listing of compiled filters. -/
def listing : Mode → String
  | .default => "Default"
  | .plain => "Plain"
  | .among => "In"
  | .relation => "Relation"
  | .text => "Text"
  | .number => "Number"
  | .flag => "Flag"
  | .date op => "Date(" ++ comparison op ++ ")"
  | .point => "Point"
  | .custom name => "Custom(" ++ Text.quoted name ++ ")"
where
  comparison : Comparison → String
    | .eq => "Eq"
    | .ne => "Ne"
    | .lt => "Lt"
    | .le => "Le"
    | .gt => "Gt"
    | .ge => "Ge"

end Mode
end RequestPlan
