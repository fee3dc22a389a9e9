import RequestPlan.Link
import RequestPlan.Value

/-!
# Predicates

* `Predicate`: a condition on the rows of one table. Values stand in slots of their own;
  columns are qualified.
* `Predicate.all?`, `Predicate.any?`: conditions joined, without a group around none or one.
* `Predicate.columns`, `Predicate.leafCount`, `Predicate.values`: what a condition mentions.
-/

namespace RequestPlan

/-- A comparison of a column with a value. -/
inductive Comparison where
  | eq | ne | lt | le | gt | ge
deriving DecidableEq, Repr

/-- The comparison in SQL. -/
def Comparison.sql : Comparison → String
  | .eq => "="
  | .ne => "<>"
  | .lt => "<"
  | .le => "<="
  | .gt => ">"
  | .ge => ">="

/-- A condition on the rows of one table. -/
inductive Predicate where
  | compare (column : String) (op : Comparison) (value : Value)
  /-- The column holds one of the values. -/
  | among (column : String) (values : List Value)
  | isNull (column : String)
  | isNotNull (column : String)
  /-- The column in lower case matches the pattern, or does not when negated. -/
  | like (column : String) (pattern : String) (negated : Bool)
  /-- There is a related row. -/
  | related (link : Link)
  /-- There is a related row that meets a condition. -/
  | relatedWhere (link : Link) (inner : Predicate)
  /-- There is no related row. -/
  | unrelated (link : Link)
  | allOf (items : List Predicate)
  | anyOf (items : List Predicate)
deriving Inhabited

namespace Predicate

/-- There is a related row, which meets the condition if there is one. -/
def exists? (link : Link) : Option Predicate → Predicate
  | none => .related link
  | some inner => .relatedWhere link inner

/-- All conditions at once; none for no condition, and a single one as it is. -/
def all? : List Predicate → Option Predicate
  | [] => none
  | [p] => some p
  | ps => some (.allOf ps)

/-- One of the conditions; none for no condition, and a single one as it is. -/
def any? : List Predicate → Option Predicate
  | [] => none
  | [p] => some p
  | ps => some (.anyOf ps)

mutual

/-- The columns in the order of the tree. Those of related rows are not among them. -/
def mentioned : Predicate → List String
  | .compare c _ _ | .among c _ | .isNull c | .isNotNull c | .like c _ _ => [c]
  | .related _ | .relatedWhere _ _ | .unrelated _ => []
  | .allOf ps | .anyOf ps => mentionedAll ps

/-- The columns of several conditions. -/
def mentionedAll : List Predicate → List String
  | [] => []
  | p :: ps => mentioned p ++ mentionedAll ps

end

mutual

/-- The number of conditions that are no groups. -/
def leafCount : Predicate → Nat
  | .allOf ps | .anyOf ps => leafCountAll ps
  | .relatedWhere _ inner => 1 + leafCount inner
  | _ => 1

/-- The number of leaves of several conditions. -/
def leafCountAll : List Predicate → Nat
  | [] => 0
  | p :: ps => leafCount p + leafCountAll ps

end

mutual

/-- The compared values in the order of the tree, those on related rows included. -/
def values : Predicate → List Value
  | .compare _ _ v => [v]
  | .among _ vs => vs
  | .relatedWhere _ inner => values inner
  | .allOf ps | .anyOf ps => valuesAll ps
  | _ => []

/-- The compared values of several conditions. -/
def valuesAll : List Predicate → List Value
  | [] => []
  | p :: ps => values p ++ valuesAll ps

end

/-- The columns that a condition mentions, each once and in order. -/
def columns (p : Predicate) : List String :=
  (p.mentioned.mergeSort fun a b => decide (a ≤ b)).eraseReps

end Predicate
end RequestPlan
