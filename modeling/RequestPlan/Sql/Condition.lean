import RequestPlan.Predicate

/-!
# Conditions in SQL

* `Clause`: a text with numbered places for values, and the values for them in order.
* `clause`: a predicate as a clause, whose places are numbered on from those
  there are already.
-/

namespace RequestPlan.Sql

/-- A text in which `$1`, `$2`, … stand for values, and its values. -/
structure Clause where
  text : String
  values : List Value

/-- The place behind so many others. -/
def slot (bound : Nat) : String := "$" ++ toString (bound + 1)

/-- The places of so many values. -/
def slots (bound : Nat) : Nat → List String
  | 0 => []
  | n + 1 => slot bound :: slots (bound + 1) n

/-- A group of clauses: the text for none, a single one as it is, several in
parentheses. -/
def group (separator none : String) : List Clause → Clause
  | [] => ⟨none, []⟩
  | [c] => c
  | cs =>
    ⟨"(" ++ Text.joinWith separator (cs.map Clause.text) ++ ")", cs.flatMap Clause.values⟩

/-- A query for the rows that a link relates to a row of the query around it. -/
def correlated (bound : Nat) (l : Link) : Clause :=
  let key := "SELECT 1 FROM " ++ l.table ++ " WHERE " ++ l.relatedColumn ++ " = " ++ l.parentColumn
  match l.morph with
  | none => ⟨key, []⟩
  | some m => ⟨key ++ " AND " ++ m.column ++ " = " ++ slot bound, [.string m.value]⟩

mutual

/-- A predicate in SQL, behind so many places for values. -/
def clause (bound : Nat) : Predicate → Clause
  | .compare c op v => ⟨c ++ " " ++ op.sql ++ " " ++ slot bound, [v]⟩
  | .among c vs =>
    if vs.isEmpty then ⟨"FALSE", []⟩
    else ⟨c ++ " IN (" ++ Text.joinWith ", " (slots bound vs.length) ++ ")", vs⟩
  | .isNull c => ⟨c ++ " IS NULL", []⟩
  | .isNotNull c => ⟨c ++ " IS NOT NULL", []⟩
  | .like c pattern negated =>
    ⟨"LOWER(" ++ c ++ ") " ++ (if negated then "NOT " else "") ++ "LIKE " ++ slot bound,
      [.string pattern]⟩
  | .related l =>
    let key := correlated bound l
    ⟨"EXISTS (" ++ key.text ++ ")", key.values⟩
  | .relatedWhere l p =>
    let key := correlated bound l
    let inner := clause (bound + key.values.length) p
    ⟨"EXISTS (" ++ key.text ++ " AND " ++ inner.text ++ ")", key.values ++ inner.values⟩
  | .unrelated l =>
    let key := correlated bound l
    ⟨"NOT EXISTS (" ++ key.text ++ ")", key.values⟩
  | .allOf ps => group " AND " "TRUE" (clauses bound ps)
  | .anyOf ps => group " OR " "FALSE" (clauses bound ps)

/-- Predicates in SQL, each behind the places of those before it. -/
def clauses (bound : Nat) : List Predicate → List Clause
  | [] => []
  | p :: ps =>
    let c := clause bound p
    c :: clauses (bound + c.values.length) ps

end

end RequestPlan.Sql
