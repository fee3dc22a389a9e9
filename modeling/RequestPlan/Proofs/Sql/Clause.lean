import RequestPlan.Proofs.Predicate
import RequestPlan.Sql.Statement

/-!
# Clauses and their values

* `clause_values`: a clause binds the values of its predicate in the order of the tree,
  wherever its places start.
* `rootStatement_sql`: the parts of a root statement.
* `rootStatement_params`, `relationStatement_params`: the values of the statements.
-/

namespace RequestPlan.Sql

open Predicate (bindings bindingsAll)

@[simp] theorem correlated_values (bound : Nat) (l : Link) :
    (correlated bound l).values = l.bindings := by
  unfold correlated Link.bindings
  cases l.morph <;> rfl

@[simp] theorem group_values (separator none : String) (cs : List Clause) :
    (group separator none cs).values = cs.flatMap Clause.values := by
  match cs with
  | [] => rfl
  | [c] => simp [group]
  | _ :: _ :: _ => rfl

/-- The text of a group of clauses with these texts. -/
def groupText (separator none : String) : List String → String
  | [] => none
  | [t] => t
  | ts => "(" ++ Text.joinWith separator ts ++ ")"

theorem group_text (separator none : String) (cs : List Clause) :
    (group separator none cs).text = groupText separator none (cs.map Clause.text) := by
  match cs with
  | [] => rfl
  | [c] => rfl
  | _ :: _ :: _ => rfl

theorem clauses_values_of {ps : List Predicate}
    (h : ∀ p ∈ ps, ∀ bound, (clause bound p).values = bindings p) (bound : Nat) :
    (clauses bound ps).flatMap Clause.values = bindingsAll ps := by
  induction ps generalizing bound with
  | nil => rfl
  | cons p ps ih =>
    rw [clauses, List.flatMap_cons, bindingsAll, h p List.mem_cons_self,
      ih fun q hq => h q (List.mem_cons_of_mem p hq)]

/-- **A clause binds the values of its predicate**, in the order of the tree. -/
@[simp] theorem clause_values (p : Predicate) : ∀ bound, (clause bound p).values = bindings p := by
  induction p using Predicate.induct with
  | compare c op v | isNull c | isNotNull c | like c pattern negated => intro bound; rfl
  | among c vs =>
    intro bound
    by_cases h : vs = []
    · subst h; rfl
    · simp [clause, bindings, h]
  | related l | unrelated l => intro bound; exact correlated_values bound l
  | relatedWhere l p ih =>
    intro bound
    simp only [clause, bindings, correlated_values, ih]
  | allOf ps ih | anyOf ps ih =>
    intro bound
    simp only [clause, bindings, group_values, clauses_values_of ih]

@[simp] theorem clauses_values (bound : Nat) (ps : List Predicate) :
    (clauses bound ps).flatMap Clause.values = bindingsAll ps :=
  clauses_values_of (fun p _ => clause_values p) bound

/-! ## Statements -/

/-- A number as an integer value; the largest one stands for what lies beyond. -/
def clampedValue (n : UInt64) : Value := .int (.ofNat (min n.toNat (Nat.pow 2 63 - 1)))

/-- The values of a window, the limit before the offset. -/
def windowBindings : Option Window → List Value
  | some w => [clampedValue w.take, clampedValue w.skip]
  | none => []

theorem wordValue_eq (n : UInt64) : wordValue n = clampedValue n := by
  unfold wordValue clampedValue
  split
  · rename_i h
    rw [Nat.min_eq_left (Nat.le_sub_one_of_lt h)]
  · rename_i h
    have hge : Nat.pow 2 63 - 1 ≤ n.toNat := Nat.le_trans (Nat.sub_le _ 1) (Nat.le_of_not_lt h)
    rw [Nat.min_eq_right hge]
    rfl

theorem rootStatement_params (p : Plan) :
    (rootStatement p).params = bindingsAll p.filters ++ windowBindings p.window := by
  unfold rootStatement windowBindings
  simp only [clauses_values]
  cases p.window with
  | none => rfl
  | some w => simp only [windowClause, wordValue_eq]

/-- What a root statement selects from: the columns, the table and the joins. -/
def fromText (p : Plan) : String :=
  "SELECT " ++ selectList ((p.projection.map Projection.columns).getD []) ++ " FROM " ++ p.table ++
    String.join (p.joins.map fun j => " " ++ j.sql)

/-- The condition of a root statement, behind `WHERE`. -/
def whereText (p : Plan) : String :=
  Text.joinWith " AND " ((clauses 0 p.filters).map Clause.text)

/-- The orderings of a root statement. -/
def ordersText (p : Plan) : String := part " ORDER BY " ", " (p.orders.map orderText)

/-- The window of a root statement. -/
def windowText (p : Plan) : String :=
  match p.window with
  | some w => (windowClause (bindingsAll p.filters).length w).text
  | none => ""

/-- **The parts of a root statement.** The condition is left out when there are no filters. -/
theorem rootStatement_sql (p : Plan) :
    (rootStatement p).sql =
      fromText p ++ (if p.filters = [] then "" else " WHERE " ++ whereText p) ++
        ordersText p ++ windowText p := by
  have hwhere : part " WHERE " " AND " ((clauses 0 p.filters).map Clause.text) =
      if p.filters = [] then "" else " WHERE " ++ whereText p := by
    unfold part whereText
    cases p.filters <;> rfl
  unfold rootStatement windowText
  simp only [hwhere, clauses_values]
  cases p.window <;> rfl

theorem relationStatement_params (path : String) (l : Link) (columns : List Column) :
    (relationStatement path l columns).params = .list [] :: l.bindings := by
  unfold relationStatement Link.bindings
  cases l.morph <;> rfl

end RequestPlan.Sql
