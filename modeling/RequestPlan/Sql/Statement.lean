import RequestPlan.Plan
import RequestPlan.Sql.Condition

/-!
# Plans in SQL

* `Statement`: a text with numbered places, and the values for them.
* `statements`: the statements of a plan, the root's first, and behind it one for every
  relation that is loaded, each before those below it.
-/

namespace RequestPlan.Sql

/-- A statement. The first value of a relation's statement is the list of the parents'
keys, which is filled in when these are known. -/
structure Statement where
  /-- The names of the relations that lead to it, with dots between them. -/
  path : String
  sql : String
  params : List Value
  /-- For a relation, the column of the parents whose values come first. -/
  parentColumn : Option String

/-- A select list; all columns when it is empty. -/
def selectList (columns : List Column) : String :=
  if columns.isEmpty then "*" else Text.joinWith ", " (columns.map Column.sql)

/-- A part of a statement that is left out without entries. -/
def part (lead separator : String) (entries : List String) : String :=
  if entries.isEmpty then "" else lead ++ Text.joinWith separator entries

/-- An ordering in SQL. -/
def orderText (o : Order) : String := o.column ++ " " ++ o.direction.sql

/-- A number as a value, the largest integer for what lies beyond. -/
def wordValue (n : UInt64) : Value :=
  .int (if n.toNat < Nat.pow 2 63 then Int64.ofNat n.toNat else Int64.maxValue)

/-- The limit and the offset of a window, behind so many places. -/
def windowClause (bound : Nat) (w : Window) : Clause :=
  ⟨" LIMIT " ++ slot bound ++ " OFFSET " ++ slot (bound + 1),
    [wordValue w.take, wordValue w.skip]⟩

/-- The root statement of a plan. -/
def rootStatement (p : Plan) : Statement :=
  let columns := (p.projection.map Projection.columns).getD []
  let filters := clauses 0 p.filters
  let values := filters.flatMap Clause.values
  let window := match p.window with
    | some w => windowClause values.length w
    | none => ⟨"", []⟩
  { path := ""
    sql := "SELECT " ++ selectList columns ++ " FROM " ++ p.table ++
      String.join (p.joins.map fun j => " " ++ j.sql) ++
      part " WHERE " " AND " (filters.map Clause.text) ++
      part " ORDER BY " ", " (p.orders.map orderText) ++ window.text
    params := values ++ window.values
    parentColumn := none }

/-- The statement that loads the rows behind a link. -/
def relationStatement (path : String) (l : Link) (columns : List Column) : Statement :=
  let morph : Clause := match l.morph with
    | some m => ⟨" AND " ++ m.column ++ " = " ++ slot 1, [.string m.value]⟩
    | none => ⟨"", []⟩
  { path
    sql := "SELECT " ++ selectList columns ++ " FROM " ++ l.table ++ " WHERE " ++
      l.relatedColumn ++ " = ANY(" ++ slot 0 ++ ")" ++ morph.text
    params := .list [] :: morph.values
    parentColumn := some l.parentColumn }

/-- The path of a relation below another. -/
def pathBelow (path name : String) : String := if path.isEmpty then name else path ++ "." ++ name

mutual

/-- The statements of a relation: its own and those below it. -/
def loadStatements (path : String) (l : Link) : Projection → List Statement
  | ⟨columns, relations⟩ => relationStatement path l columns :: relationStatements path relations

/-- The statements of several relations below a path. -/
def relationStatements (path : String) : List (String × Link × Projection) → List Statement
  | [] => []
  | (_, l, child) :: rest =>
    loadStatements (pathBelow path l.name) l child ++ relationStatements path rest

end

/-- All statements of a plan. -/
def statements (p : Plan) : List Statement :=
  rootStatement p ::
    match p.projection with
    | some projection => relationStatements "" projection.relations
    | none => []

end RequestPlan.Sql
