import RequestPlan.Json.Plan
import RequestPlan.Report.Grid
import RequestPlan.Sql.Statement

/-!
# Plans and entities as text

* `Format.plan`: a plan as SQL statements, as a table of its parts, or as JSON.
* `Format.entities`: the names of entities in the same three forms.
-/

namespace RequestPlan.Report

/-- The forms in which a plan is printed. -/
inductive Format where
  | table
  | json
  | sql
deriving DecidableEq

/-- A statement with its path above it and its values below. -/
def statementText (s : Sql.Statement) : String :=
  let parent := match s.parentColumn with
    | some column => " ($1 = values of " ++ column ++ ")"
    | none => ""
  (if s.path.isEmpty then "" else "-- " ++ s.path ++ parent ++ "\n") ++ s.sql ++
    ";\n-- params: " ++ (Json.array (Value.toJsons s.params)).compact

mutual

/-- The rows of a projection: one for each level, every level before those below it. -/
def projectionRows (path : String) : Projection → List (List String)
  | ⟨columns, relations⟩ =>
    [if path.isEmpty then "select" else "select " ++ path,
      Text.joinWith ", " (columns.map Column.sql)] :: relationRows path relations

/-- The rows of the relations below a path. -/
def relationRows (path : String) : List (String × Link × Projection) → List (List String)
  | [] => []
  | (name, _, child) :: rest =>
    projectionRows (Sql.pathBelow path name) child ++ relationRows path rest

end

/-- The parts of a plan, a row for each. -/
def planGrid (p : Plan) : Grid where
  heading := ["Part", "Value"]
  rows :=
    [["entity", p.entity ++ " (" ++ p.table ++ ")"]] ++
    p.joins.map (fun j => ["join", j.sql]) ++
    p.filters.map (fun f => ["filter", f.toJson.compact]) ++
    (match p.projection with
      | some projection => projectionRows "" projection
      | none => []) ++
    p.orders.map (fun o => ["order", Sql.orderText o]) ++
    (match p.window with
      | some w =>
        [["window", "skip " ++ toString w.skip.toNat ++ " take " ++ toString w.take.toNat]]
      | none => [])

/-- A plan as text. -/
def Format.plan (f : Format) (p : Plan) : String :=
  match f with
  | .table => (planGrid p).text
  | .json => p.toJson.pretty
  | .sql => Text.joinWith "\n\n" ((Sql.statements p).map statementText)

/-- The names of entities as text. -/
def Format.entities (f : Format) (names : List String) : String :=
  match f with
  | .table => Grid.text ⟨["Entity"], names.map fun n => [n]⟩
  | .json => (Json.array (names.map Json.string)).compact
  | .sql => Text.joinWith "\n" names

/-- A statement in JSON. -/
def statementJson (s : Sql.Statement) : Json :=
  Json.ofFields [Json.field "path" (.string s.path), Json.field "sql" (.string s.sql),
    Json.field "params" (.array (Value.toJsons s.params)),
    Json.field? "parent_column" (s.parentColumn.map Json.string)]

end RequestPlan.Report
