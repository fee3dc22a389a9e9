import RequestPlan.Plan.Receiver
import RequestPlan.Sql.Statement

/-!
# A receiver that writes statements

* `Builder`: what one statement is made of, as far as it was handed over, with the finished
  statements of the relations below.
* `Builder.receiver`: a receiver of plans that collects into a builder. A relation is collected
  in a builder of its own, which is finished before the next part is handed over.
* `render`: the statements of a plan that is handed to it.
-/

namespace RequestPlan.Sql

/-- What was handed over for one statement. -/
structure Builder where
  table : String
  /-- The names of the relations that lead to it, with dots between them. -/
  path : String
  /-- The link from the statement around it, for a relation's. -/
  parent : Option Link
  columns : List Column
  joins : List Join
  /-- The conditions, whose places are numbered on through all of them. -/
  conditions : List String
  orders : List Order
  window : Option Window
  /-- The values for the places so far. -/
  params : List Value
  /-- The statements of the relations below. -/
  nested : List Statement

/-- Work with a builder, which ends when something is refused. -/
abbrev Building := ExceptT PlanError (StateM Builder)

namespace Builder

/-- A builder for a table that nothing was handed to yet. -/
def start (table : String) : Builder := ⟨table, "", none, [], [], [], [], none, [], []⟩

/-- A condition more, behind the places of those before it. -/
def restrict (b : Builder) (c : Clause) : Builder :=
  { b with conditions := b.conditions ++ [c.text], params := b.params ++ c.values }

/-- A builder for the rows behind a link. The keys of the parents stand in the first place. -/
def forRelation (path : String) (l : Link) : Builder :=
  let keys : Clause := ⟨l.relatedColumn ++ " = ANY(" ++ slot 0 ++ ")", [.list []]⟩
  let condition : Clause := match l.morph with
    | some m =>
      ⟨keys.text ++ " AND " ++ m.column ++ " = " ++ slot 1, keys.values ++ [.string m.value]⟩
    | none => keys
  { start l.table with path := path, parent := some l }.restrict condition

/-- The statement of a builder. The places of the window stand behind all others. -/
def statement (b : Builder) : Statement :=
  let window := match b.window with
    | some w => windowClause b.params.length w
    | none => ⟨"", []⟩
  { path := b.path
    sql := "SELECT " ++ selectList b.columns ++ " FROM " ++ b.table ++
      String.join (b.joins.map fun j => " " ++ j.sql) ++
      part " WHERE " " AND " b.conditions ++
      part " ORDER BY " ", " (b.orders.map orderText) ++ window.text
    params := b.params ++ window.values
    parentColumn := b.parent.map Link.parentColumn }

/-- The statement of a builder, and behind it those of the relations below. -/
def finish (b : Builder) : List Statement := b.statement :: b.nested

/-- Collects the parts of a plan. -/
def receiver : Receiver Building where
  join j := modify fun b => { b with joins := b.joins ++ [j] }
  filter p := modify fun b => b.restrict (clause b.params.length p)
  select columns := modify fun b => { b with columns := columns }
  load link inner := ExceptT.mk fun b =>
    let (result, child) := inner.run.run (forRelation (pathBelow b.path link.name) link)
    match result with
    | .error refused => (.error refused, b)
    | .ok () => (.ok (), { b with nested := b.nested ++ child.finish })
  order o := modify fun b => { b with orders := b.orders ++ [o] }
  window w := modify fun b => { b with window := some w }

end Builder

/-- The statements of a plan, root first, unless a part of it is refused. -/
def render (p : Plan) : Except PlanError (List Statement) :=
  let (result, b) := (p.handTo Builder.receiver).run.run (Builder.start p.table)
  result.map fun () => b.finish

end RequestPlan.Sql
