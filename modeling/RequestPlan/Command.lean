import RequestPlan.Catalog.Schema
import RequestPlan.Planner
import RequestPlan.Report.Format

/-!
# The command

* `Command`: what the command is asked for.
* `Command.run`: its output for the text of a schema: the plan for a request, or the
  entities of the schema when no entity is given.
* `Command.parse?`: the command that arguments spell, with the name of a schema file.
-/

namespace RequestPlan

/-- The registry of the entities that a schema describes. -/
def Registry.ofSchema (entities : List Entity) : Except Error Registry :=
  let (result, r) := (entities.forM fun e => register e.define).run.run empty
  result.map fun () => r

/-- What the command is asked for. -/
structure Command where
  entity : Option String
  /-- A query string. -/
  query : String
  /-- More parameters in JSON, which replace those of the query string. -/
  json : Option String
  format : Report.Format
  pageSize : UInt64
  maxPageSize : Option UInt64
  depth : Nat
  strict : Bool

namespace Command

/-- What the command is asked for without arguments. -/
def usual : Command where
  entity := none
  query := ""
  json := none
  format := .table
  pageSize := Settings.usual.defaultPageSize
  maxPageSize := none
  depth := Settings.usual.selectDepth
  strict := false

/-- The settings of the planner. -/
def settings (c : Command) : Settings :=
  ⟨c.pageSize, c.maxPageSize, c.depth, c.strict, .usual⟩

/-- The parameters of the request. -/
def params (c : Command) : Except Error Params :=
  let ps := Params.ofQuery c.query
  match c.json with
  | none => .ok ps
  | some text => (Params.ofJson text).map ps.update

/-- The plan for the parameters of a request to an entity. -/
def plan (settings : Settings) (r : Registry) (entity : String) (ps : Params) :
    Except Error Plan := do
  let d ← r.catalog.get entity
  let (result, r, p) := (Planner.apply ps).run.run (r, Planner.start d settings)
  result
  (p.build.run.run r).1

/-- The output for the text of a schema. -/
def run (c : Command) (schema : String) : Except Error String := do
  let r ← Registry.ofSchema (← Schema.parse schema)
  match c.entity with
  | none => return c.format.entities r.catalog.keys
  | some entity => return c.format.plan (← plan c.settings r entity (← c.params))

/-! ## Arguments -/

/-- The formats by name. -/
def formats : List (String × Report.Format) := [("table", .table), ("json", .json), ("sql", .sql)]

/-- A natural number of 64 bits. -/
def word? (s : String) : Option UInt64 :=
  (Decimal.readNat? s.toList).bind fun n => if n < UInt64.size then some (UInt64.ofNat n) else none

/-- The command with an option and its value. -/
def withOption? (c : Command) (name value : String) : Option Command :=
  match name with
  | "-q" | "--query" => some { c with query := value }
  | "--json" => some { c with json := some value }
  | "--format" => (formats.lookup value).map fun f => { c with format := f }
  | "--page-size" => (word? value).map fun n => { c with pageSize := n }
  | "--max-page-size" => (word? value).map fun n => { c with maxPageSize := some n }
  | "--depth" => (word? value).map fun n => { c with depth := n.toNat }
  | _ => none

/-- The command with arguments more, and those of them that are no options. The value of an
option follows it, or stands behind a `=` in it. -/
def parseFrom? (c : Command) (names : List String) :
    List String → Option (Command × List String)
  | [] => some (c, names)
  | arg :: rest =>
    if arg = "--strict" then parseFrom? { c with strict := true } names rest
    else if !arg.startsWith "-" then parseFrom? c (names ++ [arg]) rest
    else
      match Text.cut? '=' arg, rest with
      | some (name, value), rest =>
        match c.withOption? name value with
        | some c => parseFrom? c names rest
        | none => none
      | none, value :: rest =>
        match c.withOption? arg value with
        | some c => parseFrom? c names rest
        | none => none
      | none, [] => none

/-- The name of the schema file and the command that arguments spell. -/
def parse? (args : List String) : Option (String × Command) :=
  match parseFrom? usual [] args with
  | some (c, [schema]) => some (schema, c)
  | some (c, [schema, entity]) => some (schema, { c with entity := some entity })
  | _ => none

end Command
end RequestPlan
