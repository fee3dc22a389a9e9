import RequestPlan.Json.Record
import RequestPlan.Plan

/-!
# Plans in JSON

* `toJson` of values, predicates, links, projections and plans writes their JSON form:
  parts that are absent or empty are left out.
* `ofJson?` reads it back.
-/

namespace RequestPlan

open Json (record? needed optional field field? listField ofFields given? option? orElse?)

/-! ## Values -/

namespace Value

mutual

/-- A value in JSON. Points in time become text, and floats that are not finite null. -/
def toJson : Value → Json
  | .null => .null
  | .bool b => .bool b
  | .int n => .int n.toInt
  | .float x => if x.isFinite then .number (.float x) else .null
  | .string s => .string s
  | .list vs => .array (toJsons vs)
  | .timestamp t => .string (t.text "Z")

/-- Values in JSON. -/
def toJsons : List Value → List Json
  | [] => []
  | v :: vs => toJson v :: toJsons vs

end

mutual

/-- The value of a JSON value without objects. An integer beyond the signed 64 bits
becomes a float. -/
def ofJson? : Json → Option Value
  | .null => some .null
  | .bool b => some (.bool b)
  | .number (.int n) =>
    match Decimal.int64? n with
    | some i => some (.int i)
    | none => some (.float (Float.ofInt n))
  | .number (.float x) => some (.float x)
  | .string s => some (.string s)
  | .array items => (ofJsons? items).map .list
  | .object _ | .unreadable => none

/-- The values of JSON values. -/
def ofJsons? : List Json → Option (List Value)
  | [] => some []
  | j :: js =>
    match ofJson? j, ofJsons? js with
    | some v, some vs => some (v :: vs)
    | _, _ => none

end

end Value

/-! ## Links -/

/-- A morph constraint in JSON. -/
def Morph.toJson (m : Morph) : Json :=
  .object [("column", .string m.column), ("value", .string m.value)]

/-- A morph constraint from JSON. -/
def Morph.ofJson? (j : Json) : Option Morph := do
  let [column, value] ← record? [needed "column", needed "value"] j | none
  return ⟨← given? Json.text? column, ← given? Json.text? value⟩

/-- A link in JSON. -/
def Link.toJson (l : Link) : Json :=
  ofFields [field "name" (.string l.name), field "table" (.string l.table),
    field "parent_column" (.string l.parentColumn),
    field "related_column" (.string l.relatedColumn), field? "morph" (l.morph.map Morph.toJson)]

/-- A link from JSON. -/
def Link.ofJson? (j : Json) : Option Link := do
  let [name, table, parent, related, morph] ← record? [needed "name", needed "table",
    needed "parent_column", needed "related_column", optional "morph"] j | none
  return ⟨← given? Json.text? name, ← given? Json.text? table, ← given? Json.text? parent,
    ← given? Json.text? related, ← option? Morph.ofJson? morph⟩

/-! ## Predicates -/

/-- The names of the comparisons. -/
def Comparison.names : List (String × Comparison) :=
  [("eq", .eq), ("ne", .ne), ("lt", .lt), ("le", .le), ("gt", .gt), ("ge", .ge)]

/-- The name of a comparison. -/
def Comparison.name : Comparison → String
  | .eq => "eq"
  | .ne => "ne"
  | .lt => "lt"
  | .le => "le"
  | .gt => "gt"
  | .ge => "ge"

namespace Predicate

/-- The names of the kinds of predicates. -/
inductive Tag where
  | compare | among | isNull | isNotNull | like | related | unrelated | allOf | anyOf
deriving DecidableEq

/-- The tags by name. -/
def Tag.names : List (String × Tag) :=
  [("compare", .compare), ("in", .among), ("is_null", .isNull), ("is_not_null", .isNotNull),
   ("ilike", .like), ("exists", .related), ("not_exists", .unrelated), ("and", .allOf),
   ("or", .anyOf)]

/-- A tag in front of its arguments. -/
def tagged (name : String) (args : Json) : Json := .object [("op", .string name), ("args", args)]

mutual

/-- A predicate in JSON. -/
def toJson : Predicate → Json
  | .compare c op v =>
    tagged "compare"
      (.object [("column", .string c), ("cmp", .string op.name), ("value", v.toJson)])
  | .among c vs =>
    tagged "in" (.object [("column", .string c), ("values", .array (Value.toJsons vs))])
  | .isNull c => tagged "is_null" (.object [("column", .string c)])
  | .isNotNull c => tagged "is_not_null" (.object [("column", .string c)])
  | .like c pattern negated =>
    tagged "ilike"
      (.object [("column", .string c), ("pattern", .string pattern), ("negated", .bool negated)])
  | .related l => tagged "exists" (.object [("relation", l.toJson)])
  | .relatedWhere l p => tagged "exists" (.object [("relation", l.toJson), ("predicate", toJson p)])
  | .unrelated l => tagged "not_exists" (.object [("relation", l.toJson)])
  | .allOf ps => tagged "and" (.array (toJsons ps))
  | .anyOf ps => tagged "or" (.array (toJsons ps))

/-- Predicates in JSON. -/
def toJsons : List Predicate → List Json
  | [] => []
  | p :: ps => toJson p :: toJsons ps

end

/-- The members of the arguments of a predicate that holds no other. -/
def leafOf? (kept : Bool) (tag : Tag) (members : List (String × Json)) : Option Predicate :=
  let fields? (names : List String) : Option (List (Option Json)) :=
    Json.ofMembers? (names.map needed) members
  match tag with
  | .compare => do
    let [column, op, value] ← fields? ["column", "cmp", "value"] | none
    return .compare (← given? Json.text? column)
      (← given? (Json.choice? kept Comparison.names) op) (← given? Value.ofJson? value)
  | .among => do
    let [column, values] ← fields? ["column", "values"] | none
    return .among (← given? Json.text? column) (← given? (Json.list? Value.ofJson?) values)
  | .isNull => do
    let [column] ← fields? ["column"] | none
    return .isNull (← given? Json.text? column)
  | .isNotNull => do
    let [column] ← fields? ["column"] | none
    return .isNotNull (← given? Json.text? column)
  | .like => do
    let [column, pattern, negated] ← fields? ["column", "pattern", "negated"] | none
    return .like (← given? Json.text? column) (← given? Json.text? pattern)
      (← given? Json.flag? negated)
  | .unrelated => do
    let [link] ← fields? ["relation"] | none
    return .unrelated (← given? Link.ofJson? link)
  | _ => none

/-- The link of an existence predicate, which may have a condition beside it. -/
def linkOf? (members : List (String × Json)) : Option Link := do
  let [link, _] ← Json.ofMembers? [needed "relation", optional "predicate"] members | none
  given? Link.ofJson? link

/-- Whether the arguments are written before the tag. -/
def argsFirst : List (String × Json) → Bool
  | [] => false
  | (name, _) :: members => name = "args" || (name != "op" && argsFirst members)

mutual

/-- A predicate from JSON that is kept or read at once: a tag and its arguments, in an
object or an array. Arguments before their tag are kept until the tag is known. -/
def read? (kept : Bool) : Json → Option Predicate
  | .object members =>
    match Json.ofMembers? [needed "op", needed "args"] members with
    | some [some op, some args] =>
      (Json.choice? kept Tag.names op).bind fun tag =>
        if argsFirst members then
          if args.isReadable then ofArgs? true tag members else none
        else ofArgs? kept tag members
    | _ => none
  | .array [op, args] => (Json.numbered? kept Tag.names op).bind fun tag => ofTag? kept tag args
  | _ => none

/-- A predicate from its tag and the members among which its arguments are. -/
def ofArgs? (kept : Bool) (tag : Tag) : List (String × Json) → Option Predicate
  | [] => none
  | (name, args) :: members =>
    if name = "args" then ofTag? kept tag args else ofArgs? kept tag members

/-- A predicate from its tag and its arguments: an array of predicates, or an object. -/
def ofTag? (kept : Bool) (tag : Tag) : Json → Option Predicate
  | .array items =>
    match tag with
    | .allOf => (readAll? kept items).map .allOf
    | .anyOf => (readAll? kept items).map .anyOf
    | _ => none
  | .object members =>
    match tag with
    | .related => (linkOf? members).bind fun link =>
      (readInner? kept members).map fun inner => exists? link inner
    | tag => leafOf? kept tag members
  | _ => none

/-- Predicates from JSON. -/
def readAll? (kept : Bool) : List Json → Option (List Predicate)
  | [] => some []
  | j :: js =>
    match read? kept j, readAll? kept js with
    | some p, some ps => some (p :: ps)
    | _, _ => none

/-- The condition on related rows among the members of the arguments. -/
def readInner? (kept : Bool) : List (String × Json) → Option (Option Predicate)
  | [] => some none
  | (name, j) :: members =>
    if name = "predicate" then
      if j.isNull then some none else (read? kept j).map some
    else readInner? kept members

end

/-- A predicate from JSON. -/
def ofJson? (j : Json) : Option Predicate := read? false j

end Predicate

/-! ## Projections -/

/-- A column in JSON. -/
def Column.toJson : Column → Json
  | .stored c a =>
    ofFields [field "kind" (.string "column"), field "column" (.string c),
      field? "alias" (a.map .string)]
  | .computed e a =>
    ofFields [field "kind" (.string "expression"), field "expr" (.string e),
      field? "alias" (a.map .string)]

/-- A column from JSON. -/
def Column.ofJson? (j : Json) : Option Column := do
  let (kind, [body, aliasName]) ← Json.variant? "kind" fieldsOf j | none
  let body ← given? Json.text? body
  let aliasName ← option? Json.text? aliasName
  return if kind = "column" then .stored body aliasName else .computed body aliasName
where
  fieldsOf (kind : String) : Option (List Json.Field) :=
    if kind = "column" then some [needed "column", optional "alias"]
    else if kind = "expression" then some [needed "expr", optional "alias"]
    else none

namespace Projection

mutual

/-- A projection in JSON. -/
def toJson : Projection → Json
  | ⟨columns, relations⟩ =>
    ofFields [field "columns" (.array (columns.map Column.toJson)),
      if relations.isEmpty then none else field "relations" (.object (toMembers relations))]

/-- The relations of a projection in JSON. -/
def toMembers : List (String × Link × Projection) → List (String × Json)
  | [] => []
  | (name, link, child) :: rest =>
    (name, .object [("link", link.toJson), ("projection", toJson child)]) :: toMembers rest

end

mutual

/-- A projection from JSON. -/
def ofJson? : Json → Option Projection
  | .object members =>
    match Json.ofMembers? [needed "columns", optional "relations"] members with
    | some [columns, _] =>
      match given? (Json.list? Column.ofJson?) columns, ofMember? "relations" members with
      | some cs, some rs => some ⟨cs, rs⟩
      | _, _ => none
    | _ => none
  | .array [columns] => (Json.list? Column.ofJson? columns).map fun cs => ⟨cs, []⟩
  | .array [columns, relations] =>
    match Json.list? Column.ofJson? columns, ofRelations? relations with
    | some cs, some rs => some ⟨cs, rs⟩
    | _, _ => none
  | _ => none

/-- The relations among the members of a projection. -/
def ofMember? (key : String) : List (String × Json) → Option (List (String × Link × Projection))
  | [] => some []
  | (name, j) :: members => if name = key then ofRelations? j else ofMember? key members

/-- The relations of a projection from JSON. -/
def ofRelations? : Json → Option (List (String × Link × Projection))
  | .object members => ofMembers? [] members
  | _ => none

/-- The relations from members, written after those there are. -/
def ofMembers? (done : List (String × Link × Projection)) :
    List (String × Json) → Option (List (String × Link × Projection))
  | [] => some done
  | (name, j) :: members =>
    match ofLoaded? j with
    | some loaded => ofMembers? (Entries.put name loaded done) members
    | none => none

/-- A link and the projection that is loaded through it. -/
def ofLoaded? : Json → Option (Link × Projection)
  | .object members =>
    match Json.ofMembers? [needed "link", needed "projection"] members with
    | some [link, _] =>
      match given? Link.ofJson? link, ofChild? members with
      | some l, some p => some (l, p)
      | _, _ => none
    | _ => none
  | .array [link, child] =>
    match Link.ofJson? link, ofJson? child with
    | some l, some p => some (l, p)
    | _, _ => none
  | _ => none

/-- The projection among the members beside a link. -/
def ofChild? : List (String × Json) → Option Projection
  | [] => none
  | (name, j) :: members => if name = "projection" then ofJson? j else ofChild? members

end

end Projection

/-! ## Plans -/

/-- A join in JSON. -/
def Join.toJson (j : Join) : Json :=
  .object [("table", .string j.table), ("alias", .string j.aliasName), ("left", .string j.left),
    ("right", .string j.right)]

/-- A join from JSON. -/
def Join.ofJson? (j : Json) : Option Join := do
  let [table, aliasName, left, right] ←
    record? [needed "table", needed "alias", needed "left", needed "right"] j | none
  return ⟨← given? Json.text? table, ← given? Json.text? aliasName, ← given? Json.text? left,
    ← given? Json.text? right⟩

/-- The name of a direction. -/
def Direction.name : Direction → String
  | .ascending => "asc"
  | .descending => "desc"

/-- The directions by name. -/
def Direction.names : List (String × Direction) := [("asc", .ascending), ("desc", .descending)]

/-- An ordering in JSON. -/
def Order.toJson (o : Order) : Json :=
  .object [("column", .string o.column), ("direction", .string o.direction.name)]

/-- An ordering from JSON. -/
def Order.ofJson? (j : Json) : Option Order := do
  let [column, direction] ← record? [needed "column", needed "direction"] j | none
  return ⟨← given? Json.text? column, ← given? (Json.choice? false Direction.names) direction⟩

/-- A window in JSON. -/
def Window.toJson (w : Window) : Json :=
  .object [("skip", .int w.skip.toNat), ("take", .int w.take.toNat)]

/-- A window from JSON. -/
def Window.ofJson? (j : Json) : Option Window := do
  let [skip, take] ← record? [needed "skip", needed "take"] j | none
  return ⟨← given? Json.word? skip, ← given? Json.word? take⟩

/-- A plan in JSON. -/
def Plan.toJson (p : Plan) : Json :=
  ofFields [field "entity" (.string p.entity), field "table" (.string p.table),
    listField "joins" Join.toJson p.joins, listField "filters" Predicate.toJson p.filters,
    field? "projection" (p.projection.map Projection.toJson),
    listField "order_by" Order.toJson p.orders, field? "window" (p.window.map Window.toJson)]

/-- A plan from JSON. -/
def Plan.ofJson? (j : Json) : Option Plan := do
  let [entity, table, joins, filters, projection, orders, window] ←
    record? [needed "entity", needed "table", optional "joins", optional "filters",
      optional "projection", optional "order_by", optional "window"] j | none
  return {
    entity := ← given? Json.text? entity
    table := ← given? Json.text? table
    joins := ← orElse? [] (Json.list? Join.ofJson?) joins
    filters := ← orElse? [] (Json.list? Predicate.ofJson?) filters
    projection := ← option? Projection.ofJson? projection
    orders := ← orElse? [] (Json.list? Order.ofJson?) orders
    window := ← option? Window.ofJson? window }

end RequestPlan
