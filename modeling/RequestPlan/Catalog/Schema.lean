import RequestPlan.Catalog.Entity
import RequestPlan.Error
import RequestPlan.Json.Reader
import RequestPlan.Json.Plan

/-!
# Entities in JSON

* `Entity.ofJson?`: an entity from its description.
* `Schema.parse`: the entities that a text describes.

A list of declarations is an object from aliases to shorthands, or an array of such
objects and of bare aliases.
-/

namespace RequestPlan

open Json (record? needed optional field field? ofFields given? option? orElse?)

/-! ## Declarations -/

/-- Uses in JSON. -/
def Capabilities.toJson (c : Capabilities) : Json :=
  .object [("filter", .bool c.filter), ("sort", .bool c.sort), ("select", .bool c.select)]

/-- Uses from JSON. -/
def Capabilities.ofJson? (j : Json) : Option Capabilities := do
  let [filter, sort, select] ← record? [needed "filter", needed "sort", needed "select"] j | none
  return ⟨← given? Json.flag? filter, ← given? Json.flag? sort, ← given? Json.flag? select⟩

namespace Declaration

/-- A declaration in JSON. -/
def toJson : Declaration → Json
  | .bare aliasName => .object [("form", .string "bare"), ("alias", .string aliasName)]
  | .typed aliasName mode key =>
    ofFields [field "form" (.string "typed"), field "alias" (.string aliasName),
      field? "mode" (mode.map .string), field "key" (.string key)]
  | .full aliasName mode key uses =>
    ofFields [field "form" (.string "full"), field "alias" (.string aliasName),
      field? "mode" (mode.map .string), field "key" (.string key),
      field "capabilities" uses.toJson]

/-- A declaration from JSON. -/
def ofJson? (j : Json) : Option Declaration := do
  let (form, fields) ← Json.variant? "form" fieldsOf j
  match form, fields with
  | "bare", [aliasName] => return .bare (← given? Json.text? aliasName)
  | "typed", [aliasName, mode, key] =>
    return .typed (← given? Json.text? aliasName) (← option? Json.text? mode)
      (← given? Json.text? key)
  | "full", [aliasName, mode, key, uses] =>
    return .full (← given? Json.text? aliasName) (← option? Json.text? mode)
      (← given? Json.text? key) (← orElse? .all Capabilities.ofJson? uses)
  | _, _ => none
where
  fieldsOf : String → Option (List Json.Field)
    | "bare" => some [needed "alias"]
    | "typed" => some [needed "alias", optional "mode", needed "key"]
    | "full" => some [needed "alias", optional "mode", needed "key", optional "capabilities"]
    | _ => none

end Declaration

/-- The declarations of an object from aliases to shorthands, in the order of the
aliases. -/
def declarationsOf? (members : List (String × Json)) : Option (List Declaration) := do
  let pairs ← members.mapM fun p => (Json.text? p.2).map fun s => (p.1, s)
  return (Dict.ofList pairs).entries.map fun p => Declaration.parse p.1 p.2

/-- The declarations of one item of an array. -/
def declarationItem? : Json → Option (List Declaration)
  | .string aliasName => some [.bare aliasName]
  | .object members => declarationsOf? members
  | _ => none

/-- A list of declarations. -/
def declarations? : Json → Option (List Declaration)
  | .array items => (items.mapM declarationItem?).map List.flatten
  | .object members => declarationsOf? members
  | _ => none

/-! ## Relations and entities -/

/-- The kinds of relations by name. -/
def RelationKind.names : List (String × RelationKind) :=
  [("owning", .owning), ("owned", .owned), ("polymorphic_owning", .morphOwning),
   ("polymorphic_owned", .morphOwned), ("many_to_many", .manyToMany)]

/-- The name of a kind of relation. -/
def RelationKind.name : RelationKind → String
  | .owning => "owning"
  | .owned => "owned"
  | .morphOwning => "polymorphic_owning"
  | .morphOwned => "polymorphic_owned"
  | .manyToMany => "many_to_many"

/-- A relation in JSON. -/
def Relation.toJson (r : Relation) : Json :=
  ofFields [field "name" (.string r.name), field "related_entity" (.string r.related),
    field "kind" (.string r.kind.name), field "foreign_key" (.string r.foreignKey),
    field "owner_key" (.string r.ownerKey), field? "morph_type" (r.morphType.map .string)]

/-- A relation from JSON. -/
def Relation.ofJson? (j : Json) : Option Relation := do
  let [name, related, kind, foreignKey, ownerKey, morphType] ←
    record? [needed "name", needed "related_entity", needed "kind", optional "foreign_key",
      optional "owner_key", optional "morph_type"] j | none
  return {
    name := ← given? Json.text? name
    related := ← given? Json.text? related
    kind := ← given? (Json.choice? false RelationKind.names) kind
    foreignKey := ← orElse? "" Json.text? foreignKey
    ownerKey := ← orElse? "" Json.text? ownerKey
    morphType := ← option? Json.text? morphType }

/-- An entity from JSON. -/
def Entity.ofJson? (j : Json) : Option Entity := do
  let [name, table, key, relations, queryable, filterable, sortable, selectable] ←
    record? [needed "name", needed "table", optional "key", optional "relations",
      optional "queryable", optional "filterable", optional "sortable", optional "selectable"] j
    | none
  let relations ← orElse? [] (Json.list? Relation.ofJson?) relations
  return {
    name := ← given? Json.text? name
    table := ← given? Json.text? table
    key := ← orElse? "id" Json.text? key
    relations := Dict.ofList (relations.map fun r => (r.name, r))
    queryable := ← option? declarations? queryable
    filterable := ← option? declarations? filterable
    sortable := ← option? declarations? sortable
    selectable := ← option? declarations? selectable }

/-- The entities that a text describes. -/
def Schema.parse (s : String) : Except Error (List Entity) :=
  match (Json.parse? s).bind schema? with
  | some entities => .ok entities
  | none => .error .schema
where
  schema? (j : Json) : Option (List Entity) := do
    let [entities] ← record? [needed "entities"] j | none
    given? (Json.list? Entity.ofJson?) entities

end RequestPlan
