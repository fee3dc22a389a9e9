import RequestPlan.Catalog.Declaration
import RequestPlan.Dict
import RequestPlan.Link

/-!
# Entities and relations

* `Entity`: a table with its relations and declarations; `Entity.column` qualifies a key
  by the table unless it has a qualifier.
* `Relation.link?`: the columns through which an entity's rows reach the related rows.
* `Relation.parentKeys`, `Relation.childKeys`: the columns that both sides have to
  select, so that related rows can be put to their parents.
-/

namespace RequestPlan

/-- The kinds of relations, seen from the entity that declares them. -/
inductive RelationKind where
  /-- The declaring entity holds the foreign key. -/
  | owning
  /-- The related entity holds the foreign key. -/
  | owned
  /-- Owning, with a column for the related entity's name. -/
  | morphOwning
  /-- Owned, with a column for the declaring entity's name. -/
  | morphOwned
  /-- Through a table of pairs. -/
  | manyToMany
deriving DecidableEq, Repr

/-- Whether the declaring entity holds the foreign key. -/
def RelationKind.isOwning : RelationKind → Bool
  | .owning | .morphOwning => true
  | _ => false

/-- Whether a column says which entity is related. -/
def RelationKind.isMorph : RelationKind → Bool
  | .morphOwning | .morphOwned => true
  | _ => false

/-- A relation of an entity. -/
structure Relation where
  name : String
  /-- The name of the related entity. -/
  related : String
  kind : RelationKind
  foreignKey : String
  /-- The column that the foreign key points at; the key of its entity when empty. -/
  ownerKey : String
  /-- The column that says which entity is related. -/
  morphType : Option String
deriving DecidableEq, Repr

/-- A table, its relations and its declarations. -/
structure Entity where
  name : String
  table : String
  key : String
  relations : Dict Relation
  queryable : Option (List Declaration)
  filterable : Option (List Declaration)
  sortable : Option (List Declaration)
  selectable : Option (List Declaration)

namespace Entity

/-- A list of declarations, if the entity has it. -/
def declarations (e : Entity) : Kind → Option (List Declaration)
  | .queryable => e.queryable
  | .filterable => e.filterable
  | .sortable => e.sortable
  | .selectable => e.selectable

/-- A relation by name. -/
def relation? (e : Entity) (name : String) : Option Relation := e.relations.find? name

/-- A key as a column; it is qualified by the table unless it has a dot. -/
def column (e : Entity) (key : String) : String :=
  if '.' ∈ key.toList then key else e.table ++ "." ++ key

end Entity

namespace Relation

/-- A relation of a kind without a morph column. -/
def plain (kind : RelationKind) (name related foreignKey ownerKey : String) : Relation :=
  ⟨name, related, kind, foreignKey, ownerKey, none⟩

/-- A relation of a kind with a morph column. -/
def morph (kind : RelationKind) (name related foreignKey morphType ownerKey : String) :
    Relation :=
  ⟨name, related, kind, foreignKey, ownerKey, some morphType⟩

/-- A relation through a table of pairs. -/
def pairs (name related : String) : Relation := plain .manyToMany name related "" "id"

/-- The column that the foreign key points at, on the entity that holds it. -/
def ownerColumn (r : Relation) (owner : Entity) : String :=
  if r.ownerKey.isEmpty then owner.key else r.ownerKey

/-- The link between an entity and its related one; a table of pairs has none. -/
def link? (r : Relation) (parent related : Entity) : Option Link :=
  let owning := (parent.column r.foreignKey, related.column (r.ownerColumn related))
  let owned := (parent.column (r.ownerColumn parent), related.column r.foreignKey)
  match r.kind with
  | .manyToMany => none
  | .owning => some ⟨r.name, related.table, owning.1, owning.2, none⟩
  | .owned => some ⟨r.name, related.table, owned.1, owned.2, none⟩
  | .morphOwning =>
    some ⟨r.name, related.table, owning.1, owning.2,
      r.morphType.map fun m => ⟨parent.column m, related.name⟩⟩
  | .morphOwned =>
    some ⟨r.name, related.table, owned.1, owned.2,
      r.morphType.map fun m => ⟨related.column m, parent.name⟩⟩

/-- The columns of the parent that its related rows are found by. -/
def parentKeys (r : Relation) (parent : Entity) : List String :=
  match r.kind with
  | .owning => [parent.column r.foreignKey]
  | .morphOwning => parent.column r.foreignKey :: (r.morphType.map parent.column).toList
  | .owned | .morphOwned => [parent.column (r.ownerColumn parent)]
  | .manyToMany => []

/-- The columns of the related entity that its parents are found by. -/
def childKeys (r : Relation) (related : Entity) : List String :=
  match r.kind with
  | .owning | .morphOwning => [related.column (r.ownerColumn related)]
  | .owned => [related.column r.foreignKey]
  | .morphOwned => related.column r.foreignKey :: (r.morphType.map related.column).toList
  | .manyToMany => []

end Relation
end RequestPlan
