import RequestPlan.Catalog.Hooks

/-!
# Tables of aliases

* `Entity.validate`: the declarations of an entity are sound.
* `Table.of`: the aliases of one kind with their keys and modes. The shared declarations
  meant for the kind come first, then its own; the last one for an alias counts.
-/

namespace RequestPlan

/-- What an alias stands for. -/
structure Entry where
  aliasName : String
  mode : Option String
  key : String
  /-- The related entity, when the key is a relation. -/
  related : Option String
deriving DecidableEq, Repr

/-- Whether the key is a relation. -/
def Entry.isRelation (e : Entry) : Bool := e.related.isSome

/-- The aliases of one kind. -/
structure Table where
  entity : String
  kind : Kind
  entries : Dict Entry

namespace Table

/-- What an alias stands for. -/
def find? (t : Table) (aliasName : String) : Option Entry := t.entries.find? aliasName

end Table

/-- Whether request keys and paths are divided by the character. -/
def isReserved (c : Char) : Bool := c = '$' || c = '.' || c = ','

/-- The fault of a declaration, if it has one. -/
def Declaration.fault? (d : Declaration) : Option DeclarationFault :=
  if (Text.trim d.aliasName).isEmpty then some .emptyAlias
  else if d.aliasName.toList.any isReserved || d.aliasName = "*" then
    some (.reservedAlias d.aliasName)
  else if (Text.trim d.key).isEmpty then some (.emptyKey d.aliasName)
  else none

namespace Entity

/-- Refuses a declaration that has a fault. -/
def check (e : Entity) (d : Declaration) : Except Error Unit :=
  match d.fault? with
  | some fault => .error (.invalidDeclaration e.name fault)
  | none => .ok ()

/-- Refuses an entity with a declaration that has a fault. -/
def validate (e : Entity) : Except Error Unit :=
  [Kind.queryable, .filterable, .sortable, .selectable].forM fun k =>
    ((e.declarations k).getD []).forM e.check

/-- The entry of a declaration. -/
def entry (e : Entity) (d : Declaration) : Entry :=
  ⟨d.aliasName, d.mode, d.key, (e.relation? d.key).map Relation.related⟩

/-- The declarations that count for a kind, the later before the earlier of one alias. -/
def declared (e : Entity) (k : Kind) : List Declaration :=
  let shared := if k = .queryable then [] else (e.queryable.getD []).filter (·.uses.allows k)
  shared ++ (e.declarations k).getD []

/-- Whether the entity declares anything for a kind, even an empty list. -/
def declares (e : Entity) (k : Kind) : Bool :=
  (e.declarations k).isSome || (k ≠ .queryable && e.queryable.isSome)

/-- The error for a kind that is not declared. -/
def undeclared (e : Entity) : Kind → Option Error
  | .queryable => none
  | .filterable => some (.notFilterable e.name)
  | .sortable => some (.notSortable e.name)
  | .selectable => some (.notSelectable e.name)

end Entity

/-- The aliases of a kind. -/
def Table.of (e : Entity) (k : Kind) : Except Error Table :=
  if e.declares k then
    (e.declared k).foldlM (fun t d =>
      (e.check d).map fun () => { t with entries := t.entries.put d.aliasName (e.entry d) })
      ⟨e.name, k, ∅⟩
  else
    match e.undeclared k with
    | some err => .error err
    | none => .ok ⟨e.name, k, ∅⟩

end RequestPlan
