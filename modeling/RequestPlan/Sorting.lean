import RequestPlan.Registry
import RequestPlan.Selection.Scope

/-!
# Sort tokens

* `Registry.sort`: the orderings for sort tokens. A declared alias orders by its column or
  through the hook of its key; another path is joined up to its last segment, which names a
  column of the joined table.

Tokens that are out of scope, or lead nowhere, are left out.
-/

namespace RequestPlan

/-- Work with the registry that may add joins. -/
abbrev SortM := Work (Registry × Joins)

namespace SortM

/-- Work with the registry. -/
def ofRegistry {α : Type} (m : RegistryM α) : SortM α :=
  Work.on (fun s => s.1) (fun s r => (r, s.2)) m

/-- Work that may add joins between the entities that are registered. -/
def ofJoins {α : Type} (m : Catalog → JoinM α) : SortM α := do
  Work.on (fun s => s.2) (fun s j => (s.1, j)) (m (← get).1.catalog)

end SortM

/-- Whether a text may be a column's name: letters, digits and `_`, no digit in front. -/
def isIdentifier (s : String) : Bool :=
  match s.toList with
  | [] => false
  | c :: cs => (c.isAlpha || c = '_') && cs.all fun c => c.isAlphanum || c = '_'

namespace Registry

/-- The table of sort aliases, unless the entity has none. -/
def sortable? (entity : String) : RegistryM (Option Table) :=
  tryCatch (do return some (← table entity .sortable)) fun
    | .notSortable _ => return none
    | e => throw e

/-- The column that the last segment of a path names on the joined table. -/
def joinedColumn? (j : Joined) (segment : String) : RegistryM (Option String) := do
  let entry := (← sortable? j.definition.name).bind fun t => t.find? segment
  let key := match entry with
    | some entry => entry.key
    | none => segment
  return if isIdentifier key then some (j.aliasName ++ "." ++ key) else none

/-- The ordering by a path that is no alias. -/
def sortJoined (root : Definition) (path : String) (direction : Direction) :
    SortM (List Order) := do
  match Text.cutLast? '.' path with
  | none => return []
  | some (before, segment) =>
    match ← SortM.ofJoins fun c => leftJoin c root before with
    | none => return []
    | some joined =>
      match ← SortM.ofRegistry (joinedColumn? joined segment) with
      | none => return []
      | some column => return [⟨column, direction⟩]

/-- The orderings by an alias. -/
def sortAlias (root : Definition) (entry : Entry) (direction : Direction) :
    SortM (List Order) :=
  let column := root.column entry.key
  match root.hooks.sorts.find? entry.key with
  | none => return [⟨column, direction⟩]
  | some hook =>
    SortM.ofJoins fun c =>
      (hook ⟨root.name, root.table, entry.aliasName, entry.key, column⟩ direction).run c root

/-- The orderings by a token without blanks around it. -/
def sortToken (root : Definition) (t : Table) (scope : Scope) (token : String) :
    SortM (List Order) :=
  let (path, direction) := Direction.splitToken token
  if scope.allowsPath (Text.splitOn '.' path) then
    match t.find? path with
    | some entry => sortAlias root entry direction
    | none => sortJoined root path direction
  else return []

/-- The orderings by tokens, one after the other. -/
def sortTokens (root : Definition) (t : Table) (scope : Scope) :
    List String → SortM (List Order)
  | [] => return []
  | token :: tokens => do
    let orders ← sortToken root t scope token
    return orders ++ (← sortTokens root t scope tokens)

/-- The orderings for the tokens of a request; blank ones are left out. -/
def sort (root : Definition) (tokens : List String) (scope : Scope) : SortM (List Order) := do
  let t ← SortM.ofRegistry (table root.name .sortable)
  sortTokens root t scope (tokens.filterMap Text.nonBlank?)

end Registry
end RequestPlan
