import RequestPlan.Registry
import RequestPlan.Selection.Scope
import RequestPlan.Selection.Tree

/-!
# Requested paths

* `Selection.request?`: the first alias of a requested path, and the rest of the path.
* `Selection.requests`: the requested paths by their first aliases.
* `Registry.select`: the aliases that requested paths select. `*` stands for all columns of
  a level, and a relation alone for all columns below it. What is not declared, or out of
  scope, or deeper than allowed, is left out.
-/

namespace RequestPlan

namespace Selection

/-- The first alias of a requested path, and what goes on behind it. A blank path has none. -/
def request? (path : String) : Option (String × Option String) :=
  (Text.nonBlank? path).map fun path =>
    match Text.cut? '.' path with
    | some (first, rest) => (first, some rest)
    | none => (path, none)

/-- The paths that go on behind each first alias; a path that ends there goes on with
nothing. Blank paths are left out. -/
def requests (paths : List String) : Dict (List (Option String)) :=
  (paths.filterMap request?).foldl (fun d q => d.put q.1 ((d.find? q.1).getD [] ++ [q.2])) ∅

/-- All columns of a table that a scope allows. -/
def columnsOf (t : Table) (scope : Scope) : Selection :=
  (t.entries.values.filter fun e => !e.isRelation && scope.allows e.aliasName).foldl
    (fun s e => s.addColumn e.aliasName) empty

end Selection

namespace Registry

/-- The selection with what an alias adds to it, which `below` selects when the alias is a
relation; without `below` relations add nothing. -/
def selectAlias (below : Option (String → List String → Scope → RegistryM Selection))
    (d : Definition) (t : Table) (scope : Scope) (s : Selection)
    (request : String × List (Option String)) : RegistryM Selection :=
  let (aliasName, rests) := request
  match t.find? aliasName with
  | none => return s
  | some entry =>
    if !scope.allows aliasName then return s
    else
      match d.relation? entry.key with
      | none => return s.addColumn aliasName
      | some r =>
        if r.kind = .manyToMany then throw (.unsupportedRelation d.name r.name .select)
        else
          match below with
          | none => return s
          | some below => do
            let paths := rests.map fun rest => rest.getD "*"
            let child ← below r.related paths (scope.child aliasName)
            return s.addBelow aliasName child

/-- What paths select at a level, with `below` for the level below. -/
def selectLevel (below : Option (String → List String → Scope → RegistryM Selection))
    (entity : String) (paths : List String) (scope : Scope) : RegistryM Selection := do
  let d ← definition entity
  let t ← table entity .selectable
  let requests := Selection.requests paths
  let start := if requests.contains "*" then Selection.columnsOf t scope else .empty
  (requests.drop "*").entries.foldlM (selectAlias below d t scope) start

/-- What paths select, relations so many levels deep. -/
def select : (depth : Nat) → (entity : String) → (paths : List String) → (scope : Scope) →
    RegistryM Selection
  | 0 => selectLevel none
  | depth + 1 => selectLevel (some (select depth))

end Registry
end RequestPlan
