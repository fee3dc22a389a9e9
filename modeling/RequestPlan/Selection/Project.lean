import RequestPlan.Selection.Expand

/-!
# Projections of selections

* `Registry.project`: the select lists for a selection. On both sides of a relation the
  columns are added by which related rows are put to their parents.
* `Registry.resolve`: the same for requested paths.
-/

namespace RequestPlan
namespace Registry

/-- The column for an alias: what the hook of its key makes, or the column of its key. -/
def selectColumn (d : Definition) (aliasName key : String) : Except Error Column :=
  match d.hooks.selects.find? key with
  | some hook => hook ⟨d.table, aliasName, key⟩
  | none => .ok (.stored (d.column key) (some aliasName))

/-- The projection with the columns for aliases; those not in the table are left out. -/
def projectColumns (d : Definition) (t : Table) (aliases : List String) :
    Except Error Projection :=
  aliases.foldlM (fun p aliasName =>
    match t.find? aliasName with
    | none => .ok p
    | some entry => (selectColumn d aliasName entry.key).map p.push) .empty

/-- Columns that are selected as they are, for their use as keys. -/
def keyColumns (columns : List String) : List Column := columns.map fun c => .stored c none

mutual

/-- The projection of a selection on an entity. -/
def project (entity : String) : Selection → RegistryM Projection
  | ⟨columns, relations⟩ => do
    let d ← definition entity
    let t ← table entity .selectable
    projectBelow d t (← Work.of (projectColumns d t columns)) relations

/-- The projection of an entity with those of selections below its relations. -/
def projectBelow (d : Definition) (t : Table) (p : Projection) :
    List (String × Selection) → RegistryM Projection
  | [] => return p
  | (aliasName, selection) :: rest => do
    match (t.find? aliasName).bind fun e => d.relation? e.key with
    | none => projectBelow d t p rest
    | some r =>
      let related ← definition r.related
      match r.link? d.toEntity related.toEntity with
      | none => throw (.unsupportedRelation d.name r.name .select)
      | some link =>
        let child ← project related.name selection
        let p := p.pushAll (keyColumns (r.parentKeys d.toEntity))
        let child := child.pushAll (keyColumns (r.childKeys related.toEntity))
        projectBelow d t (p.attach link child) rest

end

/-- The projection of what paths select. -/
def resolve (depth : Nat) (entity : String) (paths : List String) (scope : Scope) :
    RegistryM Projection := do
  project entity (← select depth entity paths scope)

end Registry
end RequestPlan
