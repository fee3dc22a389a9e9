import RequestPlan.Catalog.Table

/-!
# Catalogs

* `Catalog`: the entities that are known, by name.
* `Catalog.register`: one entity more, unless a declaration of it has a fault or its name
  is taken.
-/

namespace RequestPlan

/-- The entities that are known. -/
abbrev Catalog := Dict Definition

namespace Catalog

/-- An entity by name. -/
def get (c : Catalog) (name : String) : Except Error Definition :=
  match c.find? name with
  | some d => .ok d
  | none => .error (.unknownEntity name)

/-- One entity more. -/
def register (c : Catalog) (d : Definition) : Except Error Catalog := do
  d.validate
  if c.contains d.name then .error (.duplicateEntity d.name) else .ok (c.put d.name d)

end Catalog
end RequestPlan
