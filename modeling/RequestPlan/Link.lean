/-!
# Links between rows

* `Link`: the pair of columns through which a row reaches its related rows, with a type
  constraint where the related entity is one of several.
-/

namespace RequestPlan

/-- A column that has to hold the name of an entity. -/
structure Morph where
  column : String
  value : String
deriving DecidableEq, Repr

/-- How a parent row reaches its related rows. Both columns are qualified. -/
structure Link where
  /-- The relation's name on the parent entity. -/
  name : String
  /-- The related entity's table. -/
  table : String
  parentColumn : String
  relatedColumn : String
  morph : Option Morph
deriving DecidableEq, Repr

end RequestPlan
