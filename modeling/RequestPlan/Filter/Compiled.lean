import RequestPlan.Filter.Reading
import RequestPlan.Joins

/-!
# Compiled filters

* `CompiledFilter`: what a request key stands for, found once for all values.
* `CompiledFilter.apply`: the predicate for a value. Filters on related rows stand below
  an existence test, and joins are out of their reach (`CompiledFilter.applyAlone`).
-/

namespace RequestPlan

/-- What a request key of an entity stands for. -/
inductive CompiledFilter where
  /-- A column, its values read in a mode. -/
  | column (entity key : String) (mode : Mode) (column : String)
  /-- A hook, with its name and what it is told. -/
  | hook (entity key name : String) (scope : FilterScope) (run : FilterHook)
  /-- A relation itself: whether there are related rows. -/
  | related (entity key : String) (link : Link)
  /-- A filter on the related rows. -/
  | relatedWhere (entity key : String) (link : Link) (child : CompiledFilter)

namespace CompiledFilter

/-- The entity that the key belongs to. -/
def entity : CompiledFilter → String
  | .column e _ _ _ | .hook e _ _ _ _ | .related e _ _ | .relatedWhere e _ _ _ => e

/-- The request key. -/
def key : CompiledFilter → String
  | .column _ k _ _ | .hook _ k _ _ _ | .related _ k _ | .relatedWhere _ k _ _ => k

/-- Whether the key leads through a relation. -/
def isRelation : CompiledFilter → Bool
  | .related _ _ _ | .relatedWhere _ _ _ _ => true
  | _ => false

/-- The mode in which values are read in the end. -/
def mode? : CompiledFilter → Option Mode
  | .column _ _ m _ => some m
  | .relatedWhere _ _ _ child => child.mode?
  | _ => none

/-- Whether a value asks for related rows, and not for there being none. -/
def asksForRelated : Value → Bool
  | .bool b => b
  | .string s => s = "true"
  | _ => false

/-- The test whether there are related rows. -/
def existence (link : Link) (v : Value) : Predicate :=
  if asksForRelated v then .related link else .unrelated link

/-- The predicate for a value, without joins. -/
def applyAlone (settings : Settings) (v : Value) :
    CompiledFilter → Except Error (Option Predicate)
  | .column _ key mode col => mode.predicate col key settings v
  | .hook _ _ _ scope run => (run scope v).alone
  | .related _ _ link => .ok (some (existence link v))
  | .relatedWhere _ _ link child =>
    (child.applyAlone settings v).map fun inner => some (.exists? link inner)

/-- The predicate for a value, with joins from the root entity on. -/
def apply (c : Catalog) (root : Definition) (settings : Settings) (v : Value)
    (f : CompiledFilter) : JoinM (Option Predicate) :=
  match f with
  | .hook _ _ _ scope run => (run scope v).run c root
  | f => Work.of (f.applyAlone settings v)

/-- The filter in a listing. -/
def listing : CompiledFilter → String
  | .column e k mode col =>
    start e k ++ "mode: " ++ mode.listing ++ ", column: " ++ Text.quoted col ++ " \x7d"
  | .hook e k name scope _ =>
    start e k ++ "hook: " ++ Text.quoted name ++ ", column: " ++ Text.quoted scope.column ++
      " \x7d"
  | .related e k link =>
    start e k ++ "relation: " ++ Text.quoted link.name ++ ", child: None \x7d"
  | .relatedWhere e k link child =>
    start e k ++ "relation: " ++ Text.quoted link.name ++ ", child: Some(" ++ child.listing ++
      ") \x7d"
where
  start (entity key : String) : String :=
    "CompiledFilter \x7b entity: " ++ Text.quoted entity ++ ", key: " ++ Text.quoted key ++ ", "

end CompiledFilter
end RequestPlan
