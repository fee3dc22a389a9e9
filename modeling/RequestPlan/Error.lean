import RequestPlan.Plan
import RequestPlan.Text.Quoted

/-!
# What can go wrong

* `Error`: the causes for which a declaration or a request is refused.
* `Error.message`: the text of each.
-/

namespace RequestPlan

/-- What is wrong with a declaration. -/
inductive DeclarationFault where
  | emptyAlias
  /-- The alias has a character that request keys and paths are divided by. -/
  | reservedAlias (aliasName : String)
  | emptyKey (aliasName : String)
deriving DecidableEq, Repr

/-- The text of a declaration's fault. -/
def DeclarationFault.message : DeclarationFault → String
  | .emptyAlias => "empty alias"
  | .reservedAlias aliasName =>
    "alias " ++ Text.quoted aliasName ++ " contains a reserved character"
  | .emptyKey aliasName => "alias " ++ Text.quoted aliasName ++ " has an empty key"

/-- What is wrong with a pattern. -/
inductive PatternFault where
  /-- Three stars or more in a row. -/
  | wildcards
  /-- Two stars beside other characters. -/
  | recursive
  /-- A class of characters that is not closed. -/
  | range
deriving DecidableEq, Repr

/-- The text of a pattern's fault. -/
def PatternFault.message : PatternFault → String
  | .wildcards => "wildcards are either regular `*` or recursive `**`"
  | .recursive => "recursive wildcards must form a single path component"
  | .range => "invalid range pattern"

/-- Why a value is refused. -/
inductive ValueFault where
  | notFlag (v : Value)
  | notTimestamp (v : Value)
  | nested

/-- The text of a value's fault. -/
def ValueFault.message : ValueFault → String
  | .notFlag v => v.display ++ " is not a boolean token"
  | .notTimestamp v => v.display ++ " is not a timestamp"
  | .nested => "nested objects are not supported"

/-- What a relation is used for. -/
inductive RelationUse where
  | filter
  | select
deriving DecidableEq, Repr

/-- The name of a use. -/
def RelationUse.name : RelationUse → String
  | .filter => "filter"
  | .select => "select"

/-- Why a declaration or a request is refused. -/
inductive Error where
  | unknownEntity (name : String)
  | duplicateEntity (name : String)
  | unknownRelation (entity relation : String)
  /-- Relations through a table of pairs can be neither filtered nor selected. -/
  | unsupportedRelation (entity relation : String) (use : RelationUse)
  | notFilterable (entity : String)
  | notSortable (entity : String)
  | notSelectable (entity : String)
  | invalidDeclaration (entity : String) (fault : DeclarationFault)
  /-- A pattern's fault, at a character of the segment that has it. -/
  | invalidPattern (pattern : String) (position : Nat) (fault : PatternFault)
  | invalidFilterValue (key : String) (fault : ValueFault)
  | hook (name reason : String)
  | plan (e : PlanError)
  /-- A text is no JSON value of the expected form. -/
  | schema

/-- The text of an error. -/
def Error.message : Error → String
  | .unknownEntity name => "unknown entity: " ++ name
  | .duplicateEntity name => "entity already registered: " ++ name
  | .unknownRelation entity relation => entity ++ " has no relation " ++ relation
  | .unsupportedRelation entity relation use =>
    "relation " ++ entity ++ "." ++ relation ++ " is not supported for " ++ use.name
  | .notFilterable entity => entity ++ " is not filterable"
  | .notSortable entity => entity ++ " is not sortable"
  | .notSelectable entity => entity ++ " is not selectable"
  | .invalidDeclaration entity fault =>
    "invalid declaration on " ++ entity ++ ": " ++ fault.message
  | .invalidPattern pattern position fault =>
    "invalid pattern " ++ Text.quoted pattern ++ ": Pattern syntax error near position " ++
      toString position ++ ": " ++ fault.message
  | .invalidFilterValue key fault =>
    "invalid value for filter " ++ key ++ ": " ++ fault.message
  | .hook name reason => "hook " ++ name ++ " failed: " ++ reason
  | .plan e => "plan error: " ++ e.message
  | .schema => "schema error"

end RequestPlan
