import RequestPlan.Text.Blank
import RequestPlan.Text.Case
import RequestPlan.Text.Split

/-!
# Declarations

An entity declares under which aliases requests may speak of its columns and relations.

* `Kind`: the four lists of declarations that an entity may have.
* `Capabilities.parse`: the uses named in a list of words between bars.
* `Declaration.parse`: the shorthand `mode:key|uses`, where mode and uses may be left out
  and a blank key means the alias.
-/

namespace RequestPlan

/-- The lists of declarations of an entity. -/
inductive Kind where
  /-- Declarations that the other three share. -/
  | queryable
  | filterable
  | sortable
  | selectable
deriving DecidableEq, Repr

/-- The use that a list is for. -/
def Kind.use : Kind → String
  | .queryable => "all"
  | .filterable => "filter"
  | .sortable => "sort"
  | .selectable => "select"

/-- The uses that a shared declaration is meant for. -/
structure Capabilities where
  filter : Bool
  sort : Bool
  select : Bool
deriving DecidableEq, Repr

namespace Capabilities

/-- Every use. -/
def all : Capabilities := ⟨true, true, true⟩

/-- No use. -/
def none : Capabilities := ⟨false, false, false⟩

/-- The uses with one more, by its name; other words name nothing. -/
def add (c : Capabilities) (word : String) : Capabilities :=
  match Text.asciiLower word with
  | "all" => all
  | "filter" => { c with filter := true }
  | "sort" => { c with sort := true }
  | "select" => { c with select := true }
  | _ => c

/-- The uses named between bars. -/
def parse (words : String) : Capabilities :=
  ((Text.splitOn '|' words).map Text.trim).foldl add none

/-- Whether a declaration with these uses belongs to a list. -/
def allows (c : Capabilities) : Kind → Bool
  | .queryable => c.filter && c.sort && c.select
  | .filterable => c.filter
  | .sortable => c.sort
  | .selectable => c.select

end Capabilities

/-- An alias and what it stands for. -/
inductive Declaration where
  /-- The alias is the key. -/
  | bare (aliasName : String)
  | typed (aliasName : String) (mode : Option String) (key : String)
  /-- Meant for some uses only. -/
  | full (aliasName : String) (mode : Option String) (key : String) (uses : Capabilities)
deriving DecidableEq, Repr

namespace Declaration

/-- The public name. -/
def aliasName : Declaration → String
  | .bare a | .typed a _ _ | .full a _ _ _ => a

/-- A column, a relation or the key of a hook. -/
def key : Declaration → String
  | .bare a => a
  | .typed _ _ k | .full _ _ k _ => k

/-- How values are read, if the declaration says. -/
def mode : Declaration → Option String
  | .bare _ => none
  | .typed _ m _ | .full _ m _ _ => m

/-- The uses it is meant for. -/
def uses : Declaration → Capabilities
  | .full _ _ _ c => c
  | _ => .all

/-- A mode, a key and uses for an alias; a blank mode is none. -/
def ofParts (aliasName : String) (mode : Option String) (key : String) (uses : Capabilities) :
    Declaration :=
  .full aliasName (mode.bind Text.nonBlank?) key uses

/-- The declaration that a shorthand spells for an alias. -/
def parse (aliasName shorthand : String) : Declaration :=
  let (spec, uses) := match Text.cut? '|' shorthand with
    | some (spec, words) => (spec, some (Capabilities.parse words))
    | none => (shorthand, none)
  let (mode, key) := match Text.cut? ':' spec with
    | some (mode, key) => (Text.nonBlank? mode, Text.trim key)
    | none => (none, Text.trim spec)
  let key := if key.isEmpty then aliasName else key
  match uses with
  | some uses => .full aliasName mode key uses
  | none => .typed aliasName mode key

end Declaration
end RequestPlan
