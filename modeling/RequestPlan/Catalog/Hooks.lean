import RequestPlan.Catalog.Entity
import RequestPlan.Error
import RequestPlan.Filter.Mode

/-!
# Hooks

An entity may bring code of its own for some modes, aliases, keys and path segments.

* `Joining`: what a hook for filters or orderings does. It may ask for joins, one after
  the other, and ends with a result; nothing else of a plan is within its reach.
* `Hooks`: the hooks of an entity.
* `Definition`: an entity with its hooks.
-/

namespace RequestPlan

/-- A table that a path of joins leads to. -/
structure JoinedTable where
  aliasName : String
  entity : Entity

/-- Work that may ask for joins before it ends. -/
inductive Joining (α : Type) where
  | done (result : Except Error α)
  /-- A path to join, and what follows for each outcome. -/
  | ask (path : String) (next : Except Error (Option JoinedTable) → Joining α)

namespace Joining

/-- The result when no join is to be had. -/
def alone {α : Type} : Joining α → Except Error α
  | .done result => result
  | .ask _ next => (next (.ok none)).alone

end Joining

/-- What a filter hook is told: its entity and table, the alias, and its column. -/
structure FilterScope where
  entity : String
  table : String
  aliasName : String
  column : String

/-- A hook that makes the predicate for a value. -/
abbrev FilterHook := FilterScope → Value → Joining (Option Predicate)

/-- What a select hook is told. -/
structure SelectScope where
  table : String
  aliasName : String
  key : String

/-- A hook that makes a column for an alias. -/
abbrev SelectHook := SelectScope → Except Error Column

/-- What a sort hook is told: its entity and table, the alias and key, and its column. -/
structure SortScope where
  entity : String
  table : String
  aliasName : String
  key : String
  column : String

/-- A hook that makes the orderings for a direction. -/
abbrev SortHook := SortScope → Direction → Joining (List Order)

/-- What a join hook is told: the alias that is joined to, and the one to use. -/
structure JoinScope where
  prior : String
  aliasName : String

/-- A join, and the entity that it leads to if not the same. -/
structure CustomJoin where
  join : Join
  entity : Option String
deriving DecidableEq, Repr

/-- A hook that makes a join for a segment of a path. -/
abbrev JoinHook := JoinScope → Except Error (Option CustomJoin)

/-- The hooks of an entity. -/
structure Hooks where
  /-- By the key of a mode. -/
  modes : Dict FilterHook
  /-- By alias. -/
  filters : Dict FilterHook
  /-- By key. -/
  selects : Dict SelectHook
  /-- By key. -/
  sorts : Dict SortHook
  /-- By the segment of a path. -/
  joins : Dict JoinHook

namespace Hooks

/-- No hooks. -/
def none : Hooks := ⟨∅, ∅, ∅, ∅, ∅⟩

/-- A hook for a mode more; names with one key are one mode. -/
def addMode (h : Hooks) (mode : String) (hook : FilterHook) : Hooks :=
  { h with modes := h.modes.put (modeKey mode) hook }

/-- The hook for a mode. -/
def mode? (h : Hooks) (mode : String) : Option FilterHook := h.modes.find? (modeKey mode)

/-- Whether there is no hook. -/
def isEmpty (h : Hooks) : Bool :=
  h.modes.isEmpty && h.filters.isEmpty && h.selects.isEmpty && h.sorts.isEmpty &&
    h.joins.isEmpty

/-- The keys of the hooks in a listing. -/
def text (h : Hooks) : String :=
  "EntityHooks \x7b modes: " ++ listing h.modes.keys ++ ", filters: " ++ listing h.filters.keys ++
    ", selects: " ++ listing h.selects.keys ++ ", sorts: " ++ listing h.sorts.keys ++
    ", joins: " ++ listing h.joins.keys ++ " \x7d"
where
  listing (keys : List String) : String :=
    "[" ++ Text.joinWith ", " (keys.map Text.quoted) ++ "]"

end Hooks

/-- An entity with its hooks. -/
structure Definition extends Entity where
  hooks : Hooks

/-- An entity without hooks. -/
def Entity.define (e : Entity) : Definition := { e with hooks := .none }

end RequestPlan
