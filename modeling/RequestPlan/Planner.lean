import RequestPlan.Paging
import RequestPlan.Selection.Project
import RequestPlan.Sorting

/-!
# The planner

A planner collects what calls ask of one entity, and ends with a plan.

* `Planner.filter`, `Planner.select`, `Planner.unselect`, `Planner.sort`,
  `Planner.paginate`, …: the calls. What a call did before it failed stays done.
* `Planner.apply`: all that the parameters of a request ask for.
* `Planner.build`: the plan.
-/

namespace RequestPlan

/-- What calls have asked of an entity. -/
structure Planner where
  entity : Definition
  settings : Settings
  filters : List Predicate
  selection : Option Selection
  joins : Joins
  orders : List Order
  window : Option Window
  /-- The filters for a request that names none. -/
  defaultFilter : Params
  /-- The paths for a request that names none. -/
  defaultSelect : List String
  /-- The sort tokens for a request that names none. -/
  defaultSort : List String

/-- Work with the registry and a planner. -/
abbrev PlannerM := Work (Registry × Planner)

namespace PlannerM

/-- Work with the registry. -/
def ofRegistry {α : Type} (m : RegistryM α) : PlannerM α :=
  Work.on (fun s => s.1) (fun s r => (r, s.2)) m

/-- Work that may add joins. -/
def ofSort {α : Type} (m : SortM α) : PlannerM α :=
  Work.on (fun s => (s.1, s.2.joins)) (fun s t => (t.1, { s.2 with joins := t.2 })) m

/-- Changes the planner. -/
def update (f : Planner → Planner) : PlannerM Unit := modify fun s => (s.1, f s.2)

end PlannerM

namespace Planner

/-- A planner that nothing was asked of yet. -/
def start (d : Definition) (settings : Settings) : Planner where
  entity := d
  settings := settings
  filters := []
  selection := none
  joins := .none
  orders := []
  window := none
  defaultFilter := ∅
  defaultSelect := []
  defaultSort := []

/-- The planner as it is. -/
def current : PlannerM Planner := do return (← get).2

/-! ## Filters -/

/-- Whether the entity declares a filter under an alias. -/
def declaresFilter (aliasName : String) : PlannerM Bool := do
  let e := (← current).entity
  if e.filterable.isNone && e.queryable.isNone then return false
  else return ((← PlannerM.ofRegistry (Registry.table e.name .filterable)).find? aliasName).isSome

/-- Whether a parameter is meant as a filter: those with a meaning of their own only when the
entity declares a filter of the name. -/
def isFilter (name : String) : PlannerM Bool := do
  if (← current).settings.names.has name then declaresFilter name else return true

/-- The keys between which `_or_` stands. -/
def branches (key : String) : List String := Text.splitOnMark "_or_" key

/-- The predicate of one key, if it names a filter that a value asks for. -/
def branchPredicate (key : String) (v : Value) : PlannerM (Option Predicate) := do
  let p ← current
  match ← PlannerM.ofRegistry (Registry.filter p.entity.name (FilterKey.parse key)) with
  | none => return none
  | some f =>
    PlannerM.ofSort (SortM.ofJoins fun c => f.apply c p.entity p.settings v)

/-- The predicates of those keys that have one. -/
def branchPredicates (v : Value) : List String → PlannerM (List Predicate)
  | [] => return []
  | key :: keys => do
    let predicate ← branchPredicate key v
    return predicate.toList ++ (← branchPredicates v keys)

/-- The filter of one key, or of several with `_or_` between them. Null asks for nothing. -/
def filterKey (key : String) (v : Value) : PlannerM Unit := do
  if v.isNull then return
  else
    match Predicate.any? (← branchPredicates v (branches key)) with
    | none => return
    | some predicate => PlannerM.update fun p => { p with filters := p.filters ++ [predicate] }

/-- The filters of entries, one after the other. -/
def filterEntries : List (String × Value) → PlannerM Unit
  | [] => return
  | (key, v) :: rest => do
    filterKey key v
    filterEntries rest

/-- The filters of those entries that are meant as filters. Answers whether there were any. -/
def filterRequested : List (String × Value) → PlannerM Bool
  | [] => return false
  | (key, v) :: rest => do
    if ← isFilter key then
      filterKey key v
      let _ ← filterRequested rest
      return true
    else filterRequested rest

/-- The filters of parameters, or the default ones. -/
def filter (ps : Params) : PlannerM Unit := do
  if ← filterRequested ps.entries then return
  else filterEntries (← current).defaultFilter.entries

/-- The filters for a request that names none. -/
def setDefaultFilter (ps : Params) : PlannerM Unit :=
  PlannerM.update fun p => { p with defaultFilter := ps }

/-! ## Selection -/

/-- The texts without a repetition of the one just before. -/
def dropRepeats : List String → List String
  | a :: b :: rest => if a = b then dropRepeats (b :: rest) else a :: dropRepeats (b :: rest)
  | rest => rest

/-- The paths to select: those of the request, or the default ones, or all columns. -/
def pathsToSelect (p : Planner) (paths : List String) : List String :=
  match paths.filterMap Text.nonBlank? with
  | [] => dropRepeats (if p.defaultSelect.isEmpty then ["*"] else p.defaultSelect)
  | requested => dropRepeats requested

/-- Selects paths within a scope, besides what is selected already. -/
def selectScoped (paths : List String) (scope : Scope) : PlannerM Unit := do
  let p ← current
  let selection ← PlannerM.ofRegistry
    (Registry.select p.settings.selectDepth p.entity.name (p.pathsToSelect paths) scope)
  PlannerM.update fun p => { p with selection := some ((p.selection.getD .empty).merge selection) }

/-- Selects paths. -/
def select (paths : List String) : PlannerM Unit := selectScoped paths .all

/-- Selects those of the default paths that are of a pattern. -/
def selectOnly (patterns : List String) : PlannerM Unit := do
  selectScoped [] (← Work.of (Scope.parseOnly patterns))

/-- Selects those of the default paths that are of no pattern. -/
def selectExcept (patterns : List String) : PlannerM Unit := do
  selectScoped [] (← Work.of (Scope.parseExcept patterns))

/-- Takes back what patterns cover. -/
def unselect (patterns : List String) : PlannerM Unit := do
  let t ← Work.of (PatternTree.parse patterns)
  PlannerM.update fun p => { p with selection := p.selection.map (Selection.remove t) }

/-- The paths for a request that names none. -/
def setDefaultSelect (paths : List String) : PlannerM Unit :=
  PlannerM.update fun p => { p with defaultSelect := paths }

/-! ## Order and joins -/

/-- The sort tokens to follow: those of the request, or the default ones. -/
def tokensToSort (p : Planner) (tokens : List String) : List String :=
  match tokens.filterMap Text.nonBlank? with
  | [] => p.defaultSort
  | requested => requested

/-- Orders by tokens within a scope, behind the orderings that there are. -/
def sortScoped (tokens : List String) (scope : Scope) : PlannerM Unit := do
  let p ← current
  match p.tokensToSort tokens with
  | [] => return
  | requested =>
    let orders ← PlannerM.ofSort (Registry.sort p.entity requested scope)
    PlannerM.update fun p => { p with orders := p.orders ++ orders }

/-- Orders by tokens. -/
def sort (tokens : List String) : PlannerM Unit := sortScoped tokens .all

/-- The sort tokens for a request that names none. -/
def setDefaultSort (tokens : List String) : PlannerM Unit :=
  PlannerM.update fun p => { p with defaultSort := tokens }

/-- The table at the end of a path, joined as far as it is not yet. -/
def join (path : String) : PlannerM (Option Joined) := do
  let d := (← current).entity
  PlannerM.ofSort (SortM.ofJoins fun c => leftJoin c d path)

/-! ## Rows -/

/-- Takes the rows of a request. -/
def page (request : PageRequest) : PlannerM Unit := do
  let w ← Work.of (request.window (← current).settings)
  PlannerM.update fun p => { p with window := some w }

/-- Takes the rows of a page. -/
def paginate (number : Int64) (size : Option UInt64) : PlannerM Unit := page (.page number size)

/-- Takes the rows behind an offset. -/
def skipTake (skip : UInt64) (size : Option UInt64) : PlannerM Unit := page (.offset skip size)

/-- Takes the rows that parameters ask for. -/
def paginateBy (ps : Params) : PlannerM Unit := do
  page (.ofParams (← current).settings.names ps)

/-! ## Requests and plans -/

/-- The texts that the first parameter of several names lists. -/
def namesIn (ps : Params) (names : List String) : List String :=
  match ps.first? names with
  | some v => v.names
  | none => []

/-- All that the parameters of a request ask for. -/
def apply (ps : Params) : PlannerM Unit := do
  let names := (← current).settings.names
  filter ps
  select (namesIn ps names.select)
  sort (namesIn ps names.sort)
  paginateBy ps

/-- The plan. -/
def build (p : Planner) : RegistryM Plan := do
  let projection ← match p.selection with
    | none => pure none
    | some s => some <$> Registry.project p.entity.name s
  return {
    entity := p.entity.name
    table := p.entity.table
    joins := p.joins.clauses
    filters := p.filters
    projection := projection
    orders := p.orders
    window := p.window }

end Planner
end RequestPlan
