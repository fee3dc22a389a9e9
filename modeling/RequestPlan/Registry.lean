import RequestPlan.Filter.Compiled
import RequestPlan.Filter.Key
import RequestPlan.Work

/-!
# The registry

A catalog with the tables and filters that were made from it, so that each is made once.

* `Registry.table`: a table of aliases, `Registry.filter`: the filter of a request key.
* `Registry.canonical`: the part of a key that matters, under which its filter is kept.
* `Counters`: how often something was there already, and how often it had to be made.
-/

namespace RequestPlan

/-- How often tables and filters were there already, and how often not. -/
structure Counters where
  tableHits : Nat
  tableMisses : Nat
  filterHits : Nat
  filterMisses : Nat
deriving DecidableEq, Repr

/-- The share of what was there already. -/
def Counters.hitRate (n : Counters) : Float :=
  let hits := n.tableHits + n.filterHits
  let total := hits + n.tableMisses + n.filterMisses
  if total = 0 then 0.0 else hits.toFloat / total.toFloat

/-- A catalog with what was made from it. -/
structure Registry where
  catalog : Catalog
  /-- The tables by entity and kind. -/
  tables : List ((String × Kind) × Table)
  /-- The filters by entity and canonical key. -/
  filters : List ((String × String) × CompiledFilter)
  counters : Counters

/-- Work with the registry, which may fail. -/
abbrev RegistryM := Work Registry

namespace Registry

/-- A registry without entities. -/
def empty : Registry := ⟨∅, [], [], ⟨0, 0, 0, 0⟩⟩

instance : Inhabited Registry := ⟨empty⟩

/-- Changes the counters. -/
def count (f : Counters → Counters) : RegistryM Unit :=
  modify fun r => { r with counters := f r.counters }

/-- One entity more. -/
def register (d : Definition) : RegistryM Unit := do
  let c ← Work.of ((← get).catalog.register d)
  modify fun r => { r with catalog := c }

/-- An entity by name. -/
def definition (name : String) : RegistryM Definition := do
  Work.of ((← get).catalog.get name)

/-- Forgets the tables and filters. -/
def clear : RegistryM Unit := modify fun r => { r with tables := [], filters := [] }

/-- The table of a kind. -/
def table (entity : String) (k : Kind) : RegistryM Table := do
  match (← get).tables.lookup (entity, k) with
  | some t =>
    count fun n => { n with tableHits := n.tableHits + 1 }
    return t
  | none =>
    count fun n => { n with tableMisses := n.tableMisses + 1 }
    let t ← Work.of (Table.of (← definition entity).toEntity k)
    modify fun r => { r with tables := r.tables ++ [((entity, k), t)] }
    return t

/-- The part of a key that matters: behind an alias that is no relation nothing does, and
behind a relation that cannot be followed everything. A key that starts with no alias of
the entity has none. -/
def canonical (entity : String) : FilterKey → RegistryM (Option FilterKey)
  | [] => return none
  | aliasName :: rest => do
    match (← table entity .filterable).find? aliasName with
    | none => return none
    | some entry =>
      if Mode.parse entry.mode ≠ .relation ∨ FilterKey.isBlank rest then return some [aliasName]
      else
        match (← definition entity).relation? entry.key with
        | none => return some (aliasName :: rest)
        | some r =>
          if r.kind = .manyToMany ∨ (← get).catalog.contains r.related = false then
            return some (aliasName :: rest)
          else return (← canonical r.related rest).map (aliasName :: ·)

/-- The filter for a column: the hook of its mode or alias, or the mode itself. -/
def columnFilter (d : Definition) (key : FilterKey) (aliasName : String) (entry : Entry) :
    CompiledFilter :=
  let mode := Mode.parse entry.mode
  let column := d.column entry.key
  let scope : FilterScope := ⟨d.name, d.table, aliasName, column⟩
  let modeHook := entry.mode.bind fun m =>
    if mode.isOverridable && mode ≠ .default then (d.hooks.mode? m).map fun h => (m, h)
    else none
  let aliasHook := match mode with
    | .default | .custom _ => d.hooks.filters.find? aliasName
    | _ => none
  match modeHook, aliasHook with
  | some (m, h), _ => .hook d.name (FilterKey.text key) ("mode " ++ m) scope h
  | none, some h => .hook d.name (FilterKey.text key) ("filter " ++ aliasName) scope h
  | none, none => .column d.name (FilterKey.text key) mode column

/-- The relation that a filter goes through: its link and the related entity. -/
def filterLink (d : Definition) (key : String) : RegistryM (Link × Definition) := do
  match d.relation? key with
  | none => throw (.unknownRelation d.name key)
  | some r =>
    let unsupported := Error.unsupportedRelation d.name r.name .filter
    if r.kind = .manyToMany then throw unsupported
    else
      let related ← definition r.related
      match r.link? d.toEntity related.toEntity with
      | none => throw unsupported
      | some link => return (link, related)

/-- A way to find the filter of a key of an entity. -/
abbrev FilterFinder := String → FilterKey → RegistryM (Option CompiledFilter)

/-- The filter of a key, made anew; the filters on related rows are found by `find`. -/
def compileBy (find : FilterFinder) : FilterFinder := fun entity key => do
  match key with
  | [] => return none
  | aliasName :: rest =>
    let d ← definition entity
    match (← table entity .filterable).find? aliasName with
    | none => return none
    | some entry =>
      if Mode.parse entry.mode = .relation then
        let (link, related) ← filterLink d entry.key
        if FilterKey.isBlank rest then return some (.related d.name (FilterKey.text key) link)
        else
          return (← find related.name rest).map fun child =>
            .relatedWhere d.name (FilterKey.text key) link child
      else return some (columnFilter d key aliasName entry)

/-- The filter of a key, kept under its canonical form; the filters on related rows are found
by `find`. -/
def filterBy (find : FilterFinder) : FilterFinder := fun entity key => do
  match ← canonical entity key with
  | none => return none
  | some key =>
    match (← get).filters.lookup (entity, FilterKey.text key) with
    | some f =>
      count fun n => { n with filterHits := n.filterHits + 1 }
      return some f
    | none =>
      count fun n => { n with filterMisses := n.filterMisses + 1 }
      match ← compileBy find entity key with
      | none => return none
      | some f =>
        modify fun r => { r with filters := r.filters ++ [((entity, FilterKey.text key), f)] }
        return some f

/-- The filters of keys with no more than so many parts. -/
def filterWithin : (parts : Nat) → FilterFinder
  | 0 => fun _ _ => return none
  | parts + 1 => filterBy (filterWithin parts)

/-- The filter of a key, kept for the next time. The key behind an alias is shorter, so keys
of its length are enough. -/
def filter : FilterFinder := fun entity key => filterWithin key.length entity key

/-- The filter of a key, made anew. -/
def compile : FilterFinder := fun entity key => compileBy filter entity key

end Registry
end RequestPlan
