import RequestPlan.Catalog.Basic
import RequestPlan.Work

/-!
# Left joins along paths

A dotted path of relations is joined segment by segment, each prefix of it once.

* `Joins`: the joins so far and the tables that paths lead to.
* `leftJoin`: the table at the end of a path, joined as far as it is not yet.
* `Joining.run`: a hook's work, with the joins that it asks for.
-/

namespace RequestPlan

/-- A table that a path of joins leads to, with its entity. -/
structure Joined where
  aliasName : String
  definition : Definition

/-- What a hook sees of it. -/
def Joined.table (j : Joined) : JoinedTable := ⟨j.aliasName, j.definition.toEntity⟩

/-- The joins so far. -/
structure Joins where
  /-- The tables by path. -/
  memo : Dict Joined
  clauses : List Join

namespace Joins

/-- No join yet. -/
def none : Joins := ⟨∅, []⟩

/-- The table at the end of a path, if it is joined. -/
def find? (js : Joins) (path : String) : Option Joined := js.memo.find? path

/-- A join more, for a path. -/
def add (js : Joins) (path : String) (clause : Join) (d : Definition) : Joins :=
  ⟨js.memo.put path ⟨clause.aliasName, d⟩, js.clauses ++ [clause]⟩

end Joins

/-- Work that may add joins. -/
abbrev JoinM := Work Joins

/-- The characters that so many bytes of a text hold. -/
def takeBytes (bytes : Nat) : List Char → List Char
  | [] => []
  | c :: cs => if c.utf8Size ≤ bytes then c :: takeBytes (bytes - c.utf8Size) cs else []

/-- The start of a path, as many bytes as are given. -/
def pathStart (path : String) (bytes : Nat) : String := String.ofList (takeBytes bytes path.toList)

/-- Where a segment ends in its path, when the one before it ends at `stop`. -/
def segmentEnd (stop : Nat) (segment : String) : Nat :=
  if stop = 0 then segment.utf8ByteSize else stop + segment.utf8ByteSize + 1

/-- The join for a segment under an alias, and the entity that it leads to: an owning
relation of the entity, or what a hook of it makes. -/
def joinSegment (c : Catalog) (d : Definition) (segment prior aliasName : String) :
    Except Error (Option (Join × Definition)) :=
  match d.relation? segment with
  | some r =>
    if r.kind = .owning then do
      let related ← c.get r.related
      return some (⟨related.table, aliasName, aliasName ++ "." ++ r.ownerColumn related.toEntity,
        prior ++ "." ++ r.foreignKey⟩, related)
    else .ok none
  | none =>
    match d.hooks.joins.find? segment with
    | none => .ok none
    | some hook => do
      match ← hook ⟨prior, aliasName⟩ with
      | none => return none
      | some custom =>
        match custom.entity with
        | none => return some (custom.join, d)
        | some name => return some (custom.join, ← c.get name)

/-- The joins for the segments behind `stop` bytes of a path, from the table `prior` of the
entity `d` on. Answers whether all of them can be joined. -/
def joinSegments (c : Catalog) (path prior : String) (d : Definition) (stop : Nat) :
    List String → JoinM Bool
  | [] => return true
  | segment :: rest => do
    let stop := segmentEnd stop segment
    let start := pathStart path stop
    match (← get).find? start with
    | some joined => joinSegments c path joined.aliasName joined.definition stop rest
    | none =>
      match ← joinSegment c d segment prior (prior ++ "_" ++ segment ++ "_join") with
      | none => return false
      | some (clause, next) =>
        modify fun js => js.add start clause next
        joinSegments c path clause.aliasName next stop rest

/-- The table at the end of a path from the root entity, if the path can be joined. -/
def leftJoin (c : Catalog) (root : Definition) (path : String) : JoinM (Option Joined) := do
  match (← get).find? path with
  | some joined => return some joined
  | none =>
    if ← joinSegments c path root.table root 0 (Text.splitOn '.' path) then
      return (← get).find? path
    else return none

/-- A hook's work, with the joins that it asks for. -/
def Joining.run {α : Type} (c : Catalog) (root : Definition) : Joining α → JoinM α
  | .done result => Work.of result
  | .ask path next => do
    let (result, js) := (leftJoin c root path).run.run (← get)
    set js
    (next (result.map fun joined => joined.map Joined.table)).run c root

end RequestPlan
