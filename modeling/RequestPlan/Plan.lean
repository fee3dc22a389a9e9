import RequestPlan.Predicate
import RequestPlan.Projection

/-!
# Query plans

* `Plan`: joins, filters, a projection, orderings and a window over one table.
* `Direction.splitToken`: a sort token is a path with `_asc` or `_desc` behind it.
* `Window.ofPage`: the rows of a page, unless their offset does not fit into 64 bits.
-/

namespace RequestPlan

/-- A left join of a table under an alias. -/
structure Join where
  table : String
  aliasName : String
  /-- The qualified column of the joined table. -/
  left : String
  /-- The qualified column of a table that is there already. -/
  right : String
deriving DecidableEq, Repr

/-- The join in SQL. -/
def Join.sql (j : Join) : String :=
  "LEFT JOIN " ++ j.table ++ " AS " ++ j.aliasName ++ " ON " ++ j.left ++ " = " ++ j.right

/-- Ascending or descending. -/
inductive Direction where
  | ascending
  | descending
deriving DecidableEq, Repr

namespace Direction

/-- The direction in SQL. -/
def sql : Direction → String
  | .ascending => "ASC"
  | .descending => "DESC"

/-- The other direction. -/
def opposite : Direction → Direction
  | .ascending => .descending
  | .descending => .ascending

/-- A sort token as a path and a direction, ascending where none is written. -/
def splitToken (token : String) : String × Direction :=
  match Text.dropSuffix? "_desc" token with
  | some path => (path, .descending)
  | none =>
    match Text.dropSuffix? "_asc" token with
    | some path => (path, .ascending)
    | none => (token, .ascending)

end Direction

/-- An ordering by a column or an expression. -/
structure Order where
  column : String
  direction : Direction
deriving DecidableEq, Repr

/-- The rows that are returned: how many are passed over, and how many taken at most. -/
structure Window where
  skip : UInt64
  take : UInt64
deriving DecidableEq, Repr

/-- What can go wrong while a plan is made or handed on. -/
inductive PlanError where
  /-- The page starts beyond the last row number there is. -/
  | windowOverflow (page size : UInt64)
  /-- The receiver of the plan refused a part of it. -/
  | builder (reason : String)
deriving DecidableEq, Repr

/-- The text of an error. -/
def PlanError.message : PlanError → String
  | .windowOverflow page size =>
    "page " ++ toString page.toNat ++ " of size " ++ toString size.toNat ++
      " overflows the row offset"
  | .builder reason => "builder error: " ++ reason

/-- The rows of a page, counted from one; lower pages are the first. -/
def Window.ofPage (page : Int64) (size : UInt64) : Except PlanError Window :=
  let page := (max page.toInt 1).toNat
  let skip := (page - 1) * size.toNat
  if skip < UInt64.size then .ok ⟨UInt64.ofNat skip, size⟩
  else .error (.windowOverflow (UInt64.ofNat page) size)

/-- A query over one entity. -/
structure Plan where
  entity : String
  table : String
  /-- The joins, in the order in which they were asked for. -/
  joins : List Join
  /-- The filters, all of which hold. -/
  filters : List Predicate
  /-- What is selected; the receiver decides when it is absent. -/
  projection : Option Projection
  orders : List Order
  window : Option Window

namespace Plan

/-- All filters in one predicate. -/
def predicate (p : Plan) : Option Predicate := Predicate.all? p.filters

/-- The join under an alias. -/
def join? (p : Plan) (aliasName : String) : Option Join := p.joins.find? (·.aliasName = aliasName)

end Plan
end RequestPlan
