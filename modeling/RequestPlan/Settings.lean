import RequestPlan.Value

/-!
# Settings of a planner

* `ParameterNames`: the request parameters that are no filters.
* `Settings.clampPageSize`: the rows of a page, the default for none and no more than the
  most.
-/

namespace RequestPlan

/-- The names of the request parameters that are no filters. -/
structure ParameterNames where
  select : List String
  sort : List String
  page : List String
  pageSize : List String
  skip : List String

/-- The usual names. -/
def ParameterNames.usual : ParameterNames where
  select := ["props"]
  sort := ["sortby", "sorts"]
  page := ["page", "pagenumber"]
  pageSize := ["pagesize", "size", "count"]
  skip := ["skip", "offset"]

/-- Whether a parameter is no filter by its name. -/
def ParameterNames.has (n : ParameterNames) (name : String) : Bool :=
  name ∈ n.select || name ∈ n.sort || name ∈ n.page || name ∈ n.pageSize || name ∈ n.skip

/-- The settings of a planner. -/
structure Settings where
  defaultPageSize : UInt64
  /-- The most rows of a page, if there is a limit. -/
  maxPageSize : Option UInt64
  /-- How deep relations may be selected. -/
  selectDepth : Nat
  /-- Whether a truth value that cannot be read is refused. -/
  strictFlags : Bool
  names : ParameterNames

namespace Settings

/-- The usual settings. -/
def usual : Settings := ⟨10, none, 5, false, .usual⟩

/-- The rows of a page. -/
def clampPageSize (s : Settings) (size : Option UInt64) : UInt64 :=
  let size := match size with
    | none => s.defaultPageSize
    | some n => if n = 0 then s.defaultPageSize else n
  match s.maxPageSize with
  | some most => min size most
  | none => size

end Settings
end RequestPlan
