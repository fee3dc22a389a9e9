import RequestPlan.Dict
import RequestPlan.Selection.Pattern

/-!
# Selections

* `Selection`: the aliases that are selected at a level and below each relation.
* `Selection.merge`, `Selection.remove`: the union of two selections, and a selection
  without what patterns cover.
* `Selection.paths`, `Selection.pathTexts`: the selected aliases with the relations that lead
  to them.
-/

namespace RequestPlan

/-- The aliases that are selected at a level, in order, and below its relations. -/
structure Selection where
  columns : List String
  relations : List (String × Selection)

namespace Selection

/-- Nothing selected. -/
def empty : Selection := ⟨[], []⟩

instance : Inhabited Selection := ⟨empty⟩

/-- Whether nothing is selected, not even a relation. -/
def isEmpty (s : Selection) : Bool := s.columns.isEmpty && s.relations.isEmpty

/-- The names in order with one more. -/
def insertName (name : String) : List String → List String
  | [] => [name]
  | n :: ns =>
    if name < n then name :: n :: ns
    else if name = n then n :: ns
    else n :: insertName name ns

/-- The selection with a column more. -/
def addColumn (s : Selection) (aliasName : String) : Selection :=
  { s with columns := insertName aliasName s.columns }

mutual

/-- The union of two selections. -/
def merge (s : Selection) : Selection → Selection
  | ⟨columns, relations⟩ =>
    ⟨columns.foldl (fun names name => insertName name names) s.columns,
      mergeBelow s.relations relations⟩

/-- The union below the relations of two selections. -/
def mergeBelow (own : List (String × Selection)) :
    List (String × Selection) → List (String × Selection)
  | [] => own
  | (aliasName, child) :: rest =>
    let both := merge ((Entries.find? aliasName own).getD empty) child
    mergeBelow (Entries.put aliasName both own) rest

end

/-- The selection with one more below a relation. -/
def addBelow (s : Selection) (aliasName : String) (child : Selection) : Selection :=
  s.merge ⟨[], [(aliasName, child)]⟩

mutual

/-- The selection without the aliases that patterns cover, and without the relations below
which nothing is left. -/
def remove (patterns : PatternTree) : Selection → Selection
  | ⟨columns, relations⟩ =>
    ⟨columns.filter fun aliasName => !patterns.covers aliasName, removeBelow patterns relations⟩

/-- The relations of a selection without what patterns cover. -/
def removeBelow (patterns : PatternTree) :
    List (String × Selection) → List (String × Selection)
  | [] => []
  | (aliasName, child) :: rest =>
    if patterns.covers aliasName then removeBelow patterns rest
    else
      let below := patterns.below aliasName
      let child := if below.isEmpty then child else remove below child
      if child.isEmpty then removeBelow patterns rest
      else (aliasName, child) :: removeBelow patterns rest

end

mutual

/-- The selected columns, each behind the relations that lead to it. -/
def paths : Selection → List (List String)
  | ⟨columns, relations⟩ => columns.map (fun aliasName => [aliasName]) ++ pathsBelow relations

/-- The columns that are selected below relations. -/
def pathsBelow : List (String × Selection) → List (List String)
  | [] => []
  | (aliasName, child) :: rest => (paths child).map (aliasName :: ·) ++ pathsBelow rest

end

/-- The selected columns as texts, with dots between the aliases. -/
def pathTexts (s : Selection) : List String := s.paths.map (Text.joinWith ".")

theorem mem_insertName {name n : String} {ns : List String} :
    n ∈ insertName name ns ↔ n = name ∨ n ∈ ns := by
  induction ns with
  | nil => simp [insertName]
  | cons m ns ih =>
    simp only [insertName]
    split
    · simp
    · split
      · rename_i h
        subst h
        simp
      · simp only [List.mem_cons, ih]
        constructor <;> rintro (h | h | h) <;> simp [h]

end Selection
end RequestPlan
