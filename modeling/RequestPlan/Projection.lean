import RequestPlan.Dict
import RequestPlan.Link
import RequestPlan.Text.Split

/-!
# Projections

* `Column`: an entry of a select list, with `Column.outputName` as its name in the result.
* `Projection`: a select list and the relations that are loaded below it, by name.
* `Projection.push`: a column is selected once.
* `Projection.merge`, `Projection.attach`: the union of two projections, and a relation
  loaded besides what is loaded there already.
-/

namespace RequestPlan

/-- An entry of a select list. -/
inductive Column where
  /-- A qualified column, under its public alias if it has one. -/
  | stored (column : String) (aliasName : Option String)
  /-- An expression, under its public alias if it has one. -/
  | computed (expression : String) (aliasName : Option String)
deriving DecidableEq, Repr

namespace Column

/-- The public alias. -/
def aliasName : Column → Option String
  | .stored _ a | .computed _ a => a

/-- What is read: the column or the expression. -/
def body : Column → String
  | .stored c _ | .computed c _ => c

/-- The entry in SQL. -/
def sql (c : Column) : String :=
  match c.aliasName with
  | some a => c.body ++ " AS " ++ a
  | none => c.body

/-- The part of a qualified name behind its last dot. -/
def baseName (column : String) : String :=
  match Text.cutLast? '.' column with
  | some (_, name) => name
  | none => column

/-- The name in the result: the alias, or else the column without its qualifier. -/
def outputName : Column → String
  | .stored _ (some a) | .computed _ (some a) => a
  | .stored c none => baseName c
  | .computed e none => e

end Column

/-- What is selected from one entity and from the relations below it. -/
structure Projection where
  columns : List Column
  /-- Links and their projections by relation name, in key order. -/
  relations : List (String × Link × Projection)

namespace Projection

/-- Nothing selected. -/
def empty : Projection := ⟨[], []⟩

instance : Inhabited Projection := ⟨empty⟩

/-- A column more, unless it is selected already. -/
def push (p : Projection) (c : Column) : Projection :=
  if c ∈ p.columns then p else { p with columns := p.columns ++ [c] }

/-- Columns more, each unless it is selected already. -/
def pushAll (p : Projection) (cs : List Column) : Projection := cs.foldl push p

mutual

/-- The union of two projections; of a relation that both load, the first's link stays. -/
def merge (p : Projection) : Projection → Projection
  | ⟨columns, relations⟩ =>
    ⟨(p.pushAll columns).columns, mergeBelow p.relations relations⟩

/-- The union below the relations of two projections. -/
def mergeBelow (own : List (String × Link × Projection)) :
    List (String × Link × Projection) → List (String × Link × Projection)
  | [] => own
  | (name, link, child) :: rest =>
    match Entries.find? name own with
    | some (ownLink, ownChild) =>
      mergeBelow (Entries.put name (ownLink, merge ownChild child) own) rest
    | none => mergeBelow (Entries.put name (link, child) own) rest

end

/-- A relation loaded under its link's name, together with what is loaded there already. -/
def attach (p : Projection) (link : Link) (child : Projection) : Projection :=
  { p with relations := mergeBelow p.relations [(link.name, link, child)] }

/-- Whether nothing is selected here or below. -/
def isEmpty (p : Projection) : Bool := p.columns.isEmpty && p.relations.isEmpty

/-- The public aliases of this level. -/
def aliases (p : Projection) : List String := p.columns.filterMap Column.aliasName

mutual

/-- How deep relations nest below this level. -/
def depth : Projection → Nat
  | ⟨_, relations⟩ => depthBelow relations

/-- How deep the relations nest, counting themselves. -/
def depthBelow : List (String × Link × Projection) → Nat
  | [] => 0
  | (_, _, child) :: rest => max (1 + depth child) (depthBelow rest)

end

theorem mem_push {p : Projection} {c d : Column} :
    d ∈ (p.push c).columns ↔ d ∈ p.columns ∨ d = c := by
  unfold push
  split
  · rename_i h
    exact ⟨.inl, fun hd => hd.elim id fun e => e ▸ h⟩
  · simp

/-- **A select list has no repetitions.** -/
theorem nodup_push {p : Projection} (h : p.columns.Nodup) (c : Column) :
    (p.push c).columns.Nodup := by
  unfold push
  split
  · exact h
  · rename_i hc
    simp only [List.nodup_append, h, List.nodup_cons, List.not_mem_nil, not_false_eq_true,
      List.nodup_nil, and_self, List.mem_cons, or_false, true_and]
    intro a ha b hb
    subst hb
    intro hab
    exact hc (hab ▸ ha)

end Projection
end RequestPlan
