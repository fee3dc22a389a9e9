import RequestPlan.Proofs.Planner.Calls
import RequestPlan.Proofs.Selection.Project

/-!
# Plans of planners

* `answers_build`: **the plan of a planner is what was asked of it, with the projection of its
  selection**, if it has one. Whatever is kept of tables and filters makes no difference.
* `cases_of_build`: the two ways in which a plan comes about.
-/

namespace RequestPlan.Planner

/-- What was asked of a planner, with a projection. -/
def planWith (p : Planner) (projection : Option Projection) : Plan where
  entity := p.entity.name
  table := p.entity.table
  joins := p.joins.clauses
  filters := p.filters
  projection := projection
  orders := p.orders
  window := p.window

/-- The plan of a planner, as the catalog has it. -/
def planOf (c : Catalog) (p : Planner) : Except Error Plan :=
  match p.selection with
  | none => .ok (p.planWith none)
  | some s => (c.project p.entity.name s).map fun projection => p.planWith (some projection)

/-- **A planner's plan is what was asked of it, with the projection of its selection.** -/
theorem answers_build {c : Catalog} (p : Planner) :
    Registry.Answers c (build p) (p.planOf c) := by
  unfold build planOf
  cases p.selection with
  | none => exact Registry.answers_pure _
  | some s =>
    dsimp only
    rw [bind_map_left]
    have hanswers := (Registry.answers_project (c := c) p.entity.name s).andThen
      (g := fun projection => .ok (p.planWith (some projection))) fun _ _ => Registry.answers_pure _
    cases hproject : c.project p.entity.name s with
    | error err =>
      rw [hproject] at hanswers
      exact hanswers
    | ok projection =>
      rw [hproject] at hanswers
      exact hanswers

/-- A plan has a projection exactly when anything was ever selected. -/
theorem cases_of_build {c : Catalog} {s : Registry × Planner} {plan : Plan} (hs : s.1.Of c)
    (h : s.1.result (build s.2) = .ok plan) :
    s.2.selection = none ∧ plan = s.2.planWith none ∨
      ∃ selection q, s.2.selection = some selection ∧
        c.project s.2.entity.name selection = .ok q ∧ plan = s.2.planWith (some q) := by
  have hplan : s.2.planOf c = .ok plan := (answers_build s.2 s.1 hs.1 hs.2).1.symm.trans h
  unfold planOf at hplan
  cases hselection : s.2.selection with
  | none =>
    rw [hselection] at hplan
    cases hplan
    exact .inl ⟨rfl, rfl⟩
  | some selection =>
    rw [hselection] at hplan
    obtain ⟨q, hq, rfl⟩ := Outcome.map_eq_ok.1 hplan
    exact .inr ⟨selection, q, rfl, hq, rfl⟩

end RequestPlan.Planner
