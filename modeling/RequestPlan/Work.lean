import RequestPlan.Error

/-!
# Work on a state that may fail

* `Work σ α`: a change of a state that ends with a result or an error. What was changed
  before an error stays changed.
* `Work.on`: work on a part of a larger state.
-/

namespace RequestPlan

/-- A change of a state of type `σ` that ends with a result or an error. -/
abbrev Work (σ α : Type) := ExceptT Error (StateM σ) α

namespace Work

/-- A result that leaves the state alone. -/
def of {σ α : Type} : Except Error α → Work σ α
  | .ok x => pure x
  | .error e => throw e

/-- Work on the part of a state that `part` reads and `write` puts back. -/
def on {σ τ α : Type} (part : σ → τ) (write : σ → τ → σ) (m : Work τ α) : Work σ α :=
  ExceptT.mk fun s =>
    let (result, t) := m.run.run (part s)
    (result, write s t)

@[simp] theorem run_of {σ α : Type} (r : Except Error α) (s : σ) :
    (of r : Work σ α).run.run s = (r, s) := by
  cases r <;> rfl

/-- **Work on a part leaves the rest to `write`.** -/
theorem run_on {σ τ α : Type} (part : σ → τ) (write : σ → τ → σ) (m : Work τ α) (s : σ) :
    (on part write m).run.run s =
      ((m.run.run (part s)).1, write s (m.run.run (part s)).2) := rfl

end Work
end RequestPlan
