import RequestPlan.Proofs.Planner.Aliases
import RequestPlan.Proofs.Planner.Runs

/-!
# Joins of a planner on a growing registry

* `Joins.Enduring`: a property of joins that every path keeps, and that more entities leave alone.
* `Planner.holding_run`: **it holds of the joins of a planner behind any steps**, also those of
  others that register entities in between.
-/

namespace RequestPlan

/-- A property of joins from an entity that every path keeps, and that still holds when more
entities are registered. -/
structure Joins.Enduring (d : Definition) (J : Catalog → Joins → Prop) : Prop where
  extend : ∀ {c c' js}, c.Extends c' → J c js → J c' js
  path : ∀ c path, Work.Keeps (J c) (leftJoin c d path)

namespace Planner

variable {r : Registry} {d : Definition} {s : Registry × Planner} {J : Catalog → Joins → Prop}

/-- A planner for an entity, with joins for which a property holds in the catalog as it is now. -/
def Holding (d : Definition) (J : Catalog → Joins → Prop) (s : Registry × Planner) : Prop :=
  WithJoins s.1.catalog d (J s.1.catalog) s

theorem holding_step (h : Joins.Enduring d J) (hs : Holding d J s) (step : Step) :
    Holding d J (step.behind s) := by
  have hsound : s.1.Sound := hs.registry.2
  cases step with
  | call asked =>
    have hbehind : WithJoins s.1.catalog d (J s.1.catalog) (perform s asked) :=
      (kept_withJoins hsound.named (h.path s.1.catalog)).work asked s hs
    -- a call leaves the entities as they are
    have hcatalog : (perform s asked).1.catalog = s.1.catalog := hbehind.registry.1
    rw [Holding]
    show WithJoins (perform s asked).1.catalog d (J (perform s asked).1.catalog) _
    rw [hcatalog]
    exact hbehind
  | configure settings => exact ⟨hs.registry, hs.entity, hs.joins⟩
  | use other =>
    have hbehind : (other.behind s.1).Sound :=
      Registry.lasting_sound.behind (fun _ => Registry.keeps_clear_sound) hsound
    exact ⟨⟨rfl, hbehind⟩, hs.entity, h.extend (Registry.extends_behind hsound other) hs.joins⟩

/-- **What every path keeps holds of the joins of a planner behind any steps.** -/
theorem holding_run (h : Joins.Enduring d J) (hs : r.Sound) (hnone : J r.catalog .none)
    (settings : Settings) (steps : List Step) :
    Holding d J (run (r, start d settings) steps) := by
  have hsteps : ∀ s, Holding d J s → Holding d J (run s steps) := by
    induction steps with
    | nil => exact fun s hs => hs
    | cons step steps ih => exact fun s hs => ih _ (holding_step h hs step)
  exact hsteps _ ⟨⟨rfl, hs⟩, rfl, hnone⟩

end Planner
end RequestPlan
