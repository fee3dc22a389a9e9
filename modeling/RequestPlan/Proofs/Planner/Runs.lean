import RequestPlan.Proofs.Planner.Plans
import RequestPlan.Proofs.Planner.Uses
import RequestPlan.Proofs.Selection.Resolve
import RequestPlan.Proofs.Sql.Builder

/-!
# Planners on a registry in use

* `Planner.Step`: a call of a planner, other settings for it, or any use of its registry, and
  `Planner.run`: the state behind several steps.
* `Planner.Ready`: the planner's entity is registered, and its selection can be loaded. Every step
  keeps it so (`Ready.step`).
* `renders_of_steps`: **a planner always has a plan, and the plan always has statements**. What is
  wrong with a selection is reported by the call that selects it.
-/

namespace RequestPlan.Planner

variable {r : Registry} {d : Definition} {s : Registry × Planner}

/-- A step of a planner and of the registry that it shares with others. -/
inductive Step where
  | call (asked : Call)
  | configure (settings : Settings)
  | use (other : Use)

/-- The registry and the planner behind a step, whether it succeeds or not. -/
def Step.behind (s : Registry × Planner) : Step → Registry × Planner
  | .call asked => perform s asked
  | .configure settings => (s.1, { s.2 with settings := settings })
  | .use other => (other.behind s.1, s.2)

/-- The registry and the planner behind several steps. -/
def run (s : Registry × Planner) (steps : List Step) : Registry × Planner :=
  steps.foldl Step.behind s

/-- The entity of a planner is registered, and what is selected on it can be loaded. -/
structure Ready (d : Definition) (s : Registry × Planner) : Prop where
  registered : s.1.catalog.find? d.name = some d
  session : Session s.1.catalog d (s.1.catalog.Loadable d) s

theorem ready_start (hs : r.Sound) (hd : r.catalog.find? d.name = some d) (settings : Settings) :
    Ready d (r, start d settings) :=
  ⟨hd, ⟨rfl, hs⟩, rfl, fun _ hnone => by cases hnone⟩

/-- **Every step keeps a planner ready**, also one that fails. -/
theorem Ready.step (h : Ready d s) (step : Step) : Ready d (step.behind s) := by
  obtain ⟨hregistered, hsession⟩ := h
  have hsound : s.1.Sound := hsession.registry.2
  cases step with
  | call asked =>
    have hbehind : Session s.1.catalog d (s.1.catalog.Loadable d) (perform s asked) :=
      (kept_session hsound.named hregistered).work asked s hsession
    -- a call leaves the entities as they are
    have hcatalog : (perform s asked).1.catalog = s.1.catalog := hbehind.registry.1
    refine ⟨?_, ?_⟩
    · exact hcatalog ▸ hregistered
    · show Session (perform s asked).1.catalog d ((perform s asked).1.catalog.Loadable d) _
      rw [hcatalog]
      exact hbehind
  | configure settings =>
    exact ⟨hregistered, hsession.registry, hsession.entity, hsession.selection⟩
  | use other =>
    -- entities may come in, and none goes
    have hextends := Registry.extends_behind hsound other
    have hbehind : (other.behind s.1).Sound :=
      Registry.lasting_sound.behind (fun _ => Registry.keeps_clear_sound) hsound
    refine ⟨hextends _ _ hregistered, ⟨rfl, hbehind⟩, hsession.entity, fun selection hsome => ?_⟩
    exact (hsession.selection selection hsome).of_extends hextends

theorem Ready.run (h : Ready d s) (steps : List Step) : Ready d (run s steps) := by
  induction steps generalizing s with
  | nil => exact h
  | cons step steps ih => exact ih (h.step step)

/-- A planner that is ready has a plan, unless a hook refuses a column. -/
theorem Ready.exists_plan (h : Ready d s)
    (hhooks : ∀ name e, s.1.catalog.find? name = some e → e.hooks.selects = ∅) :
    ∃ plan, s.1.result (build s.2) = .ok plan := by
  have hsound : s.1.Sound := h.session.registry.2
  rw [(answers_build s.2 s.1 rfl hsound).1]
  unfold planOf
  cases hselection : s.2.selection with
  | none => exact ⟨_, rfl⟩
  | some selection =>
    have hloadable := h.session.selection selection hselection
    obtain ⟨p, hp⟩ := Catalog.exists_project hsound.named hhooks h.registered hloadable
    rw [h.session.entity]
    exact ⟨_, Outcome.map_eq_ok.2 ⟨p, hp, rfl⟩⟩

/-- A call that selects fails when the paths cannot be selected, and for that reason. -/
theorem selectScoped_eq_error_iff {paths : List String} {scope : Scope} {err : Error} :
    ((selectScoped paths scope).run.run s).1 = .error err ↔
      s.1.result (Registry.select s.2.settings.selectDepth s.2.entity.name
        (s.2.pathsToSelect paths) scope) = .error err := by
  have hcurrent : (current.run.run s) = (.ok s.2, s) := rfl
  let m : PlannerM Selection := PlannerM.ofRegistry (Registry.select s.2.settings.selectDepth
    s.2.entity.name (s.2.pathsToSelect paths) scope)
  have hm : (m.run.run s).1 = s.1.result (Registry.select s.2.settings.selectDepth
    s.2.entity.name (s.2.pathsToSelect paths) scope) := rfl
  unfold selectScoped
  rw [Work.run_bind_of_ok hcurrent, ← hm]
  cases hresult : (m.run.run s).1 with
  | error err' =>
    rw [Work.run_bind_of_error (Prod.ext hresult rfl)]
    simp only [Except.error.injEq]
  | ok selection =>
    rw [Work.run_bind_of_ok (Prod.ext hresult rfl)]
    exact ⟨fun herr => (by cases herr), fun herr => (by cases herr)⟩

/-- **A planner always has a plan, and the plan always has statements**, when no hook selects a
column. So it is whatever was done with the registry before, whatever was asked of the planner, and
whatever else became of the registry meanwhile: calls may have failed, entities may have come in,
and what was kept may have been forgotten. A call that selects fails exactly when its paths have no
projection, and for the same reason, so that nothing is left to be found when the plan is made. -/
theorem renders_of_steps (uses : List Use) (settings : Settings) (steps : List Step)
    (hd : (Registry.empty.usedBy uses).catalog.find? d.name = some d)
    (hhooks : ∀ name e,
      (run (Registry.empty.usedBy uses, start d settings) steps).1.catalog.find? name = some e →
        e.hooks.selects = ∅) :
    let s := run (Registry.empty.usedBy uses, start d settings) steps
    (∃ plan, s.1.result (build s.2) = .ok plan ∧ Sql.render plan = .ok (Sql.statements plan)) ∧
    ∀ paths scope err, ((selectScoped paths scope).run.run s).1 = .error err ↔
      s.1.result (Registry.resolve s.2.settings.selectDepth s.2.entity.name
        (s.2.pathsToSelect paths) scope) = .error err := by
  intro s
  have hsound : (Registry.empty.usedBy uses).Sound :=
    Registry.sound_usedBy Registry.sound_empty uses
  have hready : Ready d s := (ready_start hsound hd settings).run steps
  obtain ⟨plan, hplan⟩ := hready.exists_plan hhooks
  refine ⟨⟨plan, hplan, Sql.render_eq plan⟩, fun paths scope err => ?_⟩
  rw [Registry.resolve_eq_error_iff hready.session.registry.2 hhooks]
  exact selectScoped_eq_error_iff

/-- Posts that are registered before the entities which they are related to. -/
def postsAlone : List Use := [.operation (.register Entity.post.define)]

/-- The author of a post is asked for too early, then under two aliases, one of which is taken back
when all that was kept is forgotten. -/
def earlyAndLate : List Step :=
  [.call (.select ["author.name"]), .use (.operation (.register Entity.user.define)),
    .use (.operation (.register Entity.note.define)),
    .call (.select ["title", "author.name", "notes.text"]), .use (.operation .clear),
    .call (.unselect ["author.*"]), .call (.selectScoped ["writer.mail"] .all)]

/-- The call that comes too early fails, and yet there is a plan in the end. -/
theorem renders_of_posts :
    let r := Registry.empty.usedBy postsAlone
    let s := run (r, start Entity.post.define .usual) earlyAndLate
    ((select ["author.name"]).run.run (r, start Entity.post.define .usual)).1 =
        .error (.unknownEntity "User") ∧
      s.2.selection.map Selection.pathTexts = some ["title", "notes.text", "writer.mail"] ∧
      ∃ plan, s.1.result (build s.2) = .ok plan ∧
        Sql.render plan = .ok (Sql.statements plan) := by
  dsimp only
  have hd : (Registry.empty.usedBy postsAlone).catalog.find? "Post" = some Entity.post.define := by
    rfl
  have hhooks := Catalog.selects_eq_empty_of_all (c := (run (Registry.empty.usedBy postsAlone,
    start Entity.post.define .usual) earlyAndLate).1.catalog) (by decide +kernel)
  exact ⟨by rfl, by decide +kernel,
    (renders_of_steps postsAlone .usual earlyAndLate hd hhooks).1⟩

end RequestPlan.Planner
