import RequestPlan.Proofs.Planner.Runs
import RequestPlan.Proofs.Selection.Unions

/-!
# Calls that select

* `Planner.Orderly`: the registry is sound, and the selection is in order. Every step of a planner
  keeps it so, and so it is behind any steps (`orderly_run`).
* `run_selectScoped`: what a call that selects does, and when it fails. `run_selectScoped_andThen`:
  what two of them do.
* `selectScoped_twice`: **paths may be selected in one call or in two**, in any order and any number
  of times.
-/

namespace RequestPlan.Planner

variable {s : Registry × Planner} {paths : List String} {scope : Scope} {selection : Selection}

/-! ## Selections in order -/

/-- Selections in order stay so. -/
theorem knownOf_ordered {c : Catalog} {d : Definition} : KnownOf c d Selection.Ordered where
  first h := Selection.Ordered.empty.merge (Catalog.ordered_select h)
  more h hown := hown.merge (Catalog.ordered_select h)
  remove patterns hown := hown.remove patterns

/-- The registry is sound, and what is selected is in order. -/
structure Orderly (s : Registry × Planner) : Prop where
  sound : s.1.Sound
  ordered : ∀ selection, s.2.selection = some selection → selection.Ordered

/-- **Every step keeps a planner orderly**, also one that fails. -/
theorem Orderly.step (h : Orderly s) (step : Step) : Orderly (step.behind s) := by
  obtain ⟨hsound, hordered⟩ := h
  cases step with
  | call asked =>
    have hkept := kept_known hsound.named (knownOf_ordered (d := s.2.entity))
    have hbehind := hkept.work asked s ⟨⟨rfl, hsound⟩, rfl, hordered⟩
    exact ⟨hbehind.registry.2, hbehind.selection⟩
  | configure settings => exact ⟨hsound, hordered⟩
  | use other =>
    have hbehind : (other.behind s.1).Sound :=
      Registry.lasting_sound.behind (fun _ => Registry.keeps_clear_sound) hsound
    exact ⟨hbehind, hordered⟩

/-- **Whatever was done with the registry and asked of the planner, it is orderly.** -/
theorem orderly_run (uses : List Use) (d : Definition) (settings : Settings) (steps : List Step) :
    Orderly (run (Registry.empty.usedBy uses, start d settings) steps) := by
  have hstart : Orderly (Registry.empty.usedBy uses, start d settings) :=
    ⟨Registry.sound_usedBy Registry.sound_empty uses, fun _ hnone => by cases hnone⟩
  generalize (Registry.empty.usedBy uses, start d settings) = s at hstart
  induction steps generalizing s with
  | nil => exact hstart
  | cons step steps ih => exact ih _ (hstart.step step)

/-! ## What is selected -/

theorem mem_dropRepeats {a : String} {texts : List String} :
    a ∈ dropRepeats texts ↔ a ∈ texts := by
  induction texts with
  | nil => exact Iff.rfl
  | cons b texts ih =>
    cases texts with
    | nil => exact Iff.rfl
    | cons c texts =>
      rw [dropRepeats]
      split
      · rename_i hbc
        rw [ih, hbc]
        simp
      · rw [List.mem_cons, ih, List.mem_cons (b := b)]

/-- The paths of a request, if it has any, are its paths that are not blank. -/
theorem mem_pathsToSelect (p : Planner) (h : ∃ path ∈ paths, Text.nonBlank? path ≠ none)
    {a : String} : a ∈ p.pathsToSelect paths ↔ ∃ path ∈ paths, Text.nonBlank? path = some a := by
  rw [← List.mem_filterMap]
  unfold pathsToSelect
  split
  · rename_i hnone
    obtain ⟨path, hpath, hblank⟩ := h
    exact absurd (List.filterMap_eq_nil_iff.1 hnone path hpath) hblank
  · exact mem_dropRepeats

theorem pathsToSelect_ne_nil (p : Planner) (h : ∃ path ∈ paths, Text.nonBlank? path ≠ none) :
    p.pathsToSelect paths ≠ [] := by
  obtain ⟨path, hpath, hblank⟩ := id h
  obtain ⟨a, ha⟩ := Option.ne_none_iff_exists'.1 hblank
  exact List.ne_nil_of_mem ((mem_pathsToSelect p h).2 ⟨path, hpath, ha⟩)

/-- The paths of two requests, in any order and any number of times, are those of either. -/
theorem mem_pathsToSelect_union (p : Planner) {ps qs all : List String}
    (hps : ∃ path ∈ ps, Text.nonBlank? path ≠ none) (hqs : ∃ path ∈ qs, Text.nonBlank? path ≠ none)
    (hall : ∀ path, path ∈ all ↔ path ∈ ps ++ qs) {a : String} :
    a ∈ p.pathsToSelect all ↔ a ∈ p.pathsToSelect ps ∨ a ∈ p.pathsToSelect qs := by
  have hne : ∃ path ∈ all, Text.nonBlank? path ≠ none := by
    obtain ⟨path, hpath, hblank⟩ := hps
    exact ⟨path, (hall path).2 (List.mem_append_left qs hpath), hblank⟩
  rw [mem_pathsToSelect p hne, mem_pathsToSelect p hps, mem_pathsToSelect p hqs]
  simp only [hall, List.mem_append, or_and_right, exists_or]

/-- The selection that paths have for a planner. -/
def selectionFor (s : Registry × Planner) (paths : List String) (scope : Scope) :
    Except Error Selection :=
  s.1.catalog.select s.2.settings.selectDepth s.2.entity.name (s.2.pathsToSelect paths) scope

/-- The planner with a selection besides its own. -/
def withSelection (p : Planner) (selection : Selection) : Planner :=
  { p with selection := some ((p.selection.getD .empty).merge selection) }

/-- **What a call that selects does**: it adds the selection of its paths, or fails with their
error. The entities stay as they are. -/
theorem run_selectScoped (hs : s.1.Sound) (paths : List String) (scope : Scope) :
    ∃ r, r.Of s.1.catalog ∧ (selectScoped paths scope).run.run s =
      match selectionFor s paths scope with
      | .ok selection => (.ok (), r, withSelection s.2 selection)
      | .error err => (.error err, r, s.2) := by
  have hcurrent : (current.run.run s) = (.ok s.2, s) := rfl
  let m : RegistryM Selection := Registry.select s.2.settings.selectDepth s.2.entity.name
    (s.2.pathsToSelect paths) scope
  obtain ⟨hresult, hof⟩ : (m.run.run s.1).1 = selectionFor s paths scope ∧
      Registry.Of s.1.catalog (m.run.run s.1).2 := Registry.answers_select _ _ _ _ s.1 rfl hs
  refine ⟨_, hof, ?_⟩
  unfold selectScoped
  rw [Work.run_bind_of_ok hcurrent, ← hresult]
  rcases hrun : m.run.run s.1 with ⟨x, r⟩
  have hlifted : (PlannerM.ofRegistry m).run.run s = (x, r, s.2) := by
    rw [PlannerM.ofRegistry, Work.run_on, hrun]
  cases x with
  | error err => exact Work.run_bind_of_error hlifted
  | ok selection => exact Work.run_bind_of_ok hlifted

/-- A call that selects succeeds when its paths have a selection, which then comes in. -/
theorem selectScoped_eq_ok_iff (hs : s.1.Sound) :
    ((selectScoped paths scope).run.run s).1 = .ok () ↔
      ∃ selection, selectionFor s paths scope = .ok selection := by
  obtain ⟨r, -, hrun⟩ := run_selectScoped hs paths scope
  rw [hrun]
  cases selectionFor s paths scope with
  | error err => exact iff_of_false (fun h => by cases h) fun ⟨_, h⟩ => by cases h
  | ok selection => exact iff_of_true rfl ⟨selection, rfl⟩

/-! ## Two calls -/

/-- **What two calls that select do**: the second one adds the selection that its paths had before
the first one. -/
theorem run_selectScoped_andThen (hs : s.1.Sound) (ps qs : List String) (scope : Scope) :
    ∃ r, (selectScoped ps scope >>= fun _ => selectScoped qs scope).run.run s =
      match selectionFor s ps scope, selectionFor s qs scope with
      | .ok s₁, .ok s₂ => (.ok (), r, withSelection (withSelection s.2 s₁) s₂)
      | .ok s₁, .error err => (.error err, r, withSelection s.2 s₁)
      | .error err, _ => (.error err, r, s.2) := by
  obtain ⟨r, ⟨hcatalog, hr⟩, hfirst⟩ := run_selectScoped hs ps scope
  cases h₁ : selectionFor s ps scope with
  | error err =>
    rw [h₁] at hfirst
    exact ⟨r, Work.run_bind_of_error hfirst⟩
  | ok s₁ =>
    rw [h₁] at hfirst
    have hsame : selectionFor (r, withSelection s.2 s₁) qs scope = selectionFor s qs scope := by
      unfold selectionFor
      rw [hcatalog]
      rfl
    obtain ⟨r₂, -, hsecond⟩ := run_selectScoped (s := (r, withSelection s.2 s₁)) hr qs scope
    rw [hsame] at hsecond
    refine ⟨r₂, (Work.run_bind_of_ok hfirst).trans (hsecond.trans ?_)⟩
    cases selectionFor s qs scope <;> rfl

/-- Two calls succeed when the paths of either have a selection. -/
theorem selectScoped_andThen_eq_ok_iff (hs : s.1.Sound) {ps qs : List String} :
    ((selectScoped ps scope >>= fun _ => selectScoped qs scope).run.run s).1 = .ok () ↔
      (∃ s₁, selectionFor s ps scope = .ok s₁) ∧ ∃ s₂, selectionFor s qs scope = .ok s₂ := by
  obtain ⟨r, hrun⟩ := run_selectScoped_andThen hs ps qs scope
  rw [hrun]
  cases selectionFor s ps scope with
  | error err => exact iff_of_false (fun h => by cases h) fun ⟨⟨_, h⟩, _⟩ => by cases h
  | ok s₁ =>
    cases selectionFor s qs scope with
    | error err => exact iff_of_false (fun h => by cases h) fun ⟨_, _, h⟩ => by cases h
    | ok s₂ => exact iff_of_true rfl ⟨⟨s₁, rfl⟩, s₂, rfl⟩

/-- Selections that come in one after the other come in as their union. -/
theorem withSelection_withSelection {p : Planner} {s₁ s₂ : Selection}
    (hown : ∀ own, p.selection = some own → own.Ordered) (h₁ : s₁.Ordered) (h₂ : s₂.Ordered) :
    withSelection (withSelection p s₁) s₂ = withSelection p (s₁.merge s₂) := by
  have hordered : (p.selection.getD .empty).Ordered := by
    cases hselection : p.selection with
    | none => exact .empty
    | some own => exact hown own hselection
  exact congrArg (fun selection => { p with selection := some selection })
    (hordered.merge_assoc h₁ h₂)

/-- **Paths may be selected in one call or in two**, in any order and any number of times. Two calls
within one scope, each with a path that is not blank, succeed just when one call with the paths of
both does, whatever the order in which that call has them, and however often. Then they leave the
same planner, with the same selection. So it is for every planner, whatever was done with its
registry and asked of it before. -/
theorem selectScoped_twice (uses : List Use) (d : Definition) (settings : Settings)
    (steps : List Step) (scope : Scope) {ps qs all : List String}
    (hps : ∃ path ∈ ps, Text.nonBlank? path ≠ none) (hqs : ∃ path ∈ qs, Text.nonBlank? path ≠ none)
    (hall : ∀ path, path ∈ all ↔ path ∈ ps ++ qs) :
    let s := run (Registry.empty.usedBy uses, start d settings) steps
    let twice := (selectScoped ps scope >>= fun _ => selectScoped qs scope).run.run s
    let once := (selectScoped all scope).run.run s
    (twice.1 = .ok () ↔ once.1 = .ok ()) ∧ (once.1 = .ok () → twice.2.2 = once.2.2) := by
  intro s twice once
  obtain ⟨hsound, hordered⟩ : Orderly s := orderly_run uses d settings steps
  have hpaths : ∀ a, a ∈ s.2.pathsToSelect all ↔
      a ∈ s.2.pathsToSelect ps ∨ a ∈ s.2.pathsToSelect qs :=
    fun a => mem_pathsToSelect_union s.2 hps hqs hall
  have hunion : (∃ both, selectionFor s all scope = .ok both) ↔
      (∃ s₁, selectionFor s ps scope = .ok s₁) ∧ ∃ s₂, selectionFor s qs scope = .ok s₂ :=
    Catalog.exists_select_union (pathsToSelect_ne_nil s.2 hps) (pathsToSelect_ne_nil s.2 hqs) hpaths
  have honce_iff : once.1 = .ok () ↔ _ := (selectScoped_eq_ok_iff hsound).trans hunion
  have htwice_iff : twice.1 = .ok () ↔ _ := selectScoped_andThen_eq_ok_iff hsound
  refine ⟨htwice_iff.trans honce_iff.symm, fun honce => ?_⟩
  obtain ⟨⟨s₁, h₁⟩, s₂, h₂⟩ := honce_iff.1 honce
  obtain ⟨both, hboth⟩ := hunion.2 ⟨⟨s₁, h₁⟩, s₂, h₂⟩
  obtain ⟨r, htwice⟩ := run_selectScoped_andThen hsound ps qs scope
  obtain ⟨r', -, hrun⟩ := run_selectScoped hsound all scope
  rw [h₁, h₂] at htwice
  rw [hboth] at hrun
  calc twice.2.2 = withSelection (withSelection s.2 s₁) s₂ := by rw [show twice = _ from htwice]
    _ = withSelection s.2 (s₁.merge s₂) :=
      withSelection_withSelection hordered (Catalog.ordered_select h₁) (Catalog.ordered_select h₂)
    _ = withSelection s.2 both := by rw [Catalog.select_union hpaths hboth h₁ h₂]
    _ = once.2.2 := by rw [show once = _ from hrun]

/-- Relations of posts, some with nothing behind them, and some asked for again. -/
def manyPaths : List String :=
  ["notes.unknown", " ", "author.posts", "author.posts.author.*", "title", "author.posts"]

/-- The paths come in one call after other calls, or in two. -/
theorem selectScoped_twice_of_posts :
    let s := run (Registry.empty.usedBy postsAlone, start Entity.post.define .usual) earlyAndLate
    let twice := (selectScoped ["author.posts", " "] .all >>= fun _ =>
      selectScoped ["title", "notes.unknown", "author.posts.author.*"] .all).run.run s
    let once := (selectScoped manyPaths .all).run.run s
    once.1 = .ok () ∧ twice.1 = .ok () ∧ twice.2.2 = once.2.2 := by
  dsimp only
  have hps : ∃ path ∈ ["author.posts", " "], Text.nonBlank? path ≠ none :=
    ⟨"author.posts", by decide, by decide⟩
  have hqs : ∃ path ∈ ["title", "notes.unknown", "author.posts.author.*"],
      Text.nonBlank? path ≠ none := ⟨"title", by decide, by decide⟩
  have hall : ∀ path, path ∈ manyPaths ↔
      path ∈ ["author.posts", " "] ++ ["title", "notes.unknown", "author.posts.author.*"] := by
    intro path
    simp only [manyPaths, List.cons_append, List.nil_append, List.mem_cons, List.not_mem_nil,
      or_false]
    grind
  obtain ⟨hsucceeds, hsame⟩ :=
    selectScoped_twice postsAlone Entity.post.define .usual earlyAndLate .all hps hqs hall
  have hok : ((selectScoped manyPaths .all).run.run (run (Registry.empty.usedBy postsAlone,
      start Entity.post.define .usual) earlyAndLate)).1.isOk = true := by decide +kernel
  have honce := Outcome.eq_ok_of_isOk hok
  exact ⟨honce, hsucceeds.2 honce, hsame honce⟩

end RequestPlan.Planner
