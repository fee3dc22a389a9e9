import RequestPlan.Proofs.Joins.Aliases

/-!
# Errors of joins

* `Hooks.Spare`: hooks that do not end with a given error by themselves.
* `Joins.Reached`: what is joined are registered entities, or the one that paths start from.
* `spares_leftJoin`, `Joining.spares_run`: **joins do not say of an entity that a kind is not
  declared**, neither those of paths nor those of hooks, unless a hook says so.
-/

namespace RequestPlan

/-! ## Errors of hooks -/

/-- Work that does not end with an error, when no join that it asks for does. -/
def Joining.Spares {α : Type} (err : Error) : Joining α → Prop
  | .done result => result ≠ .error err
  | .ask _ next => ∀ joined, joined ≠ .error err → (next joined).Spares err

theorem Joining.Spares.alone_ne {α : Type} {err : Error} {m : Joining α} (h : m.Spares err) :
    m.alone ≠ .error err := by
  induction m with
  | done result => exact h
  | ask path next ih => exact ih _ (h _ nofun)

/-- Hooks for filters, orderings and joins that do not end with an error by themselves. -/
structure Hooks.Spare (err : Error) (h : Hooks) : Prop where
  modes : ∀ mode hook, h.modes.find? mode = some hook → ∀ scope v, (hook scope v).Spares err
  filters : ∀ a hook, h.filters.find? a = some hook → ∀ scope v, (hook scope v).Spares err
  sorts : ∀ key hook, h.sorts.find? key = some hook →
    ∀ scope direction, (hook scope direction).Spares err
  joins : ∀ segment hook, h.joins.find? segment = some hook → ∀ scope, hook scope ≠ .error err

theorem Hooks.spare_none (err : Error) : Hooks.none.Spare err where
  modes _ _ h := by cases h
  filters _ _ h := by cases h
  sorts _ _ h := by cases h
  joins _ _ h := by cases h

/-- No hook of a registered entity ends with an error by itself. -/
def Catalog.Spare (err : Error) (c : Catalog) : Prop :=
  ∀ name d, c.find? name = some d → d.hooks.Spare err

theorem Catalog.spare_of_entries {err : Error} {c : Catalog}
    (h : ∀ p ∈ c.entries, p.2.hooks = .none) : c.Spare err :=
  fun name d hd => h (name, d) (Dict.find?_eq_some_iff.1 hd) ▸ Hooks.spare_none err

variable {c : Catalog} {root d : Definition} {err : Error} {js : Joins}
  {segment prior aliasName : String}

theorem Catalog.Spare.of_reaches (h : c.Spare err) (hroot : c.find? root.name = some root)
    (hd : c.Reaches root d) : d.hooks.Spare err := by
  rcases hd with rfl | ⟨name, hname⟩
  · exact h _ _ hroot
  · exact h _ _ hname

/-! ## Joins along paths -/

/-- A segment leads to a registered entity, or stays where it is. -/
theorem reaches_of_joinSegment {next : Definition} {clause : Join} (hd : c.Reaches root d)
    (h : joinSegment c d segment prior aliasName = .ok (some (clause, next))) :
    c.Reaches root next := by
  unfold joinSegment at h
  split at h
  · split at h
    · obtain ⟨related, hget, h⟩ := Outcome.bind_eq_ok.1 h
      cases h
      exact .inr ⟨_, Catalog.get_eq_ok_iff.1 hget⟩
    · cases h
  · split at h
    · cases h
    · obtain ⟨custom?, -, h⟩ := Outcome.bind_eq_ok.1 h
      split at h
      · cases h
      · split at h
        · cases h
          exact hd
        · obtain ⟨related, hget, h⟩ := Outcome.bind_eq_ok.1 h
          cases h
          exact .inr ⟨_, Catalog.get_eq_ok_iff.1 hget⟩

theorem Catalog.get_ne_error (herr : err.Undeclared) (name : String) :
    c.get name ≠ .error err := by
  unfold Catalog.get
  split
  · nofun
  · exact herr.error_ne id

/-- A segment leads nowhere only because an entity is not registered, or a hook says so. -/
theorem joinSegment_ne_error (herr : err.Undeclared) (hd : d.hooks.Spare err) :
    joinSegment c d segment prior aliasName ≠ .error err := by
  unfold joinSegment
  split
  · split
    · exact Outcome.bind_ne_error (Catalog.get_ne_error herr _) fun _ _ => nofun
    · nofun
  · split
    · nofun
    · rename_i hook hhook
      refine Outcome.bind_ne_error (hd.joins _ hook hhook _) fun custom? _ => ?_
      split
      · nofun
      · split
        · nofun
        · exact Outcome.bind_ne_error (Catalog.get_ne_error herr _) fun _ _ => nofun

namespace Joins

/-- What is joined are registered entities, or the one that paths start from. -/
def Reached (c : Catalog) (root : Definition) (js : Joins) : Prop :=
  ∀ path j, js.find? path = some j → c.Reaches root j.definition

theorem reached_none : Reached c root .none := fun _ _ h => by cases h

theorem Reached.add {start : String} {next : Definition} {clause : Join} (h : js.Reached c root)
    (hnext : c.Reaches root next) : (js.add start clause next).Reached c root := by
  intro path j hj
  rw [find?, Joins.add, Dict.find?_put] at hj
  split at hj
  · cases hj
    exact hnext
  · exact h path j hj

theorem steps_reached : Steps c (Reached c root) fun _ _ d => c.Reaches root d where
  found hjs hfind := hjs _ _ hfind
  add hjs hd _ hnext :=
    have hreaches := reaches_of_joinSegment hd hnext
    ⟨hjs.add hreaches, hreaches⟩

theorem Reached.extend {c' : Catalog} (h : js.Reached c root) (hextends : c.Extends c') :
    js.Reached c' root :=
  fun path j hj => (h path j hj).imp_right fun ⟨name, hname⟩ => ⟨name, hextends name _ hname⟩

theorem spares_joinSegments (herr : err.Undeclared) (hroot : c.find? root.name = some root)
    (hhooks : c.Spare err) (path : String) (segments : List String) {stop : Nat}
    (hd : c.Reaches root d) :
    Work.Spares (Reached c root) err (joinSegments c path prior d stop segments) := by
  -- the rest of the segments goes on from an entity that is reached
  induction segments generalizing prior d stop with
  | nil => exact Work.spares_pure true
  | cons segment rest ih =>
    refine Work.spares_bind Work.spares_get fun js joins hjs hjoins => ?_
    cases hjoins
    split
    · rename_i joined hfind
      exact ih (hjs _ _ hfind)
    · rw [Work.lift_eq_of]
      refine Work.spares_bind (Work.spares_of ?_) fun _ next? _ hnext? => ?_
      · exact joinSegment_ne_error herr (hhooks.of_reaches hroot hd)
      · rw [Work.run_of] at hnext?
        split
        · exact Work.spares_pure false
        · have hnext := reaches_of_joinSegment hd hnext?
          exact (Work.spares_modify fun _ hjs => hjs.add hnext).bind fun _ => ih hnext

/-- **A path does not say that a kind is not declared**, unless a hook for joins does. -/
theorem spares_leftJoin (herr : err.Undeclared) (hroot : c.find? root.name = some root)
    (hhooks : c.Spare err) (path : String) :
    Work.Spares (Reached c root) err (leftJoin c root path) := by
  refine Work.spares_get.bind fun js => ?_
  split
  · exact Work.spares_pure _
  · refine (spares_joinSegments herr hroot hhooks path _ (.inl rfl)).bind fun joined => ?_
    split
    · exact Work.spares_get.bind fun _ => Work.spares_pure _
    · exact Work.spares_pure _

end Joins

/-- **Nor does a hook**, when neither it nor a path that it joins says so. -/
theorem Joining.spares_run {α : Type} {J : Joins → Prop}
    (hpaths : ∀ path, Work.Spares J err (leftJoin c root path)) {m : Joining α}
    (h : m.Spares err) : Work.Spares J err (m.run c root) where
  keeps := m.keeps_run fun path => (hpaths path).keeps
  result := by
    induction m with
    | done result =>
      intro js _
      rw [Joining.run, Work.run_of]
      exact h
    | ask path next ih =>
      intro js hjs
      have hjoined := (hpaths path).result js hjs
      exact ih _ (h _ (Outcome.map_ne_error hjoined)) _ ((hpaths path).keeps js hjs)

end RequestPlan
