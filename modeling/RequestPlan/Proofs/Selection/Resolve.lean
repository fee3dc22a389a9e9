import RequestPlan.Proofs.Selection.Fits
import RequestPlan.Proofs.Selection.Project

/-!
# Selections that have a projection

* `Catalog.exists_project`: **a selection that can be loaded has a projection**, unless a hook
  refuses a column.
* `Registry.resolve_eq_error_iff`: **whatever is wrong with requested paths is found while they are
  selected**, before anything is projected.
-/

namespace RequestPlan

/-- Only a relation through a table of pairs has no link. -/
theorem Relation.exists_link? {r : Relation} (h : r.kind ≠ .manyToMany) (parent related : Entity) :
    ∃ link, r.link? parent related = some link := by
  unfold link?
  cases hkind : r.kind with
  | manyToMany => exact absurd hkind h
  | owning | owned | morphOwning | morphOwned => exact ⟨_, rfl⟩

namespace Catalog

open Registry (projectColumns selectColumn)

variable {c : Catalog} {d : Definition} {s : Selection}

/-- Whether no entity has a hook for a column can be looked up. -/
theorem selects_eq_empty_of_all
    (h : (c.entries.all fun e => e.2.hooks.selects.entries.isEmpty) = true) (name : String)
    (e : Definition) (he : c.find? name = some e) : e.hooks.selects = ∅ := by
  have hempty := List.all_eq_true.1 h (name, e) (Dict.find?_eq_some_iff.1 he)
  exact Dict.ext (List.isEmpty_iff.1 hempty)

/-- Without hooks every alias has its column. -/
theorem exists_projectColumns (h : d.hooks.selects = ∅) (t : Table) (aliases : List String) :
    ∃ p, projectColumns d t aliases = .ok p := by
  unfold projectColumns
  generalize Projection.empty = p₀
  induction aliases generalizing p₀ with
  | nil => exact ⟨p₀, rfl⟩
  | cons a aliases ih =>
    cases hfind : t.find? a with
    | none =>
      obtain ⟨p, hp⟩ := ih p₀
      exact ⟨p, Outcome.foldlM_cons_eq_ok.2 ⟨p₀, by rw [hfind], hp⟩⟩
    | some entry =>
      obtain ⟨p, hp⟩ := ih (p₀.push (.stored (d.column entry.key) (some a)))
      refine ⟨p, Outcome.foldlM_cons_eq_ok.2 ⟨_, ?_, hp⟩⟩
      have hcolumn : selectColumn d a entry.key = .ok (.stored (d.column entry.key) (some a)) :=
        (Registry.selectColumn_eq_ok_iff h).2 rfl
      rw [hfind]
      exact Outcome.map_eq_ok.2 ⟨_, hcolumn, rfl⟩

/-- **A selection that can be loaded has a projection**, unless a hook refuses a column. -/
theorem exists_project (hc : c.Named)
    (hhooks : ∀ name e, c.find? name = some e → e.hooks.selects = ∅)
    (hfind : c.find? d.name = some d) (h : c.Loadable d s) : ∃ p, c.project d.name s = .ok p := by
  induction s using Selection.induct generalizing d with
  | level columns relations ih =>
    obtain ⟨⟨t, ht⟩, -, hrelations⟩ := loadable_iff.1 h
    -- each relation is loaded after those before it
    have hbelow : ∀ p₀, ∃ p, c.projectBelow d t p₀ relations = .ok p := by
      clear h
      induction relations with
      | nil => exact fun p₀ => ⟨p₀, rfl⟩
      | cons e es ihes =>
        intro p₀
        obtain ⟨a, s⟩ := e
        obtain ⟨⟨r, related, hr, hkind, hloadable⟩, hes⟩ := List.forall_mem_cons.1 hrelations
        obtain ⟨hentry, hrelated⟩ := (relates_iff ht).1 hr
        obtain ⟨link, hlink⟩ := Relation.exists_link? hkind d.toEntity related.toEntity
        have hname : c.find? related.name = some related := by rw [hc _ _ hrelated, hrelated]
        obtain ⟨child, hchild⟩ := ih (a, s) List.mem_cons_self hname hloadable
        obtain ⟨p, hp⟩ := ihes (fun e he => ih e (List.mem_cons_of_mem _ he)) hes _
        refine ⟨p, ?_⟩
        rw [projectBelow, hentry]
        refine Outcome.bind_eq_ok.2 ⟨related, get_eq_ok_iff.2 hrelated, ?_⟩
        rw [hlink]
        exact Outcome.bind_eq_ok.2 ⟨child, hchild, hp⟩
    obtain ⟨p₀, hp₀⟩ := exists_projectColumns (hhooks _ d hfind) t columns
    obtain ⟨p, hp⟩ := hbelow p₀
    refine ⟨p, ?_⟩
    rw [project]
    exact Outcome.bind_eq_ok.2 ⟨d, get_eq_ok_iff.2 hfind,
      Outcome.bind_eq_ok.2 ⟨t, ht, Outcome.bind_eq_ok.2 ⟨p₀, hp₀, hp⟩⟩⟩

end Catalog

namespace Registry

variable {r : Registry}

/-- **Whatever is wrong with requested paths is found while they are selected**, before anything is
projected. -/
theorem resolve_eq_error_iff (hs : r.Sound)
    (hhooks : ∀ name e, r.catalog.find? name = some e → e.hooks.selects = ∅) (depth : Nat)
    (entity : String) (paths : List String) (scope : Scope) (err : Error) :
    r.result (resolve depth entity paths scope) = .error err ↔
      r.result (select depth entity paths scope) = .error err := by
  have hselect : Answers r.catalog (select depth entity paths scope) _ :=
    answers_select depth entity paths scope
  have hresolve : Answers r.catalog (resolve depth entity paths scope) _ :=
    hselect.andThen fun s _ => answers_project entity s
  rw [(hselect r rfl hs).1, (hresolve r rfl hs).1]
  cases hok : r.catalog.select depth entity paths scope with
  | error err' => simp only [Except.bind, Except.error.injEq]
  | ok s =>
    obtain ⟨d, hfind⟩ := Catalog.exists_of_select hok
    have hname : d.name = entity := hs.named _ _ hfind
    subst hname
    obtain ⟨p, hp⟩ :=
      Catalog.exists_project hs.named hhooks hfind (Catalog.loadable_select hok hfind)
    show r.catalog.project d.name s = .error err ↔ _
    rw [hp]
    exact ⟨fun h => (by cases h), fun h => (by cases h)⟩

end Registry
end RequestPlan
