import Mathlib.Data.List.Forall2
import RequestPlan.Proofs.Planner.Plans
import RequestPlan.Proofs.Sql.Levels

/-!
# Select lists of planned statements

* `relatedColumn_mem_columns`: a level that is loaded has the column by which its rows are found.
* `columns_eq_nil_iff`: the root level has no columns only for the empty selection.
* `selects_of_build`: **with anything selected, every statement selects exactly the columns of its
  level**. When nothing is left of a selection, all columns of the root table are.
-/

namespace RequestPlan

/-! ## Levels without columns -/

namespace Catalog

open Registry (projectColumns keyColumns selectColumn)

variable {c : Catalog} {d : Definition} {t : Table} {p p₀ parent child : Projection}
  {s : Selection} {a key entity name : String} {names aliases : List String} {link : Link}

/-- A level that is loaded has the column by which its rows are found. -/
theorem relatedColumn_mem_columns (hc : c.Named) (h : c.project entity s = .ok p)
    (hfind : c.find? entity = some d) (hparent : p.node? names = some parent)
    (hmem : (name, link, child) ∈ parent.relations) :
    .stored link.relatedColumn none ∈ child.columns := by
  have htidy : p.Tidy := tidy_project hc h hfind
  obtain ⟨d', s', hleads, e, he, r, related, hr, hlink⟩ :=
    exists_link hc h hfind ⟨parent, hparent, child, hmem⟩
  have hname : r.name = name := by
    rw [← Relation.name_of_link? hlink]
    exact (htidy.of_node? hparent).name_eq hmem
  have hneeds : c.Needs d s (names ++ [r.name]) (.stored link.relatedColumn none) :=
    needs_iff.2 (.inr (.inr ⟨names, d', s', hleads, e, he, r, related, hr, rfl,
      List.mem_map_of_mem (Relation.keys_of_link? hlink).2.1⟩))
  obtain ⟨q, hq, hcol⟩ := (at_columns_iff hc h hfind).2 hneeds
  rw [hname, Projection.node?_of_mem htidy hparent hmem] at hq
  cases hq
  exact hcol

/-- Where a level has its columns, every hook has made one. -/
theorem exists_selectColumn_of_projectColumns (ht : Table.of d.toEntity .selectable = .ok t)
    (h : projectColumns d t aliases = .ok p) (ha : a ∈ aliases)
    (hkey : d.selectKey? a = some key) : ∃ col, selectColumn d a key = .ok col := by
  unfold projectColumns at h
  generalize Projection.empty = p₀ at h
  induction aliases generalizing p₀ with
  | nil => cases ha
  | cons a' aliases ih =>
    obtain ⟨p₁, hstep, hrest⟩ := Outcome.foldlM_cons_eq_ok.1 h
    rcases List.mem_cons.1 ha with rfl | ha
    · rw [Entity.selectKey?_of_table ht] at hkey
      obtain ⟨entry, hentry, rfl⟩ := Option.map_eq_some_iff.1 hkey
      rw [hentry] at hstep
      obtain ⟨col, hcol, -⟩ := Outcome.map_eq_ok.1 hstep
      exact ⟨col, hcol⟩
    · exact ih ha p₁ hrest

theorem exists_selectColumn (h : c.project entity s = .ok p) (hfind : c.find? entity = some d)
    (ha : a ∈ s.columns) (hkey : d.selectKey? a = some key) :
    ∃ col, selectColumn d a key = .ok col := by
  obtain ⟨columns, relations⟩ := s
  rw [project] at h
  obtain ⟨d', hget, h⟩ := Outcome.bind_eq_ok.1 h
  rw [get_eq_ok_iff.1 hget] at hfind
  cases hfind
  obtain ⟨t, ht, h⟩ := Outcome.bind_eq_ok.1 h
  obtain ⟨p₀, hcolumns, -⟩ := Outcome.bind_eq_ok.1 h
  exact exists_selectColumn_of_projectColumns ht hcolumns ha hkey

/-- **The root level has no columns only for the empty selection**: an alias stands for a column,
and a relation needs a column of the parent. -/
theorem columns_eq_nil_iff (hc : c.Named) (h : c.project entity s = .ok p)
    (hfind : c.find? entity = some d) (hfits : c.Fits d s) : p.columns = [] ↔ s = .empty := by
  have hmem : ∀ col, col ∈ p.columns ↔ c.Needs d s [] col := fun col => by
    rw [← at_columns_iff hc h hfind, Projection.at_nil]
  constructor
  · intro hnil
    have hneeds : ∀ col, ¬ c.Needs d s [] col := fun col hcol => by
      rw [← hmem, hnil] at hcol
      cases hcol
    obtain ⟨hcolumns, hrelations⟩ := fits_iff.1 hfits
    have hnone : s.columns = [] := List.eq_nil_iff_forall_not_mem.2 fun a ha => by
      obtain ⟨key, hkey, -⟩ := hcolumns a ha
      obtain ⟨col, hcol⟩ := exists_selectColumn h hfind ha hkey
      exact hneeds col (.column ha hkey hcol)
    have hbelow : s.relations = [] := List.eq_nil_iff_forall_not_mem.2 fun e he => by
      obtain ⟨r, related, hr, -⟩ := hrelations e he
      obtain ⟨l, hbrings, -⟩ :=
        exists_brings (fun _ => True) (fun _ _ _ => trivial) hc h hfind he hr
      have hkey := (Relation.keys_of_link? hbrings.link).1
      exact hneeds _ (.parentKey he hr (List.mem_map_of_mem hkey))
    obtain ⟨columns, relations⟩ := s
    cases hnone
    cases hbelow
    rfl
  · rintro rfl
    refine List.eq_nil_iff_forall_not_mem.2 fun col hcol => ?_
    cases (hmem col).1 hcol with
    | column ha => cases ha
    | parentKey he => cases he

/-- Nothing is loaded for the empty selection. -/
theorem relations_project_empty (h : c.project entity .empty = .ok p)
    (hfind : c.find? entity = some d) : p.relations = [] := by
  obtain ⟨p₀, ls, rfl, hnone, -, -, hls, -⟩ := exists_level_of_project h hfind
  cases ls with
  | nil => exact hnone
  | cons l ls =>
    obtain ⟨e, he, -⟩ := hls l List.mem_cons_self
    cases he

end Catalog

/-! ## Select lists -/

namespace Planner

open Sql (levels statements Statement)

/-- The tables that statements read for a projection, each with the columns of its level. -/
def selectLists (table : String) (p : Projection) : List (String × List Column) :=
  (table, p.columns) :: (levels "" p).map fun e => (e.link.table, e.projection.columns)

variable {r : Registry} {d : Definition} {settings : Settings} {calls : List Call} {s : Selection}
  {plan : Plan}

/-- **With anything selected, every statement selects exactly the columns of its level**, whatever
hooks there are and whatever else was asked of the planner. When nothing is left of a selection,
the one statement selects all columns of the root table. -/
theorem selects_of_build (hs : r.Sound) (hd : r.catalog.find? d.name = some d)
    (hselection : (after (r, start d settings) calls).2.selection = some s)
    (h : (after (r, start d settings) calls).1.result
      (build (after (r, start d settings) calls).2) = .ok plan) :
    ∃ p, plan.projection = some p ∧
      (s ≠ .empty → List.Forall₂ (fun l st => Statement.Selects l.1 l.2 st)
        (selectLists plan.table p) (statements plan)) ∧
      (s = .empty → ∃ st, statements plan = [st] ∧ st.SelectsAll plan.table) := by
  obtain ⟨hof, hentity, hfits⟩ := session_after hs hd settings calls
  obtain ⟨p, hp, rfl⟩ : ∃ p, r.catalog.project d.name s = .ok p ∧
      plan = (after (r, start d settings) calls).2.planWith (some p) := by
    rcases cases_of_build hof h with ⟨hnone, -⟩ | ⟨_, p, hsome, hp, rfl⟩
    · rw [hselection] at hnone
      cases hnone
    · rw [hselection] at hsome
      cases hsome
      exact ⟨p, hentity ▸ hp, rfl⟩
  have htidy : p.Tidy := Catalog.tidy_project hs.named hp hd
  have hnil : p.columns = [] ↔ s = .empty :=
    Catalog.columns_eq_nil_iff hs.named hp hd (hfits s hselection)
  -- a level that is loaded has a column, by which its rows are found
  have hlevels : ∀ e ∈ levels "" p, e.projection.columns ≠ [] := by
    intro e he
    obtain ⟨names, parent, name, hparent, hmem⟩ := Sql.exists_node?_of_mem_levels htidy he
    exact List.ne_nil_of_mem (Catalog.relatedColumn_mem_columns hs.named hp hd hparent hmem)
  refine ⟨p, rfl, fun hsome => ?_, fun hnone => ?_⟩
  · rw [Sql.statements_eq rfl]
    refine .cons (Sql.selects_rootStatement rfl (mt hnil.1 hsome)) ?_
    rw [List.forall₂_map_left_iff, List.forall₂_map_right_iff, List.forall₂_same]
    exact fun e he => Sql.selects_relationStatement (hlevels e he)
  · cases hnone
    have hbelow : levels "" p = [] := List.eq_nil_iff_forall_not_mem.2 fun e he => by
      obtain ⟨e', he', -⟩ := Sql.mem_levels.1 he
      rw [Catalog.relations_project_empty hp hd] at he'
      cases he'
    refine ⟨_, ?_, Sql.selectsAll_rootStatement rfl (hnil.2 rfl)⟩
    rw [Sql.statements_eq rfl, hbelow]
    rfl

/-- Posts with the addresses of their authors: each statement lists its columns. -/
theorem selects_of_posts :
    let s := after (Registry.ofPosts, start Entity.post.define .usual)
      [.select ["title", "writer.mail"]]
    ∃ plan p, s.1.result (build s.2) = .ok plan ∧ plan.projection = some p ∧
      List.Forall₂ (fun l st => Statement.Selects l.1 l.2 st)
        (selectLists plan.table p) (statements plan) ∧
      (statements plan).map Statement.sql =
        ["SELECT posts.title AS title, posts.author_id FROM posts",
          "SELECT users.contact AS mail, users.id FROM users WHERE users.id = ANY($1)"] := by
  intro s
  let selection : Selection := ⟨["title"], [("writer", ⟨["mail"], []⟩)]⟩
  have hd : Registry.ofPosts.catalog.find? "Post" = some Entity.post.define := by rfl
  have hselection : s.2.selection = some selection := by rfl
  have hsome : selection ≠ .empty := fun h =>
    List.cons_ne_nil "title" [] (congrArg Selection.columns h)
  have hsql : (s.1.result (build s.2)).toOption.map
      (fun plan => (statements plan).map Statement.sql) =
        some ["SELECT posts.title AS title, posts.author_id FROM posts",
          "SELECT users.contact AS mail, users.id FROM users WHERE users.id = ANY($1)"] := by
    decide +kernel
  obtain ⟨plan, hbuild, hsql⟩ := Outcome.exists_of_toOption hsql
  obtain ⟨p, hp, hselects, -⟩ := selects_of_build Registry.sound_ofPosts hd hselection hbuild
  exact ⟨plan, p, hbuild, hp, hselects hsome, hsql⟩

/-- A column of posts that may not be selected is asked for. The call succeeds, nothing is selected,
and the statement is for all columns of the table. -/
theorem selectsAll_of_posts :
    let s₀ := (Registry.ofPosts, start Entity.post.define .usual)
    let s := after s₀ [.select ["secret"]]
    ((Call.select ["secret"]).work.run.run s₀).1 = .ok () ∧
      ∃ plan p, s.1.result (build s.2) = .ok plan ∧ plan.projection = some p ∧ p.columns = [] ∧
        (statements plan).map Statement.sql = ["SELECT * FROM posts"] ∧
        ¬ List.Forall₂ (fun l st => Statement.Selects l.1 l.2 st)
          (selectLists plan.table p) (statements plan) := by
  intro s₀ s
  refine ⟨by rfl, ?_⟩
  have hplan : (s.1.result (build s.2)).toOption.map
      (fun plan => (plan.projection.map Projection.columns, (statements plan).map Statement.sql)) =
        some (some [], ["SELECT * FROM posts"]) := by decide +kernel
  obtain ⟨plan, hbuild, hparts⟩ := Outcome.exists_of_toOption hplan
  obtain ⟨hcolumns, hsql⟩ := Prod.mk.inj hparts
  obtain ⟨p, hp, hnone⟩ := Option.map_eq_some_iff.1 hcolumns
  refine ⟨plan, p, hbuild, hp, hnone, hsql, fun hall => ?_⟩
  rw [selectLists, hnone, Sql.statements_eq hp] at hall
  cases hall with
  | cons hroot => exact (Sql.selectsAll_rootStatement hp hnone).not_selects_nil hroot

end Planner
end RequestPlan
