import RequestPlan.Proofs.Planner.Calls
import RequestPlan.Proofs.Selection.Project

/-!
# Projections of planners

`project_after`: **a projection holds exactly what was asked of its planner**, and the columns by
which related rows are put to their parents.
-/

namespace RequestPlan

theorem Registry.mem_keyColumns {columns : List String} {col : Column} :
    col ∈ keyColumns columns ↔ ∃ k ∈ columns, col = .stored k none := by
  simp only [keyColumns, List.mem_map, eq_comm]

/-- Selections lead from registered entities to registered entities. -/
theorem Catalog.Leads.find? {c : Catalog} {d d' : Definition} {s s' : Selection}
    {names : List String} (h : c.Leads d s names d' s') (hd : ∃ name, c.find? name = some d) :
    ∃ name, c.find? name = some d' := by
  induction h with
  | here => exact hd
  | step _ hr _ ih => exact ih ⟨_, hr.2⟩

namespace Planner

variable {r : Registry} {d : Definition} {settings : Settings} {calls : List Call} {s : Selection}
  {p : Projection}

/-- **A projection holds exactly what was selected, and keys.** Without select hooks, and whatever
was asked of the planner before, there is a level behind some names of relations exactly when
aliases of the selection lead along these relations. Each alias that is selected there stands for
a column or for a relation. The level repeats no column, and it has the column of every alias
that is selected in any of the places which the names lead to, the keys of the relations from
there on, the keys of the relation that leads there, and no other column. Its relations come in
strict order of their links' names, so that each is loaded once. -/
theorem project_after (hs : r.Sound) (hd : r.catalog.find? d.name = some d)
    (hhooks : ∀ name e, r.catalog.find? name = some e → e.hooks.selects = ∅)
    (hselection : (after (r, start d settings) calls).2.selection = some s)
    (h : (after (r, start d settings) calls).1.result (Registry.project d.name s) = .ok p)
    (names : List String) :
    let c := r.catalog
    ((∃ node, p.node? names = some node) ↔ ∃ d' s', c.Leads d s names d' s') ∧
    (∀ d' s', c.Leads d s names d' s' →
      (∀ a ∈ s'.columns, ∃ key, d'.selectKey? a = some key ∧ d'.relation? key = none) ∧
      ∀ e ∈ s'.relations, ∃ rel related, c.Relates d' e.1 rel related) ∧
    ∀ node, p.node? names = some node →
      node.columns.Nodup ∧
      (∀ col, col ∈ node.columns ↔
        (∃ d' s', c.Leads d s names d' s' ∧ ∃ a ∈ s'.columns, ∃ key,
          d'.selectKey? a = some key ∧ col = .stored (d'.column key) (some a)) ∨
        (∃ d' s', c.Leads d s names d' s' ∧ ∃ e ∈ s'.relations, ∃ rel related,
          c.Relates d' e.1 rel related ∧
            ∃ k ∈ rel.parentKeys d'.toEntity, col = .stored k none) ∨
        ∃ before d' s', c.Leads d s before d' s' ∧ ∃ e ∈ s'.relations, ∃ rel related,
          c.Relates d' e.1 rel related ∧ names = before ++ [rel.name] ∧
            ∃ k ∈ rel.childKeys related.toEntity, col = .stored k none) ∧
      (node.relations.map Prod.fst).Pairwise (· < ·) ∧
      ∀ e ∈ node.relations, e.2.1.name = e.1 := by
  intro c
  obtain ⟨⟨hcatalog, hsound⟩, -, hfits⟩ := session_after hs hd settings calls
  have hproject : c.project d.name s = .ok p :=
    (Registry.answers_project d.name s _ hcatalog hsound).1.symm.trans h
  have htidy : p.Tidy := Catalog.tidy_project hs.named hproject hd
  refine ⟨?_, fun d' s' hleads => ?_, fun node hnode => ⟨?_, fun col => ?_, ?_, fun e he => ?_⟩⟩
  · rw [← Catalog.at_iff_leads hs.named hproject hd]
    simp only [Projection.At, and_true]
  · obtain ⟨hcolumns, hrelations⟩ := Catalog.fits_iff.1 ((hfits s hselection).of_leads hleads)
    refine ⟨hcolumns, fun e he => ?_⟩
    obtain ⟨rel, related, hr, -⟩ := hrelations e he
    exact ⟨rel, related, hr⟩
  · exact (htidy.of_node? hnode).nodup
  · have hat : col ∈ node.columns ↔ p.At (fun q => col ∈ q.columns) names := by
      simp only [Projection.At, hnode, Option.some.injEq, exists_eq_left']
    rw [hat, Catalog.at_columns_iff hs.named hproject hd, Catalog.needs_iff]
    simp only [Registry.mem_keyColumns]
    refine or_congr_left (exists_congr fun d' => exists_congr fun s' => and_congr_right ?_)
    intro hleads
    obtain ⟨name, hname⟩ := hleads.find? ⟨d.name, hd⟩
    simp only [Registry.selectColumn_eq_ok_iff (hhooks name d' hname)]
  · exact List.pairwise_map.2 (htidy.of_node? hnode).ordered
  · exact (htidy.of_node? hnode).name_eq he

/-- Both aliases of the author come together in one relation. -/
theorem project_after_of_posts :
    ∃ r' planner s p author,
      after (Registry.ofPosts, start Entity.post.define .usual)
        [.select ["title", "author.name"], .unselect [" "], .selectScoped ["writer.mail"] .all] =
          (r', planner) ∧
      planner.selection = some s ∧ r'.result (Registry.project "Post" s) = .ok p ∧
      p.node? ["author"] = some author ∧ author.columns.Nodup ∧
      .stored "users.name" (some "name") ∈ author.columns ∧
      .stored "users.contact" (some "mail") ∈ author.columns := by
  let s : Selection := ⟨["title"], [("author", ⟨["name"], []⟩), ("writer", ⟨["mail"], []⟩)]⟩
  have hd : Registry.ofPosts.catalog.find? "Post" = some Entity.post.define := by rfl
  have huser : Registry.ofPosts.catalog.find? "User" = some Entity.user.define := by rfl
  have hhooks : ∀ name e, Registry.ofPosts.catalog.find? name = some e → e.hooks.selects = ∅ := by
    intro name e he
    have hmem := Dict.find?_eq_some_iff.1 he
    have hentries : Registry.ofPosts.catalog.entries = [("Note", Entity.note.define),
      ("Post", Entity.post.define), ("User", Entity.user.define)] := by rfl
    rw [hentries] at hmem
    simp only [List.mem_cons, List.not_mem_nil, or_false, Prod.mk.injEq] at hmem
    rcases hmem with ⟨-, rfl⟩ | ⟨-, rfl⟩ | ⟨-, rfl⟩ <;> rfl
  have hselection : (after (Registry.ofPosts, start Entity.post.define .usual)
      [.select ["title", "author.name"], .unselect [" "],
        .selectScoped ["writer.mail"] .all]).2.selection = some s := by rfl
  obtain ⟨p, hp⟩ : ∃ p, (after (Registry.ofPosts, start Entity.post.define .usual)
      [.select ["title", "author.name"], .unselect [" "],
        .selectScoped ["writer.mail"] .all]).1.result (Registry.project "Post" s) = .ok p :=
    ⟨_, by rfl⟩
  obtain ⟨hnode, -, hcolumns⟩ :=
    project_after Registry.sound_ofPosts hd hhooks hselection hp ["author"]
  -- the one relation that both aliases lead along
  let r : Relation := .plain .owning "author" "User" "author_id" ""
  have hauthor : Registry.ofPosts.catalog.Relates Entity.post.define "author" r
      Entity.user.define := ⟨⟨"author", by rfl, by rfl⟩, huser⟩
  have hwriter : Registry.ofPosts.catalog.Relates Entity.post.define "writer" r
      Entity.user.define := ⟨⟨"author", by rfl, by rfl⟩, huser⟩
  have hname : Registry.ofPosts.catalog.Leads Entity.post.define s [r.name]
      Entity.user.define ⟨["name"], []⟩ := .step List.mem_cons_self hauthor .here
  have hmail : Registry.ofPosts.catalog.Leads Entity.post.define s [r.name]
      Entity.user.define ⟨["mail"], []⟩ :=
    .step (List.mem_cons_of_mem _ List.mem_cons_self) hwriter .here
  obtain ⟨author, hfind⟩ := hnode.2 ⟨_, _, hname⟩
  obtain ⟨hnodup, hmem, -⟩ := hcolumns author hfind
  exact ⟨_, _, s, p, author, rfl, hselection, hp, hfind, hnodup,
    (hmem _).2 (.inl ⟨_, _, hname, "name", List.mem_cons_self, "name", by rfl, by rfl⟩),
    (hmem _).2 (.inl ⟨_, _, hmail, "mail", List.mem_cons_self, "contact", by rfl, by rfl⟩)⟩

end Planner
end RequestPlan
