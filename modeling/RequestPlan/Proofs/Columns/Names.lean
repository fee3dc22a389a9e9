import RequestPlan.Proofs.Columns.Statements
import RequestPlan.Proofs.Planner.Projection
import RequestPlan.Proofs.Selection.Resolve

/-!
# Names in result rows

Columns are read from a result row by their names: by the alias under which they are selected, or
by the name of the column where they are selected as they are, for their use as keys.

* `Projection.Unambiguous`: columns of a level with one name are one column.
* `Catalog.Selects`, `Catalog.KeyAt`: the columns behind some names of relations, those of aliases
  and those that serve as keys.
* `Registry.unambiguous_iff_of_project`: **a level is unambiguous exactly when no alias is the name
  of a key column that it does not stand for**.
* `Catalog.NamesApart`: no alias that an entity declares is such a name, and then no selection is
  ambiguous.
-/

namespace RequestPlan

/-! ## Names of columns -/

/-- A qualified column is named by what is behind the qualifier. -/
theorem Column.baseName_of_dot {name : String} (h : '.' ∉ name.toList) (qualifier : String) :
    baseName (qualifier ++ "." ++ name) = name := by
  have hcut : Text.cutLast? '.' (qualifier ++ "." ++ name) = some (qualifier, name) :=
    Text.cutLast?_append h qualifier
  rw [baseName, hcut]

/-- Columns with one qualifier are told apart by their names. -/
theorem Qualified.eq_of_baseName {qualifier column column' : String}
    (h : Qualified qualifier column) (h' : Qualified qualifier column')
    (hname : Column.baseName column = Column.baseName column') : column = column' := by
  obtain ⟨name, hdot, rfl⟩ := h
  obtain ⟨name', hdot', rfl⟩ := h'
  rw [Column.baseName_of_dot hdot, Column.baseName_of_dot hdot'] at hname
  rw [hname]

/-- Columns of a level that have one name in the result are one column. -/
def Projection.Unambiguous (p : Projection) : Prop :=
  ∀ col ∈ p.columns, ∀ col' ∈ p.columns, col.outputName = col'.outputName → col.body = col'.body

namespace Catalog

variable {c : Catalog} {d e e' related : Definition} {s s' s'' : Selection} {names : List String}
  {a column column' k k' : String} {r : Relation}

/-! ## Columns behind names -/

/-- An alias is selected behind some names, and stands for a column there. -/
def Selects (c : Catalog) (d : Definition) (s : Selection) (names : List String)
    (a column : String) : Prop :=
  ∃ e s', c.Leads d s names e s' ∧ a ∈ s'.columns ∧
    ∃ key, e.selectKey? a = some key ∧ column = e.column key

/-- A column serves as a key behind some names: for a relation from there on, or for the one that
leads there. -/
def KeyAt (c : Catalog) (d : Definition) (s : Selection) (names : List String) (k : String) :
    Prop :=
  (∃ e s', c.Leads d s names e s' ∧ ∃ below ∈ s'.relations, ∃ r related,
    c.Relates e below.1 r related ∧ k ∈ r.parentKeys e.toEntity) ∨
  ∃ before e s', c.Leads d s before e s' ∧ ∃ below ∈ s'.relations, ∃ r related,
    c.Relates e below.1 r related ∧ names = before ++ [r.name] ∧ k ∈ r.childKeys related.toEntity

/-- A column of an entity may serve as a key: for a relation of its own that may be selected, or for
one that leads to it. -/
inductive IsKey (c : Catalog) : Definition → String → Prop
  | parent {e related : Definition} {a k : String} {r : Relation}
      (he : ∃ name, c.find? name = some e) (hr : c.Relates e a r related)
      (hk : k ∈ r.parentKeys e.toEntity) : IsKey c e k
  | child {e related : Definition} {a k : String} {r : Relation}
      (he : ∃ name, c.find? name = some e) (hr : c.Relates e a r related)
      (hk : k ∈ r.childKeys related.toEntity) : IsKey c related k

theorem Leads.append (h : c.Leads d s names e s') {more : List String}
    (h' : c.Leads e s' more e' s'') : c.Leads d s (names ++ more) e' s'' := by
  induction h with
  | here => exact h'
  | step he hr _ ih => exact .step he hr (ih h')

/-- What serves as a key behind some names is a key of an entity that they lead to. -/
theorem KeyAt.isKey (hd : ∃ name, c.find? name = some d) (h : c.KeyAt d s names k) :
    ∃ e s', c.Leads d s names e s' ∧ c.IsKey e k := by
  rcases h with ⟨e, s', hleads, below, hbelow, r, related, hr, hk⟩ |
    ⟨before, e, s', hleads, below, hbelow, r, related, hr, rfl, hk⟩
  · exact ⟨e, s', hleads, .parent (hleads.find? hd) hr hk⟩
  · exact ⟨related, below.2, hleads.append (.step hbelow hr .here),
      .child (hleads.find? hd) hr hk⟩

/-- **Names lead to one entity**, whatever aliases have led along them. -/
theorem Leads.unique (hkeyed : c.KeyedByName) (hd : ∃ name, c.find? name = some d)
    (h : c.Leads d s names e s') {t t' : Selection} (h' : c.Leads d t names e' t') : e = e' := by
  induction h generalizing t with
  | here =>
    cases h'
    rfl
  | @step d related e s s' below r names hbelow hr _ ih =>
    generalize hnames : r.name :: names = all at h'
    cases h' with
    | here => cases hnames
    | @step _ related' _ _ _ below' r' names' hbelow' hr' hrest =>
      obtain ⟨hname, rfl⟩ := List.cons.inj hnames
      obtain ⟨⟨key, -, hkey⟩, hrelated⟩ := hr
      obtain ⟨⟨key', -, hkey'⟩, hrelated'⟩ := hr'
      obtain ⟨entity, hfind⟩ := hd
      -- both relations are found under the one name
      have hown : r.name = key := hkeyed entity d hfind key r hkey
      have hown' : r'.name = key' := hkeyed entity d hfind key' r' hkey'
      rw [← hown, hname, hown', hkey'] at hkey
      cases hkey
      rw [hrelated] at hrelated'
      cases hrelated'
      exact ih ⟨_, hrelated⟩ hrest

theorem Selects.unique (hkeyed : c.KeyedByName) (hd : ∃ name, c.find? name = some d)
    (h : c.Selects d s names a column) (h' : c.Selects d s names a column') : column = column' := by
  obtain ⟨e, s', hleads, -, key, hkey, rfl⟩ := h
  obtain ⟨e', s'', hleads', -, key', hkey', rfl⟩ := h'
  obtain rfl := hleads.unique hkeyed hd hleads'
  rw [hkey] at hkey'
  cases hkey'
  rfl

/-- Without dots in keys, the keys of an entity are qualified by its table. -/
theorem IsKey.qualified (hundotted : ∀ name e, c.find? name = some e → e.toEntity.Undotted)
    (h : c.IsKey e k) : Qualified e.table k := by
  cases h with
  | parent he hr hk =>
    obtain ⟨⟨key, -, hr⟩, -⟩ := hr
    obtain ⟨name, hfind⟩ := he
    exact Relation.qualified_parentKeys (hundotted name _ hfind) hr
      (Registry.mem_keyColumns.2 ⟨k, hk, rfl⟩)
  | child he hr hk =>
    obtain ⟨⟨key, -, hr⟩, hrelated⟩ := hr
    obtain ⟨name, hfind⟩ := he
    exact Relation.qualified_childKeys (hundotted name _ hfind) (hundotted _ _ hrelated) hr
      (Registry.mem_keyColumns.2 ⟨k, hk, rfl⟩)

theorem KeyAt.eq_of_baseName (hkeyed : c.KeyedByName)
    (hundotted : ∀ name e, c.find? name = some e → e.toEntity.Undotted)
    (hd : ∃ name, c.find? name = some d) (h : c.KeyAt d s names k) (h' : c.KeyAt d s names k')
    (hname : Column.baseName k = Column.baseName k') : k = k' := by
  obtain ⟨e, s', hleads, hkey⟩ := h.isKey hd
  obtain ⟨e', s'', hleads', hkey'⟩ := h'.isKey hd
  obtain rfl := hleads.unique hkeyed hd hleads'
  exact (hkey.qualified hundotted).eq_of_baseName (hkey'.qualified hundotted) hname

/-- No alias that may be selected is the name of a key of its entity, unless it stands for it. -/
def NamesApart (c : Catalog) : Prop :=
  ∀ name e, c.find? name = some e → ∀ a key k, e.selectKey? a = some key → c.IsKey e k →
    Column.baseName k = a → e.column key = k

/-- Whether aliases are apart from keys can be looked up relation by relation. -/
theorem namesApart_of_entries (h : ∀ p ∈ c.entries, ∀ q ∈ p.2.relations.entries,
    (∀ k ∈ q.2.parentKeys p.2.toEntity, ∀ key ∈ (p.2.selectKey? (Column.baseName k)).toList,
      p.2.column key = k) ∧
    ∀ e ∈ (c.find? q.2.related).toList, ∀ k ∈ q.2.childKeys e.toEntity,
      ∀ key ∈ (e.selectKey? (Column.baseName k)).toList, e.column key = k) : c.NamesApart := by
  rintro name e hfind a key k hkey hk rfl
  have hmem : key ∈ (e.selectKey? (Column.baseName k)).toList := Option.mem_toList.2 hkey
  cases hk with
  | parent he hr hk =>
    obtain ⟨⟨relation, -, hr⟩, -⟩ := hr
    have hrelation := h (name, e) (Dict.find?_eq_some_iff.1 hfind) (relation, _)
      (Dict.find?_eq_some_iff.1 hr)
    exact hrelation.1 k hk key hmem
  | @child parent _ _ _ r he hr hk =>
    obtain ⟨⟨relation, -, hr⟩, hrelated⟩ := hr
    obtain ⟨parentName, hparent⟩ := he
    have hrelation := h (parentName, parent) (Dict.find?_eq_some_iff.1 hparent) (relation, r)
      (Dict.find?_eq_some_iff.1 hr)
    exact hrelation.2 e (Option.mem_toList.2 hrelated) k hk key hmem

end Catalog

/-! ## Names of a level -/

namespace Registry

variable {r : Registry} {d : Definition} {entity : String} {s : Selection} {p node : Projection}
  {names : List String}

/-- A level has the columns of its aliases, and its keys. -/
theorem mem_columns_iff (hs : r.Sound)
    (hhooks : ∀ name e, r.catalog.find? name = some e → e.hooks.selects = ∅)
    (hd : r.catalog.find? entity = some d) (h : r.result (project entity s) = .ok p)
    (hnode : p.node? names = some node) (col : Column) : col ∈ node.columns ↔
      (∃ a column, r.catalog.Selects d s names a column ∧ col = .stored column (some a)) ∨
        ∃ k, r.catalog.KeyAt d s names k ∧ col = .stored k none := by
  have hproject : r.catalog.project entity s = .ok p :=
    (answers_project entity s r rfl hs).1.symm.trans h
  have hat : col ∈ node.columns ↔ p.At (fun q => col ∈ q.columns) names := by
    simp only [Projection.At, hnode, Option.some.injEq, exists_eq_left']
  rw [hat, Catalog.at_columns_iff hs.named hproject hd, Catalog.needs_iff]
  simp only [mem_keyColumns]
  refine or_congr ?_ ?_
  · constructor
    · rintro ⟨e, s', hleads, a, ha, key, hkey, hcol⟩
      obtain ⟨name, hname⟩ := hleads.find? ⟨entity, hd⟩
      exact ⟨a, _, ⟨e, s', hleads, ha, key, hkey, rfl⟩,
        (selectColumn_eq_ok_iff (hhooks name e hname)).1 hcol⟩
    · rintro ⟨a, _, ⟨e, s', hleads, ha, key, hkey, rfl⟩, rfl⟩
      obtain ⟨name, hname⟩ := hleads.find? ⟨entity, hd⟩
      exact ⟨e, s', hleads, a, ha, key, hkey,
        (selectColumn_eq_ok_iff (hhooks name e hname)).2 rfl⟩
  · constructor
    · rintro (⟨e, s', hleads, below, hbelow, rel, related, hr, k, hk, rfl⟩ |
        ⟨before, e, s', hleads, below, hbelow, rel, related, hr, hnames, k, hk, rfl⟩)
      · exact ⟨k, .inl ⟨e, s', hleads, below, hbelow, rel, related, hr, hk⟩, rfl⟩
      · exact ⟨k, .inr ⟨before, e, s', hleads, below, hbelow, rel, related, hr, hnames, hk⟩, rfl⟩
    · rintro ⟨k, ⟨e, s', hleads, below, hbelow, rel, related, hr, hk⟩ |
        ⟨before, e, s', hleads, below, hbelow, rel, related, hr, hnames, hk⟩, rfl⟩
      · exact .inl ⟨e, s', hleads, below, hbelow, rel, related, hr, k, hk, rfl⟩
      · exact .inr ⟨before, e, s', hleads, below, hbelow, rel, related, hr, hnames, k, hk, rfl⟩

/-- A level is unambiguous when its aliases agree among each other, with its keys, and its keys
among each other. -/
theorem unambiguous_iff (hs : r.Sound)
    (hhooks : ∀ name e, r.catalog.find? name = some e → e.hooks.selects = ∅)
    (hd : r.catalog.find? entity = some d) (h : r.result (project entity s) = .ok p)
    (hnode : p.node? names = some node) : node.Unambiguous ↔
      (∀ a column column', r.catalog.Selects d s names a column →
        r.catalog.Selects d s names a column' → column = column') ∧
      (∀ a column k, r.catalog.Selects d s names a column → r.catalog.KeyAt d s names k →
        Column.baseName k = a → column = k) ∧
      ∀ k k', r.catalog.KeyAt d s names k → r.catalog.KeyAt d s names k' →
        Column.baseName k = Column.baseName k' → k = k' := by
  have hmem := mem_columns_iff hs hhooks hd h hnode
  constructor
  · intro hnames
    refine ⟨fun a column column' ha ha' => ?_, fun a column k ha hk hname => ?_,
      fun k k' hk hk' hname => ?_⟩
    · exact hnames (.stored column (some a)) ((hmem _).2 (.inl ⟨a, column, ha, rfl⟩))
        (.stored column' (some a)) ((hmem _).2 (.inl ⟨a, column', ha', rfl⟩)) rfl
    · exact hnames (.stored column (some a)) ((hmem _).2 (.inl ⟨a, column, ha, rfl⟩))
        (.stored k none) ((hmem _).2 (.inr ⟨k, hk, rfl⟩)) hname.symm
    · exact hnames (.stored k none) ((hmem _).2 (.inr ⟨k, hk, rfl⟩))
        (.stored k' none) ((hmem _).2 (.inr ⟨k', hk', rfl⟩)) hname
  · rintro ⟨haliases, hboth, hkeys⟩ col hcol col' hcol' hname
    rcases (hmem col).1 hcol with ⟨a, column, ha, rfl⟩ | ⟨k, hk, rfl⟩
    · rcases (hmem col').1 hcol' with ⟨a', column', ha', rfl⟩ | ⟨k', hk', rfl⟩
      · obtain rfl : a = a' := hname
        exact haliases a column column' ha ha'
      · exact hboth a column k' ha hk' hname.symm
    · rcases (hmem col').1 hcol' with ⟨a', column', ha', rfl⟩ | ⟨k', hk', rfl⟩
      · exact (hboth a' column' k ha' hk hname).symm
      · exact hkeys k k' hk hk' hname

/-- **A level is unambiguous exactly when no alias is the name of a key column that it does not
stand for.** So it is for every selection that has a projection, at every depth, without select
hooks, when relations are found under their names and no key has a dot; in general, aliases have to
agree among each other, too, and so do keys. When no alias that an entity declares is the name of
another column by which its rows are put together, no selection is ambiguous. Where one is, a key
column stands under its own name beside an alias of this name for another column. -/
theorem unambiguous_iff_of_project (hs : r.Sound)
    (hhooks : ∀ name e, r.catalog.find? name = some e → e.hooks.selects = ∅)
    (hd : r.catalog.find? entity = some d) (h : r.result (project entity s) = .ok p) :
    (∀ names node, p.node? names = some node → (node.Unambiguous ↔
      (∀ a column column', r.catalog.Selects d s names a column →
        r.catalog.Selects d s names a column' → column = column') ∧
      (∀ a column k, r.catalog.Selects d s names a column → r.catalog.KeyAt d s names k →
        Column.baseName k = a → column = k) ∧
      ∀ k k', r.catalog.KeyAt d s names k → r.catalog.KeyAt d s names k' →
        Column.baseName k = Column.baseName k' → k = k')) ∧
    (r.catalog.KeyedByName →
      (∀ name e, r.catalog.find? name = some e → e.toEntity.Undotted) →
      (∀ names node, p.node? names = some node → (node.Unambiguous ↔
        ∀ a column k, r.catalog.Selects d s names a column → r.catalog.KeyAt d s names k →
          Column.baseName k = a → column = k)) ∧
      (r.catalog.NamesApart → ∀ names node, p.node? names = some node → node.Unambiguous)) := by
  refine ⟨fun names node hnode => unambiguous_iff hs hhooks hd h hnode,
    fun hkeyed hundotted => ?_⟩
  have hiff : ∀ names node, p.node? names = some node → (node.Unambiguous ↔
      ∀ a column k, r.catalog.Selects d s names a column → r.catalog.KeyAt d s names k →
        Column.baseName k = a → column = k) := by
    intro names node hnode
    rw [unambiguous_iff hs hhooks hd h hnode]
    refine ⟨fun hall => hall.2.1, fun hboth => ⟨fun a column column' ha ha' => ?_, hboth,
      fun k k' hk hk' hname => ?_⟩⟩
    · exact ha.unique hkeyed ⟨entity, hd⟩ ha'
    · exact hk.eq_of_baseName hkeyed hundotted ⟨entity, hd⟩ hk' hname
  refine ⟨hiff, fun hapart names node hnode => (hiff names node hnode).2 ?_⟩
  rintro a _ k ⟨e, s', hleads, -, key, hkey, rfl⟩ hk hname
  obtain ⟨e', s'', hleads', hiskey⟩ := hk.isKey ⟨entity, hd⟩
  obtain rfl := hleads.unique hkeyed ⟨entity, hd⟩ hleads'
  obtain ⟨name, hfind⟩ := hleads.find? ⟨entity, hd⟩
  exact hapart name e hfind a key k hkey hiskey hname

/-- No alias of posts, users and notes is the name of a key. -/
theorem namesApart_ofPosts : ofPosts.catalog.NamesApart := by
  refine Catalog.namesApart_of_entries ?_
  decide +kernel

/-- Two aliases lead to the author of a post, who has a contact and a key. -/
theorem unambiguous_of_posts :
    let s : Selection := ⟨["title"], [("author", ⟨["name"], []⟩), ("notes", ⟨["text"], []⟩),
      ("writer", ⟨["mail"], []⟩)]⟩
    ∃ p author, ofPosts.result (project "Post" s) = .ok p ∧ p.node? ["author"] = some author ∧
      author.columns.map Column.outputName = ["name", "id", "mail"] ∧ p.Unambiguous ∧
      author.Unambiguous := by
  intro s
  obtain ⟨p, author, hp, hauthor, hcolumns⟩ : ∃ p author,
      ofPosts.result (project "Post" s) = .ok p ∧ p.node? ["author"] = some author ∧
        author.columns.map Column.outputName = ["name", "id", "mail"] :=
    ⟨_, _, by rfl, by rfl, by rfl⟩
  have hhooks := Catalog.selects_eq_empty_of_all (c := ofPosts.catalog) (by decide +kernel)
  obtain ⟨-, hplain⟩ := unambiguous_iff_of_project sound_ofPosts hhooks (by rfl) hp
  obtain ⟨-, hall⟩ := hplain keyedByName_ofPosts plain_ofPosts.undotted
  exact ⟨p, author, hp, hauthor, hcolumns, hall namesApart_ofPosts [] p rfl,
    hall namesApart_ofPosts ["author"] author hauthor⟩

end Registry

/-! ## Articles -/

/-- Articles, with the name of who wrote them under the name of another column. -/
def Entity.article : Entity where
  name := "Article"
  table := "articles"
  key := "id"
  relations := Dict.ofList [("author", .plain .owning "author" "Author" "author_id" "")]
  queryable := none
  filterable := none
  sortable := none
  selectable := some [.bare "title", .typed "author_id" none "writer_name", .bare "author"]

/-- Authors of articles. -/
def Entity.author : Entity where
  name := "Author"
  table := "authors"
  key := "id"
  relations := ∅
  queryable := none
  filterable := none
  sortable := none
  selectable := some [.bare "name"]

namespace Registry

/-- A registry that knows articles and their authors. -/
def ofArticles : Registry := after [.register Entity.article.define, .register Entity.author.define]

/-- The names of writers shadow the keys of the authors. -/
theorem shadowed_of_articles :
    ∃ p, ofArticles.result (resolve 2 "Article" ["author_id", "author.name"] .all) = .ok p ∧
      p.columns = [.stored "articles.writer_name" (some "author_id"),
        .stored "articles.author_id" none] ∧ ¬p.Unambiguous := by
  obtain ⟨p, hp, hcolumns⟩ := Outcome.exists_of_toOption (f := Projection.columns)
    (x := ofArticles.result (resolve 2 "Article" ["author_id", "author.name"] .all))
    (b := [.stored "articles.writer_name" (some "author_id"), .stored "articles.author_id" none])
    (by decide +kernel)
  refine ⟨p, hp, hcolumns, fun hnames => ?_⟩
  have hsame := hnames (.stored "articles.writer_name" (some "author_id")) (by simp [hcolumns])
    (.stored "articles.author_id" none) (by simp [hcolumns]) (by decide)
  exact absurd hsame (by decide)

end Registry
end RequestPlan
