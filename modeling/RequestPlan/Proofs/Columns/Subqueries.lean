import RequestPlan.Proofs.Columns.Filters
import RequestPlan.Proofs.Registry.Caches
import RequestPlan.Proofs.Sql.Clause

/-!
# Columns of subqueries

A condition on related rows is a subquery, whose key equation has to compare a column of its own
table with one of the query around it. Its table has no alias, so that a column of the query around
it is taken for its own where both have the same table.

* `Predicate.Subquery`: the subqueries of a predicate, at any depth, and what they stand in.
* `Link.Correlates`: a key equation compares the two queries.
* `Subquery.inside`: **every subquery is rendered with its key equation**, and
  `CompiledFilter.Of.subquery`: the subqueries of a filter follow the relations along its key.
* `correlates_iff_of_filter`: **a subquery of a filter correlates exactly when the relation leads to
  another table**.
-/

namespace RequestPlan

/-! ## Parts of texts -/

/-- A text is a part of another one. -/
def Text.Inside (t whole : String) : Prop := ∃ before behind, whole = before ++ t ++ behind

namespace Text.Inside

variable {s t whole : String}

theorem refl (t : String) : Inside t t := ⟨"", "", by simp⟩

theorem front (h : Inside t s) (behind : String) : Inside t (s ++ behind) := by
  obtain ⟨before, behind', rfl⟩ := h
  exact ⟨before, behind' ++ behind, by simp only [String.append_assoc]⟩

theorem back (h : Inside t s) (before : String) : Inside t (before ++ s) := by
  obtain ⟨before', behind, rfl⟩ := h
  exact ⟨before ++ before', behind, by simp only [String.append_assoc]⟩

theorem joinWith (separator : String) {parts : List String} (hs : s ∈ parts) (h : Inside t s) :
    Inside t (joinWith separator parts) := by
  induction parts with
  | nil => exact absurd hs List.not_mem_nil
  | cons part parts ih =>
    cases parts with
    | nil =>
      cases List.mem_singleton.1 hs
      exact h
    | cons next parts =>
      rw [joinWith_cons_cons]
      rcases List.mem_cons.1 hs with rfl | hs
      · have hfront : Inside t (s ++ separator) := h.front separator
        exact hfront.front _
      · exact (ih hs).back _

end Text.Inside

/-! ## Subqueries -/

namespace Predicate

/-- A subquery for a link stands in a predicate on the rows of a table, at any depth; the query
right around it is one on the rows of `outer`. -/
inductive Subquery : String → Predicate → String → Link → Prop
  | related {table : String} {l : Link} : Subquery table (.related l) table l
  | unrelated {table : String} {l : Link} : Subquery table (.unrelated l) table l
  | relatedWhere {table : String} {l : Link} {p : Predicate} :
      Subquery table (.relatedWhere l p) table l
  | inner {table outer : String} {l link : Link} {p : Predicate}
      (h : Subquery l.table p outer link) : Subquery table (.relatedWhere l p) outer link
  | allOf {table outer : String} {link : Link} {p : Predicate} {ps : List Predicate} (hp : p ∈ ps)
      (h : Subquery table p outer link) : Subquery table (.allOf ps) outer link
  | anyOf {table outer : String} {link : Link} {p : Predicate} {ps : List Predicate} (hp : p ∈ ps)
      (h : Subquery table p outer link) : Subquery table (.anyOf ps) outer link

/-- The subquery of a link up to its key equation. -/
def existsText (l : Link) : String :=
  "EXISTS (SELECT 1 FROM " ++ l.table ++ " WHERE " ++ l.relatedColumn ++ " = " ++ l.parentColumn

end Predicate

open Predicate (Subquery existsText)

namespace Sql

variable {p : Predicate} {ps : List Predicate}

theorem exists_correlated_text (bound : Nat) (l : Link) :
    ∃ morph, "EXISTS (" ++ (correlated bound l).text = existsText l ++ morph := by
  have hlead : "EXISTS (SELECT 1 FROM " = "EXISTS (" ++ "SELECT 1 FROM " := by decide
  unfold correlated existsText
  rw [hlead]
  cases l.morph with
  | none => exact ⟨"", by simp only [String.append_assoc, String.append_empty]⟩
  | some m =>
    exact ⟨" AND " ++ m.column ++ " = " ++ slot bound, by simp only [String.append_assoc]⟩

theorem exists_mem_clauses (hp : p ∈ ps) (bound : Nat) :
    ∃ bound', clause bound' p ∈ clauses bound ps := by
  induction ps generalizing bound with
  | nil => exact absurd hp List.not_mem_nil
  | cons q ps ih =>
    rw [clauses]
    rcases List.mem_cons.1 hp with rfl | hp
    · exact ⟨bound, List.mem_cons_self⟩
    · obtain ⟨bound', hmem⟩ := ih hp _
      exact ⟨bound', List.mem_cons_of_mem _ hmem⟩

/-- What is inside the text of a member is inside the text of a group. -/
theorem inside_group {t separator none : String} {cs : List Clause} {c : Clause} (hc : c ∈ cs)
    (h : Text.Inside t c.text) : Text.Inside t (group separator none cs).text := by
  match cs with
  | [] => exact absurd hc List.not_mem_nil
  | [c'] =>
    cases List.mem_singleton.1 hc
    exact h
  | c₁ :: c₂ :: cs =>
    have hjoined := Text.Inside.joinWith separator (List.mem_map_of_mem hc) h
    exact (hjoined.back "(").front ")"

end Sql

/-- **Every subquery is rendered with its key equation**, wherever it stands. -/
theorem Predicate.Subquery.inside {table outer : String} {p : Predicate} {l : Link}
    (h : Subquery table p outer l) (bound : Nat) :
    Text.Inside (existsText l) (Sql.clause bound p).text := by
  have hkey : ∀ (l : Link) bound, Text.Inside (existsText l)
      ("EXISTS (" ++ (Sql.correlated bound l).text) := by
    intro l bound
    obtain ⟨morph, hmorph⟩ := Sql.exists_correlated_text bound l
    rw [hmorph]
    exact (Text.Inside.refl _).front morph
  induction h generalizing bound with
  | @related table l =>
    exact (hkey l bound).front ")"
  | @unrelated table l =>
    have hnot : (Sql.clause bound (.unrelated l)).text =
        "NOT " ++ (("EXISTS (" ++ (Sql.correlated bound l).text) ++ ")") := by
      rw [Sql.clause]
      simp only [← String.append_assoc]
      rfl
    rw [hnot]
    exact ((hkey l bound).front ")").back "NOT "
  | @relatedWhere table l p =>
    rw [Sql.clause]
    exact (((hkey l bound).front " AND ").front _).front ")"
  | @inner table outer l link p h ih =>
    rw [Sql.clause]
    exact ((ih _).back _).front ")"
  | allOf hp h ih | anyOf hp h ih =>
    obtain ⟨bound', hmem⟩ := Sql.exists_mem_clauses hp bound
    rw [Sql.clause]
    exact Sql.inside_group hmem (ih bound')

/-! ## Correlation -/

/-- A column has one qualifier. -/
theorem Qualified.unique {q q' column : String} (h : Qualified q column)
    (h' : Qualified q' column) : q = q' := by
  obtain ⟨name, hname, rfl⟩ := h
  obtain ⟨name', hname', heq⟩ := h'
  have hparts := congrArg (Text.splitOn '.') heq
  have hsplit : ∀ q name : String, '.' ∉ name.toList →
      Text.splitOn '.' (q ++ "." ++ name) = Text.splitOn '.' q ++ [name] := by
    intro q name hname
    have hone : Text.splitOn '.' name = [name] :=
      Text.splitOn_joinWith (List.cons_ne_nil name []) (List.forall_mem_singleton.2 hname)
    rw [← hone]
    exact Text.splitOn_append '.' q name
  rw [hsplit q name hname, hsplit q' name' hname'] at hparts
  -- the texts in front of the last dots have the same parts
  have hfront : Text.splitOn '.' q = Text.splitOn '.' q' := (List.append_inj' hparts rfl).1
  rw [← Text.joinWith_splitOn '.' q, hfront, Text.joinWith_splitOn]

/-- A subquery below a query on the rows of `outer` correlates: its key equation compares a column
of its own table with one of the query around it, which is not taken for a column of its own. -/
structure Link.Correlates (outer : String) (l : Link) : Prop where
  relatedColumn : Qualified l.table l.relatedColumn
  parentColumn : Qualified outer l.parentColumn
  free : ¬Qualified l.table l.parentColumn

theorem Link.Over.correlates_iff {outer : String} {l : Link} (h : l.Over outer) :
    l.Correlates outer ↔ outer ≠ l.table := by
  constructor
  · intro hcorrelates heq
    have hown : Qualified l.table l.parentColumn := heq ▸ h.parentColumn
    exact hcorrelates.free hown
  · intro hne
    refine ⟨h.relatedColumn, h.parentColumn, fun hown => ?_⟩
    exact hne (h.parentColumn.unique hown)

/-! ## Subqueries of filters -/

namespace Predicate

theorem ofColumn_not_subquery {column table : String} :
    OfColumn column fun p => ∀ outer l, ¬Subquery table p outer l where
  compare _ _ := by
    intro outer l h
    cases h
  among _ := by
    intro outer l h
    cases h
  isNull := by
    intro outer l h
    cases h
  isNotNull := by
    intro outer l h
    cases h
  like _ _ := by
    intro outer l h
    cases h
  anyOf ps hps := by
    intro outer l h
    cases h with
    | anyOf hp h => exact hps _ hp outer l h

end Predicate

/-- **The subqueries of a filter follow the relations along its key**: each is for a relation of
the entity whose table the query around it is on. -/
theorem CompiledFilter.Of.subquery {c : Catalog} {d : Definition} {f : CompiledFilter}
    (hf : Of c d f) (hc : c.Plain) (hd : ∃ name, c.find? name = some d) {settings : Settings}
    {v : Value} {p : Predicate} (hp : f.applyAlone settings v = .ok (some p)) {outer : String}
    {l : Link} (h : Subquery d.table p outer l) :
    ∃ parent related, (∃ name, c.find? name = some parent) ∧ c.Links parent l related ∧
      outer = parent.table := by
  induction hf generalizing p with
  | column ht hentry hmode =>
    -- a condition on a column asks for no rows
    obtain ⟨name, hfind⟩ := hd
    rw [Catalog.columnFilter_eq (hc.hooks name _ hfind)] at hp
    exact absurd h (Mode.of_predicate Predicate.ofColumn_not_subquery hp outer l)
  | @related d related key link hlink =>
    cases hp
    unfold existence at h
    split at h
    · cases h
      exact ⟨d, related, hd, hlink, rfl⟩
    · cases h
      exact ⟨d, related, hd, hlink, rfl⟩
  | @relatedWhere d related key link child hlink hchild ih =>
    obtain ⟨inner?, hinner, hsome⟩ := Outcome.map_eq_ok.1 hp
    cases hsome
    cases inner? with
    | none =>
      cases h
      exact ⟨d, related, hd, hlink, rfl⟩
    | some inner =>
      cases h with
      | relatedWhere => exact ⟨d, related, hd, hlink, rfl⟩
      | inner h =>
        rw [hlink.table] at h
        exact ih hlink.find? hinner h

namespace Registry

variable {r : Registry} {d root : Definition} {entity key : String} {f : CompiledFilter}
  {settings : Settings} {v : Value} {js : Joins} {p : Predicate}

/-- **A subquery of a filter correlates exactly when the relation leads to another table.** In a
catalog without hooks, none of whose keys has a dot: for every request key that stands for a filter,
whether kept or made anew, and every value, each subquery of the predicate, at any depth, is for a
relation of the entity that the query around it is on. It is rendered with its key equation, whose
columns are qualified by the tables of the two entities. Where these are the same table, as they are
for a relation of an entity to itself, the subquery compares its own rows only. -/
theorem correlates_iff_of_filter (hs : r.Sound) (hc : r.catalog.Plain)
    (hd : r.catalog.find? entity = some d)
    (hf : r.result (filter entity (FilterKey.parse key)) = .ok (some f) ∨
      r.result (compile entity (FilterKey.parse key)) = .ok (some f))
    (hp : ((f.apply r.catalog root settings v).run.run js).1 = .ok (some p)) {outer : String}
    {l : Link} (h : Subquery d.table p outer l) :
    ∃ parent related, (∃ name, r.catalog.find? name = some parent) ∧
      r.catalog.Links parent l related ∧ outer = parent.table ∧ l.Over outer ∧
      (l.Correlates outer ↔ parent.table ≠ related.table) ∧
      ∀ bound, Text.Inside (existsText l) (Sql.clause bound p).text := by
  have hof : CompiledFilter.Of r.catalog d f := by
    have hdivided := FilterKey.divided_parse key
    rcases hf with hf | hf
    · rw [(answers_filter hs.named hdivided r rfl hs).1] at hf
      exact Catalog.of_filter hs.named hd hf
    · rw [(answers_compile hs.named hdivided r rfl hs).1] at hf
      obtain ⟨f', hf', rfl⟩ := Catalog.map_eq_ok_some hf
      exact (Catalog.of_filter hs.named hd hf').withKey _
  have halone : f.applyAlone settings v = .ok (some p) := by
    rw [CompiledFilter.apply_eq (hof.not_isHook (hc.hooks entity d hd)), Work.run_of] at hp
    exact hp
  obtain ⟨parent, related, hparent, hlink, houter⟩ := hof.subquery hc ⟨entity, hd⟩ halone h
  have hover : l.Over outer := houter ▸ hlink.over hc hparent
  refine ⟨parent, related, hparent, hlink, houter, hover, ?_, fun bound => h.inside bound⟩
  rw [hover.correlates_iff, houter, hlink.table]

end Registry

/-! ## Categories in a tree -/

/-- Categories, each below another one, with their products. -/
def Entity.category : Entity where
  name := "Category"
  table := "categories"
  key := "id"
  relations := Dict.ofList [("parent", .plain .owning "parent" "Category" "parent_id" ""),
    ("products", .plain .owned "products" "Product" "category_id" "")]
  queryable := none
  filterable := some [.typed "parent" (some "relation") "parent",
    .typed "products" (some "relation") "products"]
  sortable := none
  selectable := none

/-- Products. -/
def Entity.product : Entity where
  name := "Product"
  table := "products"
  key := "id"
  relations := ∅
  queryable := none
  filterable := some [.bare "title"]
  sortable := none
  selectable := none

namespace Registry

/-- A registry that knows categories and products. -/
def ofCategories : Registry :=
  after [.register Entity.category.define, .register Entity.product.define]

theorem plain_ofCategories : ofCategories.catalog.Plain := by
  have hentries : ofCategories.catalog.entries = [("Category", Entity.category.define),
      ("Product", Entity.product.define)] := by rfl
  refine Catalog.plain_of_entries ?_
  rw [hentries]
  simp only [List.forall_mem_cons, List.not_mem_nil, false_implies, implies_true, and_true]
  exact ⟨⟨rfl, by decide⟩, rfl, by decide⟩

/-- The products of a category's parent: the subquery for the products compares them with the
parent. -/
theorem correlates_of_categories :
    let parent : Link := ⟨"parent", "categories", "categories.parent_id", "categories.id", none⟩
    let products : Link := ⟨"products", "products", "categories.id", "products.category_id", none⟩
    let p : Predicate := .relatedWhere parent
      (.relatedWhere products (.compare "products.title" .eq (.string "lamp")))
    ∃ f, ofCategories.result (filter "Category" (FilterKey.parse "parent$products$title")) =
        .ok (some f) ∧
      f.applyAlone .usual (.string "lamp") = .ok (some p) ∧
      Text.Inside (existsText products) (Sql.clause 0 p).text ∧
      products.Correlates "categories" := by
  intro parent products p
  let f : CompiledFilter := .relatedWhere "Category" "parent$products$title" parent
    (.relatedWhere "Category" "products$title" products
      (.column "Product" "title" .default "products.title"))
  have hs : ofCategories.Sound := (sound_after _).1
  have hd : ofCategories.catalog.find? "Category" = some Entity.category.define := by rfl
  have hkey : FilterKey.parse "parent$products$title" = ["parent", "products", "title"] := by
    decide
  have hdirect : ofCategories.catalog.filter "Category" ["parent", "products", "title"] =
      .ok (some f) := by rfl
  have hf : ofCategories.result (filter "Category" (FilterKey.parse "parent$products$title")) =
      .ok (some f) := by
    rw [(answers_filter hs.named (FilterKey.divided_parse _) _ rfl hs).1, hkey]
    exact hdirect
  have hp : ((f.apply ofCategories.catalog Entity.category.define .usual
      (.string "lamp")).run.run .none).1 = .ok (some p) := rfl
  have hsubquery : Subquery "categories" p "categories" products := .inner .relatedWhere
  obtain ⟨category, product, -, hlink, houter, -, hiff, hinside⟩ :=
    correlates_iff_of_filter hs plain_ofCategories hd (.inl hf) hp hsubquery
  refine ⟨f, hf, rfl, hinside 0, hiff.2 ?_⟩
  rw [← houter, ← hlink.table]
  decide

/-- Categories with a parent: the subquery compares its own rows only. -/
theorem captured_of_categories :
    ∃ f p l, ofCategories.result (filter "Category" (FilterKey.parse "parent")) = .ok (some f) ∧
      f.applyAlone .usual (.bool true) = .ok (some p) ∧
      Subquery "categories" p "categories" l ∧
      (Sql.clause 0 p).text =
        "EXISTS (SELECT 1 FROM categories WHERE categories.id = categories.parent_id)" ∧
      ¬l.Correlates "categories" := by
  let parent : Link := ⟨"parent", "categories", "categories.parent_id", "categories.id", none⟩
  have hf : ofCategories.result (filter "Category" (FilterKey.parse "parent")) =
      .ok (some (.related "Category" "parent" parent)) := by rfl
  have htext : (Sql.clause 0 (.related parent)).text =
      "EXISTS (SELECT 1 FROM categories WHERE categories.id = categories.parent_id)" := by
    decide +kernel
  refine ⟨_, .related parent, parent, hf, rfl, .related, htext, fun h => ?_⟩
  exact h.free ⟨"parent_id", by decide, by decide⟩

end Registry
end RequestPlan
