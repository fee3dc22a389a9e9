import RequestPlan.Proofs.Projection
import RequestPlan.Proofs.Sql.Clause

/-!
# Statements for the levels of a projection

* `Level`: what a statement of its own loads, and `levels`: the levels below a projection;
  `exists_node?_of_mem_levels`: each is a relation of a level behind names.
* `statements_eq`: **the statements of a plan are the root's and those of the levels**.
* `Statement.Selects`: a statement selects these columns, and no others, from a table; those of
  levels with columns do, and the root's without columns `Statement.SelectsAll`.
-/

namespace RequestPlan

/-! ## Levels -/

namespace Sql

/-- A level that a statement of its own loads: the path to it, the link that leads there and the
projection from there on. -/
structure Level where
  path : String
  link : Link
  projection : Projection

mutual

/-- The levels that are loaded below a projection, in the order of their statements. -/
def levels (path : String) : Projection → List Level
  | ⟨_, relations⟩ => levelsBelow path relations

/-- The levels that are loaded for relations. -/
def levelsBelow (path : String) : List (String × Link × Projection) → List Level
  | [] => []
  | (_, link, child) :: rest =>
    ⟨pathBelow path link.name, link, child⟩ ::
      (levels (pathBelow path link.name) child ++ levelsBelow path rest)

end

variable {path : String} {p : Projection} {relations : List (String × Link × Projection)}
  {e : Level} {columns : List Column} {l : Link}

theorem mem_levelsBelow : e ∈ levelsBelow path relations ↔ ∃ r ∈ relations,
    e = ⟨pathBelow path r.2.1.name, r.2.1, r.2.2⟩ ∨
      e ∈ levels (pathBelow path r.2.1.name) r.2.2 := by
  induction relations with
  | nil => simp [levelsBelow]
  | cons r rest ih =>
    obtain ⟨name, link, child⟩ := r
    rw [levelsBelow, List.mem_cons, List.mem_append, ih]
    simp only [List.mem_cons, exists_eq_or_imp, or_assoc]

theorem mem_levels : e ∈ levels path p ↔ ∃ r ∈ p.relations,
    e = ⟨pathBelow path r.2.1.name, r.2.1, r.2.2⟩ ∨
      e ∈ levels (pathBelow path r.2.1.name) r.2.2 := by
  obtain ⟨columns, relations⟩ := p
  exact mem_levelsBelow

/-- A level that is loaded is a relation of a level behind names. -/
theorem exists_node?_of_mem_levels (hp : p.Tidy) (he : e ∈ levels path p) :
    ∃ names parent name, p.node? names = some parent ∧
      (name, e.link, e.projection) ∈ parent.relations := by
  induction p using Projection.induct generalizing path with
  | level columns relations ih =>
    obtain ⟨r, hr, rfl | he⟩ := mem_levels.1 he
    · exact ⟨[], _, r.1, rfl, hr⟩
    · obtain ⟨names, parent, name, hparent, hmem⟩ := ih r hr (hp.of_mem hr) he
      refine ⟨r.1 :: names, parent, name, ?_, hmem⟩
      rw [Projection.node?, Entries.find?_of_mem hp.ordered hr]
      exact hparent

/-! ## Statements -/

/-- The statement that loads a level. -/
def Level.statement (e : Level) : Statement := relationStatement e.path e.link e.projection.columns

theorem loadStatements_eq : loadStatements path l p =
    relationStatement path l p.columns :: relationStatements path p.relations := by
  obtain ⟨columns, relations⟩ := p
  rfl

theorem relationStatements_eq_of
    (h : ∀ r ∈ relations, ∀ path, relationStatements path r.2.2.relations =
      (levels path r.2.2).map Level.statement) (path : String) :
    relationStatements path relations = (levelsBelow path relations).map Level.statement := by
  induction relations with
  | nil => rfl
  | cons r rest ih =>
    obtain ⟨name, link, child⟩ := r
    have hchild := h (name, link, child) List.mem_cons_self (pathBelow path link.name)
    have hrest := ih fun r hr => h r (List.mem_cons_of_mem _ hr)
    rw [relationStatements, loadStatements_eq, hchild, hrest, levelsBelow, List.map_cons,
      List.map_append]
    rfl

theorem relationStatements_eq (path : String) (p : Projection) :
    relationStatements path p.relations = (levels path p).map Level.statement := by
  induction p using Projection.induct generalizing path with
  | level columns relations ih => exact relationStatements_eq_of ih path

/-- **The statements of a plan**: the root's, and one for every level of its projection. -/
theorem statements_eq {plan : Plan} (h : plan.projection = some p) :
    statements plan = rootStatement plan :: (levels "" p).map Level.statement := by
  unfold statements
  rw [h]
  exact congrArg _ (relationStatements_eq "" p)

/-! ## Select lists -/

/-- A statement selects these columns, and no others, from a table. -/
def Statement.Selects (table : String) (columns : List Column) (s : Statement) : Prop :=
  ∃ rest, s.sql =
    "SELECT " ++ Text.joinWith ", " (columns.map Column.sql) ++ " FROM " ++ table ++ rest

/-- A statement selects whatever columns a table has. -/
def Statement.SelectsAll (table : String) (s : Statement) : Prop :=
  ∃ rest, s.sql = "SELECT * FROM " ++ table ++ rest

theorem selectList_of_ne_nil (h : columns ≠ []) :
    selectList columns = Text.joinWith ", " (columns.map Column.sql) := by
  rw [selectList, if_neg]
  rwa [List.isEmpty_iff]

theorem selects_relationStatement (h : columns ≠ []) :
    (relationStatement path l columns).Selects l.table columns := by
  unfold Statement.Selects relationStatement
  rw [selectList_of_ne_nil h]
  simp only [String.append_assoc]
  exact ⟨_, rfl⟩

theorem selects_rootStatement {plan : Plan} (hp : plan.projection = some p)
    (h : p.columns ≠ []) : (rootStatement plan).Selects plan.table p.columns := by
  unfold Statement.Selects
  rw [rootStatement_sql, fromText, hp, Option.map_some, Option.getD_some, selectList_of_ne_nil h]
  simp only [String.append_assoc]
  exact ⟨_, rfl⟩

/-- Without columns the root statement is for all columns. -/
theorem selectsAll_rootStatement {plan : Plan} (hp : plan.projection = some p)
    (h : p.columns = []) : (rootStatement plan).SelectsAll plan.table := by
  unfold Statement.SelectsAll
  rw [rootStatement_sql, fromText, hp, Option.map_some, Option.getD_some, h]
  simp only [selectList, List.isEmpty_nil, if_true, String.append_assoc]
  exact ⟨_, rfl⟩

/-- A statement for all columns is none for no columns. -/
theorem Statement.SelectsAll.not_selects_nil {s : Statement} {table : String}
    (h : s.SelectsAll table) : ¬ s.Selects table [] := by
  obtain ⟨rest, hall⟩ := h
  rintro ⟨rest', hnone⟩
  have heq := congrArg String.toList (hall.symm.trans hnone)
  simp [Text.joinWith] at heq

end Sql
end RequestPlan
