import Mathlib.Data.List.Forall2
import RequestPlan.Proofs.Sql.Clause

/-!
# No value reaches the text of a statement

* `Plan.erase`: a plan without its values. How many there are stays, and so does whether
  there is a window.
* `clause_text_erase`: the text of a clause is that of the erased predicate.
* `statements_shapes_erase`: so is all of a statement but the values themselves.
* `statements_agree_of_erase_eq`: **plans that differ in their values only have the same
  statements**, with as many values in each.
-/

namespace RequestPlan

/-! ## Plans without values -/

/-- A link that compares with no entity's name in particular. -/
def Link.erase (l : Link) : Link := { l with morph := l.morph.map fun m => { m with value := "" } }

namespace Predicate

mutual

/-- A predicate without its values. -/
def erase : Predicate → Predicate
  | .compare c op _ => .compare c op .null
  | .among c vs => .among c (vs.map fun _ => .null)
  | .isNull c => .isNull c
  | .isNotNull c => .isNotNull c
  | .like c _ negated => .like c "" negated
  | .related l => .related l.erase
  | .relatedWhere l p => .relatedWhere l.erase (erase p)
  | .unrelated l => .unrelated l.erase
  | .allOf ps => .allOf (eraseAll ps)
  | .anyOf ps => .anyOf (eraseAll ps)

/-- Predicates without their values. -/
def eraseAll : List Predicate → List Predicate
  | [] => []
  | p :: ps => erase p :: eraseAll ps

end

end Predicate

namespace Projection

mutual

/-- A projection without the values of its links. -/
def erase : Projection → Projection
  | ⟨columns, relations⟩ => ⟨columns, eraseBelow relations⟩

/-- The relations of a projection without the values of their links. -/
def eraseBelow : List (String × Link × Projection) → List (String × Link × Projection)
  | [] => []
  | (name, l, child) :: rest => (name, l.erase, erase child) :: eraseBelow rest

end

end Projection

/-- A plan without its values. -/
def Plan.erase (p : Plan) : Plan :=
  { p with
    filters := Predicate.eraseAll p.filters
    projection := p.projection.map Projection.erase
    window := p.window.map fun _ => ⟨0, 0⟩ }

theorem Link.length_bindings_erase (l : Link) : l.erase.bindings.length = l.bindings.length := by
  unfold Link.erase Link.bindings
  cases l.morph <;> rfl

namespace Predicate

theorem length_bindingsAll_erase_of {ps : List Predicate}
    (h : ∀ p ∈ ps, (erase p).bindings.length = p.bindings.length) :
    (bindingsAll (eraseAll ps)).length = (bindingsAll ps).length := by
  induction ps with
  | nil => rfl
  | cons p ps ih =>
    have hps := ih fun q hq => h q (List.mem_cons_of_mem p hq)
    simp only [eraseAll, bindingsAll, List.length_append, h p List.mem_cons_self, hps]

/-- Erasing keeps the number of values. -/
theorem length_bindings_erase (p : Predicate) : p.erase.bindings.length = p.bindings.length := by
  induction p using Predicate.induct with
  | compare c op v | isNull c | isNotNull c | like c pattern negated => rfl
  | among c vs => simp only [erase, bindings, List.length_map]
  | related l | unrelated l => exact l.length_bindings_erase
  | relatedWhere l p ih =>
    simp only [erase, bindings, List.length_append, l.length_bindings_erase, ih]
  | allOf ps ih | anyOf ps ih => exact length_bindingsAll_erase_of ih

theorem length_bindingsAll_erase (ps : List Predicate) :
    (bindingsAll (eraseAll ps)).length = (bindingsAll ps).length :=
  length_bindingsAll_erase_of fun p _ => p.length_bindings_erase

end Predicate

/-! ## Clauses -/

namespace Sql

open Predicate (erase eraseAll)

theorem correlated_text_erase (bound : Nat) (l : Link) :
    (correlated bound l.erase).text = (correlated bound l).text := by
  unfold correlated Link.erase
  cases l.morph <;> rfl

theorem clauses_texts_erase_of {ps : List Predicate}
    (h : ∀ p ∈ ps, ∀ bound, (clause bound p.erase).text = (clause bound p).text) (bound : Nat) :
    (clauses bound (eraseAll ps)).map Clause.text = (clauses bound ps).map Clause.text := by
  induction ps generalizing bound with
  | nil => rfl
  | cons p ps ih =>
    have hps := ih fun q hq => h q (List.mem_cons_of_mem p hq)
    simp only [eraseAll, clauses, List.map_cons, clause_values, p.length_bindings_erase,
      h p List.mem_cons_self, hps]

/-- **The text of a clause does not depend on values**: the places are numbered by how many
values come before them. -/
theorem clause_text_erase (p : Predicate) :
    ∀ bound, (clause bound p.erase).text = (clause bound p).text := by
  induction p using Predicate.induct with
  | compare c op v | isNull c | isNotNull c | like c pattern negated => intro bound; rfl
  | among c vs =>
    intro bound
    by_cases h : vs = []
    · subst h; rfl
    · simp [erase, clause, h]
  | related l | unrelated l =>
    intro bound
    simp only [erase, clause, correlated_text_erase]
  | relatedWhere l p ih =>
    intro bound
    -- the inner places start behind the value of the link, which is erased but counts
    simp only [erase, clause, correlated_text_erase, correlated_values, l.length_bindings_erase, ih]
  | allOf ps ih | anyOf ps ih =>
    intro bound
    simp only [erase, clause, group_text, clauses_texts_erase_of ih]

theorem clauses_texts_erase (bound : Nat) (ps : List Predicate) :
    (clauses bound (eraseAll ps)).map Clause.text = (clauses bound ps).map Clause.text :=
  clauses_texts_erase_of (fun p _ => clause_text_erase p) bound

/-! ## Statements -/

/-- What there is of a statement besides its values: the path, the text, the column of the
parents, and the number of values. -/
def Statement.shape (s : Statement) : String × String × Option String × Nat :=
  (s.path, s.sql, s.parentColumn, s.params.length)

theorem rootStatement_shape_erase (p : Plan) :
    (rootStatement p.erase).shape = (rootStatement p).shape := by
  have hcolumns : (p.projection.map Projection.erase).map Projection.columns =
      p.projection.map Projection.columns := by
    cases p.projection with
    | none => rfl
    | some q => cases q; rfl
  -- the places of the window are numbered on from as many values
  have hlength := Predicate.length_bindingsAll_erase p.filters
  unfold Statement.shape
  rw [rootStatement_params, rootStatement_params]
  unfold rootStatement Plan.erase
  simp only [hcolumns, clauses_texts_erase, clauses_values, List.length_append, hlength]
  cases p.window <;> rfl

theorem relationStatement_shape_erase (path : String) (l : Link) (columns : List Column) :
    (relationStatement path l.erase columns).shape = (relationStatement path l columns).shape := by
  unfold Statement.shape relationStatement Link.erase
  cases l.morph <;> rfl

theorem relationStatements_shapes_erase_of {relations : List (String × Link × Projection)}
    (h : ∀ r ∈ relations, ∀ path l, (loadStatements path l.erase r.2.2.erase).map Statement.shape =
      (loadStatements path l r.2.2).map Statement.shape) (path : String) :
    (relationStatements path (Projection.eraseBelow relations)).map Statement.shape =
      (relationStatements path relations).map Statement.shape := by
  induction relations with
  | nil => rfl
  | cons r relations ih =>
    obtain ⟨name, l, child⟩ := r
    have hchild := h (name, l, child) List.mem_cons_self (pathBelow path l.name) l
    have hrest := ih fun q hq => h q (List.mem_cons_of_mem _ hq)
    simp only [Projection.eraseBelow, relationStatements, List.map_append, hrest]
    rw [← hchild]
    rfl

theorem loadStatements_shapes_erase (p : Projection) :
    ∀ path l, (loadStatements path l.erase p.erase).map Statement.shape =
      (loadStatements path l p).map Statement.shape := by
  induction p using Projection.induct with
  | level columns relations ih =>
    intro path l
    simp only [Projection.erase, loadStatements, List.map_cons, relationStatement_shape_erase,
      relationStatements_shapes_erase_of ih path]

/-- **The statements of a plan without its values** are those of the plan but for values. -/
theorem statements_shapes_erase (p : Plan) :
    (statements p.erase).map Statement.shape = (statements p).map Statement.shape := by
  unfold statements
  rw [List.map_cons, List.map_cons, rootStatement_shape_erase]
  congr 1
  unfold Plan.erase
  cases hp : p.projection with
  | none => rfl
  | some q =>
    obtain ⟨columns, relations⟩ := q
    exact relationStatements_shapes_erase_of (fun r _ => loadStatements_shapes_erase r.2.2) ""

/-- **No value influences the text of a statement.** Plans that are equal without their
values have statements that agree pairwise in the path, the text, the column of the parents
and the number of values. -/
theorem statements_agree_of_erase_eq {p q : Plan} (h : p.erase = q.erase) :
    List.Forall₂ (fun s t => s.path = t.path ∧ s.sql = t.sql ∧ s.parentColumn = t.parentColumn ∧
      s.params.length = t.params.length) (statements p) (statements q) := by
  have hshapes : (statements p).map Statement.shape = (statements q).map Statement.shape := by
    rw [← statements_shapes_erase p, h, statements_shapes_erase q]
  have hall := List.forall₂_eq_eq_eq ▸ hshapes
  rw [List.forall₂_map_left_iff, List.forall₂_map_right_iff] at hall
  refine hall.imp fun s t hst => ?_
  simpa only [Statement.shape, Prod.mk.injEq] using hst

/-- Two requests for notes that differ in every value. -/
theorem statements_agree_of_notes :
    let link (owner : String) : Link :=
      ⟨"notes", "notes", "orders.id", "notes.note_id", some ⟨"notes.note_type", owner⟩⟩
    let plan (owner status pattern : String) (w : Window) : Plan :=
      { entity := "Order", table := "orders", joins := []
        filters := [.anyOf [.among "orders.status" [.string status, .null],
          .relatedWhere (link owner) (.like "notes.text" pattern false)]]
        projection := some ⟨[.stored "orders.id" none], [("notes", link owner, ⟨[], []⟩)]⟩
        orders := [], window := some w }
    (plan "Order" "open" "rush" ⟨0, 10⟩).erase = (plan "Bill" "$9" "'; --" ⟨20, 5⟩).erase ∧
      List.Forall₂ (fun s t => s.path = t.path ∧ s.sql = t.sql ∧ s.parentColumn = t.parentColumn ∧
        s.params.length = t.params.length) (statements (plan "Order" "open" "rush" ⟨0, 10⟩))
        (statements (plan "Bill" "$9" "'; --" ⟨20, 5⟩)) :=
  ⟨rfl, statements_agree_of_erase_eq rfl⟩

end Sql
end RequestPlan
