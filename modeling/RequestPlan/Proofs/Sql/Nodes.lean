import Mathlib.Data.List.Forall2
import RequestPlan.Proofs.Projection.Addresses
import RequestPlan.Proofs.Selection.Project
import RequestPlan.Proofs.Sql.Builder
import RequestPlan.Proofs.Sql.Levels
import RequestPlan.Proofs.Text.Marks
import RequestPlan.Report.Format

/-!
# One statement for each level

* `Statement.IsRoot`, `Statement.IsLoad`: what the statement of a plan itself is made of, and what
  the statement of a relation is. Only the first has joins, filters, orderings and a window.
* `Renders`: a statement is the one for the level behind some names.
* `render_mirrors`: **the statements are those for the addresses of the projection, in their
  order**, and the rows for select lists in a report have the same paths. Without a projection there
  is one statement, and no such row. The projections of selections are such as it asks for
  (`Catalog.keyed_project`).
-/

namespace RequestPlan

open Predicate (bindingsAll)

namespace Sql

/-! ## What statements are made of -/

/-- The statement of a plan itself. -/
structure Statement.IsRoot (plan : Plan) (s : Statement) : Prop where
  path : s.path = ""
  parentColumn : s.parentColumn = none
  sql : s.sql = fromText plan ++ (if plan.filters = [] then "" else " WHERE " ++ whereText plan) ++
    ordersText plan ++ windowText plan
  params : s.params = bindingsAll plan.filters ++ windowBindings plan.window

/-- The statement for the rows behind a link, with these columns. -/
structure Statement.IsLoad (path : String) (l : Link) (columns : List Column) (s : Statement) :
    Prop where
  path : s.path = path
  parentColumn : s.parentColumn = some l.parentColumn
  sql : s.sql = "SELECT " ++ selectList columns ++ " FROM " ++ l.table ++ " WHERE " ++
    l.relatedColumn ++ " = ANY($1)" ++ l.morph.elim "" fun m => " AND " ++ m.column ++ " = $2"
  params : s.params = .list [] :: l.bindings

theorem isRoot_rootStatement (plan : Plan) : (rootStatement plan).IsRoot plan :=
  ⟨rfl, rfl, rootStatement_sql plan, rootStatement_params plan⟩

theorem isLoad_relationStatement (path : String) (l : Link) (columns : List Column) :
    (relationStatement path l columns).IsLoad path l columns := by
  have hkeys (t : String) : t ++ " = ANY(" ++ slot 0 ++ ")" = t ++ " = ANY($1)" := by
    rw [String.append_assoc, String.append_assoc]
    exact congrArg (t ++ ·) (by decide)
  have hvalue (t : String) : t ++ " = " ++ slot 1 = t ++ " = $2" := by
    rw [String.append_assoc]
    exact congrArg (t ++ ·) (by decide)
  refine ⟨rfl, rfl, ?_, relationStatement_params path l columns⟩
  unfold relationStatement
  cases l.morph <;> simp only [hkeys, hvalue, Option.elim]

/-- The path to the level behind some names. -/
def pathOf (names : List String) : String := names.foldl pathBelow ""

/-- A statement is the one for the level behind some names. -/
inductive Renders (plan : Plan) (p : Projection) : List String → Statement → Prop
  | root {s : Statement} (h : s.IsRoot plan) : Renders plan p [] s
  | relation {names : List String} {name : String} {parent child : Projection} {l : Link}
      {s : Statement} (hparent : p.node? names = some parent)
      (hmem : (name, l, child) ∈ parent.relations)
      (h : s.IsLoad (pathBelow (pathOf names) name) l child.columns) :
      Renders plan p (names ++ [name]) s

variable {plan : Plan} {p q : Projection} {names : List String}

theorem pathOf_concat (names : List String) (name : String) :
    pathOf (names ++ [name]) = pathBelow (pathOf names) name := by
  rw [pathOf, List.foldl_append]
  rfl

/-! ## Statements -/

theorem Renders.path_eq {s : Statement} (h : Renders plan p names s) : s.path = pathOf names := by
  cases h with
  | root h => exact h.path
  | relation hparent hmem h => rw [h.path, pathOf_concat]

/-- The statements for relations of a level are those for the addresses below it. -/
theorem renders_relationStatements (hq : p.node? names = some q) (h : q.Keyed) :
    List.Forall₂ (Renders plan p)
      ((Projection.addressesBelow q.relations).map (names ++ ·))
      (relationStatements (pathOf names) q.relations) := by
  induction q using Projection.induct generalizing names with
  | level columns relations ih =>
    obtain ⟨hordered, hnames, hbelow⟩ := h
    have hall : ∀ es ⊆ relations, List.Forall₂ (Renders plan p)
        ((Projection.addressesBelow es).map (names ++ ·))
        (relationStatements (pathOf names) es) := by
      intro es hes
      induction es with
      | nil => exact .nil
      | cons e rest ihrest =>
        obtain ⟨name, l, child⟩ := e
        have hmem : (name, l, child) ∈ relations := hes List.mem_cons_self
        have hname : l.name = name := hnames _ hmem
        have hchild : p.node? (names ++ [name]) = some child := by
          rw [Projection.node?_append, hq, Option.bind_some, Projection.node?,
            Entries.find?_of_mem hordered hmem]
          rfl
        have hload : Renders plan p (names ++ [name])
            (relationStatement (pathOf (names ++ [name])) l child.columns) := by
          refine .relation hq hmem ?_
          rw [pathOf_concat]
          exact isLoad_relationStatement _ l child.columns
        have hfirst := ih _ hmem hchild (hbelow _ hmem)
        have hrest := ihrest fun e he => hes (List.mem_cons_of_mem _ he)
        rw [Projection.map_addressesBelow_cons, relationStatements, loadStatements_eq, hname,
          ← pathOf_concat]
        exact .cons hload (List.rel_append hfirst hrest)
    exact hall relations fun _ he => he

/-- A statement for every address of the projection. -/
theorem renders_statements (hp : plan.projection = some p) (h : p.Keyed) :
    List.Forall₂ (Renders plan p) p.addresses (statements plan) := by
  have hbelow : List.Forall₂ (Renders plan p) (Projection.addressesBelow p.relations)
      (relationStatements "" p.relations) := by
    have hlevel := @renders_relationStatements plan p p [] rfl h
    rwa [List.map_congr_left fun names _ => List.nil_append names, List.map_id'] at hlevel
  unfold statements
  rw [Projection.addresses_eq, hp]
  exact .cons (.root (isRoot_rootStatement plan)) hbelow

end Sql

/-! ## Rows of a report -/

namespace Report

open Sql (pathOf pathOf_concat)

/-- The path in a row for a select list. -/
def selectPath? : List String → Option String
  | [] => none
  | label :: _ => if label = "select" then some "" else Text.dropPrefix? "select " label

theorem selectPath?_row (path columns : String) :
    selectPath? [if path.isEmpty then "select" else "select " ++ path, columns] = some path := by
  unfold selectPath?
  by_cases hempty : path.isEmpty
  · rw [if_pos hempty, String.isEmpty_iff.1 hempty]
    rfl
  · have hlabel : "select " ++ path ≠ "select" := fun h => by
      have hchars := congrArg String.toList h
      simp at hchars
    rw [if_neg hempty]
    exact (if_neg hlabel).trans (Text.dropPrefix?_eq_some_iff.2 rfl)

/-- The rows for a projection have the paths of its addresses. -/
theorem filterMap_projectionRows (names : List String) (p : Projection) :
    (projectionRows (pathOf names) p).filterMap selectPath? =
      p.addresses.map fun below => pathOf (names ++ below) := by
  induction p using Projection.induct generalizing names with
  | level columns relations ih =>
    have hbelow : (relationRows (pathOf names) relations).filterMap selectPath? =
        (Projection.addressesBelow relations).map fun below => pathOf (names ++ below) := by
      induction relations with
      | nil => rfl
      | cons e rest ihrest =>
        obtain ⟨name, l, child⟩ := e
        have hfirst := ih (name, l, child) List.mem_cons_self (names ++ [name])
        have hrest := ihrest fun e he => ih e (List.mem_cons_of_mem _ he)
        rw [relationRows, Projection.addressesBelow, List.filterMap_append, List.map_append,
          ← pathOf_concat, hfirst, hrest, List.map_map]
        simp only [Function.comp_def, List.append_assoc, List.singleton_append]
    rw [projectionRows, Projection.addresses, List.filterMap_cons, selectPath?_row, hbelow,
      List.map_cons, List.append_nil]

theorem rows_planGrid (plan : Plan) :
    (planGrid plan).rows =
      [["entity", plan.entity ++ " (" ++ plan.table ++ ")"]] ++
      plan.joins.map (fun j => ["join", j.sql]) ++
      plan.filters.map (fun f => ["filter", f.toJson.compact]) ++
      plan.projection.elim [] (projectionRows "") ++
      plan.orders.map (fun o => ["order", Sql.orderText o]) ++
      plan.window.toList.map fun w =>
        ["window", "skip " ++ toString w.skip.toNat ++ " take " ++ toString w.take.toNat] := by
  unfold planGrid
  cases plan.projection <;> cases plan.window <;> rfl

/-- The rows of a report that are for select lists are those of the projection. -/
theorem filterMap_planGrid (plan : Plan) :
    (planGrid plan).rows.filterMap selectPath? =
      plan.projection.elim [] fun p => p.addresses.map pathOf := by
  have hothers {α : Type} (label : String) (hlabel : selectPath? [label] = none) (f : α → String)
      (xs : List α) : (xs.map fun x => [label, f x]).filterMap selectPath? = [] := by
    rw [List.filterMap_map]
    exact List.filterMap_eq_nil_iff.2 fun _ _ => hlabel
  have hselect : (plan.projection.elim [] (projectionRows "")).filterMap selectPath? =
      plan.projection.elim [] fun p => p.addresses.map pathOf := by
    cases plan.projection with
    | none => rfl
    | some p => exact filterMap_projectionRows [] p
  have hentity := hothers "entity" (by decide) id [plan.entity ++ " (" ++ plan.table ++ ")"]
  rw [rows_planGrid]
  simp only [List.filterMap_append, hselect, hothers "join" (by decide),
    hothers "filter" (by decide), hothers "order" (by decide), hothers "window" (by decide),
    List.append_nil]
  exact congrArg (· ++ _) hentity

end Report

/-! ## All statements -/

/-- The projection of a selection is keyed by the names of its links. -/
theorem Catalog.keyed_project {c : Catalog} {d : Definition} {s : Selection} {entity : String}
    {p : Projection} (hc : c.Named) (h : c.project entity s = .ok p)
    (hfind : c.find? entity = some d) : p.Keyed :=
  (tidy_project hc h hfind).keyed

namespace Sql

open Report (planGrid selectPath?)

/-- **The statements mirror the projection.** There is one for every level, the addresses of the
levels increase from statement to statement, and a report has a row for the select list of each.
Without a projection there is one statement, and no row for a select list. -/
theorem render_mirrors (plan : Plan) :
    (∀ p, plan.projection = some p → p.Keyed →
      ∃ ss, render plan = .ok ss ∧ List.Forall₂ (Renders plan p) p.addresses ss ∧
        (∀ names, names ∈ p.addresses ↔ ∃ q, p.node? names = some q) ∧
        p.addresses.Pairwise (List.Lex fun a b => a < b) ∧
        (planGrid plan).rows.filterMap selectPath? = ss.map Statement.path) ∧
    (plan.projection = none →
      ∃ s, render plan = .ok [s] ∧ s.IsRoot plan ∧
        (planGrid plan).rows.filterMap selectPath? = []) := by
  rw [render_eq, Report.filterMap_planGrid]
  constructor
  · intro p hp hkeyed
    have hrenders := renders_statements hp hkeyed
    have hpaths : p.addresses.map pathOf = (statements plan).map Statement.path := by
      rw [← List.forall₂_eq_eq_eq, List.forall₂_map_left_iff, List.forall₂_map_right_iff]
      exact hrenders.imp fun _ _ h => h.path_eq.symm
    exact ⟨statements plan, rfl, hrenders, fun _ => Projection.mem_addresses hkeyed,
      Projection.pairwise_addresses hkeyed, by rw [hp, ← hpaths]; rfl⟩
  · intro hnone
    refine ⟨rootStatement plan, ?_, isRoot_rootStatement plan, by rw [hnone]; rfl⟩
    rw [statements, hnone]

/-- Orders with their items, the products of these, and notes on the orders. -/
theorem render_mirrors_of_orders :
    let items : Link := ⟨"items", "items", "orders.id", "items.order_id", none⟩
    let product : Link := ⟨"product", "products", "items.product_id", "products.id", none⟩
    let notes : Link :=
      ⟨"notes", "notes", "orders.id", "notes.note_id", some ⟨"notes.note_type", "Order"⟩⟩
    let p : Projection := ⟨[.stored "orders.id" none],
      [("items", items, ⟨[.stored "items.product_id" none], [("product", product, ⟨[], []⟩)]⟩),
        ("notes", notes, ⟨[], []⟩)]⟩
    let plan : Plan :=
      { entity := "Order", table := "orders", joins := [], filters := [.isNull "orders.paid_at"],
        projection := some p, orders := [⟨"orders.id", .descending⟩], window := some ⟨0, 10⟩ }
    plan.projection = some p ∧ p.Keyed ∧ ∃ ss, render plan = .ok ss ∧
      List.Forall₂ (Renders plan p) [[], ["items"], ["items", "product"], ["notes"]] ss ∧
      (planGrid plan).rows.filterMap selectPath? = ss.map Statement.path := by
  intro items product notes p plan
  have hleaf (columns : List Column) : Projection.Keyed ⟨columns, []⟩ :=
    .level .nil (fun _ he => nomatch he) fun _ he => nomatch he
  have hitems : Projection.Keyed ⟨[.stored "items.product_id" none],
      [("product", product, ⟨[], []⟩)]⟩ := by
    refine .level (List.pairwise_singleton _ _) ?_ ?_
    · exact List.forall_mem_singleton.2 rfl
    · exact List.forall_mem_singleton.2 (hleaf [])
  have hkeyed : p.Keyed := by
    refine .level ?_ ?_ ?_
    · exact List.pairwise_pair.2 (by decide)
    · exact List.forall_mem_cons.2 ⟨rfl, List.forall_mem_singleton.2 rfl⟩
    · exact List.forall_mem_cons.2 ⟨hitems, List.forall_mem_singleton.2 (hleaf [])⟩
  obtain ⟨ss, hss, hrenders, -, -, hrows⟩ := (render_mirrors plan).1 p rfl hkeyed
  exact ⟨rfl, hkeyed, ss, hss, hrenders, hrows⟩

/-- A plan without a projection has a statement, but no row for a select list. -/
theorem render_unmirrored_of_orders :
    let plan : Plan :=
      { entity := "Order", table := "orders", joins := [], filters := [], projection := none,
        orders := [], window := none }
    ∃ ss, render plan = .ok ss ∧ ss.map Statement.path = [""] ∧
      (planGrid plan).rows.filterMap selectPath? ≠ ss.map Statement.path := by
  intro plan
  refine ⟨statements plan, render_eq plan, rfl, ?_⟩
  rw [Report.filterMap_planGrid]
  exact fun h => nomatch h

end Sql
end RequestPlan
