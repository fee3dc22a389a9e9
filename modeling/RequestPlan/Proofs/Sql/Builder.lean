import RequestPlan.Proofs.Projection
import RequestPlan.Sql.Builder

/-!
# What a builder makes of a plan

* `Builder.Takes`: work that refuses nothing, and the change of the builder that it comes to.
* `takes_projection`: a projection that is handed over sets the columns, and brings the statements of
  its relations.
* `render_eq`: **no part of a plan is refused, and what comes out are its statements**.
-/

namespace RequestPlan.Sql

namespace Builder

/-- Work refuses nothing that is handed over, and changes the builder by `f`. -/
def Takes (m : Building Unit) (f : Builder → Builder) : Prop := ∀ b, m.run.run b = (.ok (), f b)

variable {m n : Building Unit} {f g : Builder → Builder} {path : String} {l : Link}

theorem takes_pure : Takes (pure ()) id := fun _ => rfl

theorem takes_modify (f : Builder → Builder) : Takes (modify f) f := fun _ => rfl

theorem Takes.bind (hm : Takes m f) (hn : Takes n g) : Takes (m >>= fun _ => n) (g ∘ f) := by
  intro b
  rw [ExceptT.run_bind, StateT.run_bind, hm b]
  exact hn (f b)

theorem Takes.congr (h : Takes m f) (hfg : ∀ b, f b = g b) : Takes m g :=
  fun b => (h b).trans (by rw [hfg])

/-- Items that are taken one after the other come to what all of them come to. -/
theorem takes_handEach {α : Type} {call : α → Building Unit}
    (change : List α → Builder → Builder) (hnil : ∀ b, change [] b = b)
    (hcons : ∀ x xs b, change (x :: xs) b = change xs (change [x] b))
    (h : ∀ x, Takes (call x) (change [x])) (xs : List α) :
    Takes (handEach call xs) (change xs) := by
  induction xs with
  | nil => exact takes_pure.congr fun b => (hnil b).symm
  | cons x xs ih => exact ((h x).bind ih).congr fun b => (hcons x xs b).symm

/-! ## Relations -/

/-- A relation brings the statements of the builder that its part is handed to. -/
theorem takes_load (h : Takes m f) (l : Link) : Takes (receiver.load l m) fun b =>
    { b with nested := b.nested ++ (f (forRelation (pathBelow b.path l.name) l)).finish } := by
  intro b
  have hbelow := h (forRelation (pathBelow b.path l.name) l)
  simp only [receiver, ExceptT.run_mk]
  rw [StateT.run, hbelow]

/-- The builder behind a projection that is handed over. -/
def projected (p : Projection) (b : Builder) : Builder :=
  { b with columns := p.columns, nested := b.nested ++ relationStatements b.path p.relations }

/-- A relation's statement is finished with the columns that were handed over. -/
theorem finish_projected (p : Projection) :
    (projected p (forRelation path l)).finish = loadStatements path l p := by
  obtain ⟨columns, relations⟩ := p
  cases hmorph : l.morph <;>
    simp [-String.reduceAppend, finish, projected, statement, forRelation, restrict, start,
      loadStatements, relationStatement, hmorph, part, Text.joinWith, String.append_assoc]

/-- **A projection is taken as a whole**: its columns, and the statements of its relations. -/
theorem takes_projection (p : Projection) : Takes (p.handTo receiver) (projected p) := by
  induction p using Projection.induct with
  | level columns relations ih =>
    have hbelow : Takes (Projection.handRelations receiver relations) fun b =>
        { b with nested := b.nested ++ relationStatements b.path relations } := by
      induction relations with
      | nil => exact takes_pure.congr fun b => by simp [relationStatements]
      | cons e es ihes =>
        obtain ⟨name, l, child⟩ := e
        have hchild := takes_load (ih (name, l, child) List.mem_cons_self) l
        have hrest := ihes fun e he => ih e (List.mem_cons_of_mem _ he)
        refine (hchild.bind hrest).congr fun b => ?_
        simp [relationStatements, finish_projected]
    exact (takes_modify fun b => { b with columns := columns }).bind hbelow

/-! ## Joins, filters and orderings -/

theorem takes_joins (js : List Join) :
    Takes (handEach receiver.join js) fun b => { b with joins := b.joins ++ js } :=
  takes_handEach (fun js b => { b with joins := b.joins ++ js }) (by simp) (by simp)
    (fun _ => takes_modify _) js

theorem takes_orders (os : List Order) :
    Takes (handEach receiver.order os) fun b => { b with orders := b.orders ++ os } :=
  takes_handEach (fun os b => { b with orders := b.orders ++ os }) (by simp) (by simp)
    (fun _ => takes_modify _) os

/-- The builder behind filters, whose places are numbered on. -/
def filtered (ps : List Predicate) (b : Builder) : Builder :=
  { b with
    conditions := b.conditions ++ (clauses b.params.length ps).map Clause.text
    params := b.params ++ (clauses b.params.length ps).flatMap Clause.values }

theorem takes_filters (ps : List Predicate) :
    Takes (handEach receiver.filter ps) (filtered ps) := by
  refine takes_handEach filtered (by simp [filtered, clauses]) (fun p ps b => ?_) (fun p => ?_) ps
  · simp [filtered, clauses]
  · exact (takes_modify _).congr fun b => by simp [filtered, clauses, restrict]

/-- The builder behind a plan. -/
def planned (p : Plan) (b : Builder) : Builder :=
  let b := filtered p.filters { b with joins := b.joins ++ p.joins }
  let b := match p.projection with
    | some projection => projected projection b
    | none => b
  { b with orders := b.orders ++ p.orders, window := p.window.or b.window }

/-- **No part of a plan is refused.** -/
theorem takes_plan (p : Plan) : Takes (p.handTo receiver) (planned p) := by
  have hfront {m : Building Unit} {f : Builder → Builder} (h : Takes m f) :=
    (takes_joins p.joins).bind ((takes_filters p.filters).bind h)
  have hback {m : Building Unit} {f : Builder → Builder} (h : Takes m f) :=
    (takes_orders p.orders).bind h
  unfold Plan.handTo planned
  cases p.projection with
  | none =>
    cases p.window with
    | none => exact hfront (hback takes_pure)
    | some w => exact hfront (hback (takes_modify _))
  | some projection =>
    cases p.window with
    | none => exact hfront ((takes_projection projection).bind (hback takes_pure))
    | some w => exact hfront ((takes_projection projection).bind (hback (takes_modify _)))

end Builder

/-- **A plan that is handed over comes out as its statements.** -/
theorem render_eq (p : Plan) : render p = .ok (statements p) := by
  unfold render
  rw [Builder.takes_plan p]
  cases hprojection : p.projection <;> cases hwindow : p.window <;>
    simp [Except.map, statements, rootStatement, hprojection, hwindow, Builder.finish,
      Builder.planned, Builder.statement, Builder.filtered, Builder.projected, Builder.start]

end RequestPlan.Sql
