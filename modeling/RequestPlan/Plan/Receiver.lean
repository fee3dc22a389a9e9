import RequestPlan.Plan

/-!
# Handing a plan on

* `Receiver`: what takes a plan, part by part.
* `Plan.handTo`: joins, filters, the projection with the relations below each level,
  orderings and the window, in this order.
* `Recorder`: a receiver that notes the calls it gets and may refuse one of them.
-/

namespace RequestPlan

/-- What takes a plan, part by part. -/
structure Receiver (m : Type → Type) where
  join : Join → m Unit
  filter : Predicate → m Unit
  select : List Column → m Unit
  /-- A relation, with what hands its own part over. -/
  load : Link → m Unit → m Unit
  order : Order → m Unit
  window : Window → m Unit

variable {m : Type → Type} [Monad m]

mutual

/-- A projection handed on: its columns, then its relations in order. -/
def Projection.handTo (r : Receiver m) : Projection → m Unit
  | ⟨columns, relations⟩ => do
    r.select columns
    Projection.handRelations r relations

/-- Relations handed on, each with what is below it. -/
def Projection.handRelations (r : Receiver m) : List (String × Link × Projection) → m Unit
  | [] => pure ()
  | (_, link, child) :: rest => do
    r.load link (Projection.handTo r child)
    Projection.handRelations r rest

end

/-- The calls for the items of a list, in order. -/
def handEach {α : Type} (call : α → m Unit) : List α → m Unit
  | [] => pure ()
  | x :: xs => do
    call x
    handEach call xs

/-- A plan handed on. -/
def Plan.handTo (r : Receiver m) (p : Plan) : m Unit := do
  handEach r.join p.joins
  handEach r.filter p.filters
  match p.projection with
  | some projection => projection.handTo r
  | none => pure ()
  handEach r.order p.orders
  match p.window with
  | some w => r.window w
  | none => pure ()

/-- A call that a receiver gets. -/
inductive Call where
  | join (j : Join)
  | filter (p : Predicate)
  | select (columns : List Column)
  | load (link : Link)
  | order (o : Order)
  | window (w : Window)

/-- A call in words. -/
def Call.text : Call → String
  | .join j => "join " ++ j.aliasName
  | .filter p => "filter " ++ toString p.leafCount
  | .select columns => "select " ++ toString columns.length
  | .load link => "with " ++ link.name
  | .order o => "order " ++ o.column ++ " " ++ o.direction.sql
  | .window w => "window " ++ toString w.skip.toNat ++ " " ++ toString w.take.toNat

/-- The calls noted so far, with how deep in relations each came. -/
structure Record where
  calls : List (Nat × Call)
  depth : Nat

/-- A receiver's work with a record, which ends at a refusal. -/
abbrev Recording := ExceptT PlanError (StateM Record)

namespace Recorder

/-- A call noted, unless it is the one to refuse, counted from one. -/
def note (refused : Option Nat) (c : Call) : Recording Unit := do
  let r ← get
  if refused = some (r.calls.length + 1) then throw (.builder ("refused " ++ c.text))
  else set { r with calls := r.calls ++ [(r.depth, c)] }

/-- A receiver that notes its calls and those for the relations below. -/
def receiver (refused : Option Nat) : Receiver Recording where
  join j := note refused (.join j)
  filter p := note refused (.filter p)
  select columns := note refused (.select columns)
  load link inner := do
    note refused (.load link)
    modify fun r => { r with depth := r.depth + 1 }
    inner
    modify fun r => { r with depth := r.depth - 1 }
  order o := note refused (.order o)
  window w := note refused (.window w)

/-- A plan handed to a recorder: how it ended, and the calls it got. -/
def run (refused : Option Nat) (p : Plan) : Except PlanError Unit × List (Nat × Call) :=
  let (result, record) := (p.handTo (receiver refused)).run.run ⟨[], 0⟩
  (result, record.calls)

end Recorder
end RequestPlan
