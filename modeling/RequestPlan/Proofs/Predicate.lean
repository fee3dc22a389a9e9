import RequestPlan.Predicate
import RequestPlan.Projection

/-!
# What predicates and projections are made of

* `Value.induct`, `Predicate.induct`, `Projection.induct`: induction on trees whose groups are
  lists.
* `Predicate.identifiers`: the names of columns and tables in a predicate.
* `Predicate.bindings`: the values that a predicate brings along, in the order of the tree.
  Unlike `Predicate.values` they include patterns and the names of related entities.
* `Projection.links`: the relations that are loaded, each before those below it.
-/

namespace RequestPlan

/-! ## Induction -/

/-- Induction on values, with a hypothesis for every item of a list. -/
theorem Value.induct {P : Value → Prop} (null : P .null) (bool : ∀ b, P (.bool b))
    (int : ∀ n, P (.int n)) (float : ∀ x, P (.float x)) (string : ∀ s, P (.string s))
    (list : ∀ vs, (∀ v ∈ vs, P v) → P (.list vs)) (timestamp : ∀ t, P (.timestamp t)) (v : Value) :
    P v := by
  refine @Value.rec P (fun vs => ∀ v ∈ vs, P v) null bool int float string list timestamp ?_ ?_ v
  · exact fun v hv => absurd hv List.not_mem_nil
  · exact fun v vs hv hvs => List.forall_mem_cons.2 ⟨hv, hvs⟩

/-- Induction on predicates, with a hypothesis for every item of a group. -/
theorem Predicate.induct {P : Predicate → Prop}
    (compare : ∀ c op v, P (.compare c op v)) (among : ∀ c vs, P (.among c vs))
    (isNull : ∀ c, P (.isNull c)) (isNotNull : ∀ c, P (.isNotNull c))
    (like : ∀ c pattern negated, P (.like c pattern negated))
    (related : ∀ l, P (.related l)) (relatedWhere : ∀ l p, P p → P (.relatedWhere l p))
    (unrelated : ∀ l, P (.unrelated l))
    (allOf : ∀ ps, (∀ p ∈ ps, P p) → P (.allOf ps))
    (anyOf : ∀ ps, (∀ p ∈ ps, P p) → P (.anyOf ps)) (p : Predicate) : P p := by
  refine @Predicate.rec P (fun ps => ∀ p ∈ ps, P p) compare among isNull isNotNull like related
    relatedWhere unrelated allOf anyOf ?_ ?_ p
  · intro p hp
    exact absurd hp List.not_mem_nil
  · intro p ps hp hps q hq
    rcases List.mem_cons.1 hq with rfl | hq
    · exact hp
    · exact hps q hq

/-- Induction on projections, with a hypothesis for every relation that is loaded. -/
theorem Projection.induct {P : Projection → Prop}
    (level : ∀ columns relations, (∀ r ∈ relations, P r.2.2) → P ⟨columns, relations⟩)
    (p : Projection) : P p := by
  refine @Projection.rec P (fun rs => ∀ r ∈ rs, P r.2.2) (fun r => P r.2.2) (fun r => P r.2)
    level ?_ ?_ (fun _ _ h => h) (fun _ _ h => h) p
  · intro r hr
    exact absurd hr List.not_mem_nil
  · intro r rs hr hrs q hq
    rcases List.mem_cons.1 hq with rfl | hq
    · exact hr
    · exact hrs q hq

/-! ## Names -/

/-- The table and the columns of a link. -/
def Link.identifiers (l : Link) : List String :=
  [l.table, l.relatedColumn, l.parentColumn] ++ (l.morph.map Morph.column).toList

namespace Predicate

mutual

/-- The columns and tables of a predicate, those on related rows included. -/
def identifiers : Predicate → List String
  | .compare c _ _ | .among c _ | .isNull c | .isNotNull c | .like c _ _ => [c]
  | .related l | .unrelated l => l.identifiers
  | .relatedWhere l p => l.identifiers ++ identifiers p
  | .allOf ps | .anyOf ps => identifiersAll ps

/-- The columns and tables of several predicates. -/
def identifiersAll : List Predicate → List String
  | [] => []
  | p :: ps => identifiers p ++ identifiersAll ps

end

theorem identifiersAll_eq (ps : List Predicate) : identifiersAll ps = ps.flatMap identifiers := by
  induction ps with
  | nil => rfl
  | cons p ps ih => rw [identifiersAll, List.flatMap_cons, ih]

end Predicate

/-! ## Values -/

/-- The value that a link compares with, if it has a morph column. -/
def Link.bindings (l : Link) : List Value := (l.morph.map fun m => Value.string m.value).toList

namespace Predicate

mutual

/-- The values of a predicate in the order of the tree. -/
def bindings : Predicate → List Value
  | .compare _ _ v => [v]
  | .among _ vs => vs
  | .isNull _ | .isNotNull _ => []
  | .like _ pattern _ => [.string pattern]
  | .related l | .unrelated l => l.bindings
  | .relatedWhere l p => l.bindings ++ bindings p
  | .allOf ps | .anyOf ps => bindingsAll ps

/-- The values of several predicates. -/
def bindingsAll : List Predicate → List Value
  | [] => []
  | p :: ps => bindings p ++ bindingsAll ps

end

end Predicate

/-! ## Relations -/

namespace Projection

mutual

/-- The links of the relations that a projection loads, each before those below it. -/
def links : Projection → List Link
  | ⟨_, relations⟩ => linksBelow relations

/-- The links of several relations and of those below them. -/
def linksBelow : List (String × Link × Projection) → List Link
  | [] => []
  | (_, l, child) :: rest => l :: (links child ++ linksBelow rest)

end

end Projection
end RequestPlan
