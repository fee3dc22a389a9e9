import RequestPlan.Proofs.Catalog.Spelling
import RequestPlan.Proofs.Joins.Steps

/-!
# Joins and the names of modes

* `Joins.keyed`: joins with the keys of modes for their names in the entities of their tables.
* `mirrors_leftJoin`: **a path is joined whatever the names of modes are**.
* `Joining.IgnoresNames`: a hook does not look at the names of modes in the entities it is shown;
  `Joining.run_of_keyed`: it ends in the same way and asks for the same joins.
-/

namespace RequestPlan

/-! ## Keys for names -/

/-- A table that a path leads to, with the keys of modes for their names. -/
def Joined.keyed (j : Joined) : Joined := ⟨j.aliasName, j.definition.keyed⟩

/-- What a hook sees of a table, with the keys of modes for their names. -/
def JoinedTable.keyed (j : JoinedTable) : JoinedTable := ⟨j.aliasName, j.entity.keyed⟩

/-- Joins with the keys of modes for their names. -/
def Joins.keyed (js : Joins) : Joins := ⟨js.memo.map Joined.keyed, js.clauses⟩

theorem Joins.find?_keyed (js : Joins) (path : String) :
    js.keyed.find? path = (js.find? path).map Joined.keyed := Dict.find?_map _ js.memo path

theorem Joins.add_keyed (js : Joins) (path : String) (clause : Join) (d : Definition) :
    js.keyed.add path clause d.keyed = (js.add path clause d).keyed :=
  congrArg (Joins.mk · _) (Dict.map_put Joined.keyed js.memo path ⟨clause.aliasName, d⟩).symm

/-! ## Paths -/

section Paths

variable (c : Catalog) (root d : Definition)

theorem joinSegment_keyed (segment prior aliasName : String) :
    joinSegment c.keyed d.keyed segment prior aliasName =
      (joinSegment c d segment prior aliasName).map
        (Option.map (Prod.map id Definition.keyed)) := by
  have hrelation : d.keyed.relation? segment = d.relation? segment := rfl
  have hhooks : d.keyed.hooks = d.hooks := rfl
  rw [joinSegment, joinSegment, hrelation, hhooks]
  cases d.relation? segment with
  | some r =>
    dsimp only
    split
    · rw [Catalog.get_keyed]
      cases c.get r.related <;> rfl
    · rfl
  | none =>
    cases d.hooks.joins.find? segment with
    | none => rfl
    | some hook =>
      dsimp only
      cases hook ⟨prior, aliasName⟩ with
      | error err => rfl
      | ok custom? =>
        cases custom? with
        | none => rfl
        | some custom =>
          obtain ⟨join, name?⟩ := custom
          cases name? with
          | none => rfl
          | some name =>
            show (c.keyed.get name).bind _ = ((c.get name).bind _).map _
            rw [Catalog.get_keyed]
            cases c.get name <;> rfl

theorem mirrors_joinSegments (path prior : String) (stop : Nat) (segments : List String) :
    Work.Mirrors Joins.keyed id (joinSegments c path prior d stop segments)
      (joinSegments c.keyed path prior d.keyed stop segments) := by
  induction segments generalizing prior d stop with
  | nil => exact Work.mirrors_pure true
  | cons segment rest ih =>
    rw [joinSegments, joinSegments]
    refine Work.mirrors_get_bind fun js => ?_
    rw [Joins.find?_keyed]
    cases js.find? (pathStart path (segmentEnd stop segment)) with
    | some joined => exact ih joined.definition joined.aliasName _
    | none =>
      dsimp only [Option.map_none]
      rw [Work.lift_eq_of, Work.lift_eq_of]
      refine (Work.mirrors_of (joinSegment_keyed c d segment prior _)).bind fun next? => ?_
      cases next? with
      | none => exact Work.mirrors_pure false
      | some next =>
        obtain ⟨clause, next⟩ := next
        refine Work.Mirrors.bind (Work.mirrors_modify fun js => ?_) fun _ => ih next _ _
        exact js.add_keyed _ clause next

/-- **A path is joined whatever the names of modes are.** -/
theorem mirrors_leftJoin (path : String) :
    Work.Mirrors Joins.keyed (Option.map Joined.keyed) (leftJoin c root path)
      (leftJoin c.keyed root.keyed path) := by
  refine Work.mirrors_get_bind fun js => ?_
  rw [Joins.find?_keyed]
  cases js.find? path with
  | some joined => exact Work.mirrors_pure (some joined)
  | none =>
    refine (mirrors_joinSegments c root path root.table 0 _).bind fun found => ?_
    cases found with
    | false => exact Work.mirrors_pure none
    | true =>
      refine Work.mirrors_get_bind fun js => ?_
      rw [Joins.find?_keyed]
      exact Work.mirrors_pure (js.find? path)

end Paths

/-! ## Hooks -/

namespace Joining

variable {α : Type}

/-- What is done after a join does not depend on the names of modes in the entity that the join
leads to. -/
def IgnoresNames : Joining α → Prop
  | .done _ => True
  | .ask _ next =>
    (∀ x y : Except Error (Option JoinedTable),
      x.map (Option.map JoinedTable.keyed) = y.map (Option.map JoinedTable.keyed) →
        next x = next y) ∧
      ∀ x, (next x).IgnoresNames

/-- What a hook is told when a path was joined. -/
def answer (joined : Except Error (Option Joined)) : Except Error (Option JoinedTable) :=
  joined.map fun j? => j?.map Joined.table

theorem answer_eq_of_keyed {x y : Except Error (Option Joined)}
    (h : x.map (Option.map Joined.keyed) = y.map (Option.map Joined.keyed)) :
    (answer x).map (Option.map JoinedTable.keyed) =
      (answer y).map (Option.map JoinedTable.keyed) := by
  have hanswer : ∀ x : Except Error (Option Joined),
      (answer x).map (Option.map JoinedTable.keyed) =
        answer (x.map (Option.map Joined.keyed)) := by
    intro x
    cases x with
    | error err => rfl
    | ok j? => cases j? <;> rfl
  rw [hanswer, hanswer, h]

/-- **A hook that does not look at the names of modes ends in the same way and asks for the same
joins**, whatever these names are. -/
theorem run_of_keyed {c c' : Catalog} {root root' : Definition} {p : Joining α}
    (hp : p.IgnoresNames) (hc : c.keyed = c'.keyed) (hroot : root.keyed = root'.keyed)
    {js js' : Joins} (hjs : js.keyed = js'.keyed) :
    ((p.run c root).run.run js).1 = ((p.run c' root').run.run js').1 ∧
      ((p.run c root).run.run js).2.keyed = ((p.run c' root').run.run js').2.keyed := by
  induction p generalizing js js' with
  | done result =>
    rw [run, run, Work.run_of, Work.run_of]
    exact ⟨rfl, hjs⟩
  | ask path next ih =>
    -- the path leads to tables that differ in names of modes only, and the rest is the same
    have hleft := mirrors_leftJoin c root path js
    have hleft' := mirrors_leftJoin c' root' path js'
    rw [hc, hroot, hjs, hleft'] at hleft
    obtain ⟨hresult, hbehind⟩ := Prod.ext_iff.1 hleft
    have hnext := hp.1 (answer ((leftJoin c root path).run.run js).1)
      (answer ((leftJoin c' root' path).run.run js').1) (answer_eq_of_keyed hresult.symm)
    have hrun : (run c root (.ask path next)).run.run js =
        ((next (answer ((leftJoin c root path).run.run js).1)).run c root).run.run
          ((leftJoin c root path).run.run js).2 := rfl
    rw [hrun, hnext]
    exact ih _ (hp.2 _) hbehind.symm

end Joining
end RequestPlan
