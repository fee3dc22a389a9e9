import RequestPlan.Proofs.Columns.Qualified
import RequestPlan.Proofs.Joins.Steps
import RequestPlan.Proofs.Planner.Calls
import RequestPlan.Proofs.Sorting.Steps

/-!
# Columns of joins and orderings

* `Join.InOrder`: each join compares a column of its own table with one of a table that is there
  before it.
* `Joins.Within`: the joins come in this way, and what is joined under a path, and what orderings
  speak of, is there.
* `triple_leftJoin`, `triple_sort`: **without hooks, whatever paths and tokens are asked for, the
  joins stay so**, and the orderings speak of tables that are there.
-/

namespace RequestPlan

/-- A join compares a column of its own with one of a table that is there already. -/
structure Join.Over (seen : List String) (j : Join) : Prop where
  left : Qualified j.aliasName j.left
  right : ∃ q ∈ seen, Qualified q j.right

/-- Each join compares a column of its own with one of the root table or of a join before it. -/
def Join.InOrder (table : String) (clauses : List Join) : Prop :=
  ∀ before j after, clauses = before ++ j :: after → j.Over (table :: before.map Join.aliasName)

theorem Join.InOrder.concat {table : String} {clauses : List Join} {j : Join}
    (h : InOrder table clauses) (hj : j.Over (table :: clauses.map Join.aliasName)) :
    InOrder table (clauses ++ [j]) := by
  intro before j' after heq
  rcases List.eq_nil_or_concat after with rfl | ⟨after', j'', rfl⟩
  · obtain ⟨rfl, hlast⟩ := List.append_inj' heq rfl
    cases hlast
    exact hj
  · have hassoc : clauses ++ [j] = (before ++ j' :: after') ++ [j''] := by simpa using heq
    exact h before j' after' (List.append_inj' hassoc rfl).1

namespace Joins

/-- The names under which columns can be spoken of: the root table and the aliases so far. -/
def seen (root : Definition) (js : Joins) : List String :=
  root.table :: js.clauses.map Join.aliasName

/-- The joins are in order, every path is joined to an alias of theirs, and orderings speak of
nothing else. -/
structure Within (c : Catalog) (root : Definition) (os : List Order) (js : Joins) : Prop where
  clauses : Join.InOrder root.table js.clauses
  memo : ∀ path j, js.find? path = some j →
    j.aliasName ∈ js.seen root ∧ ∃ name, c.find? name = some j.definition
  orders : ∀ o ∈ os, ∃ q ∈ js.seen root, Qualified q o.column

variable {c : Catalog} {root d next : Definition} {os : List Order} {js : Joins}
  {path segment prior aliasName : String} {clause : Join}

theorem within_none : Within c root [] .none where
  clauses := fun before j after h => by cases before <;> cases h
  memo := fun _ _ h => by cases h
  orders := fun _ h => absurd h List.not_mem_nil

theorem mem_seen_add {q : String} (h : q ∈ js.seen root) :
    q ∈ (js.add path clause d).seen root := by
  rw [seen, add, List.map_append, ← List.cons_append]
  exact List.mem_append_left _ h

theorem aliasName_mem_seen_add : clause.aliasName ∈ (js.add path clause d).seen root := by
  rw [seen, add, List.map_append, ← List.cons_append]
  exact List.mem_append_right _ (List.mem_singleton_self _)

theorem Within.add (h : js.Within c root os) (hclause : clause.Over (js.seen root))
    (hd : ∃ name, c.find? name = some d) : (js.add path clause d).Within c root os := by
  refine ⟨h.clauses.concat hclause, fun path' j hj => ?_, fun o ho => ?_⟩
  · rw [find?, Joins.add, Dict.find?_put] at hj
    split at hj
    · cases hj
      exact ⟨aliasName_mem_seen_add, hd⟩
    · obtain ⟨hseen, hj⟩ := h.memo path' j hj
      exact ⟨mem_seen_add hseen, hj⟩
  · obtain ⟨q, hq, hcolumn⟩ := h.orders o ho
    exact ⟨q, mem_seen_add hq, hcolumn⟩

theorem Within.order (h : js.Within c root os) {new : List Order}
    (hnew : ∀ o ∈ new, ∃ q ∈ js.seen root, Qualified q o.column) :
    js.Within c root (os ++ new) := by
  refine ⟨h.clauses, h.memo, fun o ho => ?_⟩
  rcases List.mem_append.1 ho with ho | ho
  · exact h.orders o ho
  · exact hnew o ho

theorem Within.of_append {more : List Order} (h : js.Within c root (os ++ more)) :
    js.Within c root os :=
  ⟨h.clauses, h.memo, fun o ho => h.orders o (List.mem_append_left more ho)⟩

/-! ## Joining paths -/

/-- Without hooks, a segment is joined by an owning relation. -/
theorem over_joinSegment (hc : c.Plain) (hd : ∃ name, c.find? name = some d)
    (hprior : prior ∈ js.seen root)
    (h : joinSegment c d segment prior aliasName = .ok (some (clause, next))) :
    clause.Over (js.seen root) ∧ ∃ name, c.find? name = some next := by
  obtain ⟨name, hfind⟩ := hd
  have hundotted : d.toEntity.Undotted := hc.undotted name d hfind
  have hhooks : d.hooks.joins = ∅ := by
    rw [hc.hooks name d hfind]
    rfl
  obtain ⟨r, hr, -, hrelated, rfl⟩ := exists_owning_of_joinSegment hhooks h
  have howner : '.' ∉ (r.ownerColumn next.toEntity).toList :=
    Relation.undotted_ownerColumn (hundotted.ownerKey segment r hr)
      (hc.undotted _ _ hrelated).key
  refine ⟨⟨⟨_, howner, rfl⟩, prior, hprior, _, hundotted.foreignKey segment r hr, rfl⟩, ?_⟩
  exact ⟨_, hrelated⟩

theorem steps_within (hc : c.Plain) : Steps c (Within c root os)
    fun js prior d => prior ∈ js.seen root ∧ ∃ name, c.find? name = some d where
  found hjs hfind := hjs.memo _ _ hfind
  add hjs hprior _ hnext := by
    obtain ⟨hover, hregistered⟩ := over_joinSegment hc hprior.2 hprior.1 hnext
    exact ⟨hjs.add hover hregistered, aliasName_mem_seen_add, hregistered⟩

/-- **Whatever path is joined, each join is behind those that it speaks of**, and the table at the
end of the path is one of them. -/
theorem triple_leftJoin (hc : c.Plain) (hd : ∃ name, c.find? name = some root) (path : String) :
    Work.Triple (fun js => js.Within c root os) (leftJoin c root path)
      (fun joined? js => js.Within c root os ∧ ∀ j, joined? = some j →
        j.aliasName ∈ js.seen root ∧ ∃ name, c.find? name = some j.definition)
      (fun js => js.Within c root os) :=
  (steps_within hc).triple_leftJoin (fun _ _ => ⟨List.mem_cons_self, hd⟩) path

end Joins

/-! ## Orderings -/

theorem dot_not_mem_of_isIdentifier {s : String} (h : isIdentifier s) : '.' ∉ s.toList := by
  unfold isIdentifier at h
  split at h
  · cases h
  · rename_i c cs hs
    rw [Bool.and_eq_true, List.all_eq_true] at h
    rw [hs]
    intro hdot
    rcases List.mem_cons.1 hdot with rfl | hdot
    · exact absurd h.1 (by decide)
    · exact absurd (h.2 '.' hdot) (by decide)

namespace Registry

open Joins (Within)
open SortM (With)

variable {c : Catalog} {root : Definition} {os : List Order} {t : Table} {scope : Scope}

/-- An ordering speaks of the root table, or of one that its path leads to. -/
theorem sorts_within (hc : c.Plain) (hroot : c.find? root.name = some root)
    (ht : Table.of root.toEntity .sortable = .ok t) :
    Sorts c root t (Within c root)
      fun js j => j.aliasName ∈ js.seen root ∧ ∃ name, c.find? name = some j.definition where
  path _ path := Joins.triple_leftJoin hc ⟨_, hroot⟩ path
  fewer hjs := hjs.of_append
  byAlias hjs hentry _ := by
    have hkey := (hc.undotted _ _ hroot).of_find? ht hentry
    refine hjs.order fun o ho => ?_
    cases List.mem_singleton.1 ho
    exact ⟨root.table, List.mem_cons_self, Entity.qualified_column hkey⟩
  byName hjs hj hname _ := by
    refine hjs.order fun o ho => ?_
    cases List.mem_singleton.1 ho
    exact ⟨_, hj.1, _, dot_not_mem_of_isIdentifier hname, rfl⟩

/-- **Whatever tokens are asked for, their orderings speak of tables that are there.** -/
theorem triple_sort (hc : c.Plain) (hroot : c.find? root.name = some root) (tokens : List String) :
    Work.Triple (With c (Within c root os)) (sort root tokens scope)
      (fun orders => With c (Within c root (os ++ orders))) (With c (Within c root os)) := by
  have hhooks : root.hooks.sorts = ∅ := by
    rw [hc.hooks _ _ hroot]
    rfl
  refine Sorts.triple_sort (fun t ht => sorts_within hc hroot ?_) hhooks os tokens scope
  rwa [Catalog.table_of_get (Catalog.get_eq_ok_iff.2 hroot)] at ht

end Registry
end RequestPlan
