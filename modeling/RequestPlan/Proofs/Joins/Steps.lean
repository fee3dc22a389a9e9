import RequestPlan.Joins
import RequestPlan.Proofs.Catalog
import RequestPlan.Proofs.Work

/-!
# Steps of joins

* `owning_of_joinSegment`: a segment that is a relation is joined when the relation is owning, and
  `exists_owning_of_joinSegment`: without hooks for joins, every segment that is joined is one.
* `Joins.Steps`: a property of joins that each new one keeps, along tables of a kind;
  `Steps.triple_leftJoin`: **it holds behind a path**, whether the path can be joined or not.
* `keeps_leftJoin_clause`, `triple_leftJoin_find?`: joins stay, and what a path leads to is known by
  the path.
* `Joining.keeps_run`: what the joins of paths keep is kept by hooks, which do nothing else.
-/

namespace RequestPlan

/-- A segment that is a relation is joined when the relation is owning, to its related entity. -/
theorem owning_of_joinSegment {c : Catalog} {d next : Definition} {clause : Join}
    {segment prior aliasName : String} {r : Relation} (hr : d.relation? segment = some r)
    (h : joinSegment c d segment prior aliasName = .ok (some (clause, next))) :
    r.kind = .owning ∧ c.find? r.related = some next ∧
      clause = ⟨next.table, aliasName, aliasName ++ "." ++ r.ownerColumn next.toEntity,
        prior ++ "." ++ r.foreignKey⟩ := by
  rw [joinSegment, hr] at h
  dsimp only at h
  split at h
  · rename_i hkind
    obtain ⟨related, hget, h⟩ := Outcome.bind_eq_ok.1 h
    have hrelated : c.find? r.related = some related := Catalog.get_eq_ok_iff.1 hget
    cases h
    exact ⟨hkind, hrelated, rfl⟩
  · cases h

/-- Without hooks for joins, a segment is joined by an owning relation to a registered entity. -/
theorem exists_owning_of_joinSegment {c : Catalog} {d next : Definition} {clause : Join}
    {segment prior aliasName : String} (hhooks : d.hooks.joins = ∅)
    (h : joinSegment c d segment prior aliasName = .ok (some (clause, next))) :
    ∃ r, d.relation? segment = some r ∧ r.kind = .owning ∧ c.find? r.related = some next ∧
      clause = ⟨next.table, aliasName, aliasName ++ "." ++ r.ownerColumn next.toEntity,
        prior ++ "." ++ r.foreignKey⟩ := by
  cases hr : d.relation? segment with
  | some r => exact ⟨r, rfl, owning_of_joinSegment hr h⟩
  | none =>
    rw [joinSegment, hr, hhooks] at h
    cases h

namespace Joins

/-- A property `J` of joins that a new one keeps, when it goes on from a table for which `T` holds.
It holds then for the table that the join leads to, and for all that are joined already. -/
structure Steps (c : Catalog) (J : Joins → Prop) (T : Joins → String → Definition → Prop) :
    Prop where
  found : ∀ {js path j}, J js → js.find? path = some j → T js j.aliasName j.definition
  add : ∀ {js start prior d segment clause next}, J js → T js prior d → js.find? start = .none →
    joinSegment c d segment prior (prior ++ "_" ++ segment ++ "_join") =
      .ok (some (clause, next)) →
    J (js.add start clause next) ∧ T (js.add start clause next) clause.aliasName next

variable {c : Catalog} {root d : Definition} {J : Joins → Prop}
  {T : Joins → String → Definition → Prop} {prior : String}

theorem Steps.triple_joinSegments (h : Steps c J T) (path : String) (segments : List String)
    {stop : Nat} :
    Work.Triple (fun js => J js ∧ T js prior d) (joinSegments c path prior d stop segments)
      (fun _ => J) J := by
  -- `T` holds of the table that the rest of the segments goes on from
  induction segments generalizing prior d stop with
  | nil => exact Work.triple_pure fun _ hjs => hjs.1
  | cons segment rest ih =>
    rw [joinSegments]
    refine Work.triple_get_bind fun js hjs => ?_
    obtain ⟨hjs, hprior⟩ := hjs
    cases hfind : js.find? (pathStart path (segmentEnd stop segment)) with
    | some joined => exact ih.start fun t ht => ht ▸ ⟨hjs, h.found hjs hfind⟩
    | none =>
      dsimp only
      rw [Work.lift_eq_of]
      refine Work.Triple.bind (Q := fun next? t => t = js ∧ joinSegment c d segment prior
        (prior ++ "_" ++ segment ++ "_join") = .ok next?) ?_ fun next? => ?_
      · exact Work.triple_of (fun next? t hnext ht => ⟨ht, hnext⟩) fun t ht => ht ▸ hjs
      · cases next? with
        | none => exact Work.triple_pure fun t ht => ht.1 ▸ hjs
        | some next =>
          obtain ⟨clause, next⟩ := next
          refine Work.triple_of_forall fun t ht => ?_
          obtain ⟨rfl, hnext⟩ := ht
          have hadd := h.add hjs hprior hfind hnext
          exact Work.Triple.bind (Work.triple_modify fun u hu => hu ▸ hadd) fun _ => ih

/-- **What each new join keeps holds behind a path**, whether it can be joined or not. -/
theorem Steps.triple_leftJoin (h : Steps c J T) (hroot : ∀ js, J js → T js root.table root)
    (path : String) :
    Work.Triple J (leftJoin c root path)
      (fun joined? js => J js ∧ ∀ j, joined? = some j → T js j.aliasName j.definition) J := by
  refine Work.triple_get_bind fun js hjs => ?_
  cases hfind : js.find? path with
  | some joined =>
    refine Work.triple_pure fun t ht => ?_
    subst ht
    refine ⟨hjs, fun j hj => ?_⟩
    cases hj
    exact h.found hjs hfind
  | none =>
    have hstart : ∀ t, t = js → J t ∧ T t root.table root := by
      rintro t rfl
      exact ⟨hjs, hroot t hjs⟩
    refine ((h.triple_joinSegments path _).start hstart).bind fun joined => ?_
    split
    · refine Work.triple_get_bind fun t ht => Work.triple_pure fun u hu => ?_
      subst hu
      exact ⟨ht, fun j hj => h.found ht hj⟩
    · exact Work.triple_pure fun t ht => ⟨ht, fun j hj => by cases hj⟩

theorem Steps.keeps_leftJoin (h : Steps c J T) (hroot : ∀ js, J js → T js root.table root)
    (path : String) : Work.Keeps J (leftJoin c root path) :=
  ((h.triple_leftJoin hroot path).imp fun _ _ hjs => hjs.1).keeps

/-- What the segments of a path keep is kept by the path. -/
theorem keeps_leftJoin_of_segments {path : String}
    (h : Work.Keeps J (joinSegments c path root.table root 0 (Text.splitOn '.' path))) :
    Work.Keeps J (leftJoin c root path) := by
  refine Work.keeps_get.bind fun js => ?_
  split
  · exact Work.keeps_pure _
  · refine h.bind fun found => ?_
    split
    · exact Work.keeps_get.bind fun _ => Work.keeps_pure _
    · exact Work.keeps_pure _

/-- A join that is there stays there. -/
theorem keeps_leftJoin_clause (clause : Join) (path : String) :
    Work.Keeps (fun js => clause ∈ js.clauses) (leftJoin c root path) := by
  have hsteps : Steps c (fun js => clause ∈ js.clauses) fun _ _ _ => True :=
    ⟨fun _ _ => trivial, fun hjs _ _ _ => ⟨List.mem_append_left _ hjs, trivial⟩⟩
  exact hsteps.keeps_leftJoin (fun _ _ => trivial) path

/-- The table that a path leads to is in the memo behind it. -/
theorem triple_leftJoin_find? (path : String) :
    Work.Triple (fun _ => True) (leftJoin c root path)
      (fun joined? js => ∀ j, joined? = some j → js.find? path = some j) fun _ => True := by
  refine Work.triple_get_bind fun js _ => ?_
  cases hfind : js.find? path with
  | some joined => exact Work.triple_pure fun t ht j hj => ht ▸ hfind.trans hj
  | none =>
    refine Work.Triple.bind (Q := fun _ _ => True) Work.triple_true fun found => ?_
    split
    · exact Work.triple_get_bind fun t _ => Work.triple_pure fun u hu j hj => hu ▸ hj
    · exact Work.triple_pure fun _ _ j hj => by cases hj

end Joins

/-- **What the joins of all paths keep is kept by a hook**, however many it asks for. -/
theorem Joining.keeps_run {α : Type} {c : Catalog} {root : Definition} {J : Joins → Prop}
    (h : ∀ path, Work.Keeps J (leftJoin c root path)) (m : Joining α) :
    Work.Keeps J (m.run c root) := by
  induction m with
  | done result => exact Work.keeps_of result
  | ask path next ih =>
    intro js hjs
    have hjoined : J ((leftJoin c root path).run.run js).2 := h path js hjs
    exact ih _ _ hjoined

end RequestPlan
