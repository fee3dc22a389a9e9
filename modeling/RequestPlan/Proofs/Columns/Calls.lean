import RequestPlan.Proofs.Columns.Filters
import RequestPlan.Proofs.Columns.Joins

/-!
# Columns that calls of a planner bring

* `Planner.Scoped`: the filters of a planner are over the table of its entity, its joins are in
  order, and its orderings speak of tables that are there.
* `scoped_after`: **this holds behind any calls**, when the catalog is plain.
-/

namespace RequestPlan.Planner

open Joins (Within)
open SortM (With)

/-- The filters of a planner are over its table, its joins are in order, and its orderings speak of
tables that are there. -/
structure Scoped (c : Catalog) (d : Definition) (s : Registry × Planner) : Prop where
  registry : s.1.Of c
  entity : s.2.entity = d
  filters : ∀ p ∈ s.2.filters, p.Over d.table
  joins : s.2.joins.Within c d s.2.orders

variable {c : Catalog} {d : Definition} {α : Type}

theorem triple_ofRegistry {m : RegistryM α} {x : Except Error α} (h : Registry.Answers c m x) :
    Work.Triple (Scoped c d) (PlannerM.ofRegistry m) (fun a s => Scoped c d s ∧ x = .ok a)
      (Scoped c d) :=
  h.triple.on (fun _ hs => hs.registry)
    (fun _ _ _ hs hr => ⟨⟨hr.1, hs.entity, hs.filters, hs.joins⟩, hr.2⟩)
    fun _ _ hs hr => ⟨hr, hs.entity, hs.filters, hs.joins⟩

/-- Work that may add joins brings orderings and a result. -/
theorem triple_ofSort {m : SortM α} (new : α → List Order) {Q : α → Prop}
    (h : ∀ os, Work.Triple (With c (Within c d os)) m
      (fun a s => With c (Within c d (os ++ new a)) s ∧ Q a) (With c (Within c d os))) :
    Work.Triple (Scoped c d) (PlannerM.ofSort m)
      (fun a s => Scoped c d s ∧ s.2.joins.Within c d (s.2.orders ++ new a) ∧ Q a)
      (Scoped c d) := by
  refine Work.triple_of_forall fun s hs => ?_
  refine (h s.2.orders).on ?_ ?_ ?_
  · rintro t rfl
    exact ⟨hs.registry, hs.joins⟩
  · rintro t a u rfl ⟨⟨hof, hwithin⟩, hQ⟩
    exact ⟨⟨hof, hs.entity, hs.filters, hwithin.of_append⟩, hwithin, hQ⟩
  · rintro t u rfl ⟨hof, hwithin⟩
    exact ⟨hof, hs.entity, hs.filters, hwithin⟩

/-- The planner is one for the entity. -/
theorem triple_current :
    Work.Triple (Scoped c d) current (fun p s => Scoped c d s ∧ p.entity = d) (Scoped c d) :=
  Work.triple_get_bind fun s hs => Work.triple_pure fun t ht => by
    subst ht
    exact ⟨hs, hs.entity⟩

/-- A change that leaves the filters, the joins and the orderings alone. -/
theorem scoped_update {f : Planner → Planner} (hentity : ∀ p, (f p).entity = p.entity)
    (hfilters : ∀ p, (f p).filters = p.filters)
    (hjoins : ∀ p, (f p).joins = p.joins ∧ (f p).orders = p.orders) :
    Work.Keeps (Scoped c d) (PlannerM.update f) := by
  refine Work.keeps_modify fun s hs => ⟨hs.registry, (hentity s.2).trans hs.entity, ?_, ?_⟩
  · rw [hfilters]
    exact hs.filters
  · rw [(hjoins s.2).1, (hjoins s.2).2]
    exact hs.joins

/-! ## Filters -/

/-- The predicates of a key are over the table of the entity. -/
theorem triple_branchPredicate (hnamed : c.Named) (hc : c.Plain) (hd : c.find? d.name = some d)
    (key : String) (v : Value) :
    Work.Triple (Scoped c d) (branchPredicate key v)
      (fun p? s => Scoped c d s ∧ ∀ p, p? = some p → p.Over d.table) (Scoped c d) := by
  refine triple_current.bind fun planner => Work.triple_and fun hentity => ?_
  rw [hentity]
  refine (triple_ofRegistry (Registry.answers_filter hnamed
    (FilterKey.divided_parse key))).bind fun f? => Work.triple_and fun hf => ?_
  cases f? with
  | none => exact Work.triple_pure fun s hs => ⟨hs, fun p hp => by cases hp⟩
  | some f =>
    have hover : f.Over d.table := Catalog.over_filter hnamed hc hd hf
    have happly : ∀ os, Work.Triple (With c (Within c d os))
        (SortM.ofJoins fun c => f.apply c d planner.settings v)
        (fun p? s => With c (Within c d (os ++ [])) s ∧ ∀ p, p? = some p → p.Over d.table)
        (With c (Within c d os)) := by
      intro os
      rw [List.append_nil]
      refine (SortM.triple_ofJoins (K := fun p? js => Within c d os js ∧
        ∀ p, p? = some p → p.Over d.table) ?_).imp ?_
      · rw [CompiledFilter.apply_eq hover.not_isHook]
        refine Work.triple_of (fun p? js hp? hjs => ⟨hjs, fun p hp => ?_⟩) fun _ h => h
        rw [hp] at hp?
        exact CompiledFilter.over_applyAlone hover hp?
      · exact fun p? s hs => ⟨⟨hs.1, hs.2.1⟩, hs.2.2⟩
    exact (triple_ofSort (fun _ => []) happly).imp fun _ _ h => ⟨h.1, h.2.2⟩

theorem scoped_filterKey (hnamed : c.Named) (hc : c.Plain) (hd : c.find? d.name = some d)
    (key : String) (v : Value) : Work.Keeps (Scoped c d) (filterKey key v) := by
  have hbranches : ∀ keys, Work.Triple (Scoped c d) (branchPredicates v keys)
      (fun ps s => Scoped c d s ∧ ∀ p ∈ ps, p.Over d.table) (Scoped c d) := by
    intro keys
    induction keys with
    | nil => exact Work.triple_pure fun s hs => ⟨hs, fun p hp => absurd hp List.not_mem_nil⟩
    | cons key keys ih =>
      refine (triple_branchPredicate hnamed hc hd key v).bind fun p? => ?_
      refine Work.triple_and fun hp? => ih.bind fun ps => Work.triple_pure fun s hs => ?_
      refine ⟨hs.1, fun p hp => ?_⟩
      rcases List.mem_append.1 hp with hp | hp
      · exact hp? p (Option.mem_toList.1 hp)
      · exact hs.2 p hp
  refine Work.Triple.keeps ?_
  unfold filterKey
  split
  · exact Work.triple_pure fun _ h => h
  · refine (hbranches _).bind fun ps => Work.triple_and fun hps => ?_
    split
    · exact Work.triple_pure fun _ h => h
    · rename_i p hp
      refine Work.triple_modify fun s hs => ⟨hs.registry, hs.entity, fun q hq => ?_, hs.joins⟩
      rcases List.mem_append.1 hq with hq | hq
      · exact hs.filters q hq
      · cases List.mem_singleton.1 hq
        exact Predicate.over_any? hps hp

/-! ## All calls -/

theorem scoped_join (hc : c.Plain) (hd : c.find? d.name = some d) (path : String) :
    Work.Keeps (Scoped c d) (join path) := by
  refine Work.Triple.keeps (triple_current.bind fun planner => Work.triple_and fun hentity => ?_)
  rw [hentity]
  have hjoin : ∀ os, Work.Triple (With c (Within c d os))
      (SortM.ofJoins fun c => leftJoin c d path)
      (fun _ s => With c (Within c d (os ++ [])) s ∧ True) (With c (Within c d os)) := by
    intro os
    rw [List.append_nil]
    exact (SortM.triple_ofJoins (Joins.triple_leftJoin hc ⟨_, hd⟩ path)).imp
      fun _ s hs => ⟨⟨hs.1, hs.2.1⟩, trivial⟩
  exact (triple_ofSort (fun _ => []) hjoin).imp fun _ _ h => h.1

theorem scoped_sortScoped (hc : c.Plain) (hd : c.find? d.name = some d) (tokens : List String)
    (scope : Scope) : Work.Keeps (Scoped c d) (sortScoped tokens scope) := by
  refine Work.Triple.keeps (triple_current.bind fun planner => Work.triple_and fun hentity => ?_)
  rw [hentity]
  split
  · exact Work.triple_pure fun _ h => h
  · have hsort : ∀ tokens os, Work.Triple (With c (Within c d os)) (Registry.sort d tokens scope)
        (fun orders s => With c (Within c d (os ++ id orders)) s ∧ True)
        (With c (Within c d os)) := fun tokens os =>
      (Registry.triple_sort hc hd tokens).imp fun _ _ h => ⟨h, trivial⟩
    refine (triple_ofSort id (hsort _)).bind fun orders => Work.triple_modify fun s hs => ?_
    exact ⟨hs.1.registry, hs.1.entity, hs.1.filters, hs.2.1⟩

/-- **Every kind of work leaves the columns of a planner in their places.** -/
theorem kept_scoped (hnamed : c.Named) (hc : c.Plain) (hd : c.find? d.name = some d) :
    Kept (Scoped c d) where
  table _ _ := ((triple_ofRegistry (Registry.answers_table rfl)).imp fun _ _ h => h.1).keeps
  filterKey := scoped_filterKey hnamed hc hd
  selectScoped _ _ := keeps_current.bind fun _ =>
    ((triple_ofRegistry (Registry.answers_select _ _ _ _)).imp fun _ _ h => h.1).keeps.bind
      fun _ => scoped_update (fun _ => rfl) (fun _ => rfl) fun _ => ⟨rfl, rfl⟩
  unselect _ := (Work.keeps_of _).bind fun _ =>
    scoped_update (fun _ => rfl) (fun _ => rfl) fun _ => ⟨rfl, rfl⟩
  sortScoped := scoped_sortScoped hc hd
  join := scoped_join hc hd
  update _ h := scoped_update (fun p => (h p).entity) (fun p => (h p).filters) fun p =>
    ⟨(h p).joins, (h p).orders⟩

/-- **Behind any calls, the columns of a planner are in their places.** -/
theorem scoped_after {r : Registry} (hs : r.Sound) (hc : r.catalog.Plain)
    (hd : r.catalog.find? d.name = some d) (settings : Settings) (calls : List Call) :
    Scoped r.catalog d (after (r, start d settings) calls) := by
  refine (kept_scoped hs.named hc hd).after ⟨⟨rfl, hs⟩, rfl, ?_, Joins.within_none⟩ calls
  exact fun _ hp => absurd hp List.not_mem_nil

end RequestPlan.Planner
